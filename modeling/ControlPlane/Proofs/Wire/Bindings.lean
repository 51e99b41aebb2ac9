import ControlPlane.Proofs.Json.Texts
import ControlPlane.Proofs.Wire.Fields

/-! Bindings that were written are read back with all their inputs and their result. Only the kind of
interface of a bound port may be taken for a state, where a driver gave it the name of one. -/

namespace ControlPlane

open Document

namespace VifType

/-- The names that are read as states. -/
def stateNames : List String := [unbound.name, bindingFailed.name, distributed.name]

/-- A bound port whose kind of interface has the name of a state. -/
def Shadowed (vif : VifType) : Prop := ∃ kind ∈ stateNames, vif = bound kind

theorem ofName_eq_bound_iff {s : String} : ofName s = bound s ↔ s ∉ stateNames := by
  unfold ofName
  split_ifs <;> simp_all [stateNames, name]

theorem ofName_name_iff (vif : VifType) : ofName vif.name = vif ↔ ¬ vif.Shadowed := by
  cases vif with
  | bound kind => simp [Shadowed, name, ofName_eq_bound_iff]
  | _ => simp [Shadowed, ofName, name]

theorem shadowed_bound_iff {kind : String} : (bound kind).Shadowed ↔ kind ∈ stateNames := by
  simp [Shadowed]

/-- What is read of a name is never taken for a state by mistake. -/
theorem not_shadowed_ofName (s : String) : ¬ (ofName s).Shadowed := by
  rintro ⟨kind, hkind, h⟩
  obtain rfl : s = kind := by
    unfold ofName at h
    split_ifs at h
    exact bound.inj h
  exact ofName_eq_bound_iff.1 h hkind

theorem not_shadowed_of_ofDocument? {d : Document} {vif : VifType} (h : ofDocument? d = some vif) :
    ¬ vif.Shadowed := by
  obtain ⟨s, -, hs⟩ := Option.bind_eq_some_iff.1 h
  cases hs
  exact not_shadowed_ofName s

theorem ofDocument?_toJson (vif : VifType) :
    ofDocument? (.ofJson vif.toJson) = some (ofName vif.name) := rfl

end VifType

theorem BindResult.ordered_of_ofDocument? {d : Document} {result : BindResult}
    (h : ofDocument? d = some result) : (Json.object result.details).Ordered := by
  unfold ofDocument? at h
  obtain ⟨fields, -, h⟩ := Option.bind_eq_some_iff.1 h
  split at h
  · simp only [Option.bind_eq_bind, Option.bind_eq_some_iff, Option.pure_def, Option.some.injEq] at h
    obtain ⟨_, -, _, -, details, hdetails, _, -, rfl⟩ := h
    exact ordered_of_defaulted_details? hdetails
  · cases h

namespace Binding

theorem details?_ofJson {details : List (String × Json)} (h : (Json.object details).Ordered) :
    details? (ofJson (.object details)) = some details := by
  rw [details?, value?_ofJson h]

/-- What is read of a binding that was written. -/
theorem ofDocument?_toJson (b : Binding) (hprofile : b.profile.Ordered)
    (hdetails : (Json.object b.details).Ordered) :
    ofDocument? (.ofJson b.toJson) = some { b with vif := .ofName b.vif.name } := by
  rw [ofDocument?, toJson, members, fields?_record]
  · simp only [Option.bind_eq_bind, Option.bind_some, List.map_cons, List.map_nil, Option.map_some,
      required, defaulted, optional_text, optional_ident, b.port.ofDocument?_toJson,
      b.vnic.ofDocument?_toJson, b.vif.ofDocument?_toJson, value?_ofJson hprofile,
      details?_ofJson hdetails]
    rfl
  · rfl
  · decide

/-- What the binder stores: inputs with a state for a result, or with what a driver decided. -/
inductive Stored : Binding → Prop
  | state (inputs : Binding) (vif : VifType) (h : ∀ kind, vif ≠ .bound kind) :
    Stored { inputs.reset with vif := vif }
  | decided (context : PortContext) (driver : String) (result : BindResult) :
    Stored (context.bind driver result).binding

theorem eq_some_iff (b : Binding) (hprofile : b.profile.Ordered)
    (hdetails : (Json.object b.details).Ordered) :
    ofDocument? (.ofJson b.toJson) = some b ↔ ¬ b.vif.Shadowed := by
  rw [ofDocument?_toJson b hprofile hdetails, ← VifType.ofName_name_iff]
  constructor
  · intro h
    exact congrArg Binding.vif (Option.some.inj h)
  · intro h
    rw [h]

/-- What is read of a binding is in order, and its kind of interface is not that of a state. -/
theorem ordered_of_ofDocument? {d : Document} {b : Binding} (h : ofDocument? d = some b) :
    b.profile.Ordered ∧ (Json.object b.details).Ordered ∧ ¬ b.vif.Shadowed := by
  unfold ofDocument? at h
  obtain ⟨fields, -, h⟩ := Option.bind_eq_some_iff.1 h
  split at h
  · simp only [Option.bind_eq_bind, Option.bind_eq_some_iff, Option.pure_def, Option.some.injEq] at h
    obtain ⟨_, -, _, -, _, -, profile, hprofile, vif, hvif, details, hdetails, _, -, _, -, rfl⟩ := h
    have hstate : ¬ VifType.unbound.Shadowed := VifType.not_shadowed_ofName "unbound"
    have hkind : ¬ vif.Shadowed := of_defaulted (P := fun vif => ¬ vif.Shadowed) hstate
      (fun _ _ => VifType.not_shadowed_of_ofDocument?) hvif
    exact ⟨of_defaulted .null (fun _ _ => ordered_of_value?) hprofile,
      ordered_of_defaulted_details? hdetails, hkind⟩
  · cases h

/-- A binding that was read comes back, whatever it was read from. -/
theorem read_again {d : Document} {b : Binding} (h : ofDocument? d = some b) :
    ofDocument? (.ofJson b.toJson) = some b := by
  obtain ⟨hprofile, hdetails, hvif⟩ := ordered_of_ofDocument? h
  exact (eq_some_iff b hprofile hdetails).2 hvif

/-- What a driver has decided of a binding that was read comes back, unless the driver called its kind
of interface as a state is called. -/
theorem decided_iff {d d' : Document} {context : PortContext} {driver : String} {result : BindResult}
    (h : ofDocument? d = some context.binding) (hresult : BindResult.ofDocument? d' = some result) :
    ofDocument? (.ofJson (context.bind driver result).binding.toJson) =
      some (context.bind driver result).binding ↔ result.vifType ∉ VifType.stateNames := by
  have hprofile := (ordered_of_ofDocument? h).1
  have hdetails := BindResult.ordered_of_ofDocument? hresult
  rw [eq_some_iff (context.bind driver result).binding hprofile hdetails]
  exact not_congr VifType.shadowed_bound_iff

end Binding

end ControlPlane
