import ControlPlane.Proofs.Json.Texts
import ControlPlane.Proofs.Wire.Fields
import ControlPlane.Wire.Request

/-! Updates of ports that were written are read back with every field that they name, and without
those that they leave out. A profile that is null is written and yet taken for none. -/

namespace ControlPlane

open Document

namespace Json

/-- A value unless it is null. -/
def nonNull? : Json → Option Json
  | null => none
  | v => some v

theorem nonNull?_eq_some_iff {v : Json} : v.nonNull? = some v ↔ v ≠ null := by
  cases v <;> simp [nonNull?]

end Json

theorem optional_value (o : Option Json) (h : ∀ v ∈ o, v.Ordered) :
    Document.optional value? (o.map ofJson) = some (o.bind Json.nonNull?) := by
  cases o with
  | none => rfl
  | some v =>
    have hread := value?_ofJson (h v rfl)
    cases v with
    | null => rfl
    | _ => exact congrArg (Option.map some) hread

namespace PortUpdate

/-- The update without a profile that is null. -/
def dropNull (u : PortUpdate) : PortUpdate := { u with profile := u.profile.bind Json.nonNull? }

theorem bind_nonNull?_eq_iff {o : Option Json} : o.bind Json.nonNull? = o ↔ o ≠ some .null := by
  cases o with
  | none => simp
  | some v => simp [Json.nonNull?_eq_some_iff]

theorem dropNull_eq_iff {u : PortUpdate} : u.dropNull = u ↔ u.profile ≠ some .null := by
  rw [← bind_nonNull?_eq_iff]
  constructor
  · intro h
    exact congrArg profile h
  · intro h
    rw [dropNull, h]

/-- What is read of an update that was written. -/
theorem ofDocument?_toJson (u : PortUpdate) (hprofile : ∀ v ∈ u.profile, v.Ordered) :
    ofDocument? (.ofJson u.toJson) = some u.dropNull := by
  rw [ofDocument?, toJson, fields?_record]
  · simp only [Option.bind_eq_bind, Option.bind_some, List.map_cons, List.map_nil, optional_flag,
      optional_text, optional_fixedIps, optional_vnic, optional_value _ hprofile]
    rfl
  · rfl
  · decide

/-- What is read of an update is in order, and null is not read. -/
theorem ordered_of_ofDocument? {d : Document} {u : PortUpdate} (h : ofDocument? d = some u) :
    ∀ v ∈ u.profile, v.Ordered ∧ v ≠ .null := by
  have hvalue (d : Document) (v : Json) (hd : d ≠ .null) (hv : value? d = some v) :
      v.Ordered ∧ v ≠ .null := by
    refine ⟨ordered_of_value? hv, ?_⟩
    rintro rfl
    cases d with
    | null => exact hd rfl
    | array | object =>
      obtain ⟨_, _, h⟩ := Option.map_eq_some_iff.1 hv
      cases h
    | _ => cases hv
  unfold ofDocument? at h
  obtain ⟨fields, -, h⟩ := Option.bind_eq_some_iff.1 h
  split at h
  · simp only [Option.bind_eq_bind, Option.bind_eq_some_iff, Option.pure_def, Option.some.injEq] at h
    obtain ⟨_, -, _, -, _, -, _, -, _, -, _, -, profile, hprofile, rfl⟩ := h
    exact of_optional hvalue hprofile
  · cases h

/-- An update that was read comes back, whatever it was read from. -/
theorem read_again {d : Document} {u : PortUpdate} (h : ofDocument? d = some u) :
    ofDocument? (.ofJson u.toJson) = some u := by
  have hread := ordered_of_ofDocument? h
  rw [ofDocument?_toJson u fun v hv => (hread v hv).1, Option.some.injEq, dropNull_eq_iff]
  exact fun hnull => (hread .null hnull).2 rfl

end PortUpdate

end ControlPlane
