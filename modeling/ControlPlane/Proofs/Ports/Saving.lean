import ControlPlane.Proofs.Ports.Rows

/-! What saving an update of a port makes of the store: the rows on hosts are brought in line, the
port is stored, and its binding is stored, each if there is a reason to. -/

namespace ControlPlane

/-- Rows on hosts are brought in line with a primary binding if that is `needed`. -/
inductive Port.Aligning (aligns : Ports → Prop) (needed : Bool) (store : Ports) : Ports → Prop
  | kept (h : needed = false) : Aligning aligns needed store store
  | aligned {after : Ports} (h : needed = true) (ha : aligns after) :
    Aligning aligns needed store after

/-- A port is left as it is, or stored as it was updated, at some time. -/
inductive Port.Storing (former updated : Port) (store : Ports) : Port → Ports → Prop
  | same (h : updated = former) : Storing former updated store former store
  | stored (time : Timestamp) : Storing former updated store { updated with updatedAt := time }
      (store.savePort { updated with updatedAt := time })

/-- A binding is left as it is, or stored if it asks for something else. -/
inductive Binding.Storing (former updated : Binding) (store : Ports) : Binding → Ports → Prop
  | same (h : updated.sameInputs former = true) : Storing former updated store former store
  | stored {after : Ports} (h : updated.sameInputs former = false)
    (hsave : store.saveBinding updated = .ok after) : Storing former updated store updated after

/-- A port is not there, or it is saved with its binding. `aligns` says what can become of the rows
on hosts. -/
inductive Port.Saving (aligns : Binding → Ports → Prop) (store : Ports) (drivers : List String)
    (id : PortId) (network : Network) (update : PortUpdate) : Closing (Option Saved) → Ports → Prop
  | gone (hnone : store.ports.find? id = none) :
    Saving aligns store drivers id network update (.rollback none) store
  | saved {former port : Port} {formerBinding binding : Binding} {aligned tables after : Ports}
    {context : PortContext} {news : Bool} (hformer : store.ports.find? id = some former)
    (hbinding : store.bindings.find? id = some formerBinding)
    (haligned : Aligning (aligns (update.applyToBinding formerBinding))
      (!(update.applyToBinding formerBinding).sameInputs formerBinding &&
        (update.applyTo former).isDistributed) store aligned)
    (hport : Storing former (update.applyTo former) aligned port tables)
    (hsaved : Binding.Storing formerBinding (update.applyToBinding formerBinding) tables binding
      after)
    (hcontext : context.port = port) (hnetwork : context.network = network)
    (hasked : context.binding = update.applyToBinding formerBinding) :
    Saving aligns store drivers id network update
      (.review drivers context (some ⟨context, news⟩)) after

/-- A port that is there cannot be saved: it has no binding, or a row on a host or its binding is
refused. `misaligns` says what bringing rows in line may fail with. -/
inductive Port.Unsaved (aligns : Binding → Ports → Prop) (misaligns : Binding → Error → Prop)
    (store : Ports) (id : PortId) (update : PortUpdate) (error : Error) : Prop
  | bare {former : Port} (hformer : store.ports.find? id = some former)
    (hnone : store.bindings.find? id = none)
  | misaligned {formerBinding : Binding} (hbinding : store.bindings.find? id = some formerBinding)
    (h : misaligns (update.applyToBinding formerBinding) error)
  | refused {former port : Port} {formerBinding : Binding} {aligned tables : Ports}
    (hformer : store.ports.find? id = some former)
    (hbinding : store.bindings.find? id = some formerBinding)
    (haligned : Aligning (aligns (update.applyToBinding formerBinding))
      (!(update.applyToBinding formerBinding).sameInputs formerBinding &&
        (update.applyTo former).isDistributed) store aligned)
    (hport : Storing former (update.applyTo former) aligned port tables)
    (hsave : tables.saveBinding (update.applyToBinding formerBinding) = .error error)

variable {holds : Ports → Prop} {aligns : Ports → Binding → Ports → Prop}
  {misaligns : Ports → Binding → Error → Prop}

theorem Port.saveTx_ensures (drivers : List String) (id : PortId) (network : Network)
    (update : PortUpdate) (halign : ∀ store binding, (alignHosts binding).Ensures
      (fun tables _ => tables = store ∧ holds store) (fun _ tables _ => aligns store binding tables)
      (misaligns store binding)) (store : Ports) :
    (saveTx drivers id network update).Ensures (fun tables _ => tables = store ∧ holds store)
      (fun closing tables _ => holds store ∧
        Saving (aligns store) store drivers id network update closing tables)
      (Unsaved (aligns store) (misaligns store) store id update) := by
  refine Tx.ensures_from holds (fun seen closing tables _ => holds seen ∧
      Saving (aligns seen) seen drivers id network update closing tables)
    (fun seen => Unsaved (aligns seen) (misaligns seen) seen id update) (fun seen => ?_) store
  split
  · refine Tx.ensures_pure ?_
    rintro _ _ ⟨rfl, h⟩
    exact ⟨h, .gone ‹_›⟩
  rename_i former hformer
  split
  · rename_i hnone
    exact Tx.ensures_throw fun _ _ _ => .bare hformer hnone
  rename_i formerBinding hbinding
  extract_lets updated binding bindingChanged portChanged finish align
  let needed : Bool := bindingChanged && updated.isDistributed
  let post (closing : Closing (Option Saved)) (tables : Ports) (_ : Supply) : Prop :=
    holds seen ∧ Saving (aligns seen) seen drivers id network update closing tables
  let ready (tables : Ports) (_ : Supply) : Prop :=
    holds seen ∧ Aligning (aligns seen binding) needed seen tables
  let stored (port : Port) (tables : Ports) (_ : Supply) : Prop := holds seen ∧ ∃ aligned,
    Aligning (aligns seen binding) needed seen aligned ∧ Storing former updated aligned port tables
  let unsaved : Error → Prop := Unsaved (aligns seen) (misaligns seen) seen id update
  -- From the end of the transaction to its start: the binding, the port, the rows on hosts.
  have hfinish (port : Port) : (finish port).Ensures (stored port) post unsaved := by
    unfold finish
    extract_lets context close
    split
    · rename_i hchanged
      refine Tx.ensures_change_bind ?_ (Tx.ensures_pure ?_)
      · rintro tables _ error ⟨h, aligned, haligned, hport⟩ hsave
        exact .refused hformer hbinding haligned hport hsave
      rintro after _ ⟨tables, ⟨h, aligned, haligned, hport⟩, hsave⟩
      refine ⟨h, .saved hformer hbinding haligned hport (.stored ?_ hsave) rfl rfl rfl⟩
      simpa [bindingChanged] using hchanged
    · rename_i hsame
      refine Tx.ensures_pure ?_
      rintro tables _ ⟨h, aligned, haligned, hport⟩
      refine ⟨h, .saved hformer hbinding haligned hport (.same ?_) rfl rfl rfl⟩
      simpa [bindingChanged] using hsame
  have hstore (u : Unit) : (align u).Ensures ready post unsaved := by
    unfold align
    split
    · have htime : (Tx.time : Tx Ports Timestamp).Ensures ready (fun _ => ready) unsaved :=
        Tx.ensures_time fun _ _ h => h
      refine htime.bind fun time => ?_
      extract_lets port
      refine (Tx.ensures_modify ?_).bind fun _ => hfinish port
      rintro tables _ ⟨h, haligned⟩
      exact ⟨h, tables, haligned, .stored time⟩
    · rename_i hsame
      have heq : updated = former := by simpa [portChanged] using hsame
      rw [heq]
      refine (hfinish former).of_pre ?_
      rintro tables _ _ ⟨h, haligned⟩
      exact ⟨h, tables, haligned, .same heq⟩
  split
  · rename_i hneeded
    have haligned := (halign seen binding).frame (fun _ => holds seen) fun _ _ _ h => h
    refine (haligned.weaken ?_ ?_ fun _ => .misaligned hbinding).bind hstore
    · rintro _ _ _ ⟨rfl, h⟩
      exact ⟨h, rfl, h⟩
    · rintro _ tables _ _ ⟨h, ha⟩
      exact ⟨h, .aligned hneeded ha⟩
  · rename_i hneeded
    refine (hstore ()).of_pre ?_
    rintro _ _ _ ⟨rfl, h⟩
    exact ⟨h, .kept (Bool.eq_false_iff.2 hneeded)⟩

end ControlPlane
