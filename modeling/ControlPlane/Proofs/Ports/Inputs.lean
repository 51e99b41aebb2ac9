import ControlPlane.Proofs.History
import ControlPlane.Proofs.Ports.Upkeep

/-! What transactions are asked to set of a port and of its primary binding. They write whole rows,
and a row that they write has what they were asked for, and else what it had before. -/

namespace ControlPlane

/-- What callers, agents and drivers can ask to set. -/
inductive Input
  | adminStateUp | deviceOwner | deviceId | status | host | vnic | profile

namespace Input

abbrev Value : Input → Type
  | adminStateUp => Bool
  | deviceOwner => String
  | deviceId => String
  | status => PortStatus
  | host => Option String
  | vnic => VnicType
  | profile => Json

def read (port : Port) (binding : Binding) : (input : Input) → input.Value
  | adminStateUp => port.adminStateUp
  | deviceOwner => port.deviceOwner
  | deviceId => port.deviceId
  | status => port.status
  | host => binding.host
  | vnic => binding.vnic
  | profile => binding.profile

/-- Profiles are the same when they agree. -/
def Same : (input : Input) → input.Value → input.Value → Prop
  | profile, a, b => Json.agrees a b = true
  | adminStateUp, a, b | deviceOwner, a, b | deviceId, a, b | status, a, b | host, a, b
  | vnic, a, b => a = b

theorem same_refl (input : Input) (value : input.Value) : input.Same value value := by
  cases input with
  | profile => exact Json.agrees_refl value
  | _ => rfl

end Input

/-- What a transaction is asked to set, and to what. -/
abbrev Demand : Type := (input : Input) → Option input.Value

namespace Demand

def nothing : Demand := fun _ => none

def ofStatus (status : Option PortStatus) : Demand
  | .status => status
  | .adminStateUp | .deviceOwner | .deviceId | .host | .vnic | .profile => none

theorem ofStatus_none : ofStatus none = nothing := by
  funext input
  cases input <;> rfl

end Demand

/-- A new port is down, and all else is as it was asked for. -/
def PortRequest.demand (request : PortRequest) : Demand
  | .adminStateUp => request.adminStateUp
  | .deviceOwner => request.deviceOwner
  | .deviceId => request.deviceId
  | .status => PortStatus.down
  | .host => some (request.host.filter (· ≠ ""))
  | .vnic => request.vnic
  | .profile => request.profile

/-- An empty host is none. -/
def PortUpdate.demand (update : PortUpdate) : Demand
  | .adminStateUp => update.adminStateUp
  | .deviceOwner => update.deviceOwner
  | .deviceId => update.deviceId
  | .status => none
  | .host => update.host.map fun host => (some host).filter (· ≠ "")
  | .vnic => update.vnic
  | .profile => update.profile

def Entry.input? (entry : Entry) (input : Input) : Option input.Value := do
  return input.read (← entry.port) (← entry.primary)

/-- What a port has after a transaction is what was asked for, or what it had before. -/
def Demand.Met (demand : Demand) (before after : Entry) : Prop :=
  ∀ input value, after.input? input = some value →
    match demand input with
    | some asked => input.Same value asked
    | none => before.input? input = some value

/-- A transaction writes the rows of one port at most. Its answer tells what it was asked to set. -/
def Tx.Meets {α : Type} (id : PortId) (demand : α → Demand) (tx : Tx Ports (Closing α)) : Prop :=
  ∀ store, tx.Ensures (fun tables _ => tables = store ∧ store.Keyed)
    (fun closing tables _ => (∃ entry, store.With id entry tables ∧
        (demand closing.answer).Met (store.entry id) entry) ∧
      ∀ a, closing = .rollback a → demand a = .nothing)
    fun _ => True

/-- A transaction that failed was asked for nothing. -/
def Demand.told {α : Type} (demand : α → Demand) : Except Error α → Demand
  | .ok a => demand a
  | .error _ => nothing

variable {demand : Demand} {store tables : Ports} {id : PortId} {entry : Entry}
  {former port : Port} {primary binding : Binding} {update : PortUpdate} {request : PortRequest}
  {hosts : String → Option Binding} {input : Input} {value : input.Value}

theorem Entry.input?_eq_some : entry.input? input = some value ↔
    ∃ port primary, entry.port = some port ∧ entry.primary = some primary ∧
      input.read port primary = value := by
  constructor
  · intro h
    obtain ⟨port, hport, h⟩ := Option.bind_eq_some_iff.1 h
    obtain ⟨primary, hprimary, h⟩ := Option.bind_eq_some_iff.1 h
    exact ⟨port, primary, hport, hprimary, Option.some.inj h⟩
  · rintro ⟨port, primary, hport, hprimary, rfl⟩
    simp [input?, hport, hprimary]

namespace Demand

theorem met_refl (entry : Entry) : nothing.Met entry entry := fun _ _ h => h

theorem met_absent : demand.Met entry .absent := by
  intro input value h
  cases h

/-- It is enough to compare the port and the primary binding that are stored. -/
theorem met_of_stored
    (h : ∀ input, match demand input with
      | some asked => input.Same (input.read port binding) asked
      | none => entry.input? input = some (input.read port binding)) :
    demand.Met entry ⟨some port, some binding, hosts⟩ := by
  intro input value hvalue
  obtain ⟨_, _, hp, hb, rfl⟩ := Entry.input?_eq_some.1 hvalue
  cases hp
  cases hb
  exact h input

end Demand

theorem PortRequest.demand_eq (h : request.Describes port binding) (input : Input) :
    request.demand input = some (input.read port binding) := by
  have hbinding := h.binding
  unfold Port.initialBinding at hbinding
  extract_lets at hbinding
  cases input with
  | adminStateUp => exact congrArg some h.adminStateUp.symm
  | deviceOwner => exact congrArg some h.deviceOwner.symm
  | deviceId => exact congrArg some h.deviceId.symm
  | status => exact congrArg some h.status.symm
  | host =>
    split at hbinding
    · split at hbinding
      · cases hbinding
      · rename_i hhost
        cases hbinding
        show some (request.host.filter _) = some none
        rw [Option.not_isSome_iff_eq_none.1 hhost, Option.filter_none]
    · cases hbinding
      rfl
  | vnic =>
    split at hbinding
    · split at hbinding <;> cases hbinding
      rfl
    · cases hbinding
      rfl
  | profile =>
    split at hbinding
    · split at hbinding <;> cases hbinding
      rfl
    · cases hbinding
      rfl

namespace PortUpdate

/-- What an update does not ask for stays as it is. -/
theorem read_apply (update : PortUpdate) (former : Port) (primary : Binding) (input : Input) :
    input.read (update.applyTo former) (update.applyToBinding primary) =
      (update.demand input).getD (input.read former primary) := by
  have hchanged : (update.applyToBinding primary).host =
        (update.demand .host).getD primary.host ∧
      (update.applyToBinding primary).vnic = (update.demand .vnic).getD primary.vnic ∧
      (update.applyToBinding primary).profile = (update.demand .profile).getD primary.profile := by
    unfold applyToBinding
    extract_lets changed
    have hhost : changed.host = (update.demand .host).getD primary.host := by
      simp only [changed, demand]
      cases update.host <;> rfl
    split
    · exact ⟨hhost, rfl, rfl⟩
    · exact ⟨hhost, rfl, rfl⟩
  cases input with
  | adminStateUp => rfl
  | deviceOwner => rfl
  | deviceId => rfl
  | status => rfl
  | host => exact hchanged.1
  | vnic => exact hchanged.2.1
  | profile => exact hchanged.2.2

end PortUpdate

theorem Port.Storing.read {updated : Port} {last : Ports}
    (h : Storing former updated tables port last) (input : Input) (binding : Binding) :
    input.read port binding = input.read updated binding := by
  cases h with
  | same heq => rw [heq]
  | stored time => cases input <;> rfl

theorem Port.Restated.read {wanted : Option PortStatus} (h : former.Restated wanted store port tables)
    (hne : input ≠ .status) (binding : Binding) :
    input.read port binding = input.read former binding := by
  cases h with
  | same => rfl
  | saved =>
    cases input with
    | status => exact absurd rfl hne
    | _ => rfl

theorem Binding.read_copyResult (binding result : Binding) (port : Port) (input : Input) :
    input.read port (binding.copyResult result) = input.read port binding := by
  cases input <;> rfl

/-- A binding that is not stored because it asks for the same as the former one. -/
theorem Input.same_of_sameInputs {changed : Binding} (h : changed.sameInputs primary = true)
    (input : Input) (port : Port) : input.Same (input.read port primary) (input.read port changed) := by
  simp only [Binding.sameInputs, Bool.and_eq_true, decide_eq_true_eq] at h
  obtain ⟨⟨hhost, hvnic⟩, hprofile⟩ := h
  cases input with
  | host => exact hhost.symm
  | vnic => exact hvnic.symm
  | profile =>
    show primary.profile.agrees changed.profile = true
    rw [Json.agrees_comm]
    exact hprofile
  | _ => exact Input.same_refl _ _

theorem PortUpdate.demand_met {last : Ports}
    (hport : Port.Storing former (update.applyTo former) store port tables)
    (hbinding : Binding.Storing primary (update.applyToBinding primary) tables binding last)
    (hformer : entry.port = some former) (hprimary : entry.primary = some primary) :
    update.demand.Met entry ⟨some port, some binding, hosts⟩ := by
  apply Demand.met_of_stored
  intro input
  rw [hport.read]
  have happly := update.read_apply former primary input
  cases hbinding with
  | stored =>
    rw [happly]
    cases hd : update.demand input with
    | some asked => exact input.same_refl asked
    | none => exact Entry.input?_eq_some.2 ⟨former, primary, hformer, hprimary, rfl⟩
  | same hsame =>
    have hread := Input.same_of_sameInputs hsame input (update.applyTo former)
    rw [happly] at hread
    cases hd : update.demand input with
    | some asked =>
      rw [hd] at hread
      exact hread
    | none =>
      -- Nothing was asked for here, so the port has this as it had it.
      apply Entry.input?_eq_some.2
      refine ⟨former, primary, hformer, hprimary, ?_⟩
      cases input with
      | host => rfl
      | vnic => rfl
      | profile => rfl
      | _ =>
        rw [hd] at happly
        exact happly.symm

/-- A port whose status is set, and a primary row of it that keeps its inputs. -/
theorem Port.Restated.met {wanted : Option PortStatus} {after : Entry}
    (h : former.Restated wanted store port tables) (hformer : entry.port = some former)
    (hport : after.port = some port)
    (hrow : ∀ row, after.primary = some row → ∃ old result, entry.primary = some old ∧
      row = old.copyResult result) : (Demand.ofStatus wanted).Met entry after := by
  intro input value hvalue
  obtain ⟨_, row, hp, hb, rfl⟩ := Entry.input?_eq_some.1 hvalue
  obtain ⟨old, result, hold, rfl⟩ := hrow row hb
  rw [hport] at hp
  cases hp
  have hread : entry.input? input = some (input.read former (old.copyResult result)) := by
    apply Entry.input?_eq_some.2
    exact ⟨former, old, hformer, hold, (old.read_copyResult result former input).symm⟩
  cases h with
  | same hnone =>
    rw [hnone, Demand.ofStatus_none]
    exact hread
  | saved hsome time =>
    rw [hsome]
    cases input with
    | status => rfl
    | _ => exact hread

namespace Tx

variable {α : Type} {tx : Tx Ports (Closing α)} {demand : α → Demand}

/-- A transaction that leaves the rows of all ports with their ports alone. -/
theorem meets_nothing (h : ∀ store, tx.Ensures (fun tables _ => tables = store ∧ store.Keyed)
    (fun _ tables _ => ∃ entry, store.With id entry tables ∧
      (entry = .absent ∨ entry.port = (store.entry id).port ∧
        entry.primary = (store.entry id).primary)) fun _ => True) :
    tx.Meets id fun _ => .nothing := by
  intro store
  refine (h store).to_post ?_
  rintro _ _ _ _ ⟨entry, hwith, hentry⟩
  refine ⟨⟨entry, hwith, ?_⟩, fun _ _ => rfl⟩
  rcases hentry with rfl | ⟨hport, hprimary⟩
  · exact Demand.met_absent
  · intro input value hvalue
    show (store.entry id).input? input = some value
    unfold Entry.input?
    rw [← hport, ← hprimary]
    exact hvalue

theorem Meets.result (h : tx.Meets id demand) {state after : State} {answer : Except Error α}
    {refuser : Option (String × Error)} (hk : state.ports.Keyed)
    (hr : (answer, after) = state.runReviewed refuser tx) (hd : after.supply.Distinct) :
    ∃ entry, state.ports.With id entry after.ports ∧
      (Demand.told demand answer).Met (state.ports.entry id) entry := by
  rcases State.runReviewed_ensures (h state.ports) hr hd ⟨rfl, hk⟩ with
    ⟨_, rfl, hports, _⟩ | ⟨a, _, rfl, hports, _, hrollback⟩ |
    ⟨a, closing, rfl, ⟨⟨entry, hwith, hmet⟩, _⟩, hclosing⟩
  · rw [hports]
    exact ⟨_, .refl _ id, Demand.met_refl _⟩
  · rw [hports]
    refine ⟨_, .refl _ id, ?_⟩
    show (demand a).Met _ _
    rw [hrollback a rfl]
    exact Demand.met_refl _
  · refine ⟨entry, hwith, ?_⟩
    rcases hclosing with rfl | ⟨_, _, rfl⟩
    · exact hmet
    · exact hmet

end Tx

namespace Port

theorem readTx_meets {α : Type} (f : Ports → α) (id : PortId) :
    (do return .commit (f (← get)) : Tx Ports (Closing α)).Meets id fun _ => .nothing := by
  apply Tx.meets_nothing
  intro store
  refine Tx.ensures_get_bind fun seen => Tx.ensures_pure ?_
  rintro _ _ ⟨rfl, rfl, _⟩
  exact ⟨_, .refl _ id, .inr ⟨rfl, rfl⟩⟩

theorem fetchTx_meets (id : PortId) : (fetchTx id).Meets id fun _ => .nothing := by
  apply Tx.meets_nothing
  intro store
  refine Tx.ensures_get_bind fun seen => ?_
  split
  · exact Tx.ensures_throw fun _ _ _ => trivial
  · refine Tx.ensures_pure ?_
    rintro _ _ ⟨rfl, rfl, _⟩
    exact ⟨_, .refl _ id, .inr ⟨rfl, rfl⟩⟩

theorem removeTx_meets (id : PortId) : (removeTx id).Meets id fun _ => .nothing := by
  apply Tx.meets_nothing
  intro store
  refine (removeTx_erases id store).weaken (fun _ _ _ h => h.1) ?_ fun _ _ => trivial
  rintro _ _ _ _ (⟨_, _, rfl⟩ | ⟨_, rfl⟩)
  · exact ⟨_, .refl _ id, .inr ⟨rfl, rfl⟩⟩
  · exact ⟨_, (Ports.With.refl store id).erasePort, .inl rfl⟩

theorem hostBinding_meets (id : PortId) (host : String) :
    (hostBinding id host).Meets id fun _ => .nothing := by
  apply Tx.meets_nothing
  let post (seen tables : Ports) : Prop := ∃ entry, seen.With id entry tables ∧
    (entry = .absent ∨ entry.port = (seen.entry id).port ∧ entry.primary = (seen.entry id).primary)
  refine Tx.ensures_from Ports.Keyed (fun seen _ tables _ => post seen tables) (fun _ _ => True)
    fun seen => ?_
  split
  · rename_i port primary hport hprimary
    have hfound (row : Binding) :
        (pure (.commit (some (port, row))) : Tx Ports (Closing (Option (Port × Binding)))).Ensures
          (fun tables _ => post seen tables) (fun _ tables _ => post seen tables)
          fun _ => True := Tx.ensures_pure fun _ _ h => h
    have hsave (row : Binding) (hrow : seen.Keyed → row.port = id ∧ row.host = some host) :
        (Tx.change fun store : Ports => store.saveHostBinding row).Ensures
          (fun tables _ => tables = seen ∧ seen.Keyed) (fun _ tables _ => post seen tables)
          fun _ => True := by
      apply Tx.ensures_change
      rintro tables _ ⟨rfl, hk⟩
      split
      · rename_i hsave
        have hwith := (Ports.With.refl tables id).saveHostBinding (hrow hk).1 (hrow hk).2 hsave
        exact ⟨_, hwith, .inr ⟨rfl, rfl⟩⟩
      · trivial
    split
    · extract_lets row
      exact (hsave row fun _ => ⟨rfl, rfl⟩).bind fun _ => hfound row
    · rename_i row hsome
      split
      · refine (hfound row).of_pre ?_
        rintro _ _ _ ⟨rfl, _⟩
        exact ⟨_, .refl _ id, .inr ⟨rfl, rfl⟩⟩
      · have hrow (hk : seen.Keyed) : row.port = id ∧ row.host = some host := hk.host_row hsome
        exact (hsave (row.follow primary) hrow).bind fun _ => hfound _
  · refine Tx.ensures_pure ?_
    rintro _ _ ⟨rfl, _⟩
    exact ⟨_, .refl _ id, .inr ⟨rfl, rfl⟩⟩

theorem insertTx_meets (config : Config) (mac : Option String)
    (h : request.Describes port binding) :
    (insertTx config port binding mac).Meets port.id fun _ => request.demand := by
  intro store
  refine (insertTx_stores config port binding mac store).weaken (fun _ _ _ h => h.1) ?_ fun _ h => h
  rintro _ tables _ _ ⟨stored, rfl, ⟨mac, rfl, _⟩, hsave⟩
  have hown := (initialBinding_formed h.binding).1
  have hwith : store.With port.id { store.entry port.id with port := some { port with mac } }
      (store.savePort { port with mac }) := (Ports.With.refl store port.id).savePort rfl
  refine ⟨⟨_, hwith.saveBinding hown hsave, Demand.met_of_stored fun input => ?_⟩, nofun⟩
  show match request.demand input with | some asked => _ | none => _
  rw [request.demand_eq h input]
  cases input with
  | profile => exact Json.agrees_refl _
  | _ => rfl

/-- A port that is saved has what the update asks for. -/
theorem Saving.demand_met {drivers : List String} {network : Network} {closing : Closing (Option Saved)}
    (h : Saving store.Aligns store drivers id network update closing tables) (hk : store.Keyed)
    (hanswer : closing.answer.isSome = true) : ∃ port binding hosts,
      store.With id ⟨some port, some binding, hosts⟩ tables ∧
      update.demand.Met (store.entry id) ⟨some port, some binding, hosts⟩ := by
  cases h with
  | gone => cases hanswer
  | @saved former port primary _ aligned _ _ _ _ hformer hprimary haligned hport hsaved =>
    have hid := hk.port hformer
    have hrow : store.row? (.primary id) = some primary := hprimary
    have hchanged : (update.applyToBinding primary).port = id :=
      (update.applyToBinding_port primary).trans (hk.row hrow).1
    -- Bringing rows on hosts in line leaves the port and its primary row alone.
    have hwith : ∃ hosts, store.With id ⟨some former, some primary, hosts⟩ aligned := by
      have hentry : store.entry id = ⟨some former, some primary, (store.entry id).hosts⟩ := by
        rw [← hformer, ← hrow]
        rfl
      cases haligned with
      | kept => exact ⟨_, hentry ▸ Ports.With.refl store id⟩
      | aligned _ ha =>
        obtain ⟨hosts, hwith, _⟩ := ha
        rw [hchanged, hentry] at hwith
        exact ⟨hosts, hwith⟩
    obtain ⟨hosts, hwith⟩ := hwith
    have hlast := hsaved.with (hport.with hwith hid).1 hchanged
    exact ⟨_, _, _, hlast, PortUpdate.demand_met hport hsaved hformer hprimary⟩

theorem saveTx_meets (drivers : List String) (id : PortId) (network : Network)
    (update : PortUpdate) :
    (saveTx drivers id network update).Meets id fun saved =>
      saved.elim .nothing fun _ => update.demand := by
  intro store
  refine (saveTx_ensures drivers id network update alignHosts_aligns store).any_fails.to_post ?_
  rintro closing tables _ _ ⟨hk, h⟩
  have hmet := h.demand_met hk
  cases h with
  | gone =>
    refine ⟨⟨_, .refl store id, Demand.met_refl _⟩, fun a ha => ?_⟩
    cases ha
    rfl
  | saved =>
    obtain ⟨_, _, _, hwith, hmet⟩ := hmet rfl
    exact ⟨⟨_, hwith, hmet⟩, fun a ha => by cases ha⟩

theorem statusTx_meets (drivers : List String) (id : PortId) (network : Network)
    (status : PortStatus) :
    (statusTx drivers id network status).Meets id fun context =>
      context.elim .nothing fun _ => .ofStatus (some status) := by
  intro store
  have hstatus := (statusTx_ensures drivers id network status store).frame (fun _ => store.Keyed)
    fun _ _ _ h => h
  refine hstatus.weaken (fun _ _ _ h => ⟨h.2, h.1⟩) ?_ fun _ _ => trivial
  rintro closing tables _ _ ⟨hk, h⟩
  cases h with
  | kept =>
    refine ⟨⟨_, .refl store id, Demand.met_refl _⟩, fun a ha => ?_⟩
    cases ha
    rfl
  | @saved former _ hformer time =>
    have hid : former.id = id := hk.port hformer
    have hwith : store.With id
        { store.entry id with port := some { former with status, updatedAt := time } }
        (store.savePort { former with status, updatedAt := time }) :=
      (Ports.With.refl store id).savePort hid
    refine ⟨⟨_, hwith, ?_⟩, fun a ha => by cases ha⟩
    have hrestated : former.Restated (some status) store _ _ := .saved rfl time
    exact hrestated.met hformer rfl fun row hrow => ⟨row, row, hrow, rfl⟩

end Port

theorem Binding.commitTx_meets (drivers : List String) (id : PortId) (asked : Binding)
    (candidate : PortContext) :
    (commitTx drivers id asked candidate).Meets id fun outcome => match outcome with
      | .committed _ => .ofStatus candidate.wanted?
      | .retry _ | .gone => .nothing := by
  intro store
  have hcommit := (commitTx_ensures drivers id asked candidate store).frame (fun _ => store.Keyed)
    fun _ _ _ h => h
  refine hcommit.weaken (fun _ _ _ h => ⟨h.2, h.1⟩) ?_ fun _ _ => trivial
  rintro closing last _ _ ⟨hk, h⟩
  cases h with
  | gone => exact ⟨⟨_, .refl store id, Demand.met_refl _⟩, fun a ha => by cases ha; rfl⟩
  | retry => exact ⟨⟨_, .refl store id, Demand.met_refl _⟩, fun a ha => by cases ha; rfl⟩
  | @committed port changed live tables _ context hl hs hsave =>
    obtain ⟨primary, hosts, hwith, hprimary⟩ := hk.committed hl hs hsave
    refine ⟨⟨_, hwith, hs.met hl.found rfl fun row hr => ?_⟩, fun a ha => by cases ha⟩
    rcases hprimary with rfl | ⟨hlive, rfl⟩
    · exact ⟨row, row, hr, rfl⟩
    · exact ⟨live, candidate.binding, hlive, (Option.some.inj hr).symm⟩

/-- A commit writes the rows of its port only, and leaves the inputs alone but for the status. -/
theorem Ports.Keyed.committing {drivers : List String} {asked : Binding} {candidate : PortContext}
    {closing : Closing CommitOutcome} (hk : store.Keyed)
    (h : Binding.Committing store drivers id asked candidate closing tables) :
    (∃ entry, store.With id entry tables) ∧ ∀ input, input ≠ .status →
      (tables.entry id).input? input = (store.entry id).input? input := by
  cases h with
  | gone => exact ⟨⟨_, .refl store id⟩, fun _ _ => rfl⟩
  | retry => exact ⟨⟨_, .refl store id⟩, fun _ _ => rfl⟩
  | @committed port changed live _ _ _ hl hs hsave =>
    obtain ⟨primary, hosts, hwith, hprimary⟩ := hk.committed hl hs hsave
    refine ⟨⟨_, hwith⟩, fun input hne => ?_⟩
    have hport : (store.entry id).port = some port := hl.found
    rw [hwith.entry_eq, Entry.input?, Entry.input?, hport]
    rcases hprimary with rfl | ⟨hlive, rfl⟩
    · simp [hs.read hne, Ports.entry]
    · have hrow : (store.entry id).primary = some live := hlive
      simp [hs.read hne, hrow, live.read_copyResult]

end ControlPlane
