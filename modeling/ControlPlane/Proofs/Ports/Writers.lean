import ControlPlane.Proofs.Ports.Bound
import ControlPlane.Proofs.Ports.Inputs
import ControlPlane.Proofs.Ports.Reachable
import ControlPlane.Proofs.Sessions

/-! No update is lost. Commands save rows that they built from what they read long before, but each
input of a port is what it was asked to be by the last transaction that was asked to set it. -/

namespace ControlPlane

/-- A move that wrote what it was asked to set of a port: it created the port, or saved the update or
the status that its command was started with, or committed what a driver had answered. -/
inductive Orders (past : List Move) (id : PortId) : Move → Demand → Prop
  | created {tag : Nat} {request : PortRequest} {config : Config} {port stored : Port}
    {binding : Binding} {mac : Option String} {before after : State}
    (hs : .start tag (.createPort request) ∈ past) (hdescribes : request.Describes port binding)
    (hid : port.id = id) :
    Orders past id (.call tag (.ports (Port.insertTx config port binding mac)) before (.ok stored)
      after) request.demand
  | updated {tag : Nat} {update : PortUpdate} {drivers : List String} {network : Network}
    {saved : Port.Saved} {before after : State} (hs : .start tag (.updatePort id update) ∈ past) :
    Orders past id (.call tag (.ports (Port.saveTx drivers id network update)) before
      (.ok (some saved)) after) update.demand
  | reported {tag : Nat} {status : PortStatus} {drivers : List String} {network : Network}
    {context : PortContext} {before after : State} (hs : .start tag (.report id status) ∈ past) :
    Orders past id (.call tag (.ports (Port.statusTx drivers id network status)) before
      (.ok (some context)) after) (.ofStatus (some status))
  | bound {tag owner : Nat} {drivers : List String} {driver : String} {asked : Binding}
    {context committed : PortContext} {result : BindResult} {asking answered before after : State}
    (hid : context.port.id = id)
    (hanswer : .call owner (.bind driver context.candidate) asking (some result) answered ∈ past) :
    Orders past id (.call tag (.ports (Binding.commitTx drivers id asked
      (context.candidate.bind driver result))) before (.ok (.committed committed)) after)
      (.ofStatus result.status)

/-- The last move that was asked to set an input of a port asked for a value. -/
def LastAsked (moves : List Move) (id : PortId) (input : Input) (value : input.Value) : Prop :=
  ∃ early move late demand, moves = early ++ move :: late ∧ Orders early id move demand ∧
    demand input = some value ∧
    ∀ mid other rest later, late = mid ++ other :: rest →
      Orders (early ++ move :: mid) id other later → later input = none

/-- What is stored is what was asked for last, as long as no candidate is committed by hand. -/
structure Obeyed (moves : List Move) (store : Ports) : Prop where
  managed : ∀ tag command, .start tag command ∈ moves → ¬ command.ByHand
  inputs : ∀ id input value, (store.entry id).input? input = some value →
    ∃ asked, LastAsked moves id input asked ∧ input.Same value asked

variable {moves : List Move} {move : Move} {id : PortId} {demand : Demand} {input : Input}
  {value : input.Value} {tag : Nat} {α : Type} {c : Call α} {answer : α} {before after : State}
  {store : Ports} {setup : Setup}

namespace LastAsked

theorem of_orders (h : Orders moves id move demand) (hvalue : demand input = some value) :
    LastAsked (moves ++ [move]) id input value := by
  refine ⟨moves, move, [], demand, rfl, h, hvalue, ?_⟩
  intro mid other rest later hlate
  simp at hlate

theorem snoc (h : LastAsked moves id input value)
    (hnone : ∀ demand, Orders moves id move demand → demand input = none) :
    LastAsked (moves ++ [move]) id input value := by
  obtain ⟨early, writer, late, demand, rfl, horders, hvalue, hlast⟩ := h
  refine ⟨early, writer, late ++ [move], demand, by simp, horders, hvalue, ?_⟩
  intro mid other rest later hlate hlater
  rcases snoc_eq_append_cons hlate with ⟨rfl, rfl, rfl⟩ | ⟨front, rfl, rfl⟩
  · exact hnone later hlater
  · exact hlast mid other front later rfl hlater

end LastAsked

/-- A move that was asked to set something has set it, and has left the rest. -/
theorem Orders.met (h : Orders moves id (.call tag c before answer after) demand)
    (hk : before.ports.Keyed) (hr : c.Result before answer after) (hd : after.supply.Distinct) :
    demand.Met (before.ports.entry id) (after.ports.entry id) := by
  have hmet {β : Type} {tx : Tx Ports (Closing β)} {asks : β → Demand} {a : β}
      (hmeets : tx.Meets id asks) (hr : (Call.ports tx).Result before (.ok a) after)
      (hasks : asks a = demand) : demand.Met (before.ports.entry id) (after.ports.entry id) := by
    obtain ⟨refuser, hr⟩ := hr
    obtain ⟨entry, hwith, hmet⟩ := hmeets.result hk hr hd
    rw [hwith id, if_pos rfl, ← hasks]
    exact hmet
  cases h with
  | created hs hdescribes hid =>
    subst hid
    exact hmet (Port.insertTx_meets _ _ hdescribes) hr rfl
  | updated hs => exact hmet (Port.saveTx_meets _ id _ _) hr rfl
  | reported hs => exact hmet (Port.statusTx_meets _ id _ _) hr rfl
  | bound hid hanswer => exact hmet (Binding.commitTx_meets _ id _ _) hr rfl

/-- What drivers and listeners see of a report. -/
def Port.reporting (port : Port) (network : Network) (status : PortStatus) (binding : Binding)
    (time : Timestamp) : PortContext where
  port := { port with status, updatedAt := time }
  network := network
  binding := binding
  formerPort := some port
  formerBinding := some binding

theorem Port.statusTx_news {drivers : List String} {network : Network} {status : PortStatus}
    {port : Port} {supply : Supply} (hport : store.ports.find? id = some port)
    (hnews : port.status ≠ status) :
    (statusTx drivers id network status).attempt store supply =
      let context := port.reporting network status (primaryBinding store id) supply.time.1
      (.ok (.review drivers context (some context), store.savePort context.port), supply.time.2) := by
  unfold statusTx
  rw [Tx.attempt_get_bind]
  simp only [hport, if_neg hnews]
  rfl

/-- A report of what a port is not commits that status, unless a driver refuses it. -/
theorem Port.statusTx_result {drivers : List String} {network : Network} {status : PortStatus}
    {port : Port} {answer : Except Error (Option PortContext)}
    (hport : before.ports.ports.find? id = some port) (hnews : port.status ≠ status)
    (hr : (Call.ports (statusTx drivers id network status)).Result before answer after) :
    (∃ driver ∈ drivers, ∃ error, answer = .error (Environment.refusal driver error) ∧
      after.ports = before.ports) ∨
    ∃ context time, answer = .ok (some context) ∧
      context.port = { port with status, updatedAt := time } ∧
      after.ports = before.ports.savePort context.port := by
  obtain ⟨refuser, hr⟩ := hr
  rw [State.runReviewed_eq, statusTx_news hport hnews] at hr
  dsimp only [Session.outcome, Closing.close] at hr
  cases hverdict : verdict refuser drivers with
  | error error =>
    obtain ⟨driver, hdriver, cause, rfl⟩ := verdict_eq_error hverdict
    rw [hverdict] at hr
    cases hr
    exact .inl ⟨driver, hdriver, cause, rfl, rfl⟩
  | ok =>
    rw [hverdict] at hr
    cases hr
    exact .inr ⟨_, _, rfl, rfl, rfl⟩

/-- A report of what a port is not sets the status, if it is accepted. -/
theorem Orders.of_report {drivers : List String} {network : Network} {status : PortStatus}
    {port : Port} {answer : Except Error (Option PortContext)}
    (hs : .start tag (.report id status) ∈ moves) (hk : before.ports.Keyed)
    (hport : before.ports.ports.find? id = some port) (hnews : port.status ≠ status)
    (hr : (Call.ports (Port.statusTx drivers id network status)).Result before answer after)
    (haccepted : ∀ error, answer ≠ .error error) :
    Orders moves id (.call tag (.ports (Port.statusTx drivers id network status)) before answer after)
        (.ofStatus (some status)) ∧
      ∃ stored, after.ports.ports.find? id = some stored ∧ stored.status = status := by
  rcases Port.statusTx_result hport hnews hr with
    ⟨driver, _, error, rfl, _⟩ | ⟨context, time, rfl, hcontext, hafter⟩
  · exact absurd rfl (haccepted _)
  · refine ⟨.reported hs, context.port, ?_, by rw [hcontext]⟩
    have hid : port.id = id := hk.port hport
    rw [hafter, Ports.savePort, Table.find?_insert, hcontext, hid, if_pos rfl]

namespace Call.Made

/-- A call sets nothing of a port but what it is asked to set. -/
theorem orders (hm : c.Made setup (licence moves tag)) (hk : before.ports.Keyed)
    (hmanaged : ∀ tag command, .start tag command ∈ moves → ¬ command.ByHand)
    (hr : c.Result before answer after) (hd : after.supply.Distinct) (id : PortId) :
    ∃ demand, (demand = .nothing ∨ Orders moves id (.call tag c before answer after) demand) ∧
      demand.Met (before.ports.entry id) (after.ports.entry id) := by
  have hkept (hports : after.ports = before.ports) {c : Call α} {answer : α} : ∃ demand,
      (demand = .nothing ∨ Orders moves id (.call tag c before answer after) demand) ∧
        demand.Met (before.ports.entry id) (after.ports.entry id) := by
    rw [hports]
    exact ⟨_, .inl rfl, Demand.met_refl _⟩
  have hwrites {β : Type} {tx : Tx Ports (Closing β)} {asks : β → Demand} {own : PortId}
      {answer : Except Error β} (hmeets : tx.Meets own asks)
      (hr : (Call.ports tx).Result before answer after)
      (horders : ∀ a, answer = .ok a → asks a = .nothing ∨
        Orders moves own (.call tag (.ports tx) before (.ok a) after) (asks a)) : ∃ demand,
      (demand = .nothing ∨ Orders moves id (.call tag (.ports tx) before answer after) demand) ∧
        demand.Met (before.ports.entry id) (after.ports.entry id) := by
    obtain ⟨refuser, hr⟩ := hr
    obtain ⟨entry, hwith, hmet⟩ := hmeets.result hk hr hd
    rw [hwith id]
    by_cases hid : id = own
    · subst hid
      rw [if_pos rfl]
      cases answer with
      | ok a => exact ⟨_, horders a rfl, hmet⟩
      | error error => exact ⟨_, .inl rfl, hmet⟩
    · rw [if_neg hid]
      exact ⟨_, .inl rfl, Demand.met_refl _⟩
  have hquiet {β : Type} {tx : Tx Ports (Closing β)} {own : PortId} {answer : Except Error β}
      (hmeets : tx.Meets own fun _ => .nothing) (hr : (Call.ports tx).Result before answer after) :=
    hwrites hmeets hr fun _ _ => .inl rfl
  cases hm with
  | readPorts f => exact hquiet (Port.readTx_meets f id) hr
  | fetchPort own => exact hquiet (Port.fetchTx_meets own) hr
  | removePort own => exact hquiet (Port.removeTx_meets own) hr
  | hostBinding own host => exact hquiet (Port.hostBinding_meets own host) hr
  | insertPort port binding mac hl =>
    obtain ⟨_, _, request, hdescribes, hs, _⟩ := hl
    exact hwrites (Port.insertTx_meets _ mac hdescribes) hr fun _ _ =>
      .inr (.created hs hdescribes rfl)
  | savePort own network update hl =>
    apply hwrites (Port.saveTx_meets _ own network update) hr
    rintro (_ | saved) _
    · exact .inl rfl
    · exact .inr (.updated hl.1)
  | status own network status hl =>
    apply hwrites (Port.statusTx_meets _ own network status) hr
    rintro (_ | context) _
    · exact .inl rfl
    · exact .inr (.reported hl)
  | commit own asked candidate hl =>
    apply hwrites (Binding.commitTx_meets _ own asked candidate) hr
    rintro (committed | _ | _) _
    · -- A candidate that no driver bound asks for no status.
      rcases hl with ⟨command, hs, hbyhand⟩ | ⟨context, hid, _, _, _, _, hnegotiated⟩
      · exact absurd hbyhand (hmanaged tag command hs)
      rcases hnegotiated with rfl | ⟨owner, driver, result, asking, answered, hanswer, _, rfl⟩
      · exact .inl Demand.ofStatus_none
      · exact .inr (.bound hid hanswer)
    · exact .inl rfl
    · exact .inl rfl
  | readIpam | createNetwork | deleteNetwork | createSubnet | deleteSubnet | generate | rebuild
  | allocate | release => exact hkept (State.runIpam_cases hr).1
  | _ =>
    cases hr
    exact hkept rfl

end Call.Made

namespace Obeyed

theorem snoc (h : Obeyed moves store) (horders : ∀ id demand, ¬ Orders moves id move demand)
    (hmanaged : ∀ tag command, move = .start tag command → ¬ command.ByHand) :
    Obeyed (moves ++ [move]) store := by
  refine ⟨fun tag command hs => ?_, fun id input value hvalue => ?_⟩
  · rcases List.mem_append.1 hs with hs | hs
    · exact h.managed tag command hs
    · exact hmanaged tag command (List.mem_singleton.1 hs).symm
  · obtain ⟨asked, hasked, hsame⟩ := h.inputs id input value hvalue
    exact ⟨asked, hasked.snoc fun demand ho => absurd ho (horders id demand), hsame⟩

theorem call (h : Obeyed moves before.ports) (hm : c.Made setup (licence moves tag))
    (hk : before.ports.Keyed) (hr : c.Result before answer after) (hd : after.supply.Distinct) :
    Obeyed (moves ++ [.call tag c before answer after]) after.ports := by
  refine ⟨fun tag command hs => ?_, fun id input value hvalue => ?_⟩
  · rcases List.mem_append.1 hs with hs | hs
    · exact h.managed tag command hs
    · cases List.mem_singleton.1 hs
  by_cases hsets : ∃ demand asked, Orders moves id (.call tag c before answer after) demand ∧
      demand input = some asked
  · obtain ⟨demand, asked, horders, hasked⟩ := hsets
    refine ⟨asked, .of_orders horders hasked, ?_⟩
    have hmet := horders.met hk hr hd input value hvalue
    rw [hasked] at hmet
    exact hmet
  · have hnone : ∀ demand, Orders moves id (.call tag c before answer after) demand →
        demand input = none := by
      intro demand horders
      rw [Option.eq_none_iff_forall_ne_some]
      intro asked hasked
      exact hsets ⟨demand, asked, horders, hasked⟩
    obtain ⟨demand, hdemand, hmet⟩ := hm.orders hk h.managed hr hd id
    have hunasked : demand input = none := by
      rcases hdemand with rfl | horders
      · rfl
      · exact hnone demand horders
    have hbefore := hmet input value hvalue
    rw [hunasked] at hbefore
    obtain ⟨asked, hasked, hsame⟩ := h.inputs id input value hbefore
    exact ⟨asked, hasked.snoc hnone, hsame⟩

end Obeyed

namespace Scene

variable {allowed : Setup → Command → Prop} {first scene : Scene}

theorem Run.obeyed (run : Run allowed first moves scene) (hfirst : first.Initial)
    (hfresh : ∀ move ∈ moves, move.Fresh)
    (hmanaged : ∀ setup command, allowed setup command → ¬ command.ByHand) :
    Obeyed moves scene.state.ports := by
  have hinit : Obeyed [] first.state.ports := by
    rw [hfirst.ports]
    refine ⟨fun _ _ hs => absurd hs List.not_mem_nil, fun id input value hvalue => ?_⟩
    cases hvalue
  suffices h : Faithful False moves scene.state ∧ Obeyed moves scene.state.ports from h.2
  refine run.induct (fun moves state => Obeyed moves state.ports) hfirst hfresh nofun hinit ?_ ?_ ?_
  · intro moves state setup command tag may h
    refine h.snoc (fun id demand ho => by cases ho) fun _ _ hs => ?_
    cases hs
    exact hmanaged setup command may
  · intro moves before after setup command tag α c answer _ hf hm hr hd h
    exact h.call hm hf.keyed hr hd
  · intro moves state tag answer _ h
    exact h.snoc (fun id demand ho => by cases ho) fun _ _ hs => by cases hs

/-- Whatever is asked of control planes at the same time, whatever drivers answer and whoever refuses
a change, each stored port has a binding, and both are as they were asked to be last. -/
theorem Run.inputs_last_asked (run : Run allowed first moves scene) (hfirst : first.Initial)
    (hfresh : ∀ move ∈ moves, move.Fresh)
    (hmanaged : ∀ setup command, allowed setup command → ¬ command.ByHand) (id : PortId)
    (port : Port) (hport : scene.state.ports.ports.find? id = some port) :
    ∃ binding, scene.state.ports.bindings.find? id = some binding ∧
      ∀ input, ∃ asked, LastAsked moves id input asked ∧
        input.Same (input.read port binding) asked := by
  have hobeyed := run.obeyed hfirst hfresh hmanaged
  have hshaped := (run.lasting hfirst hfresh hmanaged).2.shaped
  obtain ⟨binding, hbinding⟩ := hshaped.exists_primary hport
  refine ⟨binding, hbinding, fun input => hobeyed.inputs id input _ ?_⟩
  exact Entry.input?_eq_some.2 ⟨port, binding, hport, hbinding, rfl⟩

/-- While a driver is asked to bind a new port, another command renames its device. When the port is
bound, its agent reports an error. -/
def overlap : List Move × Scene := sample.play (
  .start setup (.createPort request) :: Turn.moves 0 4 ++
  .start setup (.updatePort ⟨0⟩ { deviceId := some "server" }) :: Turn.moves 1 3 ++
  .next 0 (some { segment := ⟨8⟩, vifType := "ovs", status := some .active }) :: Turn.moves 0 1 ++
  .start setup (.report ⟨0⟩ .error) :: Turn.moves 2 3)
where
  setup : Setup := { drivers := ["agent"] }
  request : PortRequest := { network := ⟨7⟩, fixedIps := some [], host := some "node" }

theorem overlap_run : Run (fun _ command => ¬ command.ByHand) sample overlap.1 overlap.2 :=
  play_run (by decide +kernel)

theorem overlap_last_asked : ∃ port, overlap.2.state.ports.ports.find? ⟨0⟩ = some port ∧
    (port.deviceId = "server" ∧ port.status = .error) ∧
    ∃ binding, overlap.2.state.ports.bindings.find? ⟨0⟩ = some binding ∧
      binding.vif = .bound "ovs" ∧
      ∀ input, ∃ asked, LastAsked overlap.1 ⟨0⟩ input asked ∧
        input.Same (input.read port binding) asked := by
  have hfresh : ∀ move ∈ overlap.1, move.Fresh := by decide +kernel
  have hstored : ∃ port ∈ overlap.2.state.ports.ports.find? ⟨0⟩,
      port.deviceId = "server" ∧ port.status = .error := by decide +kernel
  have hbound : ∀ binding ∈ overlap.2.state.ports.bindings.find? ⟨0⟩, binding.vif = .bound "ovs" := by
    decide +kernel
  obtain ⟨port, hport, hfields⟩ := hstored
  obtain ⟨binding, hbinding, hasked⟩ :=
    overlap_run.inputs_last_asked sample_initial hfresh (fun _ _ h => h) ⟨0⟩ port hport
  exact ⟨port, hport, hfields, binding, hbinding, hbound binding hbinding, hasked⟩

end Scene

end ControlPlane
