import ControlPlane.Proofs.Failures.Ports
import ControlPlane.Proofs.Ranges.Generation
import ControlPlane.Proofs.Requests
import ControlPlane.Proofs.Schedules

/-! Failures of commands. None of them comes upon a store that is not in order, and an address that
is in use is refused only to a caller who named it. -/

namespace ControlPlane

open Ip (Address)
open Operation

/-- The addresses that requests name. -/
def FixedIpRequest.named (requests : List FixedIpRequest) : List Address :=
  requests.filterMap FixedIpRequest.address

/-- The addresses that a caller names. -/
def Command.named : Command → List Address
  | .createPort request => FixedIpRequest.named (request.fixedIps.getD [])
  | .updatePort _ update => FixedIpRequest.named (update.fixedIps.getD [])
  | .allocateForPort _ _ requests => FixedIpRequest.named requests
  | .allocate _ _ address => address.toList
  | .allocateAddress _ _ address => [address]
  | _ => []

variable {setup : Setup} {named : List Address} {fails : Error → Prop}

/-- Whatever a driver refuses is due to it. -/
theorem ports_due {α : Type} {tx : Tx Ports (Closing α)}
    {kept : Ports → Closing α → Ports → Supply → Prop}
    (h : ∀ store : Ports, store.Keyed → store.Shaped →
      tx.Ensures (fun tables _ => tables = store) (kept store) (Error.Due named)) :
    (Operation.ports tx).FailsWith (Error.Due named) :=
  fails_ports h fun _ _ => trivial

namespace Network

theorem fetch_due (id : NetworkId) : (fetch id).FailsWith (Error.Due named) := by
  apply (fails_readIpam _).bind
  intro found
  cases found with
  | none => exact fails_throw trivial
  | some network => exact fails_pure network

theorem create_due (request : NetworkRequest) : (create request).FailsWith (Error.Due []) := by
  apply fails_except fun _ h => Error.ofFaults_due h
  intro _ _
  exact (fails_ask _).bind fun _ => fails_ipam (createTx_ensures _)

end Network

namespace Subnet

theorem fetch_due (id : SubnetId) : (fetch id).FailsWith (Error.Due named) := by
  apply (fails_readIpam _).bind
  intro found
  cases found with
  | none => exact fails_throw trivial
  | some subnet => exact fails_pure subnet

theorem delete_due (id : SubnetId) : (delete id).FailsWith (Error.Due []) :=
  (fetch_due id).bind fun _ => fails_ipam (deleteTx_ensures id)

theorem create_due (request : SubnetRequest) : (create request).FailsWith (Error.Due []) := by
  apply fails_except fun _ h => Error.ofFaults_due h
  intro _ _
  apply fails_except fun _ h => (parseCidr_isInput h).due
  intro cidr _
  apply fails_except fun _ h => (resolveGateway_isInput h).due
  intro gateway _
  apply fails_except fun _ h => (poolBounds_isInput h).due
  intro bounds hbounds
  exact fails_ipam (createTx_ensures hbounds)

end Subnet

theorem Network.delete_due (id : NetworkId) : (delete id).FailsWith (Error.Due []) := by
  apply (fetch_due id).bind
  intro _
  apply (fails_readPorts _).bind
  intro ports
  apply fails_guard fun _ => trivial
  intro _
  apply (fails_readIpam _).bind
  intro subnets
  apply (fails_forM fun subnet _ => Subnet.delete_due subnet.id).bind
  intro _
  exact fails_ipam (deleteTx_ensures id)

namespace Allocation

theorem rebuild_succeeds (subnets : List SubnetId) : (rebuild subnets).FailsWith fails := by
  apply fails_forM
  intro id _
  apply (fails_readIpam _).bind
  intro stored
  by_cases h : stored = true
  · rw [if_pos h]
    exact fails_ipam (rebuildTx_ensures id).of_no_fails
  · rw [if_neg h]
    exact fails_pure ()

theorem generateOnce_due (port : PortId) (candidates : List Subnet) :
    (generateOnce port candidates).FailsWith (Error.Due named) := by
  cases candidates with
  | nil => exact fails_throw trivial
  | cons first rest =>
    have hdue (ipam : Ipam) : (generateTx port first.network (first :: rest)).Ensures
        (fun tables supply => tables = ipam ∧ ipam.Sound False supply) (fun _ _ _ => True)
        (Error.Due named) := by
      apply (generateTx_lowest False port first.network (first :: rest) ipam).weaken
      · exact fun _ _ _ h => h
      · exact fun _ _ _ _ _ => trivial
      · rintro _ ⟨rfl, _⟩
        trivial
    apply fails_ipam
    exact (Tx.Ensures.exists hdue ⟨{}⟩).of_pre fun ipam _ _ h => ⟨ipam, rfl, h⟩

theorem generate_due (port : PortId) (candidates : List Subnet) :
    (generate port candidates).FailsWith (Error.Due named) := by
  apply (generateOnce_due port candidates).orElse
  intro error hdue
  split
  · exact (rebuild_succeeds _).bind fun _ => generateOnce_due port candidates
  · exact fails_throw hdue

/-- An address that is refused was named. -/
theorem allocateAddress_due (port : PortId) (subnet : Subnet) {address : Address}
    (h : address ∈ named) : (allocateAddress port subnet address).FailsWith (Error.Due named) := by
  apply fails_guard fun _ => trivial
  intro _
  refine (fails_ipam (allocateTx_ensures False port subnet address)).mono ?_
  rintro _ (⟨_, rfl⟩ | rfl)
  · trivial
  · exact h

theorem allocate_due (port : PortId) (candidates : List Subnet) (address : Option Address) :
    (allocate port candidates address).FailsWith (Error.Due address.toList) := by
  cases address with
  | none => exact generate_due port candidates
  | some address =>
    unfold allocate
    dsimp only
    split
    · exact allocateAddress_due port _ (List.mem_singleton_self address)
    · exact fails_throw trivial

theorem allocateTarget_due (port : PortId) {target : Target}
    (h : ∀ address, target.address = some address → address ∈ named) :
    (allocateTarget port target).FailsWith (Error.Due named) := by
  unfold allocateTarget
  split
  · rename_i address haddress
    exact allocateAddress_due port target.subnet (h address haddress)
  · exact generate_due port _

theorem dualStack_due (port : PortId) (subnets : List Subnet) :
    ∀ operation ∈ dualStack port subnets, operation.FailsWith (Error.Due named) := by
  intro operation hmem
  obtain ⟨_, _, rfl, _⟩ := mem_dualStack hmem
  exact generate_due port _

theorem gather_yields {α : Type} {operations : List (Operation α)}
    (h : ∀ operation ∈ operations, operation.FailsWith fails) :
    (gather operations).Yields fun result => ∀ error ∈ result.2, fails error := by
  induction operations with
  | nil => exact nofun
  | cons operation rest ih =>
    obtain ⟨hhead, hrest⟩ := List.forall_mem_cons.1 h
    apply Program.Yields.bind hhead
    intro result hresult
    cases result with
    | error error =>
      intro other ho
      cases ho
      exact hresult error rfl
    | ok answer => exact (ih hrest).bind fun _ herror => herror

theorem releases_succeed (reclaim : Bool) (ips : List AllocatedIp) :
    (ips.forM (release reclaim)).FailsWith fails :=
  fails_forM fun ip _ =>
    fails_ipam (releaseTx_ensures (False.elim : False → reclaim = true) ip).of_no_fails

theorem releasePort_succeeds (config : IpamConfig) (port : PortId) :
    (releasePort config port).FailsWith fails := by
  apply (fails_readIpam _).bind
  intro ips
  exact (releases_succeed _ ips).bind fun _ => fails_pure ips

theorem forPort_due (config : Config) (port : PortId) (network : NetworkId)
    {requests : List FixedIpRequest} (h : ∀ address ∈ FixedIpRequest.named requests, address ∈ named) :
    (forPort config port network requests).FailsWith (Error.Due named) := by
  apply fails_guard fun _ => trivial
  intro _
  apply (fails_readIpam _).bind
  intro subnets
  apply fails_except fun _ herror => (resolve_isInput herror).due
  intro targets htargets
  extract_lets operations
  have hoperations : ∀ operation ∈ operations, operation.FailsWith (Error.Due named) := by
    unfold operations
    split
    · exact dualStack_due port subnets
    · intro operation hmem
      obtain ⟨target, ht, rfl⟩ := List.mem_map.1 hmem
      obtain ⟨request, hrequest, hanswers⟩ := resolve_mem htargets target ht
      apply allocateTarget_due port
      intro address haddress
      exact h address (List.mem_filterMap.2 ⟨request, hrequest, hanswers.address ▸ haddress⟩)
  apply fails_lift_bind (gather_yields hoperations)
  rintro ⟨ips, error⟩ herror
  cases error with
  | none => exact fails_pure ips
  | some error => exact (releases_succeed true ips).bind fun _ => fails_throw (herror error rfl)

end Allocation

namespace PortContext

theorem commit_due (drivers : List String) (id : PortId) {asked : Binding} (candidate : PortContext)
    (hhost : asked.hasHost = true) :
    (Binding.commit drivers id asked candidate).FailsWith (Error.Due named) := by
  have hcommit : (Operation.ports (Binding.commitTx drivers id asked candidate)).FailsWith
      (Error.Due named) := by
    apply ports_due
    intro store hk _
    apply (Binding.commitTx_ensures drivers id asked candidate store).weaken
    · exact fun _ _ _ h => h
    · exact fun _ _ _ _ h => h
    · exact fun _ hunsaved => absurd hunsaved (hk.not_unsaved hhost)
  apply hcommit.bind
  intro outcome
  cases outcome with
  | committed context => exact (fails_lift _).bind fun _ => fails_pure _
  | _ => exact fails_pure _

theorem finish_succeeds (context : PortContext) (tell : Bool) :
    (context.finish tell).FailsWith fails := by
  unfold finish
  split
  · exact (fails_ask _).bind fun _ => fails_pure context
  · exact fails_pure context

theorem bindWithin_due (drivers : List String) (mayTell : Bool) (tries : Nat) (context : PortContext)
    (news : Bool) :
    (context.bindWithin drivers mayTell tries news).FailsWith (Error.Due named) := by
  induction tries generalizing context news with
  | zero =>
    unfold bindWithin
    split
    · exact fails_pure context
    · exact finish_succeeds context _
  | succ tries ih =>
    unfold bindWithin
    split
    · rename_i hpending
      have hhost := (Bool.and_eq_true_iff.1 hpending).2
      apply (fails_lift _).bind
      intro candidate
      apply (commit_due drivers _ candidate hhost).bind
      intro outcome
      cases outcome with
      | committed committed => exact ih committed _
      | retry live => exact ih live news
      | gone => exact fails_pure context
    · exact finish_succeeds context _

end PortContext

namespace Port

theorem remove_due (id : PortId) : (remove id).FailsWith (Error.Due named) :=
  ports_due fun store _ _ => (removeTx_erases id store).of_no_fails

theorem abandon_due {α : Type} (id : PortId) (ips : List AllocatedIp) {error : Error}
    (h : error.Due named) : (abandon id ips error : Operation α).FailsWith (Error.Due named) := by
  apply (remove_due id).bind
  intro _
  exact (Allocation.releases_succeed true ips).bind fun _ => fails_throw h

theorem initialIps_due (config : Config) (port : Port) (requests : Option (List FixedIpRequest)) :
    (initialIps config port requests).FailsWith
      (Error.Due (FixedIpRequest.named (requests.getD []))) := by
  unfold initialIps
  split
  · exact fails_pure []
  · exact Allocation.forPort_due config port.id port.network fun _ h => h

theorem create_due (request : PortRequest) : (create setup request).FailsWith
    (Error.Due (FixedIpRequest.named (request.fixedIps.getD []))) := by
  apply fails_except fun _ h => Error.ofFaults_due h
  intro _ _
  apply (Network.fetch_due request.network).bind
  intro network
  apply (fails_ask _).bind
  intro now
  apply (fails_ask _).bind
  intro id
  apply fails_except fun _ h => (initialBinding_isInput h).due
  intro binding hbinding
  have hinsert (port : Port) (hid : binding.port = port.id) :
      (insert setup.config port binding request.mac).FailsWith
        (Error.Due (FixedIpRequest.named (request.fixedIps.getD []))) :=
    ports_due fun _ _ _ => insertTx_due setup.config request.mac hid
  apply (hinsert _ (initialBinding_unbound hbinding).1).bind
  intro port
  apply ((initialIps_due setup.config port request.fixedIps).orElse fun _ h =>
    abandon_due port.id [] h).bind
  intro ips
  apply ((PortContext.bindWithin_due setup.drivers false _ _ false).orElse fun _ h =>
    abandon_due port.id ips h).bind
  exact fun context => fails_pure _

theorem fetch_due (id : PortId) : (fetch id).FailsWith (Error.Due []) := by
  have hfetch : (Operation.ports (fetchTx id)).FailsWith (Error.Due []) := by
    apply ports_due
    intro store _ _
    show (fetchTx id).Ensures _ (fun _ _ _ => True) _
    refine Tx.ensures_get_bind fun seen => ?_
    split
    · exact Tx.ensures_throw fun _ _ _ => trivial
    · exact Tx.ensures_pure fun _ _ _ => trivial
  apply hfetch.bind
  intro _
  exact (fails_readIpam _).bind fun _ => fails_pure _

theorem delete_due (id : PortId) : (delete setup id).FailsWith (Error.Due []) := by
  apply (remove_due id).bind
  intro removed
  apply fails_guard fun _ => trivial
  intro _
  exact (Allocation.releasePort_succeeds _ id).bind fun _ => fails_ask _

theorem stage_due (config : Config) (port : Port) (requests : Option (List FixedIpRequest)) :
    (stage config port requests).FailsWith
      (Error.Due (FixedIpRequest.named (requests.getD []))) := by
  cases requests with
  | none => exact fails_pure _
  | some requests =>
    show (stageIps config port requests).FailsWith (Error.Due (FixedIpRequest.named requests))
    apply fails_guard fun _ => trivial
    intro _
    apply (fails_readIpam _).bind
    intro current
    apply fails_except fun _ h => (keepAndWant_isInput h).due
    rintro ⟨kept, wanted⟩ hwanted
    dsimp only
    split
    · exact fails_pure _
    · have hnamed : ∀ address ∈ FixedIpRequest.named wanted,
          address ∈ FixedIpRequest.named requests := fun address h =>
        ((keepAndWant_sublist hwanted).filterMap _).subset h
      exact (Allocation.forPort_due config port.id port.network hnamed).bind fun _ => fails_pure _

theorem save_due (id : PortId) (network : Network) (update : PortUpdate) :
    (save setup.drivers id network update).FailsWith (Error.Due named) := by
  have hsave : (Operation.ports (saveTx setup.drivers id network update)).FailsWith
      (Error.Due named) :=
    ports_due fun _ hk hs => (saveTx_succeeds setup.drivers id network update hk hs).of_no_fails
  apply hsave.bind
  intro saved
  cases saved with
  | none => exact fails_pure _
  | some saved => exact (fails_lift _).bind fun _ => fails_pure _

theorem update_due (id : PortId) (update : PortUpdate) : (Port.update setup id update).FailsWith
    (Error.Due (FixedIpRequest.named (update.fixedIps.getD []))) := by
  apply fails_except fun _ h => Error.ofFaults_due h
  intro _ _
  apply (fails_readPorts _).bind
  intro found
  cases found with
  | none => exact fails_throw trivial
  | some port =>
    apply fails_except fun _ h => (PortUpdate.checkOwner_isInput h).due
    intro _ _
    apply (Network.fetch_due port.network).bind
    intro network
    apply (stage_due setup.config port update.fixedIps).bind
    intro changes
    have hundo {error : Error}
        (h : error.Due (FixedIpRequest.named (update.fixedIps.getD []))) :
        (undo changes error : Operation (Option Saved)).FailsWith
          (Error.Due (FixedIpRequest.named (update.fixedIps.getD []))) :=
      (Allocation.releases_succeed true changes.added).bind fun _ => fails_throw h
    apply ((save_due id network update).orElse fun _ h => hundo h).bind
    intro saved
    cases saved with
    | none => exact (Allocation.releasePort_succeeds _ id).bind fun _ => fails_throw trivial
    | some saved =>
      apply (Allocation.releases_succeed _ changes.removed).bind
      intro _
      apply (PortContext.bindWithin_due setup.drivers true _ saved.context _).bind
      intro context
      exact (fails_readIpam _).bind fun _ => fails_pure _

theorem boundContext_due (id : PortId) (host : String) :
    (boundContext setup id host).FailsWith (Error.Due []) := by
  apply (fails_readPorts _).bind
  intro found
  cases found with
  | none => exact fails_pure none
  | some port =>
    apply (Network.fetch_due port.network).bind
    intro network
    apply (fails_readPorts _).bind
    intro loaded
    cases loaded with
    | none => exact fails_pure none
    | some context =>
      dsimp only
      split
      · exact fails_pure none
      · exact (PortContext.bindWithin_due setup.drivers true _ context false).bind fun _ =>
          fails_pure _

theorem bindOnHost_due (id : PortId) (host : String) :
    (bindOnHost setup id host).FailsWith (Error.Due []) := by
  apply fails_guard fun _ => trivial
  intro hnamed
  apply (fails_readPorts _).bind
  intro found
  cases found with
  | none => exact fails_pure none
  | some port =>
    apply fails_guard fun _ => trivial
    intro _
    apply (Network.fetch_due port.network).bind
    intro network
    have hbinding : (Operation.ports (hostBinding id host)).FailsWith (Error.Due []) :=
      ports_due fun _ hk _ => (hostBinding_succeeds id hnamed hk).of_no_fails
    apply hbinding.bind
    intro answer
    cases answer with
    | none => exact fails_pure none
    | some answer =>
      exact (PortContext.bindWithin_due setup.drivers true _ _ false).bind fun _ => fails_pure _

theorem report_due (id : PortId) (status : PortStatus) :
    (report setup id status).FailsWith (Error.Due []) := by
  apply (fails_readPorts _).bind
  intro found
  cases found with
  | none => exact fails_pure false
  | some port =>
    apply (Network.fetch_due port.network).bind
    intro network
    have hstatus : (Operation.ports (statusTx setup.drivers id network status)).FailsWith
        (Error.Due []) :=
      ports_due fun store _ _ =>
        (statusTx_ensures setup.drivers id network status store).of_no_fails
    apply hstatus.bind
    intro context
    cases context with
    | none => exact fails_pure false
    | some context => exact (fails_lift _).bind fun _ => fails_pure true

end Port

theorem Setup.operation_due (setup : Setup) {command : Command} (h : ¬ command.ByHand) :
    (setup.operation command).FailsWith (Error.Due command.named) := by
  have hreply {α : Type} {operation : Operation α} {fails : Error → Prop} (f : α → Reply)
      (ho : operation.FailsWith fails) :
      FailsWith fails (do return f (← operation) : Operation Reply) :=
    ho.bind fun a => fails_pure (f a)
  cases command with
  | createNetwork request => exact hreply _ (Network.create_due request)
  | network id => exact hreply _ (Network.fetch_due id)
  | deleteNetwork id => exact hreply _ (Network.delete_due id)
  | createSubnet request => exact hreply _ (Subnet.create_due request)
  | subnet id => exact hreply _ (Subnet.fetch_due id)
  | deleteSubnet id => exact hreply _ (Subnet.delete_due id)
  | subnets network => exact hreply _ (fails_readIpam _)
  | pools subnet => exact hreply _ (fails_readIpam _)
  | ranges subnet => exact hreply _ (fails_readIpam _)
  | allocations subnet => exact hreply _ (fails_readIpam _)
  | portIps port => exact hreply _ (fails_readIpam _)
  | generate port candidates => exact hreply _ (Allocation.generate_due port candidates)
  | allocate port candidates address =>
    exact hreply _ (Allocation.allocate_due port candidates address)
  | allocateAddress port subnet address =>
    exact hreply _ (Allocation.allocateAddress_due port subnet (List.mem_singleton_self address))
  | allocateForPort port network requests =>
    exact hreply _ (Allocation.forPort_due setup.config port network fun _ hnamed => hnamed)
  | release ip =>
    have hreclaim : False → setup.config.ipam.reclaimOnRelease = true := False.elim
    exact hreply _ (fails_ipam (Allocation.releaseTx_ensures hreclaim ip).of_no_fails)
  | giveBack ips => exact hreply _ (Allocation.releases_succeed true ips)
  | releasePort port => exact hreply _ (Allocation.releasePort_succeeds setup.config.ipam port)
  | rebuild subnets => exact hreply _ (Allocation.rebuild_succeeds subnets)
  | createPort request => exact hreply _ (Port.create_due request)
  | port id => exact hreply _ (Port.fetch_due id)
  | ports network => exact hreply _ (fails_readPorts _)
  | updatePort id update => exact hreply _ (Port.update_due id update)
  | deletePort id => exact hreply _ (Port.delete_due id)
  | boundContext id host => exact hreply _ (Port.boundContext_due id host)
  | bindOnHost id host => exact hreply _ (Port.bindOnHost_due id host)
  | report id status => exact hreply _ (Port.report_due id status)
  | load network id host => exact hreply _ (fails_readPorts _)
  | negotiate context => exact (fails_lift _).bind fun _ => fails_pure _
  | commit id asked candidate => exact absurd (by simp only [Command.ByHand]) h
  | bind context mayTell news => exact absurd (by simp only [Command.ByHand]) h

namespace Scene

variable {allowed : Setup → Command → Prop} {moves : List Move} {first scene : Scene}

/-- Whatever is asked of control planes that commit no candidates but their own, and whatever drivers
answer, no command comes upon a store that is out of order, and an address that is in use is refused
only to a caller who named it. -/
theorem Run.errors_due (run : Run allowed first moves scene) (hfirst : first.Initial)
    (hfresh : ∀ move ∈ moves, move.Fresh)
    (hmanaged : ∀ setup command, allowed setup command → ¬ command.ByHand) {tag : Nat}
    {command : Command} {error : Error} (hs : .start tag command ∈ moves)
    (hf : .finish tag (.error error) ∈ moves) :
    (∀ text, error ≠ .store text ∧ error ≠ .internal text) ∧
      ∀ network address, error = .addressInUse network address → address ∈ command.named := by
  let due (command : Command) (answer : Except Error Reply) : Prop :=
    ∀ error, answer = .error error → error.Due command.named
  have hyields (setup : Setup) (command : Command) (may : allowed setup command) :
      (setup.operation command).run.Yields (due command) :=
    setup.operation_due (hmanaged setup command may)
  have hdue : error.Due command.named :=
    run.yields hfirst hfresh hmanaged hyields hs hf error rfl
  constructor
  · intro text
    constructor
    · rintro rfl
      exact hdue
    · rintro rfl
      exact hdue
  · rintro network address rfl
    exact hdue

/-- Two ports are created that ask for the same address. -/
def clash : List Move × Scene := sample.play (front ++ .start {} (.createPort request) :: Turn.moves 2 8)
where
  front : List Turn :=
    .start {} (.createSubnet .sample) :: Turn.moves 0 2 ++
    .start {} (.createPort request) :: Turn.moves 1 7
  request : PortRequest :=
    { network := ⟨7⟩, fixedIps := some [{ address := some AllocatedIp.sample.address }] }

theorem clash_run : Run (fun _ command => ¬ command.ByHand) sample clash.1 clash.2 :=
  play_run (by decide +kernel)

theorem clash_due : .finish 2 (.error (.addressInUse ⟨7⟩ AllocatedIp.sample.address)) ∈ clash.1 ∧
    AllocatedIp.sample.address ∈ (Command.createPort clash.request).named := by
  have hfresh : ∀ move ∈ clash.1, move.Fresh := by decide +kernel
  have hfailure : ∃ move ∈ clash.1,
      move.failure? 2 = some (.addressInUse ⟨7⟩ AllocatedIp.sample.address) := by
    decide +kernel
  obtain ⟨move, hmove, hfailure⟩ := hfailure
  have hf := failure_mem hmove hfailure
  have hstarted : (sample.play clash.front).2.started = 2 := by decide +kernel
  have hs : .start 2 (.createPort clash.request) ∈ clash.1 := start_mem_played hstarted
  exact ⟨hf, (clash_run.errors_due sample_initial hfresh (fun _ _ h => h) hs hf).2 _ _ rfl⟩

end Scene

end ControlPlane
