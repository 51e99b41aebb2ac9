import ControlPlane.Proofs.Alone.Generation
import ControlPlane.Proofs.Ranges.Exchange

/-! The addresses of one port, with nothing in between. Whoever fails to allocate all that was asked
for gives back what was allocated. -/

namespace ControlPlane

open Ip (Address)

/-- A sound state in which a port has gained some addresses and ports are as they were. -/
structure State.Gained (first : State) (port : PortId) (ips : List AllocatedIp) (state : State) :
    Prop where
  sound : state.ipam.Sound False state.supply
  ports : state.ports = first.ports
  gains : first.ipam.Gains port ips state.ipam

/-- A sound state in which some addresses were freed and ports are as they were. -/
structure State.Freed (first : State) (ips : List AllocatedIp) (state : State) : Prop where
  sound : state.ipam.Sound False state.supply
  ports : state.ports = first.ports
  frees : first.ipam.Frees ips state.ipam

/-- An operation that allocates one address to a port, or none if it fails. -/
def Operation.Allocates (port : PortId) (operation : Operation AllocatedIp) : Prop :=
  ∀ first : State, operation.Ensures
    (fun state => state = first ∧ first.ipam.Sound False first.supply)
    (fun ip => first.Gained port [ip]) fun _ => first.Gained port []

namespace State

variable {first mid last : State} {port : PortId} {ips more : List AllocatedIp}

theorem Gained.nil (h : first.ipam.Sound False first.supply) : first.Gained port [] first :=
  ⟨h, rfl, .of_eq rfl⟩

theorem Gained.trans (h : first.Gained port ips mid) (h' : mid.Gained port more last) :
    first.Gained port (ips ++ more) last :=
  ⟨h'.sound, h'.ports.trans h.ports, h.gains.trans h'.gains⟩

theorem Reranged.gained (h : first.Reranged False last) : first.Gained port [] last :=
  ⟨h.sound, h.ports, .of_eq (Ipam.unranged_inj.1 h.unranged).2.2.2⟩

theorem Gained.give_back (h : first.Gained port ips mid) (hf : mid.Freed ips last) :
    first.Gained port [] last :=
  ⟨hf.sound, hf.ports.trans h.ports, .of_eq (h.gains.frees hf.frees)⟩

end State

theorem Operation.Allocates.snoc {port : PortId} {operation : Operation AllocatedIp}
    (h : operation.Allocates port) (first : State) (ips : List AllocatedIp) :
    operation.Ensures (first.Gained port ips) (fun ip => first.Gained port (ips ++ [ip]))
      fun _ => first.Gained port ips := by
  have hnamed (mid : State) : operation.Ensures
      (fun state => state = mid ∧ first.Gained port ips mid) _ _ :=
    (h mid).of_pre fun _ hp => ⟨hp.1, hp.2.sound⟩
  refine (Ensures.named hnamed).weaken ?_ ?_ ?_
  · exact fun state hp => hp
  · rintro ip state ⟨mid, hmid, hg⟩
    exact hmid.trans hg
  · rintro _ state ⟨mid, hmid, hg⟩
    simpa using hmid.trans hg

namespace Allocation

open Operation

variable {first : State} {port : PortId} {ips : List AllocatedIp}

theorem generate_allocates (port : PortId) (head : Subnet) (rest : List Subnet) :
    (generate port (head :: rest)).Allocates port := by
  intro first
  refine (generate_ensures False port head rest first).weaken (fun _ h => h) ?_ ?_
  · rintro ip last ⟨hsound, hports, subnet, _, hid, hg, _⟩
    have hfree := hg.free
    have hallocations := hg.allocations
    rw [hid] at hfree hallocations
    exact ⟨hsound, hports, .of_insert hfree (by rfl) hallocations⟩
  · exact fun _ _ h => h.1.gained

theorem allocateAddress_allocates (port : PortId) (subnet : Subnet) (address : Address) :
    (allocateAddress port subnet address).Allocates port := by
  intro first
  refine ensures_guard ?_ ?_
  · rintro _ ⟨rfl, h⟩
    exact .nil h
  refine ensures_ipam (allocateTx_adds port subnet address {}).advances ?_
  rintro before answer last ⟨rfl, h⟩ hr hext hd
  have hports := (State.runIpam_cases hr).1
  have htx := (allocateTx_ensures False port subnet address).and
    (allocateTx_adds port subnet address before.ipam)
  rcases State.runIpam_ensures htx hr hd ⟨h, rfl⟩ with
    ⟨_, rfl, hipam, _⟩ | ⟨_, _, _, _, _, hc, _⟩ | ⟨_, rfl, hsound, hc, _, hfree, hadds⟩
  · exact ⟨hipam ▸ h.of_extends hext, hports, .of_eq (congrArg Ipam.allocations hipam)⟩
  · cases hc
  · cases hc
    exact ⟨hsound, hports, .of_insert hfree (by rfl) hadds⟩

theorem allocateTarget_allocates (port : PortId) (target : Target) :
    (allocateTarget port target).Allocates port := by
  unfold allocateTarget
  split
  · exact allocateAddress_allocates port _ _
  · exact generate_allocates port _ []

theorem dualStack_allocates (port : PortId) (subnets : List Subnet) :
    ∀ operation ∈ dualStack port subnets, operation.Allocates port := by
  intro operation hmem
  obtain ⟨head, rest, rfl, _⟩ := mem_dualStack hmem
  exact generate_allocates port head rest

/-- What is run for requests that come to some targets. -/
def operations (port : PortId) (subnets : List Subnet) (requests : List FixedIpRequest)
    (targets : List Target) : List (Operation AllocatedIp) :=
  if requests.isEmpty then dualStack port subnets else targets.map (allocateTarget port)

theorem operations_allocates (port : PortId) (subnets : List Subnet)
    (requests : List FixedIpRequest) (targets : List Target) :
    ∀ operation ∈ operations port subnets requests targets, operation.Allocates port := by
  unfold operations
  split
  · exact dualStack_allocates port subnets
  · intro operation hmem
    obtain ⟨target, _, rfl⟩ := List.mem_map.1 hmem
    exact allocateTarget_allocates port target

/-- Operations that allocate addresses, up to the first that fails. -/
theorem gather_ensures {operations : List (Operation AllocatedIp)}
    (h : ∀ operation ∈ operations, operation.Allocates port) (first : State)
    (ips : List AllocatedIp) :
    (gather operations).Ensures (first.Gained port ips)
      fun answer => first.Gained port (ips ++ answer.1) := by
  -- The port has gained `ips` before the operations that are left.
  induction operations generalizing ips with
  | nil =>
    refine Program.ensures_done fun state hp => ?_
    rw [List.append_nil]
    exact hp
  | cons operation rest ih =>
    obtain ⟨hhead, hrest⟩ := List.forall_mem_cons.1 h
    refine Program.Ensures.bind (hhead.snoc first ips) fun result => ?_
    cases result with
    | error error =>
      refine Program.ensures_done fun state hp => ?_
      rw [List.append_nil]
      exact hp
    | ok ip =>
      refine (ih hrest (ips ++ [ip])).bind fun answer => Program.ensures_done fun state hp => ?_
      rw [List.append_cons]
      exact hp

theorem release_ensures (reclaim : Bool) (ip : AllocatedIp) (first : State)
    (ips : List AllocatedIp) :
    (release reclaim ip).Ensures (first.Freed ips) (fun _ => first.Freed (ips ++ [ip]))
      fun _ _ => False := by
  have htx := releaseTx_erases (False.elim : False → reclaim = true) ip
  refine ensures_ipam (htx {}).advances ?_
  rintro before answer last hp hr hext hd
  have hports := (State.runIpam_cases hr).1.trans hp.ports
  rcases State.runIpam_ensures (htx before.ipam) hr hd ⟨rfl, hp.sound⟩ with
    ⟨_, _, _, hf⟩ | ⟨u, tables, rfl, hipam, hback, hsound, herased⟩ | ⟨_, rfl, _, hsound, herased⟩
  · exact hf.elim
  · -- Nobody had the address, so there was nothing to erase.
    rw [hback u rfl] at herased hsound
    rw [← hipam] at herased hsound
    exact ⟨hsound, hports, hp.frees.snoc (hipam ▸ herased)⟩
  · exact ⟨hsound, hports, hp.frees.snoc herased⟩

theorem releases_ensures (reclaim : Bool) (ips : List AllocatedIp) (first : State) :
    (ips.forM (release reclaim)).Ensures
      (fun state => state = first ∧ first.ipam.Sound False first.supply)
      (fun _ => first.Freed ips) fun _ _ => False := by
  refine (ensures_forM (fun done => first.Freed done) fun done ip _ _ => ?_).of_pre ?_
  · exact release_ensures reclaim ip first done
  · rintro _ ⟨rfl, h⟩
    exact ⟨h, rfl, .refl _⟩

theorem giveBack_ensures (port : PortId) (ips : List AllocatedIp) (first : State) :
    (giveBack ips).Ensures (first.Gained port ips) (fun _ => first.Gained port [])
      fun _ _ => False := by
  have hnamed (mid : State) : (giveBack ips).Ensures
      (fun state => state = mid ∧ first.Gained port ips mid) _ _ :=
    (releases_ensures true ips mid).of_pre fun _ hp => ⟨hp.1, hp.2.sound⟩
  refine (Ensures.named hnamed).weaken (fun _ hp => hp) ?_ ?_
  · rintro _ state ⟨mid, hmid, hf⟩
    exact hmid.give_back hf
  · rintro _ _ ⟨_, _, hf⟩
    exact hf

theorem releasePort_ensures (config : IpamConfig) (port : PortId) (first : State) :
    (releasePort config port).Ensures
      (fun state => state = first ∧ first.ipam.Sound False first.supply)
      (fun ips state => ips = (first.ipam.portAllocations port).map allocated ∧ first.Freed ips state)
      fun _ _ => False := by
  have hread : (ofPort port).Ensures
      (fun state => state = first ∧ first.ipam.Sound False first.supply)
      (fun ips state => ips = (first.ipam.portAllocations port).map allocated ∧
        state = first ∧ first.ipam.Sound False first.supply) fun _ _ => False := by
    refine ensures_readIpam ?_
    rintro _ ⟨rfl, h⟩
    exact ⟨rfl, rfl, h⟩
  refine hread.bind fun ips => ?_
  have hrelease := (releases_ensures config.reclaimOnRelease ips first).beside
    (ips = (first.ipam.portAllocations port).map allocated)
  refine (hrelease.weaken (fun _ hp => hp) (fun _ _ hp => hp) fun _ _ hp => hp.2).bind fun _ => ?_
  exact ensures_pure fun _ hp => hp

/-- A port gains all addresses that it asks for, or none. -/
theorem forPort_ensures (config : Config) (port : PortId) (network : NetworkId)
    (requests : List FixedIpRequest) (first : State) :
    (forPort config port network requests).Ensures (first.Gained port [])
      (fun ips => first.Gained port ips) fun _ => first.Gained port [] := by
  refine ensures_guard (fun _ hp => hp) ?_
  have hread : (Operation.readIpam fun ipam => ipam.subnetsOf network).Ensures
      (first.Gained port []) (fun _ => first.Gained port []) fun _ => first.Gained port [] :=
    ensures_readIpam fun _ hp => hp
  refine hread.bind fun subnets => ensures_bind_except (fun _ _ hp => hp) fun targets _ => ?_
  have hoperations := operations_allocates port subnets requests targets
  refine (ensures_lift (gather_ensures hoperations first [])).bind fun ⟨ips, error⟩ => ?_
  cases error with
  | none => exact ensures_pure fun _ hp => hp
  | some error =>
    exact (giveBack_ensures port ips first).of_no_fails.bind fun _ => ensures_throw fun _ hp => hp

end Allocation

namespace Port

open Operation

variable {first : State}

/-- What a port is to gain and to lose. Nothing is lost yet. -/
structure Staged (first : State) (port : PortId) (changes : IpChanges) (state : State) : Prop where
  gained : first.Gained port changes.added state
  removed : ∀ ip ∈ changes.removed, first.ipam.holder? ip = some port

theorem stageIps_ensures (config : Config) (port : Port) (requests : List FixedIpRequest)
    (first : State) :
    (stageIps config port requests).Ensures
      (fun state => state = first ∧ first.ipam.Sound False first.supply)
      (fun changes => Staged first port.id changes) fun _ => first.Gained port.id [] := by
  refine ensures_guard ?_ ?_
  · rintro _ ⟨rfl, h⟩
    exact .nil h
  let Held (current : List AllocatedIp) : Prop :=
    ∀ ip ∈ current, first.ipam.holder? ip = some port.id
  have hcurrent : (Allocation.ofPort port.id).Ensures
      (fun state => state = first ∧ first.ipam.Sound False first.supply)
      (fun current state => Held current ∧ first.Gained port.id [] state)
      fun _ => first.Gained port.id [] := by
    refine ensures_readIpam ?_
    rintro _ ⟨rfl, h⟩
    exact ⟨fun ip hip => h.holder?_of_mem hip, .nil h⟩
  refine hcurrent.bind fun current => ?_
  refine ensures_bind_except (fun _ _ hp => hp.2) fun ⟨kept, wanted⟩ _ => ?_
  dsimp only
  let finish (added : List AllocatedIp) : Operation IpChanges :=
    pure { added, removed := current.filter fun ip => !kept.contains ip }
  have hfinish (added : List AllocatedIp) : (finish added).Ensures
      (fun state => Held current ∧ first.Gained port.id added state)
      (fun changes => Staged first port.id changes) fun _ => first.Gained port.id [] := by
    refine ensures_pure ?_
    rintro state ⟨hheld, hg⟩
    exact ⟨hg, fun ip hip => hheld ip (List.mem_filter.1 hip).1⟩
  -- Whether or not anything is to be added, what is removed was held at the start.
  split
  · exact (ensures_pure fun _ hp => hp).bind hfinish
  · have hadded := (Allocation.forPort_ensures config port.id port.network wanted first).beside
      (Held current)
    exact (hadded.weaken (fun _ hp => hp) (fun _ _ hp => hp) fun _ _ hp => hp.2).bind hfinish

/-- Nothing is allocated for an update that leaves the addresses of a port alone. -/
theorem stage_ensures (config : Config) (port : Port) (requests : Option (List FixedIpRequest))
    (first : State) :
    (stage config port requests).Ensures
      (fun state => state = first ∧ first.ipam.Sound False first.supply)
      (fun changes state => (requests = none → changes = {}) ∧ Staged first port.id changes state)
      fun _ => first.Gained port.id [] := by
  cases requests with
  | none =>
    refine ensures_pure ?_
    rintro _ ⟨rfl, h⟩
    exact ⟨fun _ => rfl, .nil h, nofun⟩
  | some requests =>
    exact (stageIps_ensures config port requests first).weaken (fun _ hp => hp)
      (fun _ _ hp => ⟨nofun, hp⟩) fun _ _ hp => hp

theorem undo_ensures {α : Type} (port : PortId) (changes : IpChanges) (error : Error)
    (first : State) (post : α → State → Prop) :
    (undo changes error : Operation α).Ensures (first.Gained port changes.added) post
      fun _ => first.Gained port [] :=
  (Allocation.giveBack_ensures port changes.added first).of_no_fails.bind fun _ =>
    ensures_throw fun _ hp => hp

end Port

end ControlPlane
