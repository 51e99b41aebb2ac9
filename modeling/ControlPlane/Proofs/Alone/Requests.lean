import ControlPlane.Proofs.Ports.Creation
import ControlPlane.Proofs.Ranges.Families
import ControlPlane.Proofs.Requests

/-! Allocating for a port, with nothing in between. Every request is met by an address of its own, and
a port that asks for nothing is given one address of each family of its network; else the allocations
and the ranges are what they were. -/

namespace ControlPlane

open Ip (Address Family)
open Operation

/-- A port of a network has some addresses that nobody had, and no other row has changed. -/
structure Ipam.Assigns (before : Ipam) (network : NetworkId) (port : PortId)
    (ips : List AllocatedIp) (after : Ipam) : Prop where
  nodup : ips.Nodup
  free : ∀ ip ∈ ips, before.allocation? ip = none
  rows : ∀ ip, after.allocation? ip =
    if ip ∈ ips then some ⟨network, ip.subnet, ip.address, port⟩ else before.allocation? ip

/-- An address of a subnet of some family, which is that of the address. -/
structure AllocatedIp.Serves (ip : AllocatedIp) (subnets : List Subnet) (family : Family) : Prop where
  subnet : ∃ subnet ∈ subnets, subnet.id = ip.subnet ∧ subnet.family = family
  address : ip.address.family = family

/-- Whether an address is in a pool of its subnet. -/
def Ipam.pooled (ipam : Ipam) (ip : AllocatedIp) : Bool :=
  (ipam.poolsOf ip.subnet).any fun pool => pool.span.contains ip.address

/-- An address is what a target asks for, and from a pool if the target names none. -/
structure AllocatedIp.Fills (home : Ipam) (ip : AllocatedIp) (target : Allocation.Target) : Prop where
  hits : ip.Hits target
  pooled : target.address = none → home.pooled ip = true

/-- The families of some subnets, IPv4 first. -/
def Subnet.families (subnets : List Subnet) : List Family :=
  [Family.v4, .v6].filter fun family => subnets.any fun subnet => subnet.family = family

/-- What a port is given that asks for addresses. -/
structure Ipam.Answers (before : Ipam) (network : NetworkId) (port : PortId)
    (requests : List FixedIpRequest) (ips : List AllocatedIp) (after : Ipam) : Prop where
  assigns : before.Assigns network port ips after
  meets : requests ≠ [] → List.Forall₂ AllocatedIp.Meets ips requests
  serves : requests = [] → List.Forall₂ (AllocatedIp.Serves · (before.subnetsOf network)) ips
    (Subnet.families (before.subnetsOf network))

/-- A sound state in which a port has some addresses more than in some tables. -/
structure State.Assigned (home : Ipam) (network : NetworkId) (port : PortId)
    (ips : List AllocatedIp) (state : State) : Prop where
  sound : state.ipam.Sound False state.supply
  grounds : state.ipam.grounds = home.grounds
  assigns : home.Assigns network port ips state.ipam

/-- An operation that allocates an address of some kind, if it does not fail. -/
def Operation.Assigns (home : Ipam) (network : NetworkId) (port : PortId)
    (kind : AllocatedIp → Prop) (operation : Operation AllocatedIp) : Prop :=
  ∀ ips, operation.Ensures (State.Assigned home network port ips)
    (fun ip state => kind ip ∧ State.Assigned home network port (ips ++ [ip]) state) fun _ _ => True

section Assigns

variable {home before mid after : Ipam} {network : NetworkId} {port : PortId}
  {ips : List AllocatedIp} {ip : AllocatedIp} {kind : AllocatedIp → Prop}

theorem Ipam.Assigns.nil (before : Ipam) : before.Assigns network port [] before :=
  ⟨.nil, nofun, fun _ => (if_neg List.not_mem_nil).symm⟩

theorem Ipam.Assigns.snoc (h : before.Assigns network port ips mid)
    (hfree : mid.allocation? ip = none)
    (ha : after.allocations = mid.allocations.insert (ip.subnet, ip.address)
      ⟨network, ip.subnet, ip.address, port⟩) : before.Assigns network port (ips ++ [ip]) after := by
  have hrow := h.rows ip
  rw [hfree] at hrow
  have hnew : ip ∉ ips := fun hmem => by
    rw [if_pos hmem] at hrow
    cases hrow
  rw [if_neg hnew] at hrow
  refine ⟨List.nodup_append.2 ⟨h.nodup, List.pairwise_singleton _ _, ?_⟩,
    List.forall_mem_append.2 ⟨h.free, List.forall_mem_singleton.2 hrow.symm⟩, fun other => ?_⟩
  · rintro other hmem _ hother rfl
    exact hnew (List.mem_singleton.1 hother ▸ hmem)
  rw [Ipam.allocation?, ha, Ipam.allocation?_insert, h.rows]
  by_cases heq : other = ip
  · simp [heq]
  · simp [heq]

theorem State.Assigned.nil {state : State} (h : state.ipam.Sound False state.supply) :
    State.Assigned state.ipam network port [] state :=
  ⟨h, rfl, .nil _⟩

/-- It is enough that an operation allocates an address of the network to the port. -/
theorem Operation.Assigns.of_insert {operation : Operation AllocatedIp}
    (h : ∀ first : State, operation.Ensures
      (fun state => state = first ∧ first.ipam.Sound False first.supply ∧
        first.ipam.grounds = home.grounds)
      (fun ip last => last.ipam.Sound False last.supply ∧ last.ipam.grounds = home.grounds ∧
        kind ip ∧ first.ipam.allocation? ip = none ∧
        last.ipam.allocations = first.ipam.allocations.insert (ip.subnet, ip.address)
          ⟨network, ip.subnet, ip.address, port⟩) fun _ _ => True) :
    operation.Assigns home network port kind := by
  intro ips
  have hnamed (first : State) : operation.Ensures
      (fun state => state = first ∧ State.Assigned home network port ips first) _ _ :=
    (h first).of_pre fun _ hp => ⟨hp.1, hp.2.sound, hp.2.grounds⟩
  refine (Ensures.named hnamed).weaken (fun _ hp => hp) ?_ fun _ _ _ => trivial
  rintro ip last ⟨first, hfirst, hsound, hgrounds, hkind, hfree, hinsert⟩
  exact ⟨hkind, hsound, hgrounds, hfirst.assigns.snoc hfree hinsert⟩

theorem Operation.Assigns.mono {operation : Operation AllocatedIp} {other : AllocatedIp → Prop}
    (h : operation.Assigns home network port kind) (hkind : ∀ ip, kind ip → other ip) :
    operation.Assigns home network port other := fun ips =>
  (h ips).weaken (fun _ hp => hp) (fun ip _ hp => ⟨hkind ip hp.1, hp.2⟩) fun _ _ _ => trivial

end Assigns

namespace Allocation

variable {home : Ipam} {network : NetworkId} {port : PortId} {subnets : List Subnet}

/-- A pool of a subnet of some family has an address. -/
def Offered (home : Ipam) (subnets : List Subnet) (family : Family) (ip : AllocatedIp) : Prop :=
  ∃ subnet ∈ subnets, subnet.id = ip.subnet ∧ subnet.family = family ∧
    ∃ pool ∈ home.poolsOf subnet.id, pool.span.contains ip.address = true

theorem generate_assigns {head : Subnet} {rest : List Subnet}
    (hnetwork : ∀ subnet ∈ head :: rest, subnet.network = network) :
    (generate port (head :: rest)).Assigns home network port fun ip =>
      ∃ subnet ∈ head :: rest, subnet.id = ip.subnet ∧
        ∃ pool ∈ home.poolsOf subnet.id, pool.span.contains ip.address = true := by
  refine .of_insert fun first => ?_
  refine ((generate_ensures False port head rest first).beside
    (first.ipam.grounds = home.grounds)).weaken ?_ ?_ fun _ _ _ => trivial
  · rintro state ⟨rfl, hsound, hgrounds⟩
    exact ⟨hgrounds, rfl, hsound⟩
  · rintro ip last ⟨hgrounds, hsound, _, subnet, hmem, hid, hg, _⟩
    have hpools : first.ipam.pools = home.pools := (congrArg Ipam.pools hgrounds :)
    have hpooled := hg.pooled
    have hfree := hg.free
    have hinsert := hg.allocations
    rw [hnetwork subnet hmem] at hinsert
    refine ⟨hsound, hg.grounds.trans hgrounds, ⟨subnet, hmem, hid, ?_⟩, ?_, ?_⟩
    · rw [Ipam.poolsOf, ← hpools]
      exact hpooled
    · rw [hid] at hfree
      exact hfree
    · rw [hid] at hinsert
      exact hinsert

theorem allocateAddress_assigns {subnet : Subnet} (hnetwork : subnet.network = network)
    (address : Address) :
    (allocateAddress port subnet address).Assigns home network port (· = ⟨address, subnet.id⟩) := by
  refine .of_insert fun first => ensures_guard (fun _ _ => trivial) ?_
  refine ensures_ipam (allocateTx_adds port subnet address {}).advances ?_
  rintro before answer last ⟨rfl, hsound, hgrounds⟩ hr hext hd
  have htx := ((allocateTx_ensures False port subnet address).and
    (allocateTx_adds port subnet address before.ipam)).and
    (allocateTx_spares port subnet address before.ipam.grounds)
  rcases State.runIpam_ensures htx hr hd ⟨⟨hsound, rfl⟩, rfl⟩ with
    ⟨_, rfl, _⟩ | ⟨_, _, _, _, ⟨_, hc, _⟩, _⟩ | ⟨_, rfl, ⟨hafter, hc, _, hfree, hinsert⟩, hspared⟩
  · trivial
  · cases hc
  · cases hc
    exact ⟨hafter, hspared.trans hgrounds, rfl, hfree, hnetwork ▸ hinsert⟩

theorem allocateTarget_assigns {target : Target} (hnetwork : target.subnet.network = network) :
    (allocateTarget port target).Assigns home network port (·.Fills home target) := by
  unfold allocateTarget
  split
  · rename_i address haddress
    refine (allocateAddress_assigns hnetwork address).mono ?_
    rintro ip rfl
    exact ⟨⟨rfl, fun other ho => Option.some.inj (haddress.symm.trans ho)⟩,
      fun hnone => nomatch hnone.symm.trans haddress⟩
  · rename_i hnone
    refine (generate_assigns (List.forall_mem_singleton.2 hnetwork)).mono ?_
    rintro ip ⟨subnet, hmem, hid, hpool⟩
    rw [List.mem_singleton.1 hmem] at hid hpool
    refine ⟨⟨hid.symm, fun other ho => nomatch hnone.symm.trans ho⟩, fun _ => ?_⟩
    rw [hid] at hpool
    exact List.any_eq_true.2 hpool

theorem allocateTargets_assigns {targets : List Target}
    (hnetwork : ∀ target ∈ targets, target.subnet.network = network) :
    List.Forall₂ (fun operation target => operation.Assigns home network port (·.Fills home target))
      (targets.map (allocateTarget port)) targets := by
  rw [List.forall₂_map_left_iff, List.forall₂_same]
  exact fun target hmem => allocateTarget_assigns (hnetwork target hmem)

theorem dualStack_assigns (hnetwork : ∀ subnet ∈ subnets, subnet.network = network) :
    List.Forall₂ (fun operation family => operation.Assigns home network port
      (Offered home subnets family)) (dualStack port subnets) (Subnet.families subnets) := by
  unfold dualStack Subnet.families
  induction [Family.v4, .v6] with
  | nil => exact .nil
  | cons family rest ih =>
    rw [List.filterMap_cons, List.filter_cons]
    by_cases hany : subnets.any (fun subnet => subnet.family = family) = true
    · obtain ⟨subnet, hmem, hfamily⟩ := List.any_eq_true.1 hany
      have hcandidate : subnet ∈ subnets.filter fun subnet => subnet.family = family :=
        List.mem_filter.2 ⟨hmem, hfamily⟩
      obtain ⟨head, tail, hcandidates⟩ := List.exists_cons_of_ne_nil (List.ne_nil_of_mem hcandidate)
      have hcandidate (subnet : Subnet) (hmem : subnet ∈ head :: tail) :
          subnet ∈ subnets ∧ subnet.family = family := by
        rw [← hcandidates, List.mem_filter, decide_eq_true_eq] at hmem
        exact hmem
      rw [if_pos hany, hcandidates]
      refine .cons ((generate_assigns fun subnet hmem => ?_).mono ?_) ih
      · exact hnetwork subnet (hcandidate subnet hmem).1
      · rintro ip ⟨subnet, hmem, hid, hpool⟩
        exact ⟨subnet, (hcandidate subnet hmem).1, hid, (hcandidate subnet hmem).2, hpool⟩
    · have hnone : (subnets.filter fun subnet => subnet.family = family).isEmpty = true := by
        simpa using hany
      dsimp only
      rw [if_pos hnone, if_neg hany]
      exact ih

/-- Operations that allocate one address each, up to the first that fails. -/
theorem gather_assigns {ι : Type} {kind : ι → AllocatedIp → Prop}
    {operations : List (Operation AllocatedIp)} {items : List ι}
    (h : List.Forall₂ (fun operation item => operation.Assigns home network port (kind item))
      operations items) (ips : List AllocatedIp) :
    (gather operations).Ensures (State.Assigned home network port ips) fun answer state =>
      answer.2 = none → List.Forall₂ (fun ip item => kind item ip) answer.1 items ∧
        State.Assigned home network port (ips ++ answer.1) state := by
  induction h generalizing ips with
  | nil =>
    refine Program.ensures_done fun state hp _ => ⟨.nil, ?_⟩
    rw [List.append_nil]
    exact hp
  | @cons _ item _ _ hhead _ ih =>
    refine Program.Ensures.bind (hhead ips) fun result => ?_
    cases result with
    | error error => exact Program.ensures_done fun _ _ => nofun
    | ok ip =>
      refine ((ih (ips ++ [ip])).beside (kind item ip)).bind fun answer => ?_
      refine Program.ensures_done fun state ⟨hkind, hp⟩ hnone => ?_
      obtain ⟨hkinds, hassigned⟩ := hp hnone
      rw [List.append_cons]
      exact ⟨.cons hkind hkinds, hassigned⟩

theorem resolve_network {ipam : Ipam} {requests : List FixedIpRequest} {targets : List Target}
    (h : resolve network (ipam.subnetsOf network) [] requests = .ok targets) :
    ∀ target ∈ targets, target.subnet.network = network := by
  intro target hmem
  obtain ⟨_, _, hanswer⟩ := resolve_mem h target hmem
  exact (Ipam.mem_subnetsOf.1 hanswer.mem).2

/-- A port is given what it asks for, if it is given anything. -/
theorem forPort_answers (config : Config) (port : PortId) (network : NetworkId)
    (requests : List FixedIpRequest) {first : State} (hassorted : first.ipam.Assorted) :
    (forPort config port network requests).Ensures
      (fun state => state = first ∧ first.ipam.Sound False first.supply)
      (fun ips last => last.ipam.Sound False last.supply ∧
        first.ipam.Answers network port requests ips last.ipam) fun _ _ => True := by
  refine ensures_guard (fun _ _ => trivial) (ensures_readIpam_bind fun home => ?_)
  refine ensures_bind_except (fun _ _ _ => trivial) fun targets htargets => ?_
  extract_lets operations
  have hnetwork : ∀ subnet ∈ home.ipam.subnetsOf network, subnet.network = network :=
    fun subnet hmem => (Ipam.mem_subnetsOf.1 hmem).2
  -- What is known of the addresses is that there is one for each request or for each family.
  let Known (ips : List AllocatedIp) : Prop :=
    (requests ≠ [] → List.Forall₂ AllocatedIp.Meets ips requests) ∧
    (requests = [] → List.Forall₂ (fun ip family =>
      Offered home.ipam (home.ipam.subnetsOf network) family ip) ips
      (Subnet.families (home.ipam.subnetsOf network)))
  have hgather : (gather operations).Ensures (State.Assigned home.ipam network port [])
      fun answer state => answer.2 = none →
        Known answer.1 ∧ State.Assigned home.ipam network port answer.1 state := by
    unfold operations
    split
    · rename_i hnone
      have hnone := List.isEmpty_iff.1 hnone
      refine (gather_assigns (dualStack_assigns hnetwork) []).weaken (fun _ hp => hp) ?_
      intro answer state hp hok
      exact ⟨⟨fun hne => absurd hnone hne, fun _ => (hp hok).1⟩, (hp hok).2⟩
    · rename_i hsome
      have hanswers := resolve_answers htargets
      refine (gather_assigns (allocateTargets_assigns (resolve_network htargets)) []).weaken
        (fun _ hp => hp) ?_
      intro answer state hp hok
      have hhits := (hp hok).1.imp fun _ _ hfills => hfills.hits
      exact ⟨⟨fun _ => AllocatedIp.Hits.all_meet hhits hanswers,
        fun hnone => absurd (List.isEmpty_iff.2 hnone) hsome⟩, (hp hok).2⟩
  refine ((ensures_lift (hgather.beside (home = first))).of_pre ?_).bind fun ⟨ips, error⟩ => ?_
  · rintro state ⟨rfl, rfl, hsound⟩
    exact ⟨rfl, .nil hsound⟩
  cases error with
  | none =>
    refine ensures_pure ?_
    rintro state ⟨rfl, hp⟩
    obtain ⟨⟨hmeets, hoffered⟩, hassigned⟩ := hp rfl
    refine ⟨hassigned.sound, hassigned.assigns, hmeets, fun hnone => (hoffered hnone).imp ?_⟩
    rintro ip family ⟨subnet, hmem, hid, hfam, pool, hpool, hc⟩
    exact ⟨⟨subnet, hmem, hid, hfam⟩, (hassorted hmem hpool hc).trans hfam⟩
  | some error =>
    exact (giveBack_ensures port ips home).advances.bind fun _ => ensures_throw fun _ hp => hp

end Allocation

namespace Scene

variable {allowed : Setup → Command → Prop} {moves : List Move} {first scene : Scene}

/-- Whatever was asked before, a port is given just what it asks for. If it cannot be given all of
that, nobody has lost or gained an address and no range has lost one. -/
theorem Run.allocation_answers (run : Run allowed first moves scene) (hfirst : first.Initial)
    (hfresh : ∀ move ∈ moves, move.Fresh) (config : Config) (port : PortId) (network : NetworkId)
    (requests : List FixedIpRequest) {result : Except Error (List AllocatedIp)} {last : State}
    (halone : (Allocation.forPort config port network requests).run.Alone scene.state result last)
    (hd : last.supply.Distinct) :
    match result with
    | .ok ips => scene.state.ipam.Answers network port requests ips last.ipam
    | .error _ => scene.state.Unharmed last := by
  have hfaithful : Faithful False moves scene.state := run.faithful hfirst hfresh nofun
  have hsound := hfaithful.sound
  cases result with
  | ok ips =>
    have hanswers := Allocation.forPort_answers config port network requests
      (run.assorted hfirst hfresh)
    exact ((hanswers _ _ last halone).2 hd ⟨rfl, hsound⟩).2
  | error error =>
    have hgained : scene.state.Gained port [] last :=
      (Allocation.forPort_ensures config port network requests scene.state _ _ last halone).2 hd
        (.nil hsound)
    have hdiscreet := Allocation.forPort_discreet port config network requests
    exact hgained.restores.unharmed (hdiscreet.revealed halone hd hsound) hsound

/-- A port asks for any address of a subnet and for another that is free. -/
def demand : List FixedIpRequest :=
  [{ subnet := some ⟨0⟩ }, { address := some AllocatedIp.sample.address }]

/-- A port asks for an address that is free and then for one that a port has. -/
def excess : List FixedIpRequest :=
  [{ address := some AllocatedIp.sample.address },
    { address := some (.sample 2) }]

theorem demand_answered :
    (∃ ips last, (Allocation.forPort {} ⟨9⟩ ⟨7⟩ demand).run.Alone thwart.2.state (.ok ips) last ∧
      ips.length = 2 ∧ thwart.2.state.ipam.Answers ⟨7⟩ ⟨9⟩ demand ips last.ipam) ∧
    ∃ error last, (Allocation.forPort {} ⟨9⟩ ⟨7⟩ excess).run.Alone thwart.2.state (.error error)
      last ∧ thwart.2.state.Unharmed last := by
  constructor
  · obtain ⟨ips, last, halone, hlength, hd⟩ :=
      (Allocation.forPort {} ⟨9⟩ ⟨7⟩ demand).performs_ok [] thwart.2.state
        (P := fun ips last => ips.length = 2 ∧ last.supply.Distinct) (by decide +kernel)
    have hanswers := thwart_run.allocation_answers sample_initial thwart_fresh {} ⟨9⟩ ⟨7⟩ demand
      halone hd
    exact ⟨ips, last, halone, hlength, hanswers⟩
  · obtain ⟨error, last, halone, hd⟩ :=
      (Allocation.forPort {} ⟨9⟩ ⟨7⟩ excess).performs_error [] thwart.2.state
        (P := fun last => last.supply.Distinct) (by decide +kernel)
    have hunharmed := thwart_run.allocation_answers sample_initial thwart_fresh {} ⟨9⟩ ⟨7⟩ excess
      halone hd
    exact ⟨error, last, halone, hunharmed⟩

end Scene

end ControlPlane
