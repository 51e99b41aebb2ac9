import ControlPlane.Proofs.Alone.Requests
import ControlPlane.Proofs.Errors
import ControlPlane.Proofs.Schedules

/-! Whether the order of requests decides if a port is given what it asks for, with nothing in
between. It does so only where a request that names no address takes the one that a later request
names. -/

namespace ControlPlane

open Ip (Address)
open Operation

/-- There are enough addresses that nobody has for some targets to have one each. -/
def Ipam.CanFill (home : Ipam) (targets : List Allocation.Target) : Prop :=
  ∃ ips : List AllocatedIp, ips.Nodup ∧ (∀ ip ∈ ips, home.allocation? ip = none) ∧
    List.Forall₂ (AllocatedIp.Fills home) ips targets

/-- Why a target is not given an address, when some addresses were given to others before. -/
inductive Ipam.Blocks (home : Ipam) (network : NetworkId) (given : List AllocatedIp)
    (target : Allocation.Target) : Error → Prop
  | taken {ip : AllocatedIp} (hits : ip.Hits target) (named : target.address = some ip.address)
    (had : home.allocation? ip ≠ none ∨ ip ∈ given) :
    Blocks home network given target (.addressInUse network ip.address)
  | exhausted (unnamed : target.address = none)
    (spent : ∀ ip : AllocatedIp, ip.subnet = target.subnet.id → home.pooled ip = true →
      home.allocation? ip = none → ip ∈ given) :
    Blocks home network given target (.addressesExhausted network)

/-- A request that names no address is given one that nobody had, and that a later request names. -/
structure Allocation.Collides (config : Config) (port : PortId) (network : NetworkId) (state : State)
    (requests : List FixedIpRequest) (ip : AllocatedIp) : Prop where
  free : state.ipam.allocation? ip = none
  taken : ∃ early named late ips last vague subnet, requests = early ++ named :: late ∧
    (forPort config port network early).run.Alone state (.ok ips) last ∧
    (ip, vague) ∈ ips.zip early ∧ vague.address = none ∧
    requestedSubnet network (state.ipam.subnetsOf network) named = .ok subnet ∧
    subnet.id = ip.subnet ∧ named.address = some ip.address

/-- Somebody has the address that a request names. -/
def FixedIpRequest.Taken (network : NetworkId) (ipam : Ipam) (request : FixedIpRequest) : Prop :=
  ∃ subnet address, Allocation.requestedSubnet network (ipam.subnetsOf network) request = .ok subnet ∧
    request.address = some address ∧ ipam.allocation? ⟨address, subnet.id⟩ ≠ none

/-! A call to the address store can end in one way only, and so can whatever calls nothing else. -/

def Call.Determined {α : Type} (c : Call α) : Prop :=
  ∀ before answer after answer' after', c.Result before answer after →
    c.Result before answer' after' → answer' = answer ∧ after' = after

theorem Call.ipam_determined {α : Type} (tx : Tx Ipam (Ending α)) : (Call.ipam tx).Determined := by
  intro before answer after answer' after' h h'
  have h : (answer, after) = before.runIpam tx := h
  have h' : (answer', after') = before.runIpam tx := h'
  rw [← h] at h'
  exact Prod.mk.inj h'

theorem Program.All.determined {α : Type} {p : Program α} {state last last' : State} {a a' : α}
    (hp : p.All Call.Determined) (h : p.Alone state a last) (h' : p.Alone state a' last') :
    a' = a ∧ last' = last := by
  induction h with
  | done => exact alone_done.1 h'
  | call result _ ih =>
    obtain ⟨answer, after, result', hrest⟩ := alone_call.1 h'
    obtain ⟨rfl, rfl⟩ := hp.1 _ _ _ _ _ result result'
    exact ih (hp.2 _) hrest

theorem Allocation.allots_determined (port : PortId) : Allots Call.Determined port where
  read _ := Call.ipam_determined _
  generate _ _ := Call.ipam_determined _
  rebuild _ := Call.ipam_determined _
  allocate _ _ _ := Call.ipam_determined _

theorem Allocation.targets_determined (port : PortId) (targets : List Target) :
    (gather (targets.map (allocateTarget port))).All Call.Determined := by
  refine gather_makes fun operation hmem => ?_
  obtain ⟨target, _, rfl⟩ := List.mem_map.1 hmem
  exact (allots_determined port).allocateTarget_makes target

theorem Allocation.forPort_determined (config : Config) (port : PortId) (network : NetworkId)
    (requests : List FixedIpRequest) :
    (forPort config port network requests).Makes Call.Determined :=
  (allots_determined port).forPort_makes (fun _ => Call.ipam_determined _) config network requests

theorem forall₂_split {α β : Type} {R : α → β → Prop} {front : List α} {early late : List β} {b : β}
    (h : List.Forall₂ R front (early ++ b :: late)) : ∃ left a right, front = left ++ a :: right ∧
      List.Forall₂ R left early ∧ R a b ∧ List.Forall₂ R right late := by
  obtain ⟨a, right, hhead, hrest, hdrop⟩ :=
    List.forall₂_cons_right_iff.1 (List.forall₂_drop_append _ _ _ h)
  refine ⟨_, a, right, ?_, List.forall₂_take_append _ _ _ h, hhead, hrest⟩
  rw [← hdrop, List.take_append_drop]

section Counting

variable {home : Ipam} {network : NetworkId} {ip : AllocatedIp} {ips given : List AllocatedIp}
  {target : Allocation.Target} {targets early late : List Allocation.Target} {id : SubnetId}
  {error : Error}

/-- Whether an address is in a pool of a given subnet. -/
def Ipam.pooledIn (home : Ipam) (id : SubnetId) (ip : AllocatedIp) : Bool :=
  decide (ip.subnet = id) && home.pooled ip

/-- Whether a target takes an address from a pool of a subnet. -/
def Allocation.Target.draws (home : Ipam) (id : SubnetId) (target : Target) : Bool :=
  decide (target.subnet.id = id) && target.address.all fun address => home.pooled ⟨address, id⟩

theorem AllocatedIp.Fills.draws (h : ip.Fills home target) :
    home.pooledIn id ip = target.draws home id := by
  unfold Ipam.pooledIn Allocation.Target.draws
  rw [← h.hits.subnet]
  by_cases hid : ip.subnet = id
  · cases haddress : target.address with
    | none => simp [h.pooled haddress]
    | some address =>
      rw [← h.hits.address address haddress, ← hid]
      rfl
  · simp [hid]

/-- However targets are filled, as many addresses are taken from the pools of a subnet. -/
theorem AllocatedIp.Fills.countP (h : List.Forall₂ (AllocatedIp.Fills home) ips targets) :
    ips.countP (home.pooledIn id) = targets.countP (Allocation.Target.draws home id) := by
  induction h with
  | nil => rfl
  | cons hhead _ ih => rw [List.countP_cons, List.countP_cons, hhead.draws, ih]

theorem Ipam.CanFill.perm (h : home.CanFill targets) (hperm : late.Perm targets) :
    home.CanFill late := by
  obtain ⟨ips, hnodup, hfree, hfills⟩ := h
  obtain ⟨others, hothers, hips⟩ := List.perm_comp_forall₂ hperm hfills.flip
  exact ⟨others, hips.nodup_iff.2 hnodup, fun ip hip => hfree ip (hips.subset hip), hothers.flip⟩

/-- A pool is not used up by the targets before one that it can fill as well. -/
theorem Ipam.CanFill.exists_spare (h : home.CanFill (early ++ target :: late))
    (hgiven : List.Forall₂ (AllocatedIp.Fills home) given early) (hunnamed : target.address = none) :
    ∃ ip : AllocatedIp, ip.subnet = target.subnet.id ∧ home.pooled ip = true ∧
      home.allocation? ip = none ∧ ip ∉ given := by
  obtain ⟨ips, hnodup, hfree, hfills⟩ := h
  by_contra hnone
  -- All that is taken from the pools for all targets is what was given to the early ones.
  let inPools := home.pooledIn target.subnet.id
  have hsubset : ips.filter inPools ⊆ given.filter inPools := by
    intro ip hip
    obtain ⟨hmem, hin⟩ := List.mem_filter.1 hip
    obtain ⟨hid, hpooled⟩ : ip.subnet = target.subnet.id ∧ home.pooled ip = true := by
      simpa [inPools, pooledIn] using hin
    refine List.mem_filter.2 ⟨?_, hin⟩
    by_contra hnew
    exact hnone ⟨ip, hid, hpooled, hfree ip hmem, hnew⟩
  have hle := (List.subperm_of_subset (hnodup.filter inPools) hsubset).length_le
  rw [← List.countP_eq_length_filter, ← List.countP_eq_length_filter,
    AllocatedIp.Fills.countP hfills, AllocatedIp.Fills.countP hgiven, List.countP_append,
    List.countP_cons_of_pos (by simp [Allocation.Target.draws, hunnamed])] at hle
  omega

/-- Where all targets could be filled, one is blocked only by what was given to an earlier one. -/
theorem Ipam.Blocks.taken_before (h : home.Blocks network given target error)
    (hcan : home.CanFill (early ++ target :: late))
    (hgiven : List.Forall₂ (AllocatedIp.Fills home) given early) :
    ∃ ip : AllocatedIp, ip.Hits target ∧ target.address = some ip.address ∧ ip ∈ given ∧
      home.allocation? ip = none := by
  cases h with
  | @taken ip hits named had =>
    obtain ⟨ips, _, hfree, hfills⟩ := hcan
    obtain ⟨_, other, _, rfl, _, hfill, _⟩ := forall₂_split hfills
    have hsame : ip = other := by
      rw [AllocatedIp.mk.injEq, hits.subnet, hfill.hits.subnet, hfill.hits.address _ named]
      exact ⟨rfl, rfl⟩
    have hfree : home.allocation? ip = none := by
      rw [hsame]
      exact hfree other (by simp)
    exact ⟨ip, hits, named, had.resolve_left fun hhad => hhad hfree, hfree⟩
  | exhausted unnamed hspent =>
    obtain ⟨ip, hid, hpooled, hfree, hnew⟩ := hcan.exists_spare hgiven unnamed
    exact absurd (hspent ip hid hpooled hfree) hnew

end Counting

namespace Allocation

variable {home : Ipam} {network : NetworkId} {port : PortId}

/-- An address of a subnet that is stored is refused only if somebody has it. -/
theorem allocateTx_refuses (port : PortId) {subnet : Subnet} (address : Address) {ipam : Ipam}
    (hstored : ipam.subnets.contains subnet.id = true) :
    (allocateTx port subnet address).Ensures
      (fun tables supply => tables = ipam ∧ ipam.Sound False supply) (fun _ _ _ => True)
      fun error => error = .addressInUse subnet.network address ∧
        ipam.allocation? ⟨address, subnet.id⟩ ≠ none := by
  refine Tx.ensures_get_bind fun seen => ?_
  dsimp only
  refine Tx.ensures_guard ?_ fun _ => Tx.ensures_guard ?_ fun hfree => ?_
  · rintro hnone _ _ ⟨rfl, rfl, _⟩
    rw [hstored] at hnone
    cases hnone
  · rintro hhad _ _ ⟨rfl, rfl, _⟩
    obtain ⟨row, hrow⟩ := Table.contains_iff.1 hhad
    refine ⟨rfl, fun hnone => ?_⟩
    cases hrow.symm.trans hnone
  let allocation : Allocation := ⟨subnet.network, subnet.id, address, port⟩
  -- Nobody has the address, so it can be inserted, and a range that contains it can be taken.
  have hinsert : (do
      Tx.change fun tables : Ipam => tables.insertAllocation allocation
      pure (.commit ⟨address, subnet.id⟩) : Tx Ipam (Ending AllocatedIp)).Ensures
        (fun tables _ => tables.allocations = seen.allocations) (fun _ _ _ => True)
        fun _ => False := by
    refine Tx.ensures_change_bind ?_ (Tx.ensures_pure fun _ _ _ => trivial)
    intro tables _ error hsame herror
    have hnone : tables.allocations.find? (subnet.id, address) = none := by
      rw [hsame]
      simpa [Table.contains] using hfree
    rw [Ipam.insertAllocation_of_none hnone] at herror
    cases herror
  refine Tx.Ensures.of_no_fails ?_
  split
  · rename_i range hfound
    have hmem := List.mem_of_find?_eq_some hfound
    have hcontains := List.find?_some hfound
    have htake := take_ensures False seen range address subnet.id
    refine (htake.of_pre ?_).bind fun _ => hinsert.of_pre ?_
    · rintro _ _ _ ⟨rfl, rfl, hsound⟩
      exact ⟨rfl, hsound, hmem, hcontains⟩
    · rintro _ _ _ ⟨_, _, _, rfl, _⟩
      rfl
  · refine hinsert.of_pre ?_
    rintro _ _ _ ⟨rfl, _⟩
    rfl

/-- Allocating for a target fails only if the target is blocked. -/
theorem allocateTarget_blocks {target : Target} (hnetwork : target.subnet.network = network)
    (hstored : home.subnets.contains target.subnet.id = true)
    (hhost : ∀ address ∈ target.address, target.subnet.isHostAddress address = true)
    (ips : List AllocatedIp) :
    (allocateTarget port target).Ensures (State.Assigned home network port ips) (fun _ _ => True)
      fun error _ => home.Blocks network ips target error := by
  unfold allocateTarget
  split
  · rename_i address haddress
    unfold allocateAddress
    rw [hhost address haddress]
    refine ensures_ipam (allocateTx_adds port target.subnet address {}).advances ?_
    rintro before answer last hp hr _ hd
    have hsubnets : before.ipam.subnets = home.subnets := (congrArg Ipam.subnets hp.grounds :)
    have htx := allocateTx_refuses port address (hsubnets ▸ hstored)
    rcases State.runIpam_ensures htx hr hd ⟨rfl, hp.sound⟩ with
      ⟨_, rfl, _, rfl, hhad⟩ | ⟨_, _, rfl, _⟩ | ⟨_, rfl, _⟩
    · rw [hnetwork]
      have hhits : (⟨address, target.subnet.id⟩ : AllocatedIp).Hits target :=
        ⟨rfl, fun other ho => Option.some.inj (haddress.symm.trans ho)⟩
      refine .taken hhits haddress ?_
      rw [hp.assigns.rows] at hhad
      by_cases hmem : (⟨address, target.subnet.id⟩ : AllocatedIp) ∈ ips
      · exact .inr hmem
      · rw [if_neg hmem] at hhad
        exact .inl hhad
    · trivial
    · trivial
  · rename_i hunnamed
    have hnamed (first : State) : (generate port [target.subnet]).Ensures
        (fun state => state = first ∧ State.Assigned home network port ips first) _ _ :=
      (generate_ensures False port target.subnet [] first).of_pre fun _ hp => ⟨hp.1, hp.2.sound⟩
    refine (Ensures.named hnamed).weaken (fun _ hp => hp) (fun _ _ _ => trivial) ?_
    rintro error state ⟨first, hfirst, _, rfl, hnone⟩
    rw [hnetwork]
    refine .exhausted hunnamed fun ip hid hpooled hfree => ?_
    by_contra hnew
    obtain ⟨pool, hpool, hcontains⟩ := List.any_eq_true.1 hpooled
    have hpools : first.ipam.pools = home.pools := (congrArg Ipam.pools hfirst.grounds :)
    refine hnone target.subnet (List.mem_singleton_self _) ⟨pool, ?_, ip.address, hcontains, ?_⟩
    · rw [Ipam.poolsOf, hpools, ← hid]
      exact hpool
    · rw [← hid]
      exact (hfirst.assigns.rows ip).trans ((if_neg hnew).trans hfree)

section Gather

variable {α : Type} {operation : Operation α} {front rest operations : List (Operation α)}
  {state last : State} {answers : List α} {found : Option Error} {error : Error}

theorem gather_cons : (gather (operation :: rest)).Alone state (answers, found) last ↔
    (∃ error, answers = [] ∧ found = some error ∧ operation.run.Alone state (.error error) last) ∨
    ∃ answer others mid, answers = answer :: others ∧ operation.run.Alone state (.ok answer) mid ∧
      (gather rest).Alone mid (others, found) last := by
  refine Program.alone_bind.trans ⟨?_, ?_⟩
  · rintro ⟨_ | answer, mid, hone, hrest⟩
    · obtain ⟨heq, rfl⟩ := Program.alone_done.1 hrest
      cases heq
      exact .inl ⟨_, rfl, rfl, hone⟩
    · obtain ⟨⟨others, _⟩, _, hgather, hdone⟩ := Program.alone_bind.1 hrest
      obtain ⟨heq, rfl⟩ := Program.alone_done.1 hdone
      cases heq
      exact .inr ⟨answer, others, mid, rfl, hone, hgather⟩
  · rintro (⟨error, rfl, rfl, hone⟩ | ⟨answer, others, mid, rfl, hone, hgather⟩)
    · exact ⟨_, last, hone, .done _ _⟩
    · exact ⟨_, mid, hone, Program.alone_bind.2 ⟨_, last, hgather, .done _ _⟩⟩

/-- Operations that are run up to one that fails. -/
theorem gather_failed (h : (gather operations).Alone state (answers, some error) last) :
    ∃ front operation rest mid, operations = front ++ operation :: rest ∧
      (gather front).Alone state (answers, none) mid ∧
      operation.run.Alone mid (.error error) last := by
  induction operations generalizing state answers with
  | nil => cases (Program.alone_done.1 h).1
  | cons operation rest ih =>
    rcases gather_cons.1 h with ⟨_, rfl, ⟨⟩, hone⟩ | ⟨answer, others, mid, rfl, hone, hrest⟩
    · exact ⟨[], operation, rest, state, rfl, .done _ _, hone⟩
    · obtain ⟨front, failing, late, before, rfl, hfront, hfails⟩ := ih hrest
      have hgather := gather_cons.2 (.inr ⟨answer, others, mid, rfl, hone, hfront⟩)
      exact ⟨operation :: front, failing, late, before, rfl, hgather, hfails⟩

theorem gather_front (h : (gather (front ++ rest)).Alone state (answers, none) last) :
    ∃ early late mid, answers = early ++ late ∧ early.length = front.length ∧
      (gather front).Alone state (early, none) mid := by
  induction front generalizing state answers with
  | nil => exact ⟨[], answers, state, rfl, rfl, .done _ _⟩
  | cons operation front ih =>
    rcases gather_cons.1 h with ⟨_, _, ⟨⟩, _⟩ | ⟨answer, _, mid, rfl, hone, hrest⟩
    obtain ⟨early, late, before, rfl, hlength, hfront⟩ := ih hrest
    have hgather := gather_cons.2 (.inr ⟨answer, early, mid, rfl, hone, hfront⟩)
    exact ⟨answer :: early, late, before, rfl, congrArg Nat.succ hlength, hgather⟩

end Gather

variable {config : Config} {requests : List FixedIpRequest} {state last : State}
  {result : Except Error (List AllocatedIp)} {ips : List AllocatedIp} {targets : List Target}
  {error : Error}

/-- What requests come to, before anything is allocated. -/
def plan (config : Config) (network : NetworkId) (ipam : Ipam) (requests : List FixedIpRequest) :
    Except Error (List Target) :=
  if config.maxFixedIps < requests.length then .error (tooMany config)
  else resolve network (ipam.subnetsOf network) [] requests

/-- What is done with what was allocated. -/
def settle (ips : List AllocatedIp) : Option Error → Operation (List AllocatedIp)
  | none => pure ips
  | some error => giveBack ips >>= fun _ => throw error

theorem plan_eq_ok_iff {ipam : Ipam} : plan config network ipam requests = .ok targets ↔
    requests.length ≤ config.maxFixedIps ∧
      resolve network (ipam.subnetsOf network) [] requests = .ok targets := by
  unfold plan
  split
  · simp only [reduceCtorEq, false_iff, not_and]
    omega
  · simp only [iff_and_self]
    omega

theorem plan_isInput {ipam : Ipam} (h : plan config network ipam requests = .error error) :
    error.IsInput := by
  unfold plan at h
  split at h
  · exact ⟨_, (Except.error.inj h).symm⟩
  · exact resolve_isInput h

theorem plan_perm {ipam : Ipam} {others : List FixedIpRequest} (hperm : others.Perm requests)
    (h : plan config network ipam requests = .ok targets) :
    ∃ others', plan config network ipam others = .ok others' ∧ others'.Perm targets := by
  obtain ⟨hshort, hresolved⟩ := plan_eq_ok_iff.1 h
  obtain ⟨others', hothers, hperm'⟩ := resolve_perm hperm hresolved
  exact ⟨others', plan_eq_ok_iff.2 ⟨hperm.length_eq ▸ hshort, hothers⟩, hperm'⟩

theorem operations_of_ne_nil {subnets : List Subnet} (hne : requests ≠ []) :
    operations port subnets requests targets = targets.map (allocateTarget port) :=
  if_neg (mt List.isEmpty_iff.1 hne)

theorem forPort_alone : (forPort config port network requests).run.Alone state result last ↔
    match plan config network state.ipam requests with
    | .error error => result = .error error ∧ last = state
    | .ok targets => ∃ answer mid,
      (gather (operations port (state.ipam.subnetsOf network) requests targets)).Alone state answer
        mid ∧ (settle answer.1 answer.2).run.Alone mid result last := by
  unfold forPort plan
  by_cases hlong : config.maxFixedIps < requests.length
  · rw [if_pos hlong, if_pos hlong]
    exact Program.alone_done
  rw [if_neg hlong, if_neg hlong]
  refine (Operation.alone_bind_of fun _ _ => Operation.alone_readIpam).trans ?_
  cases resolve network (state.ipam.subnetsOf network) [] requests with
  | error error => exact Program.alone_done
  | ok targets =>
    refine Operation.alone_lift_bind.trans
      (exists₂_congr fun answer mid => and_congr_right fun _ => ?_)
    obtain ⟨ips, _ | error⟩ := answer
    · rfl
    · rfl

theorem forPort_ok_iff : (forPort config port network requests).run.Alone state (.ok ips) last ↔
    ∃ targets, plan config network state.ipam requests = .ok targets ∧
      (gather (operations port (state.ipam.subnetsOf network) requests targets)).Alone state
        (ips, none) last := by
  rw [forPort_alone]
  cases plan config network state.ipam requests with
  | error error => simp
  | ok targets =>
    constructor
    · rintro ⟨⟨answers, _ | error⟩, mid, hgather, hsettle⟩
      · obtain ⟨heq, rfl⟩ := Program.alone_done.1 hsettle
        cases heq
        exact ⟨targets, rfl, hgather⟩
      · obtain ⟨_ | _, _, _, hthrow⟩ := Program.alone_bind.1 hsettle
        · cases (Program.alone_done.1 hthrow).1
        · cases (Program.alone_done.1 hthrow).1
    · rintro ⟨_, ⟨⟩, hgather⟩
      exact ⟨_, last, hgather, .done _ _⟩

/-- Giving back cannot fail, so the error is that of what could not be allocated. -/
theorem forPort_error (hsound : state.ipam.Sound False state.supply) (hd : last.supply.Distinct)
    (h : (forPort config port network requests).run.Alone state (.error error) last) :
    plan config network state.ipam requests = .error error ∨
    ∃ targets ips mid, plan config network state.ipam requests = .ok targets ∧
      (gather (operations port (state.ipam.subnetsOf network) requests targets)).Alone state
        (ips, some error) mid ∧ mid.supply.Distinct := by
  rw [forPort_alone] at h
  cases hplan : plan config network state.ipam requests with
  | error other =>
    rw [hplan] at h
    cases h.1
    exact .inl rfl
  | ok targets =>
    rw [hplan] at h
    obtain ⟨⟨ips, _ | other⟩, mid, hgather, hsettle⟩ := h
    · cases (Program.alone_done.1 hsettle).1
    · obtain ⟨answer, after, hback, hthrow⟩ := Program.alone_bind.1 hsettle
      obtain ⟨hext, hfreed⟩ := giveBack_ensures port ips state _ _ _ hback
      have hgained := (gather_ensures (operations_allocates port _ requests targets) state [] _ _ _
        hgather).2
      cases answer with
      | ok =>
        obtain ⟨heq, rfl⟩ := Program.alone_done.1 hthrow
        cases heq
        exact .inr ⟨targets, ips, mid, rfl, hgather, hd.of_extends hext⟩
      | error =>
        obtain ⟨_, rfl⟩ := Program.alone_done.1 hthrow
        exact (hfreed hd (hgained (hd.of_extends hext) (.nil hsound))).elim

/-- What is given to targets, if all of them are given something. -/
theorem gather_fills (hnetwork : ∀ target ∈ targets, target.subnet.network = network)
    (hgather : (gather (targets.map (allocateTarget port))).Alone state (ips, none) last)
    (hsound : state.ipam.Sound False state.supply) (hd : last.supply.Distinct) :
    List.Forall₂ (AllocatedIp.Fills state.ipam) ips targets ∧
      State.Assigned state.ipam network port ips last :=
  (gather_assigns (allocateTargets_assigns hnetwork) [] _ _ _ hgather).2 hd (.nil hsound) rfl

/-- Targets of some requests, allocated in turn up to one that is blocked. -/
theorem gather_blocked (hsound : state.ipam.Sound False state.supply)
    (hresolved : resolve network (state.ipam.subnetsOf network) [] requests = .ok targets)
    (hgather : (gather (targets.map (allocateTarget port))).Alone state (ips, some error) last)
    (hd : last.supply.Distinct) :
    ∃ early target late mid, targets = early ++ target :: late ∧
      (gather (early.map (allocateTarget port))).Alone state (ips, none) mid ∧
      List.Forall₂ (AllocatedIp.Fills state.ipam) ips early ∧
      state.ipam.Blocks network ips target error := by
  obtain ⟨front, operation, rest, mid, hsplit, hfront, hfails⟩ := gather_failed hgather
  obtain ⟨early, others, rfl, rfl, hothers⟩ := List.map_eq_append_iff.1 hsplit
  obtain ⟨target, late, rfl, rfl, -⟩ := List.map_eq_cons_iff.1 hothers
  obtain ⟨hresolves, _⟩ := resolve_eq_ok_iff.1 hresolved
  have hnetwork := resolve_network hresolved
  obtain ⟨_, _, hanswer⟩ := resolve_mem hresolved target (by simp)
  have hstored : state.ipam.subnets.contains target.subnet.id = true :=
    Table.contains_iff.2 ⟨_, hsound.subnetsOf_stored target.subnet hanswer.mem⟩
  obtain ⟨_, named, _, _, _, hnamed, _⟩ := forall₂_split hresolves
  have hhost : ∀ address ∈ target.address, target.subnet.isHostAddress address = true := by
    rw [hnamed.address]
    exact hnamed.host
  obtain ⟨hext, hblocks⟩ :=
    allocateTarget_blocks (hnetwork target (by simp)) hstored hhost ips _ _ _ hfails
  obtain ⟨hfills, hassigned⟩ := gather_fills (fun other hmem =>
    hnetwork other (List.mem_append_left _ hmem)) hfront hsound (hd.of_extends hext)
  exact ⟨early, target, late, mid, rfl, hfront, hfills, hblocks hd hassigned⟩

/-- What was given to an earlier request, and that a later one names, was not named by the earlier. -/
theorem collides_of_given {ip : AllocatedIp} {early late : List Target} {target : Target}
    (hplan : plan config network state.ipam requests = .ok (early ++ target :: late))
    (hgather : (gather (early.map (allocateTarget port))).Alone state (ips, none) last)
    (hfills : List.Forall₂ (AllocatedIp.Fills state.ipam) ips early)
    (hhits : ip.Hits target) (hnamed : target.address = some ip.address) (hmem : ip ∈ ips)
    (hfree : state.ipam.allocation? ip = none) :
    Collides config port network state requests ip := by
  obtain ⟨hshort, hresolved⟩ := plan_eq_ok_iff.1 hplan
  obtain ⟨hresolves, hnodup, _⟩ := resolve_eq_ok_iff.1 hresolved
  obtain ⟨front, named, back, rfl, hfront, hown, _⟩ := forall₂_split hresolves
  have hnamed' : named.address = some ip.address := hown.address.symm.trans hnamed
  rw [List.filterMap_append, List.nodup_append, List.filterMap_cons, hnamed'] at hnodup
  obtain ⟨hnodup, _, hothers⟩ := hnodup
  have hanswers := (hfront.imp fun _ _ => Target.Resolves.answers).flip
  have hmeets := AllocatedIp.Hits.all_meet (hfills.imp fun _ _ => AllocatedIp.Fills.hits) hanswers
  -- The earlier request that the address was given to.
  obtain ⟨vague, hzip⟩ : ∃ vague, (ip, vague) ∈ ips.zip front := by
    rw [← List.map_fst_zip (Nat.le_of_eq hmeets.length_eq), List.mem_map] at hmem
    obtain ⟨⟨_, vague⟩, hzip, rfl⟩ := hmem
    exact ⟨vague, hzip⟩
  have hvague : vague.address = none := by
    cases haddress : vague.address with
    | none => rfl
    | some address =>
      have hsame := (List.forall₂_zip hmeets hzip).address address haddress
      have hmem := List.mem_filterMap.2 ⟨vague, (List.of_mem_zip hzip).2, haddress⟩
      exact absurd hsame.symm (hothers address hmem ip.address List.mem_cons_self)
  have hne : front ≠ [] := by
    rintro rfl
    simp at hzip
  have hplan : plan config network state.ipam front = .ok early := by
    rw [List.length_append] at hshort
    exact plan_eq_ok_iff.2 ⟨by omega, resolve_eq_ok_iff.2 ⟨hfront, hnodup, by simp⟩⟩
  refine ⟨hfree, front, named, back, ips, last, vague, target.subnet, rfl, ?_, hzip, hvague,
    hown.subnet, hhits.subnet.symm, hnamed'⟩
  refine forPort_ok_iff.2 ⟨early, hplan, ?_⟩
  rw [operations_of_ne_nil hne]
  exact hgather

/-- What is given to the earlier requests does not depend on those that come after them. -/
theorem given_front {front late : List FixedIpRequest} {named : FixedIpRequest}
    {given : List AllocatedIp} {mid : State} (hne : front ≠ [])
    (hfront : (forPort config port network front).run.Alone state (.ok given) mid)
    (hall : (forPort config port network (front ++ named :: late)).run.Alone state (.ok ips) last) :
    ∃ rest, ips = given ++ rest ∧ given.length = front.length := by
  obtain ⟨early, hplan, hgiven⟩ := forPort_ok_iff.1 hfront
  obtain ⟨targets, hplan', hall⟩ := forPort_ok_iff.1 hall
  rw [operations_of_ne_nil hne] at hgiven
  rw [operations_of_ne_nil (by simp)] at hall
  obtain ⟨-, hresolved⟩ := plan_eq_ok_iff.1 hplan
  obtain ⟨-, hresolved'⟩ := plan_eq_ok_iff.1 hplan'
  obtain ⟨early', target, late', rfl, hearly, -, -⟩ :=
    forall₂_split (resolve_eq_ok_iff.1 hresolved').1.flip
  have hsame := resolve_eq_ok_iff.2 ⟨hearly.flip, (resolve_eq_ok_iff.1 hresolved).2⟩
  cases hresolved.symm.trans hsame
  rw [List.map_append] at hall
  obtain ⟨given', rest, before, rfl, hlength, hgiven'⟩ := gather_front hall
  obtain ⟨heq, -⟩ := (targets_determined port early).determined hgiven hgiven'
  cases heq
  rw [List.length_map, hearly.length_eq] at hlength
  exact ⟨rest, rfl, hlength⟩

/-- Whoever collides with what was given before is not given anything. -/
theorem Collides.not_allocated {ip : AllocatedIp} (h : Collides config port network state requests ip)
    (hsound : state.ipam.Sound False state.supply) (hd : last.supply.Distinct) :
    ¬ (forPort config port network requests).run.Alone state (.ok ips) last := by
  intro halone
  obtain ⟨front, named, late, given, mid, vague, subnet, rfl, hearly, hzip, -, hsubnet, hid, hnamed⟩ :=
    h.taken
  have hne : front ≠ [] := by
    rintro rfl
    simp at hzip
  obtain ⟨rest, rfl, hlength⟩ := given_front hne hearly halone
  obtain ⟨targets, hplan, hall⟩ := forPort_ok_iff.1 halone
  rw [operations_of_ne_nil (by simp)] at hall
  obtain ⟨-, hresolved⟩ := plan_eq_ok_iff.1 hplan
  obtain ⟨early, target, _, rfl, hfront, hown, -⟩ :=
    forall₂_split (resolve_eq_ok_iff.1 hresolved).1.flip
  obtain ⟨hfills, hassigned⟩ := gather_fills (resolve_network hresolved) hall hsound hd
  obtain ⟨left, again, right, hsplit, hleft, hagain, -⟩ := forall₂_split hfills
  rw [← hfront.length_eq, ← hleft.length_eq] at hlength
  obtain ⟨rfl, rfl⟩ := List.append_inj hsplit hlength
  -- Two requests would have the address.
  have hsubnet' : target.subnet = subnet := Except.ok.inj (hown.subnet.symm.trans hsubnet)
  have hip : again = ip := by
    rw [AllocatedIp.mk.injEq, hagain.hits.subnet, hsubnet', hid]
    exact ⟨hagain.hits.address _ (hown.address.trans hnamed), rfl⟩
  obtain ⟨-, -, hapart⟩ := List.nodup_append.1 hassigned.assigns.nodup
  exact hapart ip (List.of_mem_zip hzip).1 again List.mem_cons_self hip.symm

/-- Where some order of requests is met, another is not only if they collide. -/
theorem exists_collides {others : List FixedIpRequest} {given : List AllocatedIp}
    {later : State} (hsound : state.ipam.Sound False state.supply) (hperm : requests.Perm others)
    (h : (forPort config port network requests).run.Alone state (.error error) last)
    (hd : last.supply.Distinct)
    (hothers : (forPort config port network others).run.Alone state (.ok given) later)
    (hlater : later.supply.Distinct) : ∃ ip, Collides config port network state requests ip := by
  by_cases hne : requests = []
  · subst hne
    cases hperm.nil_eq
    cases ((forPort_determined config port network []).determined h hothers).1
  have hne' : others ≠ [] := fun hnil => hne (List.perm_nil.1 (hnil ▸ hperm))
  obtain ⟨others', hplan', hall⟩ := forPort_ok_iff.1 hothers
  obtain ⟨targets, hplan, hperm'⟩ := plan_perm hperm hplan'
  rcases forPort_error hsound hd h with hrefused | ⟨_, ips, mid, hplan'', hgather, hmid⟩
  · cases hrefused.symm.trans hplan
  cases hplan.symm.trans hplan''
  rw [operations_of_ne_nil hne] at hgather
  rw [operations_of_ne_nil hne'] at hall
  have hnetwork := resolve_network (plan_eq_ok_iff.1 hplan').2
  obtain ⟨hfills, hassigned⟩ := gather_fills hnetwork hall hsound hlater
  have hcan : state.ipam.CanFill targets :=
    Ipam.CanFill.perm ⟨_, hassigned.assigns.nodup, hassigned.assigns.free, hfills⟩ hperm'
  obtain ⟨early, target, late, before, rfl, hfront, hgiven, hblocks⟩ :=
    gather_blocked hsound (plan_eq_ok_iff.1 hplan).2 hgather hmid
  obtain ⟨ip, hhits, hnamed, hmem, hfree⟩ := hblocks.taken_before hcan hgiven
  exact ⟨ip, collides_of_given hplan hfront hgiven hhits hnamed hmem hfree⟩

theorem dualStack_exhausted {subnets : List Subnet} (hsound : state.ipam.Sound False state.supply)
    (hd : last.supply.Distinct)
    (hgather : (gather (dualStack port subnets)).Alone state (ips, some error) last) :
    ∃ network, error = .addressesExhausted network := by
  obtain ⟨front, operation, rest, mid, hsplit, hfront, hfails⟩ := gather_failed hgather
  have hallocates := dualStack_allocates port subnets
  have hmem : operation ∈ dualStack port subnets := by simp [hsplit]
  obtain ⟨head, others, rfl, _⟩ := mem_dualStack hmem
  obtain ⟨hext, hexhausted⟩ := generate_ensures False port head others mid _ _ _ hfails
  have hgained := (gather_ensures (fun other hother => hallocates other (by simp [hsplit, hother]))
    state [] _ _ _ hfront).2 (hd.of_extends hext) (.nil hsound)
  exact ⟨_, (hexhausted hd ⟨rfl, hgained.sound⟩).2.1⟩

/-- An address that is in use was so before, or since a request that names none was given it. -/
theorem collides_or_taken {held : NetworkId} {address : Address}
    (hsound : state.ipam.Sound False state.supply) (hd : last.supply.Distinct)
    (h : (forPort config port network requests).run.Alone state
      (.error (.addressInUse held address)) last) :
    (∃ ip, Collides config port network state requests ip) ∨
      ∃ request ∈ requests, request.Taken network state.ipam := by
  rcases forPort_error hsound hd h with hrefused | ⟨targets, ips, mid, hplan, hgather, hmid⟩
  · obtain ⟨_, ⟨⟩⟩ := plan_isInput hrefused
  by_cases hne : requests = []
  · subst hne
    obtain ⟨_, ⟨⟩⟩ := dualStack_exhausted hsound hmid hgather
  rw [operations_of_ne_nil hne] at hgather
  obtain ⟨-, hresolved⟩ := plan_eq_ok_iff.1 hplan
  obtain ⟨early, target, late, before, rfl, hfront, hgiven, hblocks⟩ :=
    gather_blocked hsound hresolved hgather hmid
  cases hblocks with
  | @taken ip hits named had =>
    by_cases hfree : state.ipam.allocation? ip = none
    · have hmem := had.resolve_left fun hhad => hhad hfree
      exact .inl ⟨ip, collides_of_given hplan hfront hgiven hits named hmem hfree⟩
    · obtain ⟨_, request, _, rfl, _, hown, _⟩ := forall₂_split (resolve_eq_ok_iff.1 hresolved).1
      refine .inr ⟨request, by simp, target.subnet, ip.address, hown.subnet,
        hown.address.symm.trans named, ?_⟩
      rw [← hits.subnet]
      exact hfree

end Allocation

namespace Scene

variable {allowed : Setup → Command → Prop} {moves : List Move} {first scene : Scene}

/-- Whatever was asked before, if a port can be given what it asks for in some order, it can in another
just if there no request that names no address is given one that a later request names. But for that,
an address is in use only if it was before. -/
theorem Run.met_in_order_iff (run : Run allowed first moves scene) (hfirst : first.Initial)
    (hfresh : ∀ move ∈ moves, move.Fresh) (config : Config) (port : PortId) (network : NetworkId)
    {requests others : List FixedIpRequest} (hperm : requests.Perm others)
    {result result' : Except Error (List AllocatedIp)} {last last' : State}
    (halone : (Allocation.forPort config port network requests).run.Alone scene.state result last)
    (halone' : (Allocation.forPort config port network others).run.Alone scene.state result' last')
    (hd : last.supply.Distinct) (hd' : last'.supply.Distinct) :
    ((∃ ips, result' = .ok ips) → ((∃ ips, result = .ok ips) ↔
      ¬ ∃ ip, Allocation.Collides config port network scene.state requests ip)) ∧
    ∀ held address, result = .error (.addressInUse held address) →
      (∃ ip, Allocation.Collides config port network scene.state requests ip) ∨
      ∃ request ∈ requests, request.Taken network scene.state.ipam := by
  have hfaithful : Faithful False moves scene.state := run.faithful hfirst hfresh nofun
  have hsound := hfaithful.sound
  refine ⟨?_, ?_⟩
  · rintro ⟨ips', rfl⟩
    constructor
    · rintro ⟨ips, rfl⟩ ⟨ip, hcollides⟩
      exact hcollides.not_allocated hsound hd halone
    · intro hclear
      cases result with
      | ok ips => exact ⟨ips, rfl⟩
      | error error =>
        exact absurd (Allocation.exists_collides hsound hperm halone hd halone' hd') hclear
  · rintro held address rfl
    exact Allocation.collides_or_taken hsound hd halone

/-- A subnet of which nobody has an address. -/
def vacancy : List Move × Scene := sample.play (
  .start {} (.createSubnet .sample) :: Turn.moves 0 2)

/-- A port asks for any address of the subnet and for the lowest, one way and the other. -/
def vague : FixedIpRequest := { subnet := some ⟨0⟩ }

def lowest : FixedIpRequest := { address := some (.sample 2) }

theorem vacancy_run : Run (fun setup _ => setup.drivers = []) sample vacancy.1 vacancy.2 :=
  play_run (by decide +kernel)

theorem vacancy_fresh : ∀ move ∈ vacancy.1, move.Fresh := by decide +kernel

theorem vague_first_alone : ∃ error last,
    (Allocation.forPort {} ⟨9⟩ ⟨7⟩ [vague, lowest]).run.Alone vacancy.2.state (.error error) last ∧
      last.supply.Distinct :=
  (Allocation.forPort {} ⟨9⟩ ⟨7⟩ [vague, lowest]).performs_error [] vacancy.2.state
    (P := fun last => last.supply.Distinct) (by decide +kernel)

theorem lowest_first_alone : ∃ ips last,
    (Allocation.forPort {} ⟨9⟩ ⟨7⟩ [lowest, vague]).run.Alone vacancy.2.state (.ok ips) last ∧
      last.supply.Distinct :=
  (Allocation.forPort {} ⟨9⟩ ⟨7⟩ [lowest, vague]).performs_ok [] vacancy.2.state
    (P := fun _ last => last.supply.Distinct) (by decide +kernel)

theorem vacancy_collides :
    ∃ ip, Allocation.Collides {} ⟨9⟩ ⟨7⟩ vacancy.2.state [vague, lowest] ip := by
  obtain ⟨error, last, halone, hd⟩ := vague_first_alone
  obtain ⟨ips, last', halone', hd'⟩ := lowest_first_alone
  have ⟨hmet, _⟩ := vacancy_run.met_in_order_iff sample_initial vacancy_fresh {} ⟨9⟩ ⟨7⟩
    (.swap lowest vague []) halone halone' hd hd'
  by_contra hclear
  obtain ⟨_, ⟨⟩⟩ := (hmet ⟨ips, rfl⟩).2 hclear

/-- What a port asks for may be met in one order and not in another. -/
theorem not_met_in_every_order : ¬ ∀ (allowed : Setup → Command → Prop) (first scene : Scene)
    (moves : List Move) (config : Config) (port : PortId) (network : NetworkId)
    (requests others : List FixedIpRequest) (result result' : Except Error (List AllocatedIp))
    (last last' : State), Run allowed first moves scene → first.Initial →
    (∀ move ∈ moves, move.Fresh) → scene.running = [] → requests.Perm others →
    (Allocation.forPort config port network requests).run.Alone scene.state result last →
    (Allocation.forPort config port network others).run.Alone scene.state result' last' →
    ((∃ ips, result = .ok ips) ↔ ∃ ips, result' = .ok ips) := by
  intro h
  obtain ⟨error, last, halone, _⟩ := vague_first_alone
  obtain ⟨ips, last', halone', _⟩ := lowest_first_alone
  have hrunning : vacancy.2.running = [] := List.isEmpty_iff.1 (by decide +kernel)
  have hsame := h _ _ _ _ _ _ _ _ _ _ _ last last' vacancy_run sample_initial vacancy_fresh hrunning
    (.swap lowest vague []) halone halone'
  obtain ⟨_, ⟨⟩⟩ := hsame.2 ⟨ips, rfl⟩

end Scene

end ControlPlane
