import ControlPlane.Proofs.Alone
import ControlPlane.Proofs.Ranges.Generation

/-! Asking for any address, with nothing in between. An address is given exactly when some candidate
has one that is free, however much of it its ranges hide. -/

namespace ControlPlane

open Ip (Address)

namespace Ipam

/-- A subnet has a pool with an address that nobody has. -/
def Available (ipam : Ipam) (id : SubnetId) : Prop :=
  ∃ pool ∈ ipam.poolsOf id, ∃ address, pool.span.contains address = true ∧
    ipam.allocations.find? (id, address) = none

/-- The address that is given is the lowest start of a range in the first candidate that has one, if
any has. -/
def Generates (before : Ipam) (port : PortId) (candidates : List Subnet) (ip : AllocatedIp)
    (after : Ipam) : Prop :=
  ∃ subnet ∈ candidates, subnet.id = ip.subnet ∧ before.Grants port subnet ip.address after ∧
    ∀ offered, candidates.find? before.offers = some offered → offered = subnet ∧
      ∃ range others, before.rangesOf subnet.id = range :: others ∧ ip.address = range.span.first

variable {before mid after : Ipam} {port : PortId} {candidates : List Subnet} {ip : AllocatedIp}
  {subnet : Subnet} {address : Address} {id : SubnetId}

theorem Lowest.generates (h : before.Lowest port candidates (some ip) after) :
    before.Generates port candidates ip after := by
  cases h with
  | taken hf hr hg =>
    refine ⟨_, List.mem_of_find?_eq_some hf, rfl, hg, fun offered ho => ?_⟩
    rw [hf] at ho
    cases ho
    exact ⟨rfl, _, _, hr, rfl⟩

theorem Grants.of_unranged (h : mid.Grants port subnet address after)
    (hu : mid.unranged = before.unranged) : before.Grants port subnet address after := by
  obtain ⟨hnetworks, hsubnets, hpools, hallocations⟩ := unranged_inj.1 hu
  obtain ⟨hstored, hpooled, hfree, hafter, hgrounds⟩ := h
  rw [hsubnets] at hstored
  rw [poolsOf, hpools] at hpooled
  rw [hallocations] at hfree hafter
  have hmid : mid.grounds = before.grounds := by
    simp only [Ipam.grounds, hnetworks, hsubnets, hpools]
  exact ⟨hstored, hpooled, hfree, hafter, hgrounds.trans hmid⟩

theorem Available.of_unranged (h : before.Available id) (hu : mid.unranged = before.unranged) :
    mid.Available id := by
  obtain ⟨_, _, hpools, hallocations⟩ := unranged_inj.1 hu
  unfold Available poolsOf
  rw [hpools, hallocations]
  exact h

theorem Grants.available (h : before.Grants port subnet address after) :
    before.Available subnet.id := by
  obtain ⟨pool, hp, ha⟩ := h.pooled
  exact ⟨pool, hp, address, ha, h.free⟩

end Ipam

/-- A sound state in which nothing has changed but ranges. -/
structure State.Reranged (eager : Prop) (first state : State) : Prop where
  sound : state.ipam.Sound eager state.supply
  ports : state.ports = first.ports
  unranged : state.ipam.unranged = first.ipam.unranged

namespace Allocation

variable (eager : Prop)

open Operation

theorem generateOnce_ensures (port : PortId) (head : Subnet) (rest : List Subnet) (first : State) :
    (generateOnce port (head :: rest)).Ensures
      (fun state => state = first ∧ first.ipam.Sound eager first.supply)
      (fun ip state => state.ipam.Sound eager state.supply ∧ state.ports = first.ports ∧
        first.ipam.Lowest port (head :: rest) (some ip) state.ipam)
      fun error state => first.Reranged eager state ∧ error = .addressesExhausted head.network ∧
        (head :: rest).find? first.ipam.offers = none := by
  have htx := generateTx_lowest eager port head.network (head :: rest) first.ipam
  refine ensures_ipam htx.advances ?_
  rintro before answer after ⟨rfl, h⟩ hr hext hd
  have hports := (State.runIpam_cases hr).1
  rcases State.runIpam_ensures htx hr hd ⟨rfl, h⟩ with
    ⟨error, rfl, hipam, herror⟩ | ⟨_, _, _, _, _, hc, _⟩ | ⟨a, rfl, _, hc, hsound, hl⟩
  · exact ⟨⟨hipam ▸ h.of_extends hext, hports, congrArg Ipam.unranged hipam⟩, herror⟩
  · cases hc
  · cases hc
    exact ⟨hsound, hports, hl⟩

/-- Rebuilding never fails, and leaves nothing hidden in the subnets that it is given. -/
theorem rebuild_ensures (ids : List SubnetId) (first : State) :
    (rebuild ids).Ensures (first.Reranged eager)
      (fun _ state => first.Reranged eager state ∧ ∀ id ∈ ids, state.ipam.CoveredIn id)
      fun _ _ => False := by
  let inv (done : List SubnetId) (state : State) : Prop :=
    first.Reranged eager state ∧ ∀ id ∈ done, state.ipam.CoveredIn id
  have hsnoc {done : List SubnetId} {id : SubnetId} {state : State}
      (h : first.Reranged eager state) (hdone : ∀ id ∈ done, state.ipam.CoveredIn id)
      (hown : state.ipam.CoveredIn id) : inv (done ++ [id]) state :=
    ⟨h, List.forall_mem_append.2 ⟨hdone, List.forall_mem_singleton.2 hown⟩⟩
  refine (ensures_forM inv fun done id rest _ => ?_).of_pre fun state h => ⟨h, List.forall_mem_nil _⟩
  have hread : (Operation.readIpam fun ipam => ipam.subnets.contains id).Ensures (inv done)
      (fun stored state => stored = state.ipam.subnets.contains id ∧ inv done state)
      fun _ _ => False := ensures_readIpam fun state h => ⟨rfl, h⟩
  refine hread.bind fun stored => ?_
  split
  · refine ensures_ipam (rebuildTx_covers eager id {}).advances ?_
    rintro before answer after ⟨_, ⟨h, hports, hu⟩, hdone⟩ hr hext hd
    have hports := (State.runIpam_cases hr).1.trans hports
    rcases State.runIpam_ensures (rebuildTx_covers eager id before.ipam) hr hd ⟨rfl, h⟩
      with ⟨_, _, _, hf⟩ | ⟨_, _, rfl, hipam, hback, _, _, hown, _⟩ |
        ⟨_, rfl, _, hsound, hu', hown, hother⟩
    · exact hf.elim
    · -- Only a subnet that is gone is passed over here, and it has no pools to hide anything.
      rw [hback _ rfl] at hown
      refine hsnoc ⟨?_, hports, ?_⟩ ?_ ?_
      · exact hipam ▸ h.of_extends hext
      · exact hipam ▸ hu
      · exact hipam ▸ hdone
      · exact hipam ▸ hown
    · exact hsnoc ⟨hsound, hports, hu'.trans hu⟩ (fun other ho => hother other (hdone other ho)) hown
  · -- A subnet that is not stored has no pools.
    rename_i hnone
    refine ensures_pure ?_
    rintro state ⟨rfl, h, hdone⟩
    refine hsnoc h hdone fun p pool a hp hs => ?_
    have hstored := (h.sound.laid.pool hp).2.2.2
    rw [hs] at hstored
    exact absurd hstored hnone

/-- Generating from some candidates fails only if none of them has an address left. -/
theorem generate_ensures (port : PortId) (head : Subnet) (rest : List Subnet) (first : State) :
    (generate port (head :: rest)).Ensures
      (fun state => state = first ∧ first.ipam.Sound eager first.supply)
      (fun ip state => state.ipam.Sound eager state.supply ∧ state.ports = first.ports ∧
        first.ipam.Generates port (head :: rest) ip state.ipam)
      fun error state => first.Reranged eager state ∧ error = .addressesExhausted head.network ∧
        ∀ subnet ∈ head :: rest, ¬ first.ipam.Available subnet.id := by
  let Exhausted := (head :: rest).find? first.ipam.offers = none
  let Rebuilt (mid : State) : Prop :=
    first.Reranged eager mid ∧ ∀ id ∈ (head :: rest).map Subnet.id, mid.ipam.CoveredIn id
  have honce := generateOnce_ensures eager port head rest first
  refine Ensures.orElse (honce.weaken (fun _ h => h) ?_ fun _ _ h => h) fun error => ?_
  · rintro ip state ⟨h, hports, hl⟩
    exact ⟨h, hports, hl.generates⟩
  split
  · have hrebuild := rebuild_ensures eager ((head :: rest).map Subnet.id) first
    refine ((hrebuild.beside Exhausted).weaken ?_ (fun _ _ h => h) fun _ _ h => h.2.elim).bind ?_
    · rintro state ⟨h, _, hnone⟩
      exact ⟨hnone, h⟩
    have hagain (mid : State) : (generateOnce port (head :: rest)).Ensures
        (fun state => state = mid ∧ Exhausted ∧ Rebuilt mid) _ _ :=
      (generateOnce_ensures eager port head rest mid).of_pre fun _ h => ⟨h.1, h.2.2.1.sound⟩
    refine fun _ => (Ensures.named hagain).weaken (fun _ h => h) ?_ ?_
    · rintro ip state ⟨mid, ⟨hnone, hmid, _⟩, h, hports, hl⟩
      obtain ⟨subnet, hs, hid, hg, _⟩ := hl.generates
      have hg := hg.of_unranged hmid.unranged
      refine ⟨h, hports.trans hmid.ports, subnet, hs, hid, hg, fun offered ho => ?_⟩
      exact absurd (hnone.symm.trans ho) nofun
    · -- After rebuilding, an address that is left would show in a range.
      rintro error state ⟨mid, ⟨_, hmid, hcovered⟩, ⟨h, hports, hu⟩, herror, hnone⟩
      refine ⟨⟨h, hports.trans hmid.ports, hu.trans hmid.unranged⟩, herror, fun subnet hs ha => ?_⟩
      obtain ⟨pool, hp, address, hc, hfree⟩ := ha.of_unranged hmid.unranged
      have hoffers := (hcovered subnet.id (List.mem_map_of_mem hs)).offers hmid.sound.laid hp hc hfree
      exact List.find?_eq_none.1 hnone subnet hs hoffers
  · refine ensures_throw ?_
    rintro state ⟨_, rfl, _⟩
    rename_i hother
    exact absurd rfl (hother _)

end Allocation

end ControlPlane
