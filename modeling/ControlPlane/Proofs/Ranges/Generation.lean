import ControlPlane.Proofs.Ranges.Placed

/-! Which address a port is given when it asks for any: the lowest start of a range in the first
candidate that has one. Ranges may hide free addresses, but none is hidden once they are rebuilt. -/

namespace ControlPlane

open Ip (Address)

namespace Ipam

/-- Whether a candidate still exists and has a range. -/
def offers (ipam : Ipam) (subnet : Subnet) : Bool :=
  ipam.subnets.contains subnet.id && !(ipam.rangesOf subnet.id).isEmpty

/-- A port is given an address of a pool that nobody had, and nothing else changes but ranges. -/
structure Grants (before : Ipam) (port : PortId) (subnet : Subnet) (address : Address)
    (after : Ipam) : Prop where
  stored : before.subnets.contains subnet.id = true
  pooled : ∃ pool ∈ before.poolsOf subnet.id, pool.span.contains address = true
  free : before.allocations.find? (subnet.id, address) = none
  allocations : after.allocations =
    before.allocations.insert (subnet.id, address) ⟨subnet.network, subnet.id, address, port⟩
  grounds : after.grounds = before.grounds

/-- What is found in the candidates, and what the store becomes. -/
inductive Lowest (before : Ipam) (port : PortId) (candidates : List Subnet) :
    Option AllocatedIp → Ipam → Prop
  | exhausted (h : candidates.find? before.offers = none) : Lowest before port candidates none before
  | taken {subnet : Subnet} {range : FreeRange} {others : List FreeRange} {after : Ipam}
    (h : candidates.find? before.offers = some subnet)
    (hr : before.rangesOf subnet.id = range :: others)
    (hg : before.Grants port subnet range.span.first after) :
    Lowest before port candidates (some ⟨range.span.first, subnet.id⟩) after

/-- No free address of a subnet is hidden from its ranges. -/
def CoveredIn (ipam : Ipam) (subnet : SubnetId) : Prop :=
  ∀ ⦃p pool a⦄, ipam.pools.find? p = some pool → pool.subnet = subnet →
    pool.span.contains a = true → ipam.allocations.find? (subnet, a) = none → Free ipam.ranges p a

variable {eager : Prop} {ipam before after tables : Ipam} {supply : Supply} {subnet : Subnet}
  {range : FreeRange} {address : Address} {allocation : Allocation} {port : PortId}
  {candidates : List Subnet} {id : SubnetId}

theorem insertAllocation_of_none
    (h : ipam.allocations.find? (allocation.subnet, allocation.address) = none) :
    ipam.insertAllocation allocation = .ok { ipam with
      allocations := ipam.allocations.insert (allocation.subnet, allocation.address) allocation } := by
  simp [insertAllocation, Table.contains, h]

theorem Sound.contains_first (h : ipam.Sound eager supply) (hr : range ∈ ipam.rangesOf id) :
    range.span.contains range.span.first = true := by
  obtain ⟨_, _, _, hspan, _⟩ := h.exists_pool hr
  exact hspan.contains_first

theorem offers_iff : ipam.offers subnet = true ↔ ipam.subnets.contains subnet.id = true ∧
    ∃ range others, ipam.rangesOf subnet.id = range :: others := by
  unfold offers
  cases ipam.rangesOf subnet.id <;> simp

/-- An address of a pool can be hidden from the ranges only as long as they are not rebuilt. -/
theorem CoveredIn.offers (h : ipam.CoveredIn subnet.id) (hlaid : Laid ipam.subnets ipam.pools supply)
    {pool : Pool} (hp : pool ∈ ipam.poolsOf subnet.id) (ha : pool.span.contains address = true)
    (hfree : ipam.allocations.find? (subnet.id, address) = none) : ipam.offers subnet = true := by
  obtain ⟨⟨p, hp⟩, hs⟩ := mem_poolsOf.1 hp
  obtain ⟨id, range, hr, rfl, _⟩ := h hp hs ha hfree
  have hmem : range ∈ ipam.rangesOf subnet.id := (mem_rangesOf hlaid).2 ⟨⟨id, hr⟩, pool, hp, hs⟩
  obtain ⟨first, others, hranges⟩ := List.exists_cons_of_ne_nil (List.ne_nil_of_mem hmem)
  exact offers_iff.2 ⟨hs ▸ (hlaid.pool hp).2.2.2, first, others, hranges⟩

/-- What is given from a known subnet can be the address of a host. -/
theorem Grants.seated {known : Subnet → Prop} (h : before.Grants port subnet address after)
    (hc : before.Charted known supply) (hk : known subnet) :
    before.subnets.find? subnet.id = some subnet ∧ subnet.isHostAddress address = true ∧
      subnet.gateway ≠ some address := by
  obtain ⟨stored, hstored⟩ := Table.contains_iff.1 h.stored
  obtain rfl := hc.same hk hstored
  obtain ⟨pool, hp, ha⟩ := h.pooled
  obtain ⟨⟨p, hfind⟩, hsub⟩ := mem_poolsOf.1 hp
  exact ⟨hstored, hc.placed hfind (hsub ▸ hstored) address ha⟩

end Ipam

namespace Allocation

variable (eager : Prop)

open Ipam

theorem insert_grants {ipam : Ipam} {range : FreeRange} {subnet : Subnet} (port : PortId)
    (hs : ipam.subnets.contains subnet.id = true) (hr : range ∈ ipam.rangesOf subnet.id) :
    (Tx.change fun tables =>
        tables.insertAllocation ⟨subnet.network, subnet.id, range.span.first, port⟩).Ensures
      (fun tables supply => ipam.Sound eager supply ∧ ∃ ranges pool,
        tables = { ipam with ranges } ∧
        Taken ipam.pools ipam.ranges ranges supply range.pool range.span.first ∧
        ipam.pools.find? range.pool = some pool ∧ pool.subnet = subnet.id ∧
        pool.span.contains range.span.first = true)
      (fun _ tables supply => tables.Sound eager supply ∧
        ipam.Grants port subnet range.span.first tables)
      fun _ => False := by
  refine Tx.ensures_change ?_
  rintro _ supply ⟨h, ranges, pool, rfl, ht, hp, hsub, ha⟩
  obtain ⟨⟨id, hid⟩, _⟩ := (mem_rangesOf h.laid).1 hr
  -- No range holds an allocated address, so what is taken from one can be allocated.
  have hfree : ipam.allocations.find? (subnet.id, range.span.first) = none :=
    hsub ▸ h.exclusive hp ⟨id, range, hid, rfl, h.contains_first hr⟩
  have hinsert : ({ ipam with ranges } : Ipam).insertAllocation
      ⟨subnet.network, subnet.id, range.span.first, port⟩ = .ok _ :=
    insertAllocation_of_none (by exact hfree)
  rw [hinsert]
  exact ⟨h.allocate_taken ht hp ha hsub.symm rfl hinsert, hs,
    ⟨pool, mem_poolsOf.2 ⟨⟨_, hp⟩, hsub⟩, ha⟩, hfree, rfl, rfl⟩

/-- Taking the lowest start of a range never fails, and finds one if there is any. -/
theorem takeLowest_lowest (port : PortId) (candidates : List Subnet) (ipam : Ipam) :
    (takeLowest port candidates).Ensures
      (fun tables supply => tables = ipam ∧ ipam.Sound eager supply)
      (fun found tables supply => tables.Sound eager supply ∧
        ipam.Lowest port candidates found tables)
      fun _ => False := by
  -- The first candidate that offers a range ends the search, so all before it offer none.
  induction candidates with
  | nil =>
    refine Tx.ensures_pure ?_
    rintro _ supply ⟨rfl, h⟩
    exact ⟨h, .exhausted rfl⟩
  | cons subnet rest ih =>
    refine Tx.ensures_get_bind fun seen => ?_
    dsimp only
    split
    · rename_i stored range others hs hr
      have hmem : range ∈ seen.rangesOf subnet.id := by simp [hr]
      have hstored : seen.subnets.contains subnet.id = true := Table.contains_iff.2 ⟨stored, hs⟩
      have hoffers : seen.offers subnet = true := offers_iff.2 ⟨hstored, range, others, hr⟩
      have htake := (take_ensures eager seen range range.span.first subnet.id).frame
        (fun _ => seen = ipam) fun _ _ _ h => h
      have hinsert := (insert_grants eager port hstored hmem).frame
        (fun _ => seen = ipam) fun _ _ _ h => h
      refine (htake.of_pre ?_).bind fun _ => hinsert.bind fun _ => Tx.ensures_pure ?_
      · rintro _ supply _ ⟨rfl, rfl, h⟩
        exact ⟨rfl, rfl, h, hmem, h.contains_first hmem⟩
      · rintro _ supply ⟨rfl, h, hg⟩
        exact ⟨h, .taken (List.find?_cons_of_pos hoffers) hr hg⟩
    · rename_i hnone
      have hoffers : seen.offers subnet = false := by
        rw [Bool.eq_false_iff]
        intro ho
        obtain ⟨hs, range, others, hr⟩ := offers_iff.1 ho
        obtain ⟨stored, hs⟩ := Table.contains_iff.1 hs
        exact hnone stored range others hs hr
      have hrest := ih.frame (fun _ => seen = ipam) fun _ _ _ h => h
      refine hrest.weaken ?_ ?_ fun _ h => h
      · rintro _ supply _ ⟨rfl, rfl, h⟩
        exact ⟨rfl, rfl, h⟩
      · rintro found tables supply _ ⟨rfl, h, hl⟩
        refine ⟨h, ?_⟩
        cases hl with
        | exhausted hf => exact .exhausted ((List.find?_cons_of_neg (by simp [hoffers])).trans hf)
        | taken hf hr hg => exact .taken ((List.find?_cons_of_neg (by simp [hoffers])).trans hf) hr hg

/-- Generating fails only when no candidate has a range, and then for want of addresses. -/
theorem generateTx_lowest (port : PortId) (network : NetworkId) (candidates : List Subnet)
    (ipam : Ipam) :
    (generateTx port network candidates).Ensures
      (fun tables supply => tables = ipam ∧ ipam.Sound eager supply)
      (fun ending tables supply => ∃ ip, ending = .commit ip ∧ tables.Sound eager supply ∧
        ipam.Lowest port candidates (some ip) tables)
      fun error => error = .addressesExhausted network ∧ candidates.find? ipam.offers = none := by
  have htake := takeLowest_lowest eager port candidates ipam
  refine (htake.weaken (fun _ _ _ h => h) (fun _ _ _ _ h => h) fun _ h => h.elim).bind fun found => ?_
  cases found with
  | none =>
    refine Tx.ensures_throw ?_
    rintro _ supply ⟨_, hl⟩
    cases hl with
    | exhausted hf => exact ⟨rfl, hf⟩
  | some ip => exact Tx.ensures_pure fun _ _ h => ⟨ip, rfl, h⟩

/-- A subnet that is rebuilt hides no free address, and the other subnets hide no more than before. -/
theorem rebuildTx_covers (id : SubnetId) (ipam : Ipam) :
    (rebuildTx id).Ensures (fun tables supply => tables = ipam ∧ ipam.Sound eager supply)
      (fun ending tables supply => (∀ u, ending = .rollback u → tables = ipam) ∧
        tables.Sound eager supply ∧ tables.unranged = ipam.unranged ∧ tables.CoveredIn id ∧
        ∀ other, ipam.CoveredIn other → tables.CoveredIn other)
      fun _ => False := by
  refine Tx.ensures_get_bind fun seen => ?_
  split
  · rename_i hnone
    refine Tx.ensures_pure ?_
    rintro _ supply ⟨rfl, rfl, h⟩
    refine ⟨fun _ _ => rfl, h, rfl, fun p pool a hp hs => ?_, fun _ hc => hc⟩
    have hstored := (h.laid.pool hp).2.2.2
    rw [hs] at hstored
    rw [hstored] at hnone
    cases hnone
  · have hpools := (Ipam.rebuild_pools eager ipam id).frame (fun _ => seen = ipam) fun _ _ _ h => h
    refine (hpools.of_pre ?_).bind fun _ => Tx.ensures_pure ?_
    · rintro _ supply _ ⟨rfl, rfl, h⟩
      exact ⟨rfl, rfl, h⟩
    · rintro _ supply ⟨rfl, h, ranges, rfl, hr⟩
      have hown : ({ seen with ranges } : Ipam).CoveredIn id := by
        intro p pool a hp hs ha hfree
        refine (hr.own p pool a hp (mem_poolsOf.2 ⟨⟨p, hp⟩, hs⟩)).2 ⟨ha, fun hm => ?_⟩
        exact h.mem_allocated.1 hm hfree
      refine ⟨nofun, hr.sound h, rfl, hown, fun other hc => ?_⟩
      by_cases heq : other = id
      · exact heq ▸ hown
      · intro p pool a hp hs ha hfree
        refine (hr.other p pool a hp fun hm => heq ?_).2 (hc hp hs ha hfree)
        exact hs.symm.trans (mem_poolsOf.1 hm).2

end Allocation

end ControlPlane
