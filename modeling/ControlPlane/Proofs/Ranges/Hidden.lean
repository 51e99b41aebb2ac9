import ControlPlane.Proofs.Ranges.Generation
import ControlPlane.Proofs.Ranges.Reachable

/-! Hidden addresses: those of a pool that nobody has and that no range shows. An address may be
hidden by a release that does not reclaim it, but by nothing else. -/

namespace ControlPlane

open Ip (Address freeRuns)

namespace Ipam

/-- Nobody has an address of a pool, but no range of the pool shows it. -/
structure Hides (ipam : Ipam) (p : PoolId) (a : Address) : Prop where
  unused : ∃ pool, ipam.pools.find? p = some pool ∧ pool.span.contains a = true ∧
    ipam.allocations.find? (pool.subnet, a) = none
  hidden : ¬ Free ipam.ranges p a

/-- The ranges of every pool are its free runs. -/
def Shown (ipam : Ipam) : Prop :=
  ∀ subnet, ∀ pool ∈ ipam.poolsOf subnet, (ipam.poolRanges pool.id).map FreeRange.span =
    freeRuns pool.span ((ipam.allocationsOf subnet).map Allocation.address)

/-- What is changed is ranges and allocations only, and nothing was hidden by that. -/
structure Reveals (before after : Ipam) : Prop where
  grounds : after.grounds = before.grounds
  hides : ∀ ⦃p a⦄, after.Hides p a → before.Hides p a

variable {eager : Prop} {ipam before mid after kept : Ipam} {supply : Supply}
  {ranges : Table RangeId FreeRange} {pool : Pool} {p : PoolId} {a address : Address}
  {allocation : Allocation}

theorem Reveals.refl (ipam : Ipam) : ipam.Reveals ipam := ⟨rfl, fun _ _ h => h⟩

theorem Reveals.trans (h : before.Reveals mid) (h' : mid.Reveals after) : before.Reveals after :=
  ⟨h'.grounds.trans h.grounds, fun _ _ hh => h.hides (h'.hides hh)⟩

/-- An address that is taken from its range is allocated, so it is not hidden. -/
theorem reveals_taken (ht : Taken ipam.pools ipam.ranges ranges supply p address)
    (hp : ipam.pools.find? p = some pool) (hs : pool.subnet = allocation.subnet)
    (ha : address = allocation.address)
    (hk : ({ ipam with ranges } : Ipam).insertAllocation allocation = .ok kept) :
    ipam.Reveals kept := by
  rw [insertAllocation_eq hk]
  refine ⟨rfl, fun q a ⟨⟨pool', hq, hc, hnone⟩, hhidden⟩ => ?_⟩
  rw [Table.find?_insert] at hnone
  split at hnone
  · cases hnone
  · rename_i hne
    refine ⟨⟨pool', hq, hc, hnone⟩, fun hf => hhidden ((ht.free q a).2 ⟨hf, ?_⟩)⟩
    rintro ⟨rfl, rfl⟩
    rw [hp] at hq
    cases hq
    exact hne (by rw [hs, ha])

theorem reveals_insert (hk : ipam.insertAllocation allocation = .ok kept) : ipam.Reveals kept := by
  rw [insertAllocation_eq hk]
  refine ⟨rfl, fun q a ⟨⟨pool, hq, hc, hnone⟩, hhidden⟩ => ⟨⟨pool, hq, hc, ?_⟩, hhidden⟩⟩
  rw [Table.find?_insert] at hnone
  split at hnone
  · cases hnone
  · exact hnone

theorem Sound.reveals_rebuilt {subnet : SubnetId} (h : ipam.Sound eager supply)
    (hr : PoolsRebuilt ipam ((ipam.allocationsOf subnet).map Allocation.address)
      (ipam.poolsOf subnet) ranges supply) : ipam.Reveals { ipam with ranges } := by
  refine ⟨rfl, fun p a ⟨⟨pool, hp, hc, hnone⟩, hhidden⟩ => ⟨⟨pool, hp, hc, hnone⟩, fun hf => ?_⟩⟩
  by_cases hs : pool.subnet = subnet
  · refine hhidden ((hr.own p pool a hp (mem_poolsOf.2 ⟨⟨p, hp⟩, hs⟩)).2 ⟨hc, fun hm => ?_⟩)
    rw [hs] at hnone
    exact h.mem_allocated.1 hm hnone
  · exact hhidden ((hr.other p pool a hp fun hm => hs (mem_poolsOf.1 hm).2).2 hf)

/-- An address that is released shows in its pool, if it is reclaimed. -/
theorem reveals_released {subnet : SubnetId}
    (hf : ∀ p pool a, ipam.pools.find? p = some pool → (Free ranges p a ↔ Free ipam.ranges p a ∨
      (True ∧ pool.subnet = subnet ∧ a = address ∧ pool.span.contains a = true))) :
    ipam.Reveals { ipam.eraseAllocation subnet address with ranges } := by
  refine ⟨rfl, fun p a ⟨⟨pool, hp, hc, hnone⟩, hhidden⟩ => ?_⟩
  rw [hf p pool a hp, not_or] at hhidden
  refine ⟨⟨pool, hp, hc, ?_⟩, hhidden.1⟩
  simp only [eraseAllocation, Table.find?_erase] at hnone
  split at hnone
  · rename_i hkey
    rw [Prod.mk.injEq] at hkey
    exact absurd ⟨trivial, hkey.1, hkey.2, hc⟩ hhidden.2
  · exact hnone

theorem Reveals.pools (h : before.Reveals after) : after.pools = before.pools := by
  show after.grounds.pools = before.grounds.pools
  rw [h.grounds]

theorem Reveals.free (h : before.Reveals after) (hs : before.Sound eager supply)
    (ha : after.allocations = before.allocations) (hf : Free before.ranges p a) :
    Free after.ranges p a := by
  obtain ⟨id, range, hr, rfl, hc⟩ := hf
  obtain ⟨pool, hp, _, hw⟩ := hs.tidy.within hr
  have hf : Free before.ranges range.pool a := ⟨id, range, hr, rfl, hc⟩
  refine Classical.byContradiction fun hn => ?_
  refine (h.hides ⟨⟨pool, ?_, hw.contains hc, ?_⟩, hn⟩).hidden hf
  · rw [h.pools]
    exact hp
  · rw [ha]
    exact hs.exclusive hp hf

/-- Ranges that are all free runs hide nothing, and stay what they are unless addresses are hidden. -/
theorem Reveals.poolRanges_eq {later : Supply} (h : before.Reveals after)
    (hs : before.Sound False supply) (hs' : after.Sound False later)
    (ha : after.allocations = before.allocations) (hshown : before.Shown)
    {subnet : SubnetId} (hp : pool ∈ before.poolsOf subnet) :
    (after.poolRanges pool.id).map FreeRange.span =
      (before.poolRanges pool.id).map FreeRange.span := by
  -- Nothing was hidden, so nothing is; then the ranges are the free runs of the same addresses.
  have hnothing (p : PoolId) (a : Address) : ¬ before.Hides p a := by
    rintro ⟨⟨pool, hp, hc, hnone⟩, hhidden⟩
    have hproper := (hs.laid.pool hp).2.2.1
    have hruns := hshown pool.subnet pool (mem_poolsOf.2 ⟨⟨p, hp⟩, rfl⟩)
    refine hhidden (exists_mem_poolRanges.1 ?_)
    rw [← (hs.laid.pool hp).1, hruns, Ip.exists_mem_freeRuns hproper, hs.mem_allocated,
      Decidable.not_not]
    exact ⟨hc, hnone⟩
  have hcovered : Covered after.pools after.ranges after.allocations :=
    fun p pool a hp hc hnone => Classical.byContradiction fun hn =>
      hnothing p a (h.hides ⟨⟨pool, hp, hc, hnone⟩, hn⟩)
  have hsound : after.Sound True later := { hs' with covered := fun _ => hcovered }
  have hp' : pool ∈ after.poolsOf subnet := by
    rw [poolsOf, h.pools]
    exact hp
  rw [hsound.poolRanges_eq hp', hshown subnet pool hp, allocationsOf, ha, allocationsOf]

end Ipam

/-- A transaction that hides no address. -/
def Tx.Reveals {α : Type} (tx : Tx Ipam α) : Prop :=
  ∀ ipam, tx.Ensures (fun tables supply => tables = ipam ∧ ipam.Sound False supply)
    (fun _ tables supply => tables.Sound False supply ∧ ipam.Reveals tables) fun _ => True

theorem Tx.Reveals.of_sound {α : Type} {tx : Tx Ipam α}
    (hs : tx.Ensures (Ipam.Sound False) (fun _ => Ipam.Sound False) fun _ => True)
    (h : ∀ ipam, tx.Ensures (fun tables supply => tables = ipam ∧ ipam.Sound False supply)
      (fun _ tables _ => ipam.Reveals tables) fun _ => True) : tx.Reveals := fun ipam =>
  (hs.and (h ipam)).weaken (fun _ _ _ hp => ⟨hp.1 ▸ hp.2, hp⟩) (fun _ _ _ _ hp => hp)
    fun _ _ => trivial

namespace Allocation

open Ipam

theorem read_reveals {α : Type} (f : Ipam → α) :
    (do return .commit (f (← get)) : Tx Ipam (Ending α)).Reveals := by
  refine fun ipam => Tx.ensures_get_bind fun seen => Tx.ensures_pure ?_
  rintro _ supply ⟨rfl, rfl, h⟩
  exact ⟨h, .refl _⟩

theorem insert_reveals (ipam : Ipam) (range : FreeRange) (allocation : Allocation) :
    (Tx.change fun tables => tables.insertAllocation allocation).Ensures
      (fun tables supply => ipam.Sound False supply ∧ ∃ ranges pool,
        tables = { ipam with ranges } ∧
        Taken ipam.pools ipam.ranges ranges supply range.pool allocation.address ∧
        ipam.pools.find? range.pool = some pool ∧ pool.subnet = allocation.subnet ∧
        pool.span.contains allocation.address = true)
      (fun _ tables _ => ipam.Reveals tables) fun _ => True := by
  refine Tx.ensures_change ?_
  rintro _ supply ⟨_, ranges, pool, rfl, ht, hp, hs, _⟩
  split
  · exact reveals_taken ht hp hs rfl ‹_›
  · trivial

theorem takeLowest_reveals (port : PortId) (candidates : List Subnet) :
    (takeLowest port candidates).Reveals := by
  refine .of_sound (takeLowest_ensures port candidates) fun ipam => ?_
  induction candidates with
  | nil =>
    refine Tx.ensures_pure ?_
    rintro _ _ ⟨rfl, _⟩
    exact .refl _
  | cons subnet rest ih =>
    refine Tx.ensures_get_bind fun seen => ?_
    dsimp only
    split
    · rename_i stored range others hs hr
      have hmem : range ∈ seen.rangesOf subnet.id := by simp [hr]
      let allocation : Allocation := ⟨subnet.network, subnet.id, range.span.first, port⟩
      have htake := ((take_ensures False seen range range.span.first subnet.id).frame
        (fun _ => seen = ipam) fun _ _ _ h => h).any_fails
      have hinsert := ((insert_reveals seen range allocation).frame (fun _ => seen = ipam)
        fun _ _ _ h => h)
      refine (htake.of_pre ?_).bind fun _ => hinsert.bind fun _ => Tx.ensures_pure ?_
      · rintro _ supply _ ⟨rfl, rfl, h⟩
        exact ⟨rfl, rfl, h, hmem, h.contains_first hmem⟩
      · rintro _ _ ⟨rfl, h⟩
        exact h
    · refine ih.of_pre ?_
      rintro _ _ _ ⟨_, h⟩
      exact h

theorem generateTx_reveals (port : PortId) (network : NetworkId) (candidates : List Subnet) :
    (generateTx port network candidates).Reveals := by
  refine fun ipam => (takeLowest_reveals port candidates ipam).bind fun found => ?_
  cases found with
  | none => exact Tx.ensures_throw fun _ _ _ => trivial
  | some ip => exact Tx.ensures_pure fun _ _ h => h

theorem allocateTx_reveals (port : PortId) (subnet : Subnet) (address : Address) :
    (allocateTx port subnet address).Reveals := by
  refine .of_sound (allocateTx_ensures False port subnet address).any_fails fun ipam => ?_
  refine Tx.ensures_get_bind fun seen => ?_
  dsimp only
  refine Tx.ensures_guard (fun _ _ _ _ => trivial) fun _ => ?_
  refine Tx.ensures_guard (fun _ _ _ _ => trivial) fun _ => ?_
  let allocation : Allocation := ⟨subnet.network, subnet.id, address, port⟩
  split
  · rename_i range hr
    have ha := List.find?_some hr
    have hmem := List.mem_of_find?_eq_some hr
    have htake := ((take_ensures False seen range address subnet.id).frame
      (fun _ => seen = ipam) fun _ _ _ h => h).any_fails
    have hinsert := ((insert_reveals seen range allocation).frame (fun _ => seen = ipam)
      fun _ _ _ h => h)
    refine (htake.of_pre ?_).bind fun _ => hinsert.bind fun _ => Tx.ensures_pure ?_
    · rintro _ supply _ ⟨rfl, rfl, h⟩
      exact ⟨rfl, rfl, h, hmem, ha⟩
    · rintro _ _ ⟨rfl, h⟩
      exact h
  · have hinsert : (Tx.change fun tables => tables.insertAllocation allocation).Ensures
        (fun tables supply => tables = seen ∧ tables = ipam ∧ ipam.Sound False supply)
        (fun _ tables _ => ipam.Reveals tables) fun _ => True := by
      refine Tx.ensures_change ?_
      rintro _ _ ⟨rfl, rfl, _⟩
      split
      · exact reveals_insert ‹_›
      · trivial
    exact hinsert.bind fun _ => Tx.ensures_pure fun _ _ h => h

theorem rebuildTx_reveals (id : SubnetId) : (rebuildTx id).Reveals := by
  refine fun ipam => Tx.ensures_get_bind fun seen => ?_
  split
  · refine Tx.ensures_pure ?_
    rintro _ _ ⟨rfl, rfl, h⟩
    exact ⟨h, .refl _⟩
  · have hpools := ((Ipam.rebuild_pools False ipam id).frame (fun _ => seen = ipam)
      fun _ _ _ h => h).any_fails
    refine (hpools.of_pre ?_).bind fun _ => Tx.ensures_pure ?_
    · rintro _ _ _ ⟨rfl, rfl, h⟩
      exact ⟨rfl, rfl, h⟩
    · rintro _ supply ⟨rfl, h, ranges, rfl, hr⟩
      exact ⟨hr.sound h, h.reveals_rebuilt hr⟩

/-- What is given back is reclaimed, so it is not hidden. -/
theorem releaseTx_reveals (ip : AllocatedIp) : (releaseTx true ip).Reveals := by
  refine .of_sound (releaseTx_ensures False.elim ip).any_fails fun ipam => ?_
  refine Tx.ensures_get_bind fun seen => ?_
  dsimp only
  split
  · refine Tx.ensures_pure ?_
    rintro _ _ ⟨rfl, rfl, _⟩
    exact .refl _
  · refine Tx.ensures_modify_bind ?_
    let erased := seen.eraseAllocation ip.subnet ip.address
    have hreclaim := ((Ipam.reclaim_ensures erased ip.subnet ip.address).frame
      (fun _ => seen = ipam) fun _ _ _ h => h).any_fails
    refine (hreclaim.of_pre ?_).bind fun _ => Tx.ensures_pure ?_
    · rintro _ _ _ ⟨_, ⟨rfl, rfl, h⟩, rfl⟩
      exact ⟨rfl, rfl, h.laid, h.tidy⟩
    · rintro _ _ ⟨rfl, ranges, rfl, _, hf⟩
      exact reveals_released hf

end Allocation

end ControlPlane
