import ControlPlane.Network.Lifecycle
import ControlPlane.Allocation.Single
import ControlPlane.Proofs.Ranges.Sound

/-! Each transaction of the address store keeps it sound. -/

namespace ControlPlane

open Ip (Address Span)

variable {eager : Prop} {ipam kept : Ipam} {supply : Supply} {ranges : Table RangeId FreeRange}
  {subnet : SubnetId} {address : Address} {allocation : Allocation} {p : PoolId} {pool : Pool}
  {range : FreeRange}

theorem Ipam.insertAllocation_eq (h : ipam.insertAllocation allocation = .ok kept) :
    kept = { ipam with
      allocations := ipam.allocations.insert (allocation.subnet, allocation.address) allocation } := by
  simp only [insertAllocation] at h
  split at h
  · cases h
  · exact (Except.ok.inj h).symm

theorem Ipam.insertAllocation_eq_error {error : Error}
    (h : ipam.insertAllocation allocation = .error error) :
    error = .addressInUse allocation.network allocation.address := by
  simp only [insertAllocation] at h
  split at h
  · exact (Except.error.inj h).symm
  · cases h

theorem Ipam.Sound.allocate_taken (h : ipam.Sound eager supply)
    (ht : Taken ipam.pools ipam.ranges ranges supply p address)
    (hp : ipam.pools.find? p = some pool) (ha : pool.span.contains address = true)
    (hs : allocation.subnet = pool.subnet) (hal : allocation.address = address)
    (hk : ({ ipam with ranges } : Ipam).insertAllocation allocation = .ok kept) :
    kept.Sound eager supply := by
  rw [insertAllocation_eq hk]
  refine h.allocate (hs ▸ (h.laid.pool hp).2.2.2) ht.tidy fun q pool' a hq => ?_
  rw [ht.free, and_congr_right_iff]
  intro hf
  refine not_congr ?_
  rw [hs, hal, and_congr_left_iff]
  rintro rfl
  constructor
  · rintro rfl
    rw [hp] at hq
    rw [Option.some.inj hq]
  · exact fun hsub => h.laid.pool_unique hq hp hsub (h.tidy.pool_contains hq hf) ha

theorem Ipam.Sound.allocate_outside (h : ipam.Sound eager supply)
    (hs : ipam.subnets.contains allocation.subnet = true)
    (hf : ∀ p pool, ipam.pools.find? p = some pool → pool.subnet = allocation.subnet →
      ¬ Free ipam.ranges p allocation.address)
    (hk : ipam.insertAllocation allocation = .ok kept) : kept.Sound eager supply := by
  rw [insertAllocation_eq hk]
  refine h.allocate hs h.tidy fun p pool a hp => (and_iff_left_of_imp ?_).symm
  rintro ha ⟨hsub, rfl⟩
  exact hf p pool hp hsub ha

namespace Allocation

theorem take_ensures (eager : Prop) (ipam : Ipam) (range : FreeRange) (address : Address)
    (subnet : SubnetId) :
    (range.take address).Ensures
      (fun tables supply => tables = ipam ∧ ipam.Sound eager supply ∧
        range ∈ ipam.rangesOf subnet ∧ range.span.contains address = true)
      (fun _ tables supply => ipam.Sound eager supply ∧ ∃ ranges pool,
        tables = { ipam with ranges } ∧
        Taken ipam.pools ipam.ranges ranges supply range.pool address ∧
        ipam.pools.find? range.pool = some pool ∧ pool.subnet = subnet ∧
        pool.span.contains address = true)
      fun _ => False := by
  have htake := (range.take_ensures ipam address).frame
    (fun supply => ipam.Sound eager supply ∧ range ∈ ipam.rangesOf subnet ∧
      range.span.contains address = true) fun _ _ he h => ⟨h.1.of_extends he, h.2⟩
  refine htake.weaken ?_ ?_ fun _ hf => hf
  · rintro _ supply _ ⟨rfl, h, hr, ha⟩
    obtain ⟨⟨id, hid⟩, _⟩ := (Ipam.mem_rangesOf h.laid).1 hr
    exact ⟨⟨h, hr, ha⟩, rfl, h.tidy, h.tidy.find?_id hid, ha⟩
  · rintro _ _ supply _ ⟨⟨h, hr, ha⟩, ranges, rfl, ht⟩
    obtain ⟨⟨id, hid⟩, pool, hp, hs⟩ := (Ipam.mem_rangesOf h.laid).1 hr
    obtain ⟨pool', hp', _, hw⟩ := h.tidy.within hid
    rw [hp] at hp'
    cases hp'
    exact ⟨h, ranges, pool, rfl, ht, hp, hs, hw.contains ha⟩

theorem insert_ensures (eager : Prop) (ipam : Ipam) (range : FreeRange) (allocation : Allocation) :
    (Tx.change fun tables => tables.insertAllocation allocation).Ensures
      (fun tables supply => ipam.Sound eager supply ∧ ∃ ranges pool,
        tables = { ipam with ranges } ∧
        Taken ipam.pools ipam.ranges ranges supply range.pool allocation.address ∧
        ipam.pools.find? range.pool = some pool ∧ pool.subnet = allocation.subnet ∧
        pool.span.contains allocation.address = true)
      (fun _ => Ipam.Sound eager)
      fun error => error = .addressInUse allocation.network allocation.address := by
  refine Tx.ensures_change ?_
  rintro _ supply ⟨h, ranges, pool, rfl, ht, hp, hs, ha⟩
  split
  · exact h.allocate_taken ht hp ha hs.symm rfl ‹_›
  · exact Ipam.insertAllocation_eq_error ‹_›

theorem insert_outside_ensures (eager : Prop) (ipam : Ipam) (allocation : Allocation)
    (hs : ipam.subnets.contains allocation.subnet = true)
    (hr : ∀ range ∈ ipam.rangesOf allocation.subnet,
      range.span.contains allocation.address = false) :
    (Tx.change fun tables => tables.insertAllocation allocation).Ensures
      (fun tables supply => tables = ipam ∧ tables.Sound eager supply)
      (fun _ => Ipam.Sound eager)
      fun error => error = .addressInUse allocation.network allocation.address := by
  refine Tx.ensures_change ?_
  rintro _ supply ⟨rfl, h⟩
  split
  · refine h.allocate_outside hs (fun p pool hp hsub hf => ?_) ‹_›
    obtain ⟨id, range, hid, rfl, ha⟩ := hf
    rw [hr range ((Ipam.mem_rangesOf h.laid).2 ⟨⟨id, hid⟩, pool, hp, hsub⟩)] at ha
    cases ha
  · exact Ipam.insertAllocation_eq_error ‹_›

theorem takeLowest_ensures (port : PortId) (candidates : List Subnet) :
    (takeLowest port candidates).Ensures (Ipam.Sound eager) (fun _ => Ipam.Sound eager)
      fun _ => True := by
  induction candidates with
  | nil => exact Tx.ensures_pure fun _ _ h => h
  | cons subnet rest ih =>
    refine Tx.ensures_get_bind fun seen => ?_
    dsimp only
    split
    · rename_i stored range others hs hr
      have hmem : range ∈ seen.rangesOf subnet.id := by simp [hr]
      let allocation : Allocation := ⟨subnet.network, subnet.id, range.span.first, port⟩
      have htake := (take_ensures eager seen range range.span.first subnet.id).any_fails
      refine (htake.of_pre ?_).bind fun _ => ?_
      · rintro _ supply _ ⟨rfl, h⟩
        obtain ⟨⟨id, hid⟩, _⟩ := (Ipam.mem_rangesOf h.laid).1 hmem
        obtain ⟨_, _, hspan, _⟩ := h.tidy.within hid
        exact ⟨rfl, h, hmem, hspan.contains_first⟩
      · refine (insert_ensures eager seen range allocation).any_fails.bind fun _ => ?_
        exact Tx.ensures_pure fun _ _ h => h
    · refine ih.of_pre ?_
      rintro _ supply _ ⟨_, h⟩
      exact h

theorem generateTx_ensures (port : PortId) (network : NetworkId) (candidates : List Subnet) :
    (generateTx port network candidates).Ensures (Ipam.Sound eager) (fun _ => Ipam.Sound eager)
      fun _ => True := by
  refine (takeLowest_ensures port candidates).bind fun found => ?_
  cases found with
  | none => exact Tx.ensures_throw fun _ _ _ => trivial
  | some ip => exact Tx.ensures_pure fun _ _ h => h

/-- An address that was asked for is refused for want of its subnet, or because it is in use. -/
def Refused (subnet : Subnet) (address : Address) (error : Error) : Prop :=
  (∃ text, error = .notFound text) ∨ error = .addressInUse subnet.network address

theorem allocateTx_ensures (eager : Prop) (port : PortId) (subnet : Subnet) (address : Address) :
    (allocateTx port subnet address).Ensures (Ipam.Sound eager) (fun _ => Ipam.Sound eager)
      (Refused subnet address) := by
  refine Tx.ensures_get_bind fun seen => ?_
  dsimp only
  refine Tx.ensures_guard (fun _ _ _ _ => .inl ⟨_, rfl⟩) fun hs => ?_
  refine Tx.ensures_guard (fun _ _ _ _ => .inr rfl) fun _ => ?_
  rw [Bool.not_eq_true', Bool.not_eq_false] at hs
  let allocation : Allocation := ⟨subnet.network, subnet.id, address, port⟩
  split
  · rename_i range hr
    have ha := List.find?_some hr
    have hmem := List.mem_of_find?_eq_some hr
    have htake := take_ensures eager seen range address subnet.id
    have hinsert := insert_ensures eager seen range allocation
    refine (htake.weaken ?_ (fun _ _ _ _ h => h) fun _ => False.elim).bind fun _ =>
      (hinsert.weaken (fun _ _ _ h => h) (fun _ _ _ _ h => h) fun _ => .inr).bind fun _ => ?_
    · exact fun _ _ _ ⟨ht, h⟩ => ⟨ht, ht ▸ h, hmem, ha⟩
    · exact Tx.ensures_pure fun _ _ h => h
  · rename_i hr
    have hinsert := insert_outside_ensures eager seen allocation hs fun range hmem => by
      simpa using List.find?_eq_none.1 hr range hmem
    refine (hinsert.weaken (fun _ _ _ h => h) (fun _ _ _ _ h => h) fun _ => .inr).bind fun _ => ?_
    exact Tx.ensures_pure fun _ _ h => h

end Allocation

theorem Ipam.reclaim_ensures (ipam : Ipam) (subnet : SubnetId) (address : Address) :
    (Ipam.reclaim subnet address).Ensures
      (fun tables supply => tables = ipam ∧ Laid ipam.subnets ipam.pools supply ∧
        Tidy ipam.pools ipam.ranges supply)
      (fun _ tables supply => ∃ ranges, tables = { ipam with ranges } ∧
        Tidy ipam.pools ranges supply ∧ ∀ p pool a, ipam.pools.find? p = some pool →
          (Free ranges p a ↔ Free ipam.ranges p a ∨
            (True ∧ pool.subnet = subnet ∧ a = address ∧ pool.span.contains a = true)))
      fun _ => False := by
  refine Tx.ensures_get_bind fun seen => ?_
  split
  · rename_i pool hfind
    have hmem := List.mem_of_find?_eq_some hfind
    have ha := List.find?_some hfind
    obtain ⟨⟨q, hq⟩, hs⟩ := mem_poolsOf.1 hmem
    have hreclaim := (pool.reclaim_ensures seen address).frame
      (fun supply => seen = ipam ∧ Laid ipam.subnets ipam.pools supply ∧
        Tidy ipam.pools ipam.ranges supply)
      fun _ _ he h => ⟨h.1, h.2.1.of_extends he, h.2.2.of_extends he⟩
    refine hreclaim.weaken ?_ ?_ fun _ hf => hf
    · rintro _ supply _ ⟨rfl, rfl, hlaid, htidy⟩
      exact ⟨⟨rfl, hlaid, htidy⟩, rfl, htidy, hlaid.find?_pool hq, ha⟩
    · rintro _ _ supply _ ⟨⟨rfl, hlaid, htidy⟩, ranges, rfl, ht⟩
      refine ⟨ranges, rfl, ht.tidy, fun p pool' a hp => ?_⟩
      rw [ht.free, true_and]
      refine or_congr_right ⟨?_, ?_⟩
      · rintro ⟨rfl, rfl⟩
        rw [hlaid.find?_pool hq] at hp
        cases hp
        exact ⟨hs, rfl, ha⟩
      · rintro ⟨hs', rfl, ha'⟩
        exact ⟨hlaid.pool_unique hp (hlaid.find?_pool hq) (hs'.trans hs.symm) ha' ha, rfl⟩
  · rename_i hfind
    refine Tx.ensures_pure ?_
    rintro _ supply ⟨rfl, rfl, hlaid, htidy⟩
    refine ⟨_, rfl, htidy, fun p pool a hp => (or_iff_left ?_).symm⟩
    rintro ⟨_, hs, rfl, ha⟩
    exact List.find?_eq_none.1 hfind pool (mem_poolsOf.2 ⟨⟨p, hp⟩, hs⟩) ha

/-- Releasing an address never fails, and leaves nobody with it. -/
theorem Allocation.releaseTx_erases {reclaim : Bool} (hr : eager → reclaim = true)
    (ip : AllocatedIp) (ipam : Ipam) :
    (releaseTx reclaim ip).Ensures (fun tables supply => tables = ipam ∧ ipam.Sound eager supply)
      (fun ending tables supply => (∀ u, ending = .rollback u → tables = ipam) ∧
        tables.Sound eager supply ∧
        tables.allocations = ipam.allocations.erase (ip.subnet, ip.address))
      fun _ => False := by
  refine Tx.ensures_get_bind fun seen => ?_
  dsimp only
  split
  · rename_i hnone
    refine Tx.ensures_pure ?_
    rintro _ supply ⟨rfl, rfl, h⟩
    refine ⟨fun _ _ => rfl, h, (Table.erase_of_none ?_).symm⟩
    simpa [Table.contains] using hnone
  · refine Tx.ensures_modify_bind ?_
    cases reclaim with
    | false =>
      refine Tx.ensures_pure ?_
      rintro _ supply ⟨_, ⟨rfl, rfl, h⟩, rfl⟩
      refine ⟨nofun, ?_, rfl⟩
      exact h.release False (fun he => Bool.noConfusion (hr he)) h.tidy (by simp)
    | true =>
      let erased := seen.eraseAllocation ip.subnet ip.address
      have hreclaim := (Ipam.reclaim_ensures erased ip.subnet ip.address).frame
        (fun supply => seen = ipam ∧ seen.Sound eager supply) fun _ _ he h => ⟨h.1, h.2.of_extends he⟩
      refine (hreclaim.of_pre ?_).bind fun _ => Tx.ensures_pure ?_
      · rintro _ supply _ ⟨_, ⟨rfl, rfl, h⟩, rfl⟩
        exact ⟨⟨rfl, h⟩, rfl, h.laid, h.tidy⟩
      · rintro _ supply ⟨⟨rfl, h⟩, ranges, rfl, htidy, hf⟩
        exact ⟨nofun, h.release True (fun _ => trivial) htidy hf, rfl⟩

theorem Allocation.releaseTx_ensures {reclaim : Bool} (hr : eager → reclaim = true)
    (ip : AllocatedIp) :
    (releaseTx reclaim ip).Ensures (Ipam.Sound eager) (fun _ => Ipam.Sound eager)
      fun _ => False := by
  refine (Tx.Ensures.exists (releaseTx_erases hr ip) ⟨{}⟩).weaken ?_ ?_ fun _ hf => hf
  · exact fun ipam supply _ h => ⟨ipam, rfl, h⟩
  · rintro _ _ supply _ ⟨_, _, h, _⟩
    exact h

/-- The ranges of a subnet of which some pools were rebuilt. -/
structure PoolsRebuilt (ipam : Ipam) (allocated : List Address) (done : List Pool)
    (ranges : Table RangeId FreeRange) (supply : Supply) : Prop where
  laid : Laid ipam.subnets ipam.pools supply
  tidy : Tidy ipam.pools ranges supply
  own : ∀ p pool a, ipam.pools.find? p = some pool → pool ∈ done →
    (Free ranges p a ↔ pool.span.contains a = true ∧ a ∉ allocated)
  other : ∀ p pool a, ipam.pools.find? p = some pool → pool ∉ done →
    (Free ranges p a ↔ Free ipam.ranges p a)

theorem PoolsRebuilt.snoc {allocated : List Address} {done : List Pool}
    {after : Table RangeId FreeRange} {later : Supply}
    (h : PoolsRebuilt ipam allocated done ranges supply) (he : later.Extends supply)
    (hp : ipam.pools.find? pool.id = some pool)
    (hr : Rebuilt ipam.pools ranges after later pool allocated) :
    PoolsRebuilt ipam allocated (done ++ [pool]) after later := by
  have heq {p : PoolId} {other : Pool} (ho : ipam.pools.find? p = some other) :
      other = pool ↔ p = pool.id := by
    constructor
    · rintro rfl
      exact (h.laid.pool ho).1.symm
    · rintro rfl
      rw [hp] at ho
      exact (Option.some.inj ho).symm
  refine ⟨h.laid.of_extends he, hr.tidy, fun p other a ho hm => ?_, fun p other a ho hm => ?_⟩
  · by_cases hid : p = pool.id
    · have hown := hr.own a
      rw [(heq ho).2 hid, hid]
      exact hown
    · rw [hr.other p a hid]
      refine h.own p other a ho ((List.mem_append.1 hm).resolve_right fun hm => ?_)
      exact hid ((heq ho).1 (List.mem_singleton.1 hm))
  · rw [List.mem_append, List.mem_singleton, not_or] at hm
    rw [hr.other p a fun hid => hm.2 ((heq ho).2 hid)]
    exact h.other p other a ho hm.1

theorem Pool.rebuild_snoc_ensures (ipam : Ipam) (allocated : List Address) (done : List Pool)
    (hp : ipam.pools.find? p = some pool) :
    (pool.rebuild allocated).Ensures
      (fun tables supply => ∃ ranges, tables = { ipam with ranges } ∧
        PoolsRebuilt ipam allocated done ranges supply)
      (fun _ tables supply => ∃ ranges, tables = { ipam with ranges } ∧
        PoolsRebuilt ipam allocated (done ++ [pool]) ranges supply)
      fun _ => False := by
  have hrebuild (ranges : Table RangeId FreeRange) : (pool.rebuild allocated).Ensures
      (fun tables supply => tables = { ipam with ranges } ∧
        PoolsRebuilt ipam allocated done ranges supply)
      (fun _ tables supply => ∃ ranges, tables = { ipam with ranges } ∧
        PoolsRebuilt ipam allocated (done ++ [pool]) ranges supply) fun _ => False := by
    have hone := (pool.rebuild_ensures { ipam with ranges } allocated).frame
      (fun later => ∃ supply, later.Extends supply ∧ PoolsRebuilt ipam allocated done ranges supply)
      fun _ _ he ⟨supply, he', h⟩ => ⟨supply, he.trans he', h⟩
    refine hone.weaken ?_ ?_ fun _ hf => hf
    · rintro _ supply _ ⟨rfl, h⟩
      exact ⟨⟨supply, .refl _, h⟩, rfl, h.tidy, h.laid.find?_pool hp, (h.laid.pool hp).2.2.1⟩
    · rintro _ _ later _ ⟨⟨supply, he, h⟩, after, rfl, hr⟩
      exact ⟨after, rfl, h.snoc he (h.laid.find?_pool hp) hr⟩
  refine (Tx.Ensures.exists hrebuild ⟨.empty⟩).to_post ?_
  rintro _ tables supply _ ⟨_, h⟩
  exact h

/-- Rebuilding a subnet leaves each of its pools with its free runs. -/
theorem Ipam.rebuild_pools (eager : Prop) (ipam : Ipam) (subnet : SubnetId) :
    (Ipam.rebuild subnet).Ensures
      (fun tables supply => tables = ipam ∧ ipam.Sound eager supply)
      (fun _ tables supply => ipam.Sound eager supply ∧ ∃ ranges, tables = { ipam with ranges } ∧
        PoolsRebuilt ipam ((ipam.allocationsOf subnet).map Allocation.address)
          (ipam.poolsOf subnet) ranges supply)
      fun _ => False := by
  refine Tx.ensures_get_bind fun seen => ?_
  let allocated := (seen.allocationsOf subnet).map Allocation.address
  have hloop : ((seen.poolsOf subnet).forM (Pool.rebuild allocated)).Ensures
      (fun tables supply => (seen = ipam ∧ seen.Sound eager supply) ∧ ∃ ranges,
        tables = { seen with ranges } ∧ PoolsRebuilt seen allocated [] ranges supply)
      (fun _ tables supply => (seen = ipam ∧ seen.Sound eager supply) ∧ ∃ ranges,
        tables = { seen with ranges } ∧
        PoolsRebuilt seen allocated (seen.poolsOf subnet) ranges supply)
      fun _ => False := by
    refine Tx.Ensures.frame (Tx.ensures_forM (fun done tables supply => ∃ ranges,
      tables = { seen with ranges } ∧ PoolsRebuilt seen allocated done ranges supply) ?_)
      (fun supply => seen = ipam ∧ seen.Sound eager supply) fun _ _ he h => ⟨h.1, h.2.of_extends he⟩
    intro done pool rest hitems
    have hmem : pool ∈ seen.poolsOf subnet := by simp [hitems]
    obtain ⟨⟨p, hp⟩, _⟩ := mem_poolsOf.1 hmem
    exact Pool.rebuild_snoc_ensures seen allocated done hp
  refine hloop.weaken ?_ ?_ fun _ hf => hf
  · rintro _ supply _ ⟨rfl, rfl, h⟩
    exact ⟨⟨rfl, h⟩, _, rfl, h.laid, h.tidy, by simp, by simp⟩
  · rintro _ _ supply _ ⟨⟨rfl, h⟩, hr⟩
    exact ⟨h, hr⟩

theorem PoolsRebuilt.sound (hr : PoolsRebuilt ipam ((ipam.allocationsOf subnet).map Allocation.address)
    (ipam.poolsOf subnet) ranges supply) (h : ipam.Sound eager supply) :
    ({ ipam with ranges } : Ipam).Sound eager supply := by
  refine h.rebuild subnet hr.tidy (fun p pool a hp hs => ?_) fun p pool a hp hs => ?_
  · exact hr.own p pool a hp (Ipam.mem_poolsOf.2 ⟨⟨p, hp⟩, hs⟩)
  · exact hr.other p pool a hp fun hm => hs (Ipam.mem_poolsOf.1 hm).2

theorem Ipam.rebuild_ensures (eager : Prop) (subnet : SubnetId) :
    (Ipam.rebuild subnet).Ensures (Ipam.Sound eager) (fun _ => Ipam.Sound eager)
      fun _ => False := by
  refine (Tx.Ensures.exists (Ipam.rebuild_pools eager · subnet) ⟨{}⟩).weaken ?_ ?_ fun _ hf => hf
  · exact fun ipam supply _ h => ⟨ipam, rfl, h⟩
  · rintro _ _ supply _ ⟨ipam, h, ranges, rfl, hr⟩
    exact hr.sound h

theorem Allocation.rebuildTx_ensures (id : SubnetId) :
    (rebuildTx id).Ensures (Ipam.Sound eager) (fun _ => Ipam.Sound eager) fun _ => False := by
  refine Tx.ensures_get_bind fun seen => ?_
  split
  · exact Tx.ensures_pure fun _ _ h => h.2
  · refine ((Ipam.rebuild_ensures eager id).of_pre ?_).bind fun _ => ?_
    · exact fun _ _ _ h => h.2
    · exact Tx.ensures_pure fun _ _ h => h

end ControlPlane
