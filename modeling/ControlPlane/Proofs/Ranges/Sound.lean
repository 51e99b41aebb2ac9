import ControlPlane.Proofs.Ranges.Reclaim
import ControlPlane.Proofs.Ranges.Rebuild

/-! Sound address stores. No address of a range is allocated in the subnet of its pool; while all
releases reclaim at once, each address of a pool that is not allocated is in a range. -/

namespace ControlPlane

open Ip (Address Span)

def Exclusive (pools : Table PoolId Pool) (ranges : Table RangeId FreeRange)
    (allocations : Table (SubnetId × Address) Allocation) : Prop :=
  ∀ ⦃p pool a⦄, pools.find? p = some pool → Free ranges p a →
    allocations.find? (pool.subnet, a) = none

def Covered (pools : Table PoolId Pool) (ranges : Table RangeId FreeRange)
    (allocations : Table (SubnetId × Address) Allocation) : Prop :=
  ∀ ⦃p pool a⦄, pools.find? p = some pool → pool.span.contains a = true →
    allocations.find? (pool.subnet, a) = none → Free ranges p a

/-- The invariant of the address store. -/
structure Ipam.Sound (eager : Prop) (ipam : Ipam) (supply : Supply) : Prop where
  network : ∀ ⦃id network⦄, ipam.networks.find? id = some network → network.id = id
  laid : Laid ipam.subnets ipam.pools supply
  tidy : Tidy ipam.pools ipam.ranges supply
  allocation : ∀ ⦃key allocation⦄, ipam.allocations.find? key = some allocation →
    key = (allocation.subnet, allocation.address) ∧
      ipam.subnets.contains allocation.subnet = true
  exclusive : Exclusive ipam.pools ipam.ranges ipam.allocations
  covered : eager → Covered ipam.pools ipam.ranges ipam.allocations

namespace Ipam

variable {eager : Prop} {ipam : Ipam} {supply later : Supply} {ranges : Table RangeId FreeRange}
  {subnet : SubnetId} {address a : Address} {allocation : Allocation} {p : PoolId} {pool : Pool}
  {range : FreeRange}

theorem Sound.of_extends (h : ipam.Sound eager supply) (he : later.Extends supply) :
    ipam.Sound eager later where
  network := h.network
  laid := h.laid.of_extends he
  tidy := h.tidy.of_extends he
  allocation := h.allocation
  exclusive := h.exclusive
  covered := h.covered

theorem mem_poolsOf :
    pool ∈ ipam.poolsOf subnet ↔ (∃ p, ipam.pools.find? p = some pool) ∧ pool.subnet = subnet := by
  simp [poolsOf, Table.mem_values]

theorem mem_subnetsOf {found : Subnet} {network : NetworkId} : found ∈ ipam.subnetsOf network ↔
    (∃ id, ipam.subnets.find? id = some found) ∧ found.network = network := by
  simp [subnetsOf, Table.mem_values]

theorem Sound.subnetsOf_stored (h : ipam.Sound eager supply) {network : NetworkId} :
    ∀ found ∈ ipam.subnetsOf network, ipam.subnets.find? found.id = some found := by
  intro found hmem
  obtain ⟨⟨id, hfound⟩, _⟩ := mem_subnetsOf.1 hmem
  rw [(h.laid.subnet hfound).1]
  exact hfound

theorem Laid.holdsPool_iff (h : Laid ipam.subnets ipam.pools supply) :
    ipam.holdsPool subnet p = true ↔ ∃ pool, ipam.pools.find? p = some pool ∧ pool.subnet = subnet := by
  simp only [holdsPool, List.any_eq_true, Bool.and_eq_true, decide_eq_true_eq, Table.mem_values]
  constructor
  · rintro ⟨pool, ⟨q, hq⟩, hs, hid⟩
    rw [← hid, h.find?_pool hq]
    exact ⟨pool, rfl, hs⟩
  · rintro ⟨pool, hp, hs⟩
    exact ⟨pool, ⟨p, hp⟩, hs, (h.pool hp).1⟩

theorem mem_rangesOf (h : Laid ipam.subnets ipam.pools supply) :
    range ∈ ipam.rangesOf subnet ↔ (∃ id, ipam.ranges.find? id = some range) ∧
      ∃ pool, ipam.pools.find? range.pool = some pool ∧ pool.subnet = subnet := by
  simp [rangesOf, Table.mem_values, Laid.holdsPool_iff h]

theorem Sound.find?_pool (h : ipam.Sound eager supply) (hp : pool ∈ ipam.poolsOf subnet) :
    ipam.pools.find? pool.id = some pool ∧ pool.subnet = subnet := by
  obtain ⟨⟨p, hp⟩, hs⟩ := mem_poolsOf.1 hp
  exact ⟨h.laid.find?_pool hp, hs⟩

theorem Sound.exists_pool (h : ipam.Sound eager supply) (hr : range ∈ ipam.rangesOf subnet) :
    ∃ pool, ipam.pools.find? range.pool = some pool ∧ pool.subnet = subnet ∧
      range.span.Proper ∧ range.span.Within pool.span := by
  obtain ⟨⟨id, hid⟩, pool, hp, hs⟩ := (mem_rangesOf h.laid).1 hr
  obtain ⟨pool', hp', hspan, hw⟩ := h.tidy.within hid
  rw [hp] at hp'
  cases hp'
  exact ⟨pool, hp, hs, hspan, hw⟩

theorem Sound.mem_allocated (h : ipam.Sound eager supply) :
    a ∈ (ipam.allocationsOf subnet).map Allocation.address ↔
      ipam.allocations.find? (subnet, a) ≠ none := by
  simp only [allocationsOf, List.mem_map, List.mem_filter, decide_eq_true_eq, Table.mem_values]
  constructor
  · rintro ⟨allocation, ⟨⟨key, hk⟩, rfl⟩, rfl⟩
    rw [← (h.allocation hk).1, hk]
    exact Option.some_ne_none _
  · intro hne
    obtain ⟨allocation, hk⟩ := Option.ne_none_iff_exists'.1 hne
    have hkey := (h.allocation hk).1
    rw [Prod.mk.injEq] at hkey
    exact ⟨allocation, ⟨⟨_, hk⟩, hkey.1.symm⟩, hkey.2.symm⟩

theorem Sound.allocate (h : ipam.Sound eager supply)
    (hs : ipam.subnets.contains allocation.subnet = true) (ht : Tidy ipam.pools ranges supply)
    (hf : ∀ p pool a, ipam.pools.find? p = some pool → (Free ranges p a ↔
      Free ipam.ranges p a ∧ ¬ (pool.subnet = allocation.subnet ∧ a = allocation.address))) :
    ({ ipam with
      ranges
      allocations := ipam.allocations.insert (allocation.subnet, allocation.address) allocation } :
        Ipam).Sound eager supply := by
  refine ⟨h.network, h.laid, ht, ?_, ?_, fun he => ?_⟩
  · intro key other hk
    rw [Table.find?_insert] at hk
    split at hk
    · cases hk
      exact ⟨‹_ = key›.symm, hs⟩
    · exact h.allocation hk
  · intro p pool a hp ha
    have ⟨ha, hne⟩ := (hf p pool a hp).1 ha
    rw [Table.find?_insert, if_neg, h.exclusive hp ha]
    rw [Prod.mk.injEq]
    exact fun hh => hne ⟨hh.1.symm, hh.2.symm⟩
  · intro p pool a hp ha hn
    rw [Table.find?_insert] at hn
    split at hn
    · cases hn
    · rename_i hne
      refine (hf p pool a hp).2 ⟨h.covered he hp ha hn, fun hh => hne ?_⟩
      rw [hh.1, hh.2]

/-- An address is released and, if it is reclaimed, free in its pool. -/
theorem Sound.release (h : ipam.Sound eager supply) (reclaimed : Prop) (hr : eager → reclaimed)
    (ht : Tidy ipam.pools ranges supply)
    (hf : ∀ p pool a, ipam.pools.find? p = some pool → (Free ranges p a ↔ Free ipam.ranges p a ∨
      (reclaimed ∧ pool.subnet = subnet ∧ a = address ∧ pool.span.contains a = true))) :
    ({ ipam.eraseAllocation subnet address with ranges } : Ipam).Sound eager supply := by
  refine ⟨h.network, h.laid, ht, ?_, ?_, fun he => ?_⟩
  · intro key other hk
    simp only [eraseAllocation, Table.find?_erase] at hk
    split at hk
    · cases hk
    · exact h.allocation hk
  · intro p pool a hp ha
    simp only [eraseAllocation, Table.find?_erase]
    split
    · rfl
    · rename_i hne
      rcases (hf p pool a hp).1 ha with ha | ⟨_, rfl, rfl, _⟩
      · exact h.exclusive hp ha
      · exact absurd rfl hne
  · intro p pool a hp ha hn
    simp only [eraseAllocation, Table.find?_erase] at hn
    split at hn
    · rename_i hkey
      rw [Prod.mk.injEq] at hkey
      exact (hf p pool a hp).2 (.inr ⟨hr he, hkey.1, hkey.2, ha⟩)
    · exact (hf p pool a hp).2 (.inl (h.covered he hp ha hn))

theorem Sound.rebuild (h : ipam.Sound eager supply) (subnet : SubnetId)
    (ht : Tidy ipam.pools ranges supply)
    (hown : ∀ p pool a, ipam.pools.find? p = some pool → pool.subnet = subnet →
      (Free ranges p a ↔ pool.span.contains a = true ∧
        a ∉ (ipam.allocationsOf subnet).map Allocation.address))
    (hother : ∀ p pool a, ipam.pools.find? p = some pool → pool.subnet ≠ subnet →
      (Free ranges p a ↔ Free ipam.ranges p a)) :
    ({ ipam with ranges } : Ipam).Sound eager supply := by
  refine ⟨h.network, h.laid, ht, h.allocation, ?_, fun he => ?_⟩
  · intro p pool a hp ha
    by_cases hs : pool.subnet = subnet
    · have hn := ((hown p pool a hp hs).1 ha).2
      rw [h.mem_allocated, Decidable.not_not] at hn
      rw [hs]
      exact hn
    · exact h.exclusive hp ((hother p pool a hp hs).1 ha)
  · intro p pool a hp ha hn
    by_cases hs : pool.subnet = subnet
    · refine (hown p pool a hp hs).2 ⟨ha, ?_⟩
      rw [h.mem_allocated, Decidable.not_not, ← hs]
      exact hn
    · exact (hother p pool a hp hs).2 (h.covered he hp ha hn)

end Ipam

end ControlPlane
