import ControlPlane.Proofs.Ip.Spans
import ControlPlane.Proofs.Transaction
import ControlPlane.Store.Ipam

/-! Tidy ranges: each row lies in its pool, and two rows of a pool leave a gap between them. A row
may be put into a tidy table when it is apart from the others of its pool. -/

namespace ControlPlane

open Ip (Address Span Runs Family)

/-- Subnets and pools are stored under their own identifiers, and the pools of a subnet are of one
family and share no address. -/
structure Laid (subnets : Table SubnetId Subnet) (pools : Table PoolId Pool) (supply : Supply) :
    Prop where
  subnet : ∀ ⦃id subnet⦄, subnets.find? id = some subnet → subnet.id = id ∧ supply.Drawn id.value
  pool : ∀ ⦃id pool⦄, pools.find? id = some pool →
    pool.id = id ∧ supply.Drawn id.value ∧ pool.span.Proper ∧ subnets.contains pool.subnet = true
  apart : ∀ ⦃id id' pool pool'⦄, pools.find? id = some pool → pools.find? id' = some pool' →
    pool.subnet = pool'.subnet → id ≠ id' → pool.span.first.family = pool'.span.first.family ∧
      (pool.span.Precedes pool'.span ∨ pool'.span.Precedes pool.span)

structure Tidy (pools : Table PoolId Pool) (ranges : Table RangeId FreeRange) (supply : Supply) :
    Prop where
  key : ∀ ⦃id range⦄, ranges.find? id = some range → range.id = id ∧ supply.Drawn id.value
  within : ∀ ⦃id range⦄, ranges.find? id = some range →
    ∃ pool, pools.find? range.pool = some pool ∧ range.span.Proper ∧ range.span.Within pool.span
  apart : ∀ ⦃id id' range range'⦄, ranges.find? id = some range → ranges.find? id' = some range' →
    range.pool = range'.pool → id ≠ id' → range.span.Apart range'.span

/-- Whether an address is in a range of a pool. -/
def Free (ranges : Table RangeId FreeRange) (pool : PoolId) (address : Address) : Prop :=
  ∃ id range, ranges.find? id = some range ∧ range.pool = pool ∧
    range.span.contains address = true

variable {subnets : Table SubnetId Subnet} {pools : Table PoolId Pool}
  {ranges : Table RangeId FreeRange} {supply later : Supply} {range : FreeRange} {pool : Pool}
  {id : RangeId} {p : PoolId} {a : Address}

theorem Laid.of_extends (h : Laid subnets pools supply) (he : later.Extends supply) :
    Laid subnets pools later where
  subnet _ _ hf := ⟨(h.subnet hf).1, (h.subnet hf).2.of_extends he⟩
  pool _ _ hf := ⟨(h.pool hf).1, (h.pool hf).2.1.of_extends he, (h.pool hf).2.2⟩
  apart := h.apart

theorem Tidy.of_extends (h : Tidy pools ranges supply) (he : later.Extends supply) :
    Tidy pools ranges later where
  key _ _ hf := ⟨(h.key hf).1, (h.key hf).2.of_extends he⟩
  within := h.within
  apart := h.apart

theorem Laid.find?_pool (h : Laid subnets pools supply) {q : PoolId} (hp : pools.find? q = some pool) :
    pools.find? pool.id = some pool := by
  rw [(h.pool hp).1, hp]

theorem Laid.pool_unique (h : Laid subnets pools supply) {q q' : PoolId} {pool' : Pool}
    (hp : pools.find? q = some pool) (hp' : pools.find? q' = some pool')
    (hs : pool.subnet = pool'.subnet) (ha : pool.span.contains a = true)
    (ha' : pool'.span.contains a = true) : q = q' := by
  apply Decidable.byContradiction
  intro hne
  rcases (h.apart hp hp' hs hne).2 with hlt | hlt
  · rw [hlt.not_contains ha] at ha'
    cases ha'
  · rw [hlt.not_contains ha'] at ha
    cases ha

theorem Tidy.find?_id (h : Tidy pools ranges supply) (hr : ranges.find? id = some range) :
    ranges.find? range.id = some range := by
  rw [(h.key hr).1, hr]

theorem Tidy.pool_contains (h : Tidy pools ranges supply) (hp : pools.find? p = some pool)
    (hf : Free ranges p a) : pool.span.contains a = true := by
  obtain ⟨id, range, hr, rfl, ha⟩ := hf
  obtain ⟨pool', hp', _, hw⟩ := h.within hr
  rw [hp] at hp'
  cases hp'
  exact hw.contains ha

theorem Tidy.erase (h : Tidy pools ranges supply) (id : RangeId) :
    Tidy pools (ranges.erase id) supply := by
  have hsub {id' : RangeId} {range : FreeRange} (hr : (ranges.erase id).find? id' = some range) :
      ranges.find? id' = some range := by
    rw [Table.find?_erase] at hr
    split at hr
    · cases hr
    · exact hr
  exact ⟨fun _ _ hr => h.key (hsub hr), fun _ _ hr => h.within (hsub hr),
    fun _ _ _ _ hr hr' => h.apart (hsub hr) (hsub hr')⟩

theorem Tidy.insert (h : Tidy pools ranges supply) (hid : range.id = id)
    (hd : supply.Drawn id.value) (hp : pools.find? range.pool = some pool)
    (hs : range.span.Proper) (hw : range.span.Within pool.span)
    (hapart : ∀ id' other, id' ≠ id → ranges.find? id' = some other →
      other.pool = range.pool → other.span.Apart range.span) :
    Tidy pools (ranges.insert id range) supply := by
  refine ⟨fun k other hr => ?_, fun k other hr => ?_, fun k k' other other' hr hr' hpool hne => ?_⟩
  · rw [Table.find?_insert] at hr
    split at hr
    · cases hr
      subst k
      exact ⟨hid, hd⟩
    · exact h.key hr
  · rw [Table.find?_insert] at hr
    split at hr
    · cases hr
      exact ⟨pool, hp, hs, hw⟩
    · exact h.within hr
  · rw [Table.find?_insert] at hr hr'
    split at hr <;> split at hr'
    · exact absurd (‹id = k›.symm.trans ‹_›) hne
    · cases hr
      exact (hapart k' other' (Ne.symm ‹_›) hr' hpool.symm).symm
    · cases hr'
      exact hapart k other (Ne.symm ‹_›) hr hpool
    · exact h.apart hr hr' hpool hne

theorem free_erase : Free (ranges.erase id) p a ↔
    ∃ id' range, id' ≠ id ∧ ranges.find? id' = some range ∧ range.pool = p ∧
      range.span.contains a = true := by
  simp only [Free, Table.find?_erase]
  constructor
  · rintro ⟨id', range, hr, h⟩
    split at hr
    · cases hr
    · exact ⟨id', range, ‹_›, hr, h⟩
  · rintro ⟨id', range, hne, hr, h⟩
    exact ⟨id', range, by rw [if_neg hne, hr], h⟩

theorem free_erase_of_none (h : ranges.find? id = none) :
    Free (ranges.erase id) p a ↔ Free ranges p a := by
  rw [free_erase]
  constructor
  · rintro ⟨id', range, _, hr⟩
    exact ⟨id', range, hr⟩
  · rintro ⟨id', range, hr, h'⟩
    exact ⟨id', range, Table.ne_of_find? hr h, hr, h'⟩

theorem free_insert : Free (ranges.insert id range) p a ↔
    (range.pool = p ∧ range.span.contains a = true) ∨ Free (ranges.erase id) p a := by
  rw [free_erase]
  simp only [Free, Table.find?_insert]
  constructor
  · rintro ⟨id', other, hr, h⟩
    split at hr
    · cases hr
      exact .inl h
    · exact .inr ⟨id', other, Ne.symm ‹_›, hr, h⟩
  · rintro (h | ⟨id', other, hne, hr, h⟩)
    · exact ⟨id, range, if_pos rfl, h⟩
    · exact ⟨id', other, by rw [if_neg (Ne.symm hne), hr], h⟩

theorem free_iff (hr : ranges.find? id = some range) : Free ranges p a ↔
    (range.pool = p ∧ range.span.contains a = true) ∨ Free (ranges.erase id) p a := by
  rw [free_erase]
  constructor
  · rintro ⟨id', other, hr', h⟩
    by_cases hid : id' = id
    · rw [hid, hr] at hr'
      cases hr'
      exact .inl h
    · exact .inr ⟨id', other, hid, hr', h⟩
  · rintro (h | ⟨id', other, _, hr', h⟩)
    · exact ⟨id, range, hr, h⟩
    · exact ⟨id', other, hr', h⟩

theorem Tidy.not_free_erase (h : Tidy pools ranges supply) (hr : ranges.find? id = some range)
    (ha : range.span.contains a = true) : ¬ Free (ranges.erase id) range.pool a := by
  rw [free_erase]
  rintro ⟨id', other, hne, hr', hpool, ha'⟩
  rw [(h.apart hr' hr hpool hne).not_contains ha'] at ha
  cases ha

theorem mem_poolRanges {ipam : Ipam} :
    range ∈ ipam.poolRanges p ↔ (∃ id, ipam.ranges.find? id = some range) ∧ range.pool = p := by
  simp [Ipam.poolRanges, Table.mem_values]

theorem exists_mem_poolRanges {ipam : Ipam} :
    (∃ span ∈ (ipam.poolRanges p).map FreeRange.span, span.contains a = true) ↔
      Free ipam.ranges p a := by
  simp only [List.mem_map, mem_poolRanges]
  constructor
  · rintro ⟨_, ⟨range, ⟨⟨id, hr⟩, hp⟩, rfl⟩, ha⟩
    exact ⟨id, range, hr, hp, ha⟩
  · rintro ⟨id, range, hr, hp, ha⟩
    exact ⟨_, ⟨range, ⟨⟨id, hr⟩, hp⟩, rfl⟩, ha⟩

/-- The ranges of a pool as they are listed: ascending, with gaps between. -/
theorem Tidy.poolRanges_runs {ipam : Ipam} (h : Tidy pools ipam.ranges supply)
    (hp : pools.find? p = some pool) :
    Runs pool.span.first.family ((ipam.poolRanges p).map FreeRange.span) := by
  have hmem {range : FreeRange} (hr : range ∈ ipam.poolRanges p) :
      range.span.Proper ∧ range.span.Within pool.span := by
    obtain ⟨⟨id, hr⟩, hpool⟩ := mem_poolRanges.1 hr
    obtain ⟨pool', hp', hs, hw⟩ := h.within hr
    rw [hpool, hp] at hp'
    cases hp'
    exact ⟨hs, hw⟩
  refine ⟨?_, ?_, List.pairwise_map.2 ?_⟩
  · exact List.forall_mem_map.2 fun range hr => (hmem hr).1
  · exact List.forall_mem_map.2 fun range hr => (hmem hr).2.family
  · have hapart : (ipam.poolRanges p).Pairwise fun a b => a.pool = b.pool → a.span.Apart b.span := by
      refine (sortOn_perm _ _).symm.pairwise (List.Pairwise.filter _ ?_) fun hab hpool =>
        (hab hpool.symm).symm
      exact Table.values_pairwise fun _ _ _ _ hr hr' hne hpool => h.apart hr hr' hpool hne
    refine (hapart.and (sortOn_pairwise _ _)).imp_of_mem fun {r r'} hr hr' hrr => ?_
    have hpool := (mem_poolRanges.1 hr).2.trans (mem_poolRanges.1 hr').2.symm
    exact (hrr.1 hpool).clears (hmem hr').1 hrr.2

end ControlPlane
