import ControlPlane.Proofs.Ranges.Repair

/-! Taking and giving back in one pool. Only the ranges of this pool need to be in order for it, the
rows of all others may be anyhow, and they stay as they are. -/

namespace ControlPlane

open Ip (Address Span)

/-- A supply that has nothing left: every identifier was drawn. -/
def Supply.spent : Supply where
  identAt := BitVec.ofNat 128
  octetAt _ := 0
  timeAt _ := default
  idents := Nat.pow 2 128

theorem Supply.spent_drawn (value : BitVec 128) : spent.Drawn value :=
  ⟨value.toNat, value.isLt, by simp [spent]⟩

/-- The rows of one pool. -/
def rowsOf (ranges : Table RangeId FreeRange) (pool : PoolId) : Table RangeId FreeRange :=
  ranges.filter fun _ range => range.pool = pool

section Rows

variable {ranges : Table RangeId FreeRange} {id : RangeId} {range : FreeRange} {p : PoolId}
  {a : Address}

theorem find?_rowsOf : (rowsOf ranges p).find? id = some range ↔
    ranges.find? id = some range ∧ range.pool = p := by
  rw [rowsOf, Table.find?_filter, Option.filter_eq_some_iff, decide_eq_true_eq]

theorem rowsOf_insert (range : FreeRange) (h : range.pool = p) :
    rowsOf (ranges.insert id range) p = (rowsOf ranges p).insert id range := by
  refine Table.eq_of_find? fun key => ?_
  ext row
  rw [find?_rowsOf, Table.find?_insert, Table.find?_insert]
  split
  · refine ⟨And.left, fun hrow => ⟨hrow, ?_⟩⟩
    rw [← Option.some.inj hrow, h]
  · exact find?_rowsOf.symm

theorem find?_rowsOf_of_none (h : ranges.find? id = none) : (rowsOf ranges p).find? id = none := by
  rw [rowsOf, Table.find?_filter, h]
  rfl

theorem rowsOf_erase : rowsOf (ranges.erase id) p = (rowsOf ranges p).erase id := by
  refine Table.eq_of_find? fun key => ?_
  ext row
  rw [find?_rowsOf, Table.find?_erase, Table.find?_erase]
  split
  · simp
  · exact find?_rowsOf.symm

theorem free_rowsOf : Free (rowsOf ranges p) p a ↔ Free ranges p a := by
  simp only [Free, find?_rowsOf, and_assoc, and_self_left]

end Rows

namespace Ipam

/-- A stored pool whose ranges are under their own identifiers, in the pool, and apart from each
other. -/
structure TidyIn (ipam : Ipam) (pool : Pool) : Prop where
  stored : ipam.pools.find? pool.id = some pool
  key : ∀ ⦃id range⦄, ipam.ranges.find? id = some range → range.pool = pool.id → range.id = id
  within : ∀ ⦃id range⦄, ipam.ranges.find? id = some range → range.pool = pool.id →
    range.span.Proper ∧ range.span.Within pool.span
  apart : ∀ ⦃id id' range range'⦄, ipam.ranges.find? id = some range →
    ipam.ranges.find? id' = some range' → range.pool = pool.id → range'.pool = pool.id →
    id ≠ id' → range.span.Apart range'.span

/-- Nothing but the ranges of one pool has changed. -/
structure LocalTo (before : Ipam) (pool : PoolId) (after : Ipam) : Prop where
  unranged : after.unranged = before.unranged
  others : ∀ id, id ≠ pool → before.SameRanges after id

/-- An address store with the ranges of one pool only. -/
def only (ipam : Ipam) (pool : PoolId) : Ipam := { ipam with ranges := rowsOf ipam.ranges pool }

/-- The ranges of a pool as they are listed, by first and last address. -/
def bounds (ipam : Ipam) (pool : PoolId) : List Span := (ipam.poolRanges pool).map FreeRange.span

variable {ipam before mid after : Ipam} {pool : Pool} {p : PoolId} {id : RangeId}
  {range : FreeRange} {ranges : Table RangeId FreeRange} {supply : Supply} {a : Address}

theorem LocalTo.pools (h : before.LocalTo p after) : after.pools = before.pools :=
  (unranged_inj.1 h.unranged).2.2.1

theorem LocalTo.trans (h : before.LocalTo p mid) (h' : mid.LocalTo p after) :
    before.LocalTo p after :=
  ⟨h'.unranged.trans h.unranged, fun id hne => (h.others id hne).trans (h'.others id hne)⟩

theorem LocalTo.insert (hold : ∀ old, ipam.ranges.find? id = some old → old.pool = p)
    (hnew : range.pool = p) :
    ipam.LocalTo p { ipam with ranges := ipam.ranges.insert id range } := by
  refine ⟨rfl, fun other hne key row hrow => ?_⟩
  rw [Table.find?_insert]
  split
  · rename_i hkey
    subst hkey
    constructor
    · rintro ⟨⟩
      exact absurd (hrow.symm.trans hnew) hne
    · intro hfound
      exact absurd (hrow.symm.trans (hold row hfound)) hne
  · exact Iff.rfl

theorem LocalTo.erase (hold : ∀ old, ipam.ranges.find? id = some old → old.pool = p) :
    ipam.LocalTo p (ipam.eraseRange id) := by
  refine ⟨rfl, fun other hne key row hrow => ?_⟩
  rw [eraseRange, Table.find?_erase]
  split
  · rename_i hkey
    subst hkey
    constructor
    · intro hfound
      cases hfound
    · intro hfound
      exact absurd (hrow.symm.trans (hold row hfound)) hne
  · exact Iff.rfl

theorem poolRanges_only (ipam : Ipam) (p : PoolId) :
    (ipam.only p).poolRanges p = ipam.poolRanges p := by
  have hsame : ipam.SameRanges (ipam.only p) p :=
    fun _ _ hr => find?_rowsOf.trans (and_iff_left hr)
  exact hsame.poolRanges_eq

theorem TidyIn.tidy (h : ipam.TidyIn pool) :
    Tidy ipam.pools (rowsOf ipam.ranges pool.id) .spent := by
  refine ⟨fun id range hr => ?_, fun id range hr => ?_, fun id id' range range' hr hr' _ hne => ?_⟩
  · obtain ⟨hr, hp⟩ := find?_rowsOf.1 hr
    exact ⟨h.key hr hp, Supply.spent_drawn _⟩
  · obtain ⟨hr, hp⟩ := find?_rowsOf.1 hr
    exact ⟨pool, hp ▸ h.stored, h.within hr hp⟩
  · obtain ⟨hr, hp⟩ := find?_rowsOf.1 hr
    obtain ⟨hr', hp'⟩ := find?_rowsOf.1 hr'
    exact h.apart hr hr' hp hp' hne

theorem TidyIn.of_tidy (hp : ipam.pools.find? pool.id = some pool)
    (h : Tidy ipam.pools (rowsOf ipam.ranges pool.id) supply) : ipam.TidyIn pool := by
  refine ⟨hp, fun id range hr hpool => ?_, fun id range hr hpool => ?_,
    fun id id' range range' hr hr' hpool hpool' hne => ?_⟩
  · exact (h.key (find?_rowsOf.2 ⟨hr, hpool⟩)).1
  · obtain ⟨found, hfound, hspan⟩ := h.within (find?_rowsOf.2 ⟨hr, hpool⟩)
    rw [hpool, hp] at hfound
    cases hfound
    exact hspan
  · exact h.apart (find?_rowsOf.2 ⟨hr, hpool⟩) (find?_rowsOf.2 ⟨hr', hpool'⟩)
      (hpool.trans hpool'.symm) hne

theorem TidyIn.find?_id (h : ipam.TidyIn pool) (hr : range ∈ ipam.poolRanges pool.id) :
    ipam.ranges.find? range.id = some range ∧ range.pool = pool.id := by
  obtain ⟨⟨id, hr⟩, hp⟩ := mem_poolRanges.1 hr
  rw [h.key hr hp]
  exact ⟨hr, hp⟩

theorem TidyIn.pool_eq (h : ipam.TidyIn pool) (hr : range ∈ ipam.poolRanges pool.id)
    (old : FreeRange) (ho : ipam.ranges.find? range.id = some old) : old.pool = pool.id := by
  obtain ⟨hr, hp⟩ := h.find?_id hr
  rw [hr] at ho
  cases ho
  exact hp

theorem TidyIn.id_ne (h : ipam.TidyIn pool) (hr : range ∈ ipam.poolRanges pool.id)
    (hn : ipam.ranges.find? id = none) : range.id ≠ id :=
  Table.ne_of_find? (h.find?_id hr).1 hn

theorem TidyIn.runs (h : ipam.TidyIn pool) :
    Ip.Runs pool.span.first.family (ipam.bounds pool.id) := by
  unfold bounds
  have htidy : Tidy ipam.pools (ipam.only pool.id).ranges .spent := h.tidy
  rw [← poolRanges_only]
  exact htidy.poolRanges_runs h.stored

/-- Ranges in order that hold the same addresses have the same bounds. -/
theorem TidyIn.bounds_eq (h : before.TidyIn pool) (h' : after.TidyIn pool)
    (hfree : ∀ a, Free after.ranges pool.id a ↔ Free before.ranges pool.id a) :
    after.bounds pool.id = before.bounds pool.id := by
  refine h'.runs.eq_of_contains h.runs fun a => ?_
  unfold bounds
  rw [exists_mem_poolRanges, exists_mem_poolRanges, hfree]

end Ipam

end ControlPlane
