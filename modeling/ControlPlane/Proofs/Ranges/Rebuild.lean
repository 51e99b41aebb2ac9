import ControlPlane.Proofs.Ranges.Take

/-! Rebuilding the ranges of a pool. Whatever rows they were, also such that overlap or are stale,
they become its free runs, and the rows of other pools stay. -/

namespace ControlPlane

open Ip (Address Span freeRuns)

/-- Ranges are stored under their own identifiers, which were drawn. -/
def RangesKeyed (ranges : Table RangeId FreeRange) (supply : Supply) : Prop :=
  ∀ ⦃id range⦄, ranges.find? id = some range → range.id = id ∧ supply.Drawn id.value

/-- An address store from which some ranges were removed. -/
structure Without (ipam : Ipam) (removed : List FreeRange) (tables : Ipam) (supply : Supply) :
    Prop where
  frame : ∃ ranges, tables = { ipam with ranges }
  keyed : RangesKeyed tables.ranges supply
  rows : ∀ id range, tables.ranges.find? id = some range ↔
    ipam.ranges.find? id = some range ∧ range ∉ removed

/-- An address store in which the ranges of a pool gave way to ranges of certain spans. -/
structure Refilled (ipam : Ipam) (pool : PoolId) (spans : List Span) (tables : Ipam)
    (supply : Supply) : Prop where
  frame : ∃ ranges, tables = { ipam with ranges }
  keyed : RangesKeyed tables.ranges supply
  own : ((tables.ranges.values.filter fun range => range.pool = pool).map FreeRange.span).Perm spans
  other : ∀ id range, range.pool ≠ pool →
    (tables.ranges.find? id = some range ↔ ipam.ranges.find? id = some range)

/-- What rebuilding the ranges of a pool makes of an address store. -/
structure Pool.Repaired (pool : Pool) (allocated : List Address) (before after : Ipam) : Prop where
  frame : ∃ ranges, after = { before with ranges }
  runs : (after.poolRanges pool.id).map FreeRange.span = freeRuns pool.span allocated
  other : ∀ id range, range.pool ≠ pool.id →
    (after.ranges.find? id = some range ↔ before.ranges.find? id = some range)
  same : (before.poolRanges pool.id).map FreeRange.span = freeRuns pool.span allocated →
    after = before

/-- What a table of ranges becomes when a pool is made free up to the allocated addresses. -/
structure Rebuilt (pools : Table PoolId Pool) (before after : Table RangeId FreeRange)
    (supply : Supply) (pool : Pool) (allocated : List Address) : Prop where
  tidy : Tidy pools after supply
  own : ∀ a, Free after pool.id a ↔ pool.span.contains a = true ∧ a ∉ allocated
  other : ∀ p a, p ≠ pool.id → (Free after p a ↔ Free before p a)

variable {ipam tables : Ipam} {pool : Pool} {supply later : Supply} {spans : List Span}
  {removed : List FreeRange} {range : FreeRange} {allocated : List Address} {fresh : RangeId}

theorem RangesKeyed.of_extends {ranges : Table RangeId FreeRange} (h : RangesKeyed ranges supply)
    (he : later.Extends supply) : RangesKeyed ranges later :=
  fun _ _ hr => ⟨(h hr).1, (h hr).2.of_extends he⟩

theorem Without.erase (h : Without ipam removed tables supply)
    (hk : RangesKeyed ipam.ranges supply) (hr : ipam.ranges.find? range.id = some range) :
    Without ipam (removed ++ [range]) (tables.eraseRange range.id) supply := by
  obtain ⟨⟨ranges, rfl⟩, hkeyed, hrows⟩ := h
  simp only at hkeyed hrows
  refine ⟨⟨_, rfl⟩, fun id r hr => ?_, fun id r => ?_⟩
  · simp only [Ipam.eraseRange, Table.find?_erase] at hr
    split at hr
    · cases hr
    · exact hkeyed hr
  simp only [Ipam.eraseRange, Table.find?_erase, List.mem_append, List.mem_singleton, not_or]
  split
  · rename_i hid
    simp only [reduceCtorEq, false_iff, not_and, Decidable.not_not]
    intro hr' _
    rw [hid, hr] at hr'
    exact (Option.some.inj hr').symm
  · rename_i hid
    rw [hrows, and_congr_right_iff]
    intro hr'
    refine (and_iff_left ?_).symm
    rintro rfl
    exact hid (hk hr').1.symm

theorem Without.none (h : RangesKeyed ipam.ranges supply) : Without ipam [] ipam supply :=
  ⟨⟨_, rfl⟩, h, by simp⟩

theorem Without.refilled (h : Without ipam (ipam.poolRanges pool.id) tables supply) :
    Refilled ipam pool.id [] tables supply := by
  refine ⟨h.frame, h.keyed, ?_, fun id range hp => ?_⟩
  · have hnone : (tables.ranges.values.filter fun range => range.pool = pool.id) = [] := by
      rw [List.filter_eq_nil_iff]
      intro range hm hp
      obtain ⟨id, hr⟩ := Table.mem_values.1 hm
      obtain ⟨hr, hn⟩ := (h.rows id range).1 hr
      exact hn (mem_poolRanges.2 ⟨⟨id, hr⟩, of_decide_eq_true hp⟩)
    rw [hnone]
    exact .refl _
  · rw [h.rows, and_iff_left]
    exact fun hm => hp (mem_poolRanges.1 hm).2

theorem Refilled.insert {span : Span} (h : Refilled ipam pool.id spans tables supply)
    (he : later.Extends supply) (hp : ipam.pools.find? pool.id = some pool)
    (hd : later.Drawn fresh.value) (hnd : ¬ supply.Drawn fresh.value) :
    ∃ kept, tables.insertRange ⟨fresh, pool.id, span⟩ = .ok kept ∧
      Refilled ipam pool.id (spans ++ [span]) kept later := by
  obtain ⟨⟨ranges, rfl⟩, hkeyed, hown, hother⟩ := h
  simp only at hkeyed hown hother
  have hnone : ranges.find? fresh = none := by
    rw [Option.eq_none_iff_forall_ne_some]
    exact fun range hr => hnd (hkeyed hr).2
  refine ⟨_, Ipam.insertRange_eq (by exact hp), ⟨_, rfl⟩, fun id range hr => ?_, ?_,
    fun id range hne => ?_⟩
  · simp only [Table.find?_insert] at hr
    split at hr
    · cases hr
      subst id
      exact ⟨rfl, hd⟩
    · exact hkeyed.of_extends he hr
  · have hvalues := ((Table.values_insert ⟨fresh, pool.id, span⟩ hnone).filter
      fun range => range.pool = pool.id).map FreeRange.span
    rw [List.filter_cons_of_pos (by simp)] at hvalues
    exact hvalues.trans ((hown.cons span).trans (List.perm_append_singleton span spans).symm)
  · rw [← hother id range hne]
    simp only [Table.find?_insert]
    split
    · subst id
      rw [hnone]
      simp only [Option.some.injEq, reduceCtorEq, iff_false]
      rintro rfl
      exact hne rfl
    · rfl

theorem Refilled.runs (h : Refilled ipam pool.id (freeRuns pool.span allocated) tables supply) :
    (tables.poolRanges pool.id).map FreeRange.span = freeRuns pool.span allocated := by
  refine (Ip.freeRuns_runs pool.span allocated).eq_of_perm ?_ ?_
  · exact ((sortOn_perm _ _).map FreeRange.span).trans h.own
  · exact List.pairwise_map.2 (sortOn_pairwise _ _)

theorem eraseRanges_ensures (ipam : Ipam) (pool : Pool) :
    ((ipam.poolRanges pool.id).forM fun range =>
        (modify fun tables => tables.eraseRange range.id : Tx Ipam Unit)).Ensures
      (fun tables supply => tables = ipam ∧ RangesKeyed ipam.ranges supply)
      (fun _ => Refilled ipam pool.id []) fun _ => False := by
  have hloop : ((ipam.poolRanges pool.id).forM fun range =>
      (modify fun tables => tables.eraseRange range.id : Tx Ipam Unit)).Ensures
      (fun tables supply => RangesKeyed ipam.ranges supply ∧ Without ipam [] tables supply)
      (fun _ tables supply => RangesKeyed ipam.ranges supply ∧
        Without ipam (ipam.poolRanges pool.id) tables supply) fun _ => False := by
    refine Tx.ensures_forM (fun front tables supply => RangesKeyed ipam.ranges supply ∧
      Without ipam front tables supply) ?_
    intro front range rest hitems
    refine Tx.ensures_modify fun tables supply ⟨hk, hw⟩ => ⟨hk, hw.erase hk ?_⟩
    have hmem : range ∈ ipam.poolRanges pool.id := by simp [hitems]
    obtain ⟨⟨id, hr⟩, _⟩ := mem_poolRanges.1 hmem
    rwa [(hk hr).1]
  refine hloop.weaken ?_ ?_ fun _ => id
  · rintro _ supply _ ⟨rfl, hk⟩
    exact ⟨hk, .none hk⟩
  · exact fun _ tables supply _ ⟨_, hw⟩ => hw.refilled

theorem insertRuns_ensures (ipam : Ipam) (pool : Pool) (spans : List Span) :
    (spans.forM fun span => (do
        let fresh ← Tx.ident .range
        Tx.change fun tables => tables.insertRange ⟨fresh, pool.id, span⟩ : Tx Ipam Unit)).Ensures
      (fun tables supply => ipam.pools.find? pool.id = some pool ∧
        Refilled ipam pool.id [] tables supply)
      (fun _ tables supply => ipam.pools.find? pool.id = some pool ∧
        Refilled ipam pool.id spans tables supply)
      fun _ => False := by
  refine Tx.ensures_forM (fun front tables supply => ipam.pools.find? pool.id = some pool ∧
    Refilled ipam pool.id front tables supply) fun front span rest _ => ?_
  refine Tx.ensures_ident_bind fun fresh => Tx.ensures_change ?_
  rintro tables later ⟨supply, ⟨hp, h⟩, he, hd, hnd⟩
  obtain ⟨kept, hk, hrefilled⟩ := h.insert he hp hd hnd
  rw [hk]
  exact ⟨hp, hrefilled⟩

/-- Rebuilding a stored pool never fails, and leaves it its free runs. -/
theorem Pool.rebuild_repaired (ipam : Ipam) (pool : Pool) (allocated : List Address) :
    (pool.rebuild allocated).Ensures
      (fun tables supply => tables = ipam ∧ RangesKeyed ipam.ranges supply ∧
        ipam.pools.find? pool.id = some pool)
      (fun _ tables supply => RangesKeyed tables.ranges supply ∧
        pool.Repaired allocated ipam tables)
      fun _ => False := by
  refine Tx.ensures_get_bind fun seen => ?_
  dsimp only
  split
  · rename_i hr
    refine Tx.ensures_pure ?_
    rintro _ supply ⟨rfl, rfl, hk, _⟩
    exact ⟨hk, ⟨_, rfl⟩, hr, fun _ _ _ => Iff.rfl, fun _ => rfl⟩
  · rename_i hr
    have herase := (eraseRanges_ensures seen pool).frame
      (fun _ => seen = ipam ∧ ipam.pools.find? pool.id = some pool) fun _ _ _ h => h
    have hinsert := (insertRuns_ensures seen pool (freeRuns pool.span allocated)).frame
      (fun _ => seen = ipam) fun _ _ _ h => h
    refine (herase.of_pre ?_).bind fun _ => hinsert.weaken ?_ ?_ fun _ hf => hf
    · rintro _ supply _ ⟨rfl, rfl, hk, hp⟩
      exact ⟨⟨rfl, hp⟩, rfl, hk⟩
    · rintro tables supply _ ⟨⟨rfl, hp⟩, h⟩
      exact ⟨rfl, hp, h⟩
    · rintro _ tables supply _ ⟨rfl, _, h⟩
      exact ⟨h.keyed, h.frame, h.runs, h.other, fun hs => absurd hs hr⟩

/-- In a tidy table, what is repaired is tidy, and free up to the allocated addresses. -/
theorem Pool.Repaired.rebuilt (h : pool.Repaired allocated ipam tables)
    (hk : RangesKeyed tables.ranges later) (ht : Tidy ipam.pools ipam.ranges supply)
    (hp : ipam.pools.find? pool.id = some pool) (hs : pool.span.Proper) :
    Rebuilt ipam.pools ipam.ranges tables.ranges later pool allocated := by
  have hruns := Ip.freeRuns_runs pool.span allocated
  have hclears : (tables.poolRanges pool.id).Pairwise fun a b => a.span.Apart b.span :=
    List.pairwise_map.1 (h.runs ▸ hruns.clears.imp Or.inl)
  have : Std.Symm fun a b : FreeRange => a.span.Apart b.span := ⟨fun _ _ => Ip.Span.Apart.symm⟩
  have hspan {range : FreeRange} (hr : range ∈ tables.poolRanges pool.id) :
      range.span ∈ freeRuns pool.span allocated := h.runs ▸ List.mem_map_of_mem hr
  refine ⟨⟨hk, fun id range hr => ?_, fun id id' range range' hr hr' hpool hne => ?_⟩,
    fun a => ?_, fun p a hne => ?_⟩
  · by_cases hpool : range.pool = pool.id
    · have hmem := hspan (mem_poolRanges.2 ⟨⟨id, hr⟩, hpool⟩)
      exact ⟨pool, hpool ▸ hp, hruns.proper _ hmem, Ip.freeRuns_within hmem⟩
    · exact ht.within ((h.other id range hpool).1 hr)
  · by_cases hown : range.pool = pool.id
    · refine hclears.forall (mem_poolRanges.2 ⟨⟨id, hr⟩, hown⟩)
        (mem_poolRanges.2 ⟨⟨id', hr'⟩, hpool ▸ hown⟩) ?_
      rintro rfl
      exact hne ((hk hr).1.symm.trans (hk hr').1)
    · exact ht.apart ((h.other id range hown).1 hr)
        ((h.other id' range' (hpool ▸ hown)).1 hr') hpool hne
  · rw [← exists_mem_poolRanges, h.runs]
    exact Ip.exists_mem_freeRuns hs
  · have hrows (id : RangeId) (range : FreeRange) :
        tables.ranges.find? id = some range ∧ range.pool = p ∧ range.span.contains a = true ↔
          ipam.ranges.find? id = some range ∧ range.pool = p ∧ range.span.contains a = true :=
      and_congr_left fun hr => h.other id range (hr.1 ▸ hne)
    simp only [Free, hrows]

theorem Pool.rebuild_ensures (ipam : Ipam) (pool : Pool) (allocated : List Address) :
    (pool.rebuild allocated).Ensures
      (fun tables supply => tables = ipam ∧ Tidy ipam.pools ipam.ranges supply ∧
        ipam.pools.find? pool.id = some pool ∧ pool.span.Proper)
      (fun _ tables supply => ∃ ranges, tables = { ipam with ranges } ∧
        Rebuilt ipam.pools ipam.ranges ranges supply pool allocated)
      fun _ => False := by
  have hframe := (Pool.rebuild_repaired ipam pool allocated).frame
    (fun later => (∃ supply, later.Extends supply ∧ Tidy ipam.pools ipam.ranges supply) ∧
      ipam.pools.find? pool.id = some pool ∧ pool.span.Proper)
    fun _ _ he ⟨⟨supply, he', ht⟩, h⟩ => ⟨⟨supply, he.trans he', ht⟩, h⟩
  refine hframe.weaken ?_ ?_ fun _ hf => hf
  · rintro _ supply _ ⟨rfl, ht, hp, hs⟩
    exact ⟨⟨⟨supply, .refl _, ht⟩, hp, hs⟩, rfl, ht.key, hp⟩
  · rintro _ tables later _ ⟨⟨⟨supply, _, ht⟩, hp, hs⟩, hk, h⟩
    have hrebuilt := h.rebuilt hk ht hp hs
    obtain ⟨ranges, rfl⟩ := h.frame
    exact ⟨ranges, rfl, hrebuilt⟩

/-- Where ranges are free runs already, rebuilding changes nothing. -/
theorem Pool.rebuild_attempt {ipam : Ipam} {pool : Pool} {allocated : List Address}
    (supply : Supply)
    (h : (ipam.poolRanges pool.id).map FreeRange.span = freeRuns pool.span allocated) :
    (pool.rebuild allocated).attempt ipam supply = (.ok ((), ipam), supply) := by
  unfold Pool.rebuild
  rw [Tx.attempt_bind]
  change (if (ipam.poolRanges pool.id).map FreeRange.span = freeRuns pool.span allocated then _
    else _ : Tx Ipam Unit).attempt ipam supply = _
  rw [if_pos h]
  rfl

theorem Ipam.rebuild_attempt {ipam : Ipam} {subnet : SubnetId} (supply : Supply)
    (h : ∀ pool ∈ ipam.poolsOf subnet, (ipam.poolRanges pool.id).map FreeRange.span =
      freeRuns pool.span ((ipam.allocationsOf subnet).map Allocation.address)) :
    (Ipam.rebuild subnet).attempt ipam supply = (.ok ((), ipam), supply) := by
  have hloop (pools : List Pool) (hp : ∀ pool ∈ pools, pool ∈ ipam.poolsOf subnet) :
      (pools.forM (Pool.rebuild ((ipam.allocationsOf subnet).map Allocation.address)) :
        Tx Ipam Unit).attempt ipam supply = (.ok ((), ipam), supply) := by
    induction pools with
    | nil => rfl
    | cons pool rest ih =>
      have hpool := Pool.rebuild_attempt supply (h pool (hp pool List.mem_cons_self))
      refine (Tx.attempt_bind _ _ ipam supply).trans ?_
      rw [hpool]
      exact ih fun other ho => hp other (List.mem_cons_of_mem _ ho)
  unfold Ipam.rebuild
  rw [Tx.attempt_bind]
  exact hloop (ipam.poolsOf subnet) fun _ hp => hp

end ControlPlane
