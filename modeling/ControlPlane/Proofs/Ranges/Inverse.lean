import ControlPlane.Proofs.Ranges.Local

/-! Taking an address out of a pool and giving it back are inverse. Each changes the ranges by this
address alone, and ranges with gaps between them are known from the addresses that they hold. -/

namespace ControlPlane

open Ip (Address Span)
open Ip.Span

namespace Supply

/-- The next identifiers, so many of them, are all different and name no range. -/
structure Spare (supply : Supply) (count : Nat) (ranges : Table RangeId FreeRange) : Prop where
  unused : ∀ i < count, ranges.find? ⟨supply.identAt (supply.idents + i)⟩ = none
  distinct : ∀ i < count, ∀ j < count,
    supply.identAt (supply.idents + i) = supply.identAt (supply.idents + j) → i = j

variable {supply : Supply} {count : Nat} {before after : Table RangeId FreeRange}

theorem Spare.next (h : supply.Spare (count + 1) before) :
    before.find? (supply.ident .range).1 = none :=
  h.unused 0 (Nat.succ_pos _)

theorem Spare.keep (h : supply.Spare (count + 1) before)
    (hnone : ∀ id, before.find? id = none → after.find? id = none) : supply.Spare count after :=
  ⟨fun i hi => hnone _ (h.unused i (Nat.lt_succ_of_lt hi)), fun i hi j hj =>
    h.distinct i (Nat.lt_succ_of_lt hi) j (Nat.lt_succ_of_lt hj)⟩

theorem Spare.draw (h : supply.Spare (count + 1) before)
    (hnone : ∀ id, id ≠ (supply.ident .range).1 → before.find? id = none → after.find? id = none) :
    (supply.ident .range).2.Spare count after := by
  have hshift (i : Nat) : supply.idents + 1 + i = supply.idents + (i + 1) := by omega
  refine ⟨fun i hi => ?_, fun i hi j hj heq => ?_⟩
  · refine hnone _ (fun hid => ?_) ?_
    · have heq := congrArg Ident.value hid
      simp only [ident, hshift] at heq
      have := h.distinct (i + 1) (Nat.succ_lt_succ hi) 0 (Nat.succ_pos _) heq
      omega
    · simp only [ident, hshift]
      exact h.unused (i + 1) (Nat.succ_lt_succ hi)
  · simp only [ident, hshift] at heq
    exact Nat.succ.inj (h.distinct _ (Nat.succ_lt_succ hi) _ (Nat.succ_lt_succ hj) heq)

end Supply

/-- The row that a change leaves under the identifier of the range. -/
def Carve.row : Carve → Option FreeRange
  | .remove => none
  | .shrink rest => some rest
  | .split head _ => some head

/-- What is under the identifier of a range after one of its addresses was taken: the part below the
address or, when this was the first, the part above. -/
structure FreeRange.Leaves (range : FreeRange) (address : Address) (row : Option FreeRange) :
    Prop where
  below : address ≠ range.span.first → ∃ last, address.previous? = some last ∧
    row = some { range with span := ⟨range.span.first, last⟩ }
  above : address = range.span.first → address ≠ range.span.last → ∃ first,
    address.next? = some first ∧ row = some { range with span := ⟨first, range.span.last⟩ }
  gone : range.span.first = range.span.last → row = none

namespace Pool

/-- An address store before and after an address was taken from a range of a pool. -/
structure Loses (pool : Pool) (range : FreeRange) (address : Address) (before after : Ipam) :
    Prop where
  elsewhere : before.LocalTo pool.id after
  tidy : after.TidyIn pool
  free : ∀ a, Free after.ranges pool.id a ↔ Free before.ranges pool.id a ∧ a ≠ address
  row : range.Leaves address (after.ranges.find? range.id)
  kept : ∀ id row, id ≠ range.id → before.ranges.find? id = some row →
    after.ranges.find? id = some row

/-- An address store before and after an address was given back to a pool. -/
structure Regains (pool : Pool) (address : Address) (before after : Ipam) : Prop where
  elsewhere : before.LocalTo pool.id after
  tidy : after.TidyIn pool
  free : ∀ a, Free after.ranges pool.id a ↔ Free before.ranges pool.id a ∨ a = address

/-- Giving an address back with a transaction is inverse to taking it from a range of a pool. -/
structure Undoes (pool : Pool) (ipam : Ipam) (supply : Supply) (address : Address)
    (give : Tx Ipam Unit) : Prop where
  taken : ∀ range ∈ ipam.poolRanges pool.id, range.span.contains address = true →
    ∃ after later, (range.take address).attempt ipam supply = (.ok ((), after), later) ∧
      pool.Loses range address ipam after ∧
      ∃ last rest, give.attempt after later = (.ok ((), last), rest) ∧
        ipam.LocalTo pool.id last ∧ last.bounds pool.id = ipam.bounds pool.id
  given : pool.span.contains address = true → ¬ Free ipam.ranges pool.id address →
    ∃ after later, give.attempt ipam supply = (.ok ((), after), later) ∧
      pool.Regains address ipam after ∧
      ∃ range ∈ after.poolRanges pool.id, range.span.contains address = true ∧
        ∃ last rest, (range.take address).attempt after later = (.ok ((), last), rest) ∧
          ipam.LocalTo pool.id last ∧ last.bounds pool.id = ipam.bounds pool.id

end Pool

theorem FreeRange.carve_leaves {range : FreeRange} {address : Address} {fresh : RangeId}
    {change : Carve} (ha : range.span.contains address = true)
    (h : range.carve address fresh = some change) : range.Leaves address change.row := by
  unfold carve at h
  rw [if_neg (by simp [ha])] at h
  split at h
  · rename_i hsingle
    have hs : range.span.first = range.span.last := of_decide_eq_true hsingle
    have hone : address = range.span.first := by
      have ⟨hf, hle, hle'⟩ := contains_iff.1 ha
      rw [← hs] at hle'
      exact Address.ext hf (Nat.le_antisymm hle' hle)
    cases h
    exact ⟨absurd hone, fun _ hne => absurd (hone.trans hs) hne, fun _ => rfl⟩
  rename_i hlonger
  have hs : range.span.first ≠ range.span.last := fun hs => hlonger (decide_eq_true hs)
  split at h
  · rename_i hfirst
    obtain ⟨next, hn, hrest⟩ := Option.bind_eq_some_iff.1 h
    cases hrest
    exact ⟨absurd hfirst, fun _ _ => ⟨next, hn, rfl⟩, fun heq => absurd heq hs⟩
  rename_i hfirst
  split at h
  · obtain ⟨previous, hp, hrest⟩ := Option.bind_eq_some_iff.1 h
    cases hrest
    exact ⟨fun _ => ⟨previous, hp, rfl⟩, fun heq => absurd heq hfirst, fun heq => absurd heq hs⟩
  · obtain ⟨previous, hp, h⟩ := Option.bind_eq_some_iff.1 h
    obtain ⟨next, hn, hrest⟩ := Option.bind_eq_some_iff.1 h
    cases hrest
    exact ⟨fun _ => ⟨previous, hp, rfl⟩, fun heq => absurd heq hfirst, fun heq => absurd heq hs⟩

namespace Ipam.TidyIn

variable {ipam : Ipam} {pool : Pool} {range other : FreeRange} {address : Address}
  {supply : Supply} {count : Nat} {ranges : Table RangeId FreeRange} {fresh : RangeId}

theorem loses (h : ipam.TidyIn pool) (hp : range.pool = pool.id)
    (hlocal : ipam.LocalTo pool.id { ipam with ranges })
    (ht : Taken ipam.pools (rowsOf ipam.ranges pool.id) (rowsOf ranges pool.id) .spent range.pool
      address)
    (hrow : range.Leaves address (ranges.find? range.id))
    (hkept : ∀ id row, id ≠ range.id → ipam.ranges.find? id = some row →
      ranges.find? id = some row) : pool.Loses range address ipam { ipam with ranges } := by
  refine ⟨hlocal, .of_tidy h.stored ht.tidy, fun a => ?_, hrow, hkept⟩
  simpa only [hp, free_rowsOf, true_and, ne_eq] using ht.free pool.id a

theorem regains (h : ipam.TidyIn pool) (hlocal : ipam.LocalTo pool.id { ipam with ranges })
    (hg : Returned ipam.pools (rowsOf ipam.ranges pool.id) (rowsOf ranges pool.id) .spent pool.id
      address) : pool.Regains address ipam { ipam with ranges } := by
  refine ⟨hlocal, .of_tidy h.stored hg.tidy, fun a => ?_⟩
  simpa only [free_rowsOf, true_and] using hg.free pool.id a

theorem regains_insert (h : ipam.TidyIn pool) (range : FreeRange) (hp : range.pool = pool.id)
    (hold : ∀ old, ipam.ranges.find? range.id = some old → old.pool = pool.id)
    (hg : Returned ipam.pools (rowsOf ipam.ranges pool.id)
      ((rowsOf ipam.ranges pool.id).insert range.id range) .spent pool.id address) :
    pool.Regains address ipam { ipam with ranges := ipam.ranges.insert range.id range } := by
  rw [← rowsOf_insert range hp] at hg
  exact h.regains (.insert hold hp) hg

theorem regains_join (h : ipam.TidyIn pool) (hr : range ∈ ipam.poolRanges pool.id)
    (hr' : other ∈ ipam.poolRanges pool.id) (span : Span)
    (hg : Returned ipam.pools (rowsOf ipam.ranges pool.id)
      (((rowsOf ipam.ranges pool.id).insert range.id { range with span }).erase other.id) .spent
      pool.id address) :
    pool.Regains address ipam { ipam with
      ranges := (ipam.ranges.insert range.id { range with span }).erase other.id } := by
  have ⟨_, hp⟩ := h.find?_id hr
  have hlocal : ipam.LocalTo pool.id
      { ipam with ranges := ipam.ranges.insert range.id { range with span } } :=
    .insert (h.pool_eq hr) hp
  rw [← rowsOf_insert { range with span } hp, ← rowsOf_erase] at hg
  refine h.regains (hlocal.trans (.erase fun old ho => ?_)) hg
  rw [Table.find?_insert] at ho
  split at ho
  · cases ho
    exact hp
  · exact h.pool_eq hr' old ho

theorem loses_all (h : ipam.TidyIn pool) (hr : range ∈ ipam.poolRanges pool.id)
    (ha : range.span.contains address = true) (hc : range.carve address fresh = some .remove)
    (hall : ∀ x, range.span.contains x = true → x = address) :
    pool.Loses range address ipam (ipam.eraseRange range.id) := by
  have ⟨hstored, hp⟩ := h.find?_id hr
  have ht := h.tidy.take_all (find?_rowsOf.2 ⟨hstored, hp⟩) ha hall
  rw [← rowsOf_erase] at ht
  refine h.loses hp (.erase (h.pool_eq hr)) ht ?_ fun id row hne hrow => ?_
  · rw [Table.find?_erase, if_pos rfl]
    exact FreeRange.carve_leaves ha hc
  · rw [Table.find?_erase, if_neg hne, hrow]

theorem loses_shrink (h : ipam.TidyIn pool) (hr : range ∈ ipam.poolRanges pool.id)
    (ha : range.span.contains address = true) {span : Span}
    (hc : range.carve address fresh = some (.shrink { range with span })) (hs : span.Proper)
    (hw : span.Within range.span)
    (hrest : ∀ x, span.contains x = true ↔ range.span.contains x = true ∧ x ≠ address) :
    pool.Loses range address ipam
      { ipam with ranges := ipam.ranges.insert range.id { range with span } } := by
  have ⟨hstored, hp⟩ := h.find?_id hr
  have ht := h.tidy.take_shrink (find?_rowsOf.2 ⟨hstored, hp⟩) ha hs hw hrest
  rw [← rowsOf_insert { range with span } hp] at ht
  refine h.loses hp (.insert (h.pool_eq hr) hp) ht ?_ fun id row hne hrow => ?_
  · rw [Table.find?_insert, if_pos rfl]
    exact FreeRange.carve_leaves ha hc
  · rw [Table.find?_insert, if_neg (Ne.symm hne), hrow]

theorem loses_split (h : ipam.TidyIn pool) (hr : range ∈ ipam.poolRanges pool.id)
    (ha : range.span.contains address = true) {below above : Span}
    (hc : range.carve address fresh =
      some (.split { range with span := below } ⟨fresh, range.pool, above⟩))
    (hb : below.Proper) (hb' : above.Proper) (hw : below.Within range.span)
    (hw' : above.Within range.span) (hclear : below.Clears above)
    (hrest : ∀ x, below.contains x = true ∨ above.contains x = true ↔
      range.span.contains x = true ∧ x ≠ address) (hn : ipam.ranges.find? fresh = none) :
    pool.Loses range address ipam { ipam with
      ranges := (ipam.ranges.insert range.id { range with span := below }).insert fresh
        ⟨fresh, range.pool, above⟩ } := by
  have ⟨hstored, hp⟩ := h.find?_id hr
  have hne := h.id_ne hr hn
  have hunused : (rowsOf ipam.ranges pool.id).find? fresh = none := find?_rowsOf_of_none hn
  have ht := h.tidy.take_split (find?_rowsOf.2 ⟨hstored, hp⟩) ha hb hb' hw hw' hclear hrest
    (Supply.spent_drawn _) hunused
  rw [← rowsOf_insert { range with span := below } hp,
    ← rowsOf_insert ⟨fresh, range.pool, above⟩ hp] at ht
  have hlocal : ipam.LocalTo pool.id { ipam with
      ranges := ipam.ranges.insert range.id { range with span := below } } :=
    .insert (h.pool_eq hr) hp
  refine h.loses hp (hlocal.trans (.insert (fun old ho => ?_) hp)) ht ?_ fun id row hid hrow => ?_
  · rw [Table.find?_insert, if_neg hne, hn] at ho
    cases ho
  · rw [Table.find?_insert, if_neg (Ne.symm hne), Table.find?_insert, if_pos rfl]
    exact FreeRange.carve_leaves ha hc
  · have hfresh := Table.ne_of_find? hrow hn
    rw [Table.find?_insert, if_neg (Ne.symm hfresh), Table.find?_insert, if_neg (Ne.symm hid), hrow]

/-- Taking a free address from its range succeeds. -/
theorem take (h : ipam.TidyIn pool) (hr : range ∈ ipam.poolRanges pool.id)
    (ha : range.span.contains address = true) (hs : supply.Spare (count + 1) ipam.ranges) :
    ∃ after, (range.take address).attempt ipam supply =
        (.ok ((), after), (supply.ident .range).2) ∧
      pool.Loses range address ipam after ∧
      (supply.ident .range).2.Spare count after.ranges := by
  have ⟨hstored, hp⟩ := h.find?_id hr
  have hnext := hs.next
  have hsave (span : Span) : ipam.saveRange { range with span } =
      .ok { ipam with ranges := ipam.ranges.insert range.id { range with span } } :=
    Ipam.saveRange_eq (by simp [hstored])
  have hpool : ipam.pools.find? range.pool = some pool := by rw [hp, h.stored]
  obtain ⟨hproper, _⟩ := h.within hstored hp
  unfold FreeRange.take
  rw [Tx.attempt_ident_bind]
  rcases FreeRange.carve_cases (supply.ident .range).1 hproper ha with ⟨hc, hall⟩ |
    ⟨span, hc, hspan, hw, hrest⟩ | ⟨below, above, hc, hb, hb', hw, hw', hclear, hrest⟩
  · rw [hc]
    refine ⟨_, rfl, h.loses_all hr ha hc hall, hs.draw fun id _ hn => ?_⟩
    change (ipam.ranges.erase range.id).find? id = none
    rw [Table.find?_erase, hn, ite_self]
  · rw [hc]
    refine ⟨_, ?_, h.loses_shrink hr ha hc hspan hw hrest, hs.draw fun id _ hn => ?_⟩
    · dsimp only
      rw [Tx.attempt_change, hsave]
    · rw [Table.find?_insert, if_neg (h.id_ne hr hn), hn]
  · rw [hc]
    refine ⟨_, ?_, h.loses_split hr ha hc hb hb' hw hw' hclear hrest hnext,
      hs.draw fun id hne hn => ?_⟩
    · dsimp only
      rw [Tx.attempt_bind, Tx.attempt_change, hsave]
      dsimp only
      rw [Tx.attempt_change, Ipam.insertRange_eq (by exact hpool)]
    · rw [Table.find?_insert, if_neg (Ne.symm hne), Table.find?_insert, if_neg (h.id_ne hr hn), hn]

theorem vacant (h : ipam.TidyIn pool) (ha : pool.span.contains address = true)
    (hn : ¬ Free ipam.ranges pool.id address) :
    Vacant (ipam.only pool.id).pools (ipam.only pool.id).ranges .spent pool address := by
  refine ⟨h.tidy, h.stored, ha, fun id range hr hp => ?_⟩
  rw [Bool.eq_false_iff]
  exact fun hc => hn ⟨id, range, (find?_rowsOf.1 hr).1, hp, hc⟩

/-- Giving an address that is in no range back to its pool succeeds. -/
theorem reclaim (h : ipam.TidyIn pool) (ha : pool.span.contains address = true)
    (hn : ¬ Free ipam.ranges pool.id address) (hs : supply.Spare (count + 1) ipam.ranges) :
    ∃ after later, (pool.reclaim address).attempt ipam supply = (.ok ((), after), later) ∧
      pool.Regains address ipam after ∧ later.Spare count after.ranges := by
  have hv := h.vacant ha hn
  have hranges := poolRanges_only ipam pool.id
  have hout : ¬ (ipam.poolRanges pool.id).any (fun row => row.span.contains address) = true := by
    intro hany
    obtain ⟨range, hr, hc⟩ := List.any_eq_true.1 hany
    obtain ⟨⟨id, hr⟩, hp⟩ := mem_poolRanges.1 hr
    exact hn ⟨id, range, hr, hp, hc⟩
  have hsave {range : FreeRange} (hr : range ∈ ipam.poolRanges pool.id) (span : Span) :
      ipam.saveRange { range with span } =
        .ok { ipam with ranges := ipam.ranges.insert range.id { range with span } } :=
    Ipam.saveRange_eq (by simp [(h.find?_id hr).1])
  unfold Pool.reclaim
  rw [Tx.attempt_get_bind]
  dsimp only
  rw [if_neg hout]
  split
  -- There is a range on each side, on one of them, or on neither.
  · rename_i before after hb hl
    have hmem := List.mem_of_find?_eq_some hb
    have hmem' := List.mem_of_find?_eq_some hl
    rw [← hranges] at hb hl
    obtain ⟨hb, hbp, hlast⟩ := hv.of_before hb
    obtain ⟨hl, hlp, hfirst⟩ := hv.of_after hl
    have hjoin := hv.join hb hbp hlast hl hlp hfirst
    refine ⟨_, supply, ?_, h.regains_join hmem hmem' _ hjoin, hs.keep fun id hn => ?_⟩
    · rw [Tx.attempt_bind, Tx.attempt_change, hsave hmem]
      rfl
    · rw [Table.find?_erase, Table.find?_insert, if_neg (h.id_ne hmem hn), hn, ite_self]
  · rename_i before hb hl
    have hmem := List.mem_of_find?_eq_some hb
    rw [← hranges] at hb hl
    obtain ⟨hb, hbp, hlast⟩ := hv.of_before hb
    have hextend := hv.extend_last hb hbp hlast (hv.of_no_after hl)
    have hregains := h.regains_insert { before with span := ⟨before.span.first, address⟩ }
      hbp (fun old => h.pool_eq hmem old) hextend
    refine ⟨_, supply, ?_, hregains, hs.keep fun id hn => ?_⟩
    · rw [Tx.attempt_change, hsave hmem]
    · rw [Table.find?_insert, if_neg (h.id_ne hmem hn), hn]
  · rename_i after hb hl
    have hmem := List.mem_of_find?_eq_some hl
    rw [← hranges] at hb hl
    obtain ⟨hl, hlp, hfirst⟩ := hv.of_after hl
    have hextend := hv.extend_first hl hlp hfirst (hv.of_no_before hb)
    have hregains := h.regains_insert { after with span := ⟨address, after.span.last⟩ } hlp
      (fun old => h.pool_eq hmem old) hextend
    refine ⟨_, supply, ?_, hregains, hs.keep fun id hn => ?_⟩
    · rw [Tx.attempt_change, hsave hmem]
    · rw [Table.find?_insert, if_neg (h.id_ne hmem hn), hn]
  · rename_i hb hl
    rw [← hranges] at hb hl
    have hsingle := hv.insert_single (hv.of_no_before hb) (hv.of_no_after hl)
      (Supply.spent_drawn _) (find?_rowsOf_of_none hs.next)
    have hnone (old : FreeRange) (ho : ipam.ranges.find? (supply.ident .range).1 = some old) :
        old.pool = pool.id := by
      rw [hs.next] at ho
      cases ho
    have hregains := h.regains_insert ⟨(supply.ident .range).1, pool.id, ⟨address, address⟩⟩ rfl
      hnone hsingle
    refine ⟨_, _, ?_, hregains, hs.draw fun id hne hn => ?_⟩
    · rw [Tx.attempt_ident_bind, Tx.attempt_change, Ipam.insertRange_eq (by exact h.stored)]
    · rw [Table.find?_insert, if_neg (Ne.symm hne), hn]

end Ipam.TidyIn

section Inverse

variable {ipam : Ipam} {pool : Pool} {supply : Supply} {address : Address}
  {give give' : Tx Ipam Unit}

theorem Ipam.TidyIn.undoes (h : ipam.TidyIn pool) (hs : supply.Spare 2 ipam.ranges)
    (address : Address) : pool.Undoes ipam supply address (pool.reclaim address) := by
  refine ⟨fun range hr ha => ?_, fun ha hn => ?_⟩
  · obtain ⟨after, htake, hloses, hs⟩ := h.take hr ha hs
    have ⟨hstored, hp⟩ := h.find?_id hr
    have hfree : Free ipam.ranges pool.id address := ⟨range.id, range, hstored, hp, ha⟩
    have htaken : ¬ Free after.ranges pool.id address := fun hf => ((hloses.free _).1 hf).2 rfl
    obtain ⟨last, rest, hgive, hregains, _⟩ :=
      hloses.tidy.reclaim ((h.within hstored hp).2.contains ha) htaken hs
    refine ⟨after, _, htake, hloses, last, rest, hgive, hloses.elsewhere.trans hregains.elsewhere,
      h.bounds_eq hregains.tidy fun a => ?_⟩
    rw [hregains.free, hloses.free]
    by_cases hone : a = address
    · simp [hone, hfree]
    · simp [hone]
  · obtain ⟨after, later, hgive, hregains, hs⟩ := h.reclaim ha hn hs
    obtain ⟨id, range, hr, hp, hc⟩ := (hregains.free address).2 (.inr rfl)
    have hmem : range ∈ after.poolRanges pool.id := mem_poolRanges.2 ⟨⟨id, hr⟩, hp⟩
    obtain ⟨last, htake, hloses, _⟩ := hregains.tidy.take hmem hc hs
    refine ⟨after, later, hgive, hregains, range, hmem, hc, last, _, htake,
      hregains.elsewhere.trans hloses.elsewhere, h.bounds_eq hloses.tidy fun a => ?_⟩
    rw [hloses.free, hregains.free]
    by_cases hone : a = address
    · simp [hone, hn]
    · simp [hone]

/-- Transactions that agree where the pools are the same undo the same. -/
theorem Pool.Undoes.congr (h : pool.Undoes ipam supply address give)
    (hg : ∀ tables later, tables.pools = ipam.pools →
      give'.attempt tables later = give.attempt tables later) :
    pool.Undoes ipam supply address give' := by
  refine ⟨fun range hr ha => ?_, fun ha hn => ?_⟩
  · obtain ⟨after, later, htake, hloses, hback⟩ := h.taken range hr ha
    refine ⟨after, later, htake, hloses, ?_⟩
    rwa [hg after later hloses.elsewhere.pools]
  · rw [hg ipam supply rfl]
    exact h.given ha hn

theorem Ipam.reclaim_attempt (hfirst : (ipam.poolsOf pool.subnet).find?
      (fun found => found.span.contains address) = some pool) (supply : Supply) :
    (Ipam.reclaim pool.subnet address).attempt ipam supply =
      (pool.reclaim address).attempt ipam supply := by
  unfold Ipam.reclaim
  rw [Tx.attempt_get_bind, hfirst]

/-- Taking and giving back are inverse in each pool whose ranges are in order, whatever the rows of
other pools. Where an address is given back to a subnet, this is so in the first of its pools that
contains the address. -/
theorem Pool.take_reclaim_inverse (tidy : ipam.TidyIn pool) (spare : supply.Spare 2 ipam.ranges)
    (address : Address) :
    pool.Undoes ipam supply address (pool.reclaim address) ∧
    ((ipam.poolsOf pool.subnet).find? (fun found => found.span.contains address) = some pool →
      pool.Undoes ipam supply address (Ipam.reclaim pool.subnet address)) := by
  have hundoes := tidy.undoes spare address
  refine ⟨hundoes, fun hfirst => hundoes.congr fun tables later hpools => ?_⟩
  refine Ipam.reclaim_attempt ?_ later
  unfold Ipam.poolsOf at hfirst ⊢
  rwa [hpools]

end Inverse

/-- The middle one of three pools that touch. -/
def Pool.middle : Pool where
  id := ⟨2⟩
  subnet := ⟨0⟩
  span := Allocation.damaged.span 2 5

/-- Three pools that touch, with a range of the last under the identifier of one of the first. -/
def Ipam.adjoining : Ipam where
  subnets := Table.empty.insert ⟨0⟩ .sample
  pools := ((Table.empty.insert ⟨1⟩ ⟨⟨1⟩, ⟨0⟩, Allocation.damaged.span 1 1⟩).insert ⟨2⟩
    .middle).insert ⟨3⟩ ⟨⟨3⟩, ⟨0⟩, Allocation.damaged.span 6 7⟩
  ranges := (((Table.empty.insert ⟨11⟩ ⟨⟨11⟩, ⟨1⟩, Allocation.damaged.span 1 1⟩).insert ⟨12⟩
    ⟨⟨12⟩, ⟨2⟩, Allocation.damaged.span 2 3⟩).insert ⟨13⟩
    ⟨⟨13⟩, ⟨2⟩, Allocation.damaged.span 5 5⟩).insert ⟨14⟩ ⟨⟨11⟩, ⟨3⟩, Allocation.damaged.span 6 7⟩

theorem Pool.middle_tidy : Ipam.adjoining.TidyIn .middle := by
  have hrow : ∀ row ∈ Ipam.adjoining.ranges.rows, row.2.pool = Pool.middle.id →
      row = (⟨12⟩, ⟨⟨12⟩, ⟨2⟩, Allocation.damaged.span 2 3⟩) ∨
      row = (⟨13⟩, ⟨⟨13⟩, ⟨2⟩, Allocation.damaged.span 5 5⟩) := by decide +kernel
  have hfound {id : RangeId} {range : FreeRange}
      (hr : Ipam.adjoining.ranges.find? id = some range) (hp : range.pool = Pool.middle.id) :
      (id = ⟨12⟩ ∧ range = ⟨⟨12⟩, ⟨2⟩, Allocation.damaged.span 2 3⟩) ∨
      (id = ⟨13⟩ ∧ range = ⟨⟨13⟩, ⟨2⟩, Allocation.damaged.span 5 5⟩) := by
    simpa using hrow (id, range) (Table.find?_eq_some_iff.1 hr) hp
  refine ⟨by decide +kernel, fun id range hr hp => ?_, fun id range hr hp => ?_,
    fun id id' range range' hr hr' hp hp' hne => ?_⟩
  · rcases hfound hr hp with ⟨rfl, rfl⟩ | ⟨rfl, rfl⟩ <;> rfl
  · rcases hfound hr hp with ⟨rfl, rfl⟩ | ⟨rfl, rfl⟩ <;>
      exact ⟨⟨by decide, by decide⟩, ⟨by decide, by decide, by decide⟩⟩
  · rcases hfound hr hp with ⟨rfl, rfl⟩ | ⟨rfl, rfl⟩ <;>
      rcases hfound hr' hp' with ⟨rfl, rfl⟩ | ⟨rfl, rfl⟩
    · exact absurd rfl hne
    · exact .inl (by unfold Clears; decide)
    · exact .inr (by unfold Clears; decide)
    · exact absurd rfl hne

/-- Every address of the pool, in a range or in none, with ranges on one side or on both. -/
theorem Pool.middle_inverse :
    Ipam.adjoining.bounds ⟨2⟩ = [Allocation.damaged.span 2 3, Allocation.damaged.span 5 5] ∧
    ∀ n ∈ [2, 3, 4, 5], Pool.middle.Undoes .adjoining { Supply.counting with idents := 20 }
      (.sample n) (Ipam.reclaim ⟨0⟩ (.sample n)) := by
  have hspare : Supply.Spare { Supply.counting with idents := 20 } 2 Ipam.adjoining.ranges :=
    ⟨by decide +kernel, by decide +kernel⟩
  have hfirst : ∀ n ∈ [2, 3, 4, 5], (Ipam.adjoining.poolsOf ⟨0⟩).find?
      (fun found => found.span.contains (.sample n)) = some .middle := by decide +kernel
  exact ⟨by decide +kernel, fun n hn =>
    (take_reclaim_inverse middle_tidy hspare (.sample n)).2 (hfirst n hn)⟩

end ControlPlane
