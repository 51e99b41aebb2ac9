import ControlPlane.Proofs.Ranges.Take

/-! Giving an address back to its pool. It joins the range before it and the range after it, so that
no two ranges come to touch. -/

namespace ControlPlane

open Ip (Address Span)

namespace Ip.Span

variable {s t u : Span} {a x : Address}

theorem proper_single (a : Address) : (⟨a, a⟩ : Span).Proper := ⟨rfl, Nat.le_refl _⟩

theorem contains_single : (⟨a, a⟩ : Span).contains x = true ↔ x = a := by
  rw [contains_iff]
  constructor
  · rintro ⟨hf, hl, hr⟩
    exact Address.ext hf (Nat.le_antisymm hr hl)
  · rintro rfl
    exact ⟨rfl, Nat.le_refl _, Nat.le_refl _⟩

theorem within_single (ha : s.contains a = true) : (⟨a, a⟩ : Span).Within s := by
  have ⟨hf, hl, hr⟩ := contains_iff.1 ha
  exact ⟨hf, hl, hr⟩

theorem Proper.append (hs : s.Proper) (ht : t.Proper) (hf : t.first.family = s.first.family)
    (h : s.last.value + 1 = t.first.value) : (⟨s.first, t.last⟩ : Span).Proper := by
  have hle := hs.le
  have hle' := ht.le
  exact ⟨ht.family.trans hf, by simp only; omega⟩

theorem Within.append (hs : s.Within u) (ht : t.Within u) : (⟨s.first, t.last⟩ : Span).Within u :=
  ⟨hs.family, hs.first, ht.last⟩

theorem contains_append (hs : s.Proper) (ht : t.Proper) (hf : t.first.family = s.first.family)
    (h : s.last.value + 1 = t.first.value) :
    (⟨s.first, t.last⟩ : Span).contains x = true ↔ s.contains x = true ∨ t.contains x = true := by
  have hle := hs.le
  have hle' := ht.le
  simp only [contains_iff, hf, ← and_or_left, and_congr_right_iff]
  omega

theorem Apart.append (hu : u.Proper) (hs : u.Apart s) (ht : u.Apart t)
    (h : s.last.value + 1 = t.first.value) : u.Apart ⟨s.first, t.last⟩ := by
  have hle := hu.le
  simp only [Apart, Clears] at hs ht ⊢
  omega

theorem Proper.apart_single (h : s.Proper) (hf : a.family = s.first.family)
    (ha : s.contains a = false) (hl : s.last.value + 1 ≠ a.value)
    (hr : a.value + 1 ≠ s.first.value) : s.Apart ⟨a, a⟩ := by
  have hle := h.le
  have hnot : ¬ (s.first.value ≤ a.value ∧ a.value ≤ s.last.value) := by
    intro hin
    rw [contains_iff.2 ⟨hf, hin⟩] at ha
    cases ha
  simp only [Apart, Clears]
  omega

end Ip.Span

open Ip.Span

/-- What a table of ranges becomes when an address is given back to a pool. -/
structure Returned (pools : Table PoolId Pool) (before after : Table RangeId FreeRange)
    (supply : Supply) (pool : PoolId) (address : Address) : Prop where
  tidy : Tidy pools after supply
  free : ∀ p a, Free after p a ↔ Free before p a ∨ (p = pool ∧ a = address)

/-- A pool of a tidy table and one of its addresses that is in no range. -/
structure Vacant (pools : Table PoolId Pool) (ranges : Table RangeId FreeRange) (supply : Supply)
    (pool : Pool) (address : Address) : Prop where
  tidy : Tidy pools ranges supply
  stored : pools.find? pool.id = some pool
  contains : pool.span.contains address = true
  taken : ∀ ⦃id range⦄, ranges.find? id = some range → range.pool = pool.id →
    range.span.contains address = false

namespace Vacant

variable {pools : Table PoolId Pool} {ranges : Table RangeId FreeRange} {supply : Supply}
  {pool : Pool} {address : Address} {id : RangeId} {range before after : FreeRange} {fresh : RangeId}

theorem of_extends {later : Supply} (h : Vacant pools ranges supply pool address)
    (he : later.Extends supply) : Vacant pools ranges later pool address :=
  ⟨h.tidy.of_extends he, h.stored, h.contains, h.taken⟩

theorem row (h : Vacant pools ranges supply pool address) (hr : ranges.find? id = some range)
    (hp : range.pool = pool.id) : range.span.Proper ∧ range.span.Within pool.span ∧
      address.family = range.span.first.family := by
  obtain ⟨pool', hp', hs, hw⟩ := h.tidy.within hr
  rw [hp, h.stored] at hp'
  cases hp'
  exact ⟨hs, hw, (contains_iff.1 h.contains).1.trans hw.family.symm⟩

theorem last_ne (h : Vacant pools ranges supply pool address)
    (hb : ranges.find? before.id = some before) (hbp : before.pool = pool.id)
    (hl : before.span.last.value + 1 = address.value) (hne : id ≠ before.id)
    (hr : ranges.find? id = some range) (hp : range.pool = pool.id) :
    range.span.last.value + 1 ≠ address.value := by
  have hapart := h.tidy.apart hr hb (hp.trans hbp.symm) hne
  have hs := (h.row hr hp).1.le
  have hs' := (h.row hb hbp).1.le
  simp only [Apart, Clears] at hapart
  omega

theorem first_ne (h : Vacant pools ranges supply pool address)
    (ha : ranges.find? after.id = some after) (hap : after.pool = pool.id)
    (hf : address.value + 1 = after.span.first.value) (hne : id ≠ after.id)
    (hr : ranges.find? id = some range) (hp : range.pool = pool.id) :
    address.value + 1 ≠ range.span.first.value := by
  have hapart := h.tidy.apart hr ha (hp.trans hap.symm) hne
  have hs := (h.row hr hp).1.le
  have hs' := (h.row ha hap).1.le
  simp only [Apart, Clears] at hapart
  omega

theorem apart_single (h : Vacant pools ranges supply pool address)
    (hr : ranges.find? id = some range) (hp : range.pool = pool.id)
    (hl : range.span.last.value + 1 ≠ address.value)
    (hf : address.value + 1 ≠ range.span.first.value) : range.span.Apart ⟨address, address⟩ :=
  have ⟨hs, _, hfam⟩ := h.row hr hp
  hs.apart_single hfam (h.taken hr hp) hl hf

theorem insert_single (h : Vacant pools ranges supply pool address)
    (hl : ∀ id range, ranges.find? id = some range → range.pool = pool.id →
      range.span.last.value + 1 ≠ address.value)
    (hf : ∀ id range, ranges.find? id = some range → range.pool = pool.id →
      address.value + 1 ≠ range.span.first.value)
    (hd : supply.Drawn fresh.value) (hn : ranges.find? fresh = none) :
    Returned pools ranges (ranges.insert fresh ⟨fresh, pool.id, ⟨address, address⟩⟩) supply pool.id
      address := by
  refine ⟨h.tidy.insert rfl hd h.stored (proper_single _) (within_single h.contains) ?_, fun p a => ?_⟩
  · exact fun id other _ hr hp => h.apart_single hr hp (hl id other hr hp) (hf id other hr hp)
  · rw [free_insert, free_erase_of_none hn, contains_single, or_comm]
    simp only [eq_comm]

theorem extend_last (h : Vacant pools ranges supply pool address)
    (hb : ranges.find? before.id = some before) (hbp : before.pool = pool.id)
    (hl : before.span.last.value + 1 = address.value)
    (hf : ∀ id range, ranges.find? id = some range → range.pool = pool.id →
      address.value + 1 ≠ range.span.first.value) :
    Returned pools ranges (ranges.insert before.id { before with
      span := ⟨before.span.first, address⟩ }) supply pool.id address := by
  obtain ⟨hs, hw, hfam⟩ := h.row hb hbp
  have hone := proper_single address
  refine ⟨h.tidy.insert rfl (h.tidy.key hb).2 (hbp ▸ h.stored) (hs.append hone hfam hl)
    (hw.append (within_single h.contains)) ?_, fun p a => ?_⟩
  · intro id other hne hr hp
    have hsingle := h.apart_single hr (hp.trans hbp)
      (h.last_ne hb hbp hl hne hr (hp.trans hbp)) (hf id other hr (hp.trans hbp))
    exact Apart.append (h.row hr (hp.trans hbp)).1 (h.tidy.apart hr hb hp hne) hsingle hl
  · have hc : (⟨before.span.first, address⟩ : Span).contains a = true ↔ _ :=
      contains_append hs hone hfam hl
    rw [free_insert, free_iff hb, hc, contains_single, and_or_left, or_right_comm, hbp,
      @eq_comm _ p]

theorem extend_first (h : Vacant pools ranges supply pool address)
    (ha : ranges.find? after.id = some after) (hap : after.pool = pool.id)
    (hf : address.value + 1 = after.span.first.value)
    (hl : ∀ id range, ranges.find? id = some range → range.pool = pool.id →
      range.span.last.value + 1 ≠ address.value) :
    Returned pools ranges (ranges.insert after.id { after with
      span := ⟨address, after.span.last⟩ }) supply pool.id address := by
  obtain ⟨hs, hw, hfam⟩ := h.row ha hap
  have hone := proper_single address
  refine ⟨h.tidy.insert rfl (h.tidy.key ha).2 (hap ▸ h.stored) (hone.append hs hfam.symm hf)
    ((within_single h.contains).append hw) ?_, fun p a => ?_⟩
  · intro id other hne hr hp
    have hsingle := h.apart_single hr (hp.trans hap) (hl id other hr (hp.trans hap))
      (h.first_ne ha hap hf hne hr (hp.trans hap))
    exact Apart.append (h.row hr (hp.trans hap)).1 hsingle (h.tidy.apart hr ha hp hne) hf
  · have hc : (⟨address, after.span.last⟩ : Span).contains a = true ↔ _ :=
      contains_append hone hs hfam.symm hf
    rw [free_insert, free_iff ha, hc, contains_single, and_or_left, or_assoc, or_comm, hap,
      @eq_comm _ p]

/-- Between two ranges the address joins them to one, which keeps the row of the first. -/
theorem join (h : Vacant pools ranges supply pool address)
    (hb : ranges.find? before.id = some before) (hbp : before.pool = pool.id)
    (hl : before.span.last.value + 1 = address.value)
    (ha : ranges.find? after.id = some after) (hap : after.pool = pool.id)
    (hf : address.value + 1 = after.span.first.value) :
    Returned pools ranges ((ranges.insert before.id { before with
      span := ⟨before.span.first, after.span.last⟩ }).erase after.id) supply pool.id address := by
  obtain ⟨hs, hw, hfam⟩ := h.row hb hbp
  obtain ⟨hs', hw', hfam'⟩ := h.row ha hap
  have hne : before.id ≠ after.id := by
    intro hid
    rw [hid, ha] at hb
    cases hb
    have := hs.le
    omega
  have hone := proper_single address
  have hfam'' := hfam'.symm.trans hfam
  have hhead : (⟨before.span.first, address⟩ : Span).Proper := hs.append hone hfam hl
  have hb' : (ranges.erase after.id).find? before.id = some before := by
    rw [Table.find?_erase, if_neg hne, hb]
  -- With the row after the address gone first, only the one before it meets the joined span.
  rw [Table.erase_insert hne]
  refine ⟨(h.tidy.erase after.id).insert rfl (h.tidy.key hb).2 (hbp ▸ h.stored)
    (hhead.append hs' hfam'' hf) (hw.append hw') ?_, fun p a => ?_⟩
  · intro id other hne' hr hp
    rw [Table.find?_erase] at hr
    split at hr
    · cases hr
    have hsingle := h.apart_single hr (hp.trans hbp)
      (h.last_ne hb hbp hl hne' hr (hp.trans hbp)) (h.first_ne ha hap hf ‹_› hr (hp.trans hbp))
    have hrow := (h.row hr (hp.trans hbp)).1
    have hapart : other.span.Apart ⟨before.span.first, address⟩ :=
      Apart.append hrow (h.tidy.apart hr hb hp hne') hsingle hl
    have hpool : other.pool = after.pool := hp.trans (hbp.trans hap.symm)
    have hjoined := Apart.append hrow hapart (h.tidy.apart hr ha hpool ‹_›) hf
    exact hjoined
  · have hc : (⟨before.span.first, address⟩ : Span).contains a = true ↔ _ :=
      contains_append hs hone hfam hl
    have hc' : (⟨before.span.first, after.span.last⟩ : Span).contains a = true ↔
        (⟨before.span.first, address⟩ : Span).contains a = true ∨ after.span.contains a = true :=
      contains_append hhead hs' hfam'' hf
    rw [free_insert, free_iff ha, free_iff hb', hc', hc, contains_single, hap, hbp,
      @eq_comm _ p]
    simp only [and_or_left]
    constructor
    · rintro (((h | h) | h) | h)
      · exact .inl (.inr (.inl h))
      · exact .inr h
      · exact .inl (.inl h)
      · exact .inl (.inr (.inr h))
    · rintro ((h | h | h) | h)
      · exact .inl (.inr h)
      · exact .inl (.inl (.inl h))
      · exact .inr h
      · exact .inl (.inl (.inr h))

end Vacant

section Neighbours

variable {ipam : Ipam} {supply : Supply} {pool : Pool} {address : Address} {id : RangeId}
  {range before after : FreeRange}

theorem Vacant.of_any (h : Tidy ipam.pools ipam.ranges supply)
    (hp : ipam.pools.find? pool.id = some pool) (ha : pool.span.contains address = true)
    (hany : ¬ (ipam.poolRanges pool.id).any (fun range => range.span.contains address) = true) :
    Vacant ipam.pools ipam.ranges supply pool address := by
  refine ⟨h, hp, ha, fun id range hr hpool => ?_⟩
  rw [Bool.eq_false_iff]
  intro hc
  exact hany (List.any_eq_true.2 ⟨range, mem_poolRanges.2 ⟨⟨id, hr⟩, hpool⟩, hc⟩)

theorem Vacant.next?_iff (h : Vacant ipam.pools ipam.ranges supply pool address)
    (hr : ipam.ranges.find? id = some range) (hp : range.pool = pool.id) :
    range.span.last.next? = some address ↔ range.span.last.value + 1 = address.value := by
  obtain ⟨hs, _, hfam⟩ := h.row hr hp
  rw [Address.next?_eq_some, hfam, hs.family, @eq_comm _ address.value]
  exact and_iff_right rfl

theorem Vacant.previous?_iff (h : Vacant ipam.pools ipam.ranges supply pool address)
    (hr : ipam.ranges.find? id = some range) (hp : range.pool = pool.id) :
    range.span.first.previous? = some address ↔ address.value + 1 = range.span.first.value := by
  obtain ⟨_, _, hfam⟩ := h.row hr hp
  rw [Address.previous?_eq_some, hfam]
  exact and_iff_right rfl

theorem Vacant.of_before (h : Vacant ipam.pools ipam.ranges supply pool address)
    (hf : (ipam.poolRanges pool.id).find? (fun range => range.span.last.next? = some address) =
      some before) : ipam.ranges.find? before.id = some before ∧ before.pool = pool.id ∧
        before.span.last.value + 1 = address.value := by
  obtain ⟨⟨id, hr⟩, hp⟩ := mem_poolRanges.1 (List.mem_of_find?_eq_some hf)
  have hl := List.find?_some hf
  exact ⟨h.tidy.find?_id hr, hp, (h.next?_iff hr hp).1 (of_decide_eq_true hl)⟩

theorem Vacant.of_after (h : Vacant ipam.pools ipam.ranges supply pool address)
    (hf : (ipam.poolRanges pool.id).find? (fun range => range.span.first.previous? = some address) =
      some after) : ipam.ranges.find? after.id = some after ∧ after.pool = pool.id ∧
        address.value + 1 = after.span.first.value := by
  obtain ⟨⟨id, hr⟩, hp⟩ := mem_poolRanges.1 (List.mem_of_find?_eq_some hf)
  have hl := List.find?_some hf
  exact ⟨h.tidy.find?_id hr, hp, (h.previous?_iff hr hp).1 (of_decide_eq_true hl)⟩

theorem Vacant.of_no_before (h : Vacant ipam.pools ipam.ranges supply pool address)
    (hf : (ipam.poolRanges pool.id).find? (fun range => range.span.last.next? = some address) =
      none) (id : RangeId) (range : FreeRange) (hr : ipam.ranges.find? id = some range)
    (hp : range.pool = pool.id) : range.span.last.value + 1 ≠ address.value := by
  have hnot := List.find?_eq_none.1 hf range (mem_poolRanges.2 ⟨⟨id, hr⟩, hp⟩)
  exact fun hl => hnot (decide_eq_true ((h.next?_iff hr hp).2 hl))

theorem Vacant.of_no_after (h : Vacant ipam.pools ipam.ranges supply pool address)
    (hf : (ipam.poolRanges pool.id).find? (fun range => range.span.first.previous? = some address) =
      none) (id : RangeId) (range : FreeRange) (hr : ipam.ranges.find? id = some range)
    (hp : range.pool = pool.id) : address.value + 1 ≠ range.span.first.value := by
  have hnot := List.find?_eq_none.1 hf range (mem_poolRanges.2 ⟨⟨id, hr⟩, hp⟩)
  exact fun hl => hnot (decide_eq_true ((h.previous?_iff hr hp).2 hl))

theorem Tidy.returned_of_any (h : Tidy ipam.pools ipam.ranges supply)
    (hany : (ipam.poolRanges pool.id).any (fun range => range.span.contains address) = true) :
    Returned ipam.pools ipam.ranges ipam.ranges supply pool.id address := by
  obtain ⟨range, hr, hc⟩ := List.any_eq_true.1 hany
  obtain ⟨⟨id, hr⟩, hp⟩ := mem_poolRanges.1 hr
  refine ⟨h, fun p a => (or_iff_left_of_imp ?_).symm⟩
  rintro ⟨rfl, rfl⟩
  exact ⟨id, range, hr, hp, hc⟩

end Neighbours

/-- Giving an address back never fails, and no other becomes free with it. -/
theorem Pool.reclaim_ensures (ipam : Ipam) (pool : Pool) (address : Address) :
    (pool.reclaim address).Ensures
      (fun tables supply => tables = ipam ∧ Tidy ipam.pools ipam.ranges supply ∧
        ipam.pools.find? pool.id = some pool ∧ pool.span.contains address = true)
      (fun _ tables supply => ∃ ranges, tables = { ipam with ranges } ∧
        Returned ipam.pools ipam.ranges ranges supply pool.id address)
      fun _ => False := by
  refine Tx.ensures_get_bind fun seen => ?_
  dsimp only
  split
  · rename_i hany
    refine Tx.ensures_pure ?_
    rintro _ supply ⟨rfl, rfl, h, _⟩
    exact ⟨_, rfl, h.returned_of_any hany⟩
  rename_i hany
  split
  -- There is a range on each side, on one of them, or on neither.
  · rename_i before after hb ha
    let joined : FreeRange := { before with span := ⟨before.span.first, after.span.last⟩ }
    have hsave {supply : Supply} (h : Vacant seen.pools seen.ranges supply pool address) :
        seen.saveRange joined = .ok { seen with ranges := seen.ranges.insert before.id joined } :=
      Ipam.saveRange_eq (by simp [joined, (h.of_before hb).1])
    refine Tx.ensures_change_bind ?_ (Tx.ensures_modify ?_)
    · rintro _ supply error ⟨rfl, rfl, h, hp, hc⟩ hf
      rw [hsave (.of_any h hp hc hany)] at hf
      cases hf
    · rintro _ supply ⟨_, ⟨rfl, rfl, h, hp, hc⟩, hf⟩
      have h := Vacant.of_any h hp hc hany
      rw [hsave h] at hf
      cases hf
      obtain ⟨hb, hbp, hl⟩ := h.of_before hb
      obtain ⟨ha, hap, hf⟩ := h.of_after ha
      have hjoin := h.join hb hbp hl ha hap hf
      exact ⟨_, rfl, hjoin⟩
  · rename_i before hb ha
    refine Tx.ensures_change ?_
    rintro _ supply ⟨rfl, rfl, h, hp, hc⟩
    have h := Vacant.of_any h hp hc hany
    have ha := h.of_no_after ha
    obtain ⟨hb, hbp, hl⟩ := h.of_before hb
    rw [Ipam.saveRange_eq (by simp [hb])]
    have hextend := h.extend_last hb hbp hl ha
    exact ⟨_, rfl, hextend⟩
  · rename_i after hb ha
    refine Tx.ensures_change ?_
    rintro _ supply ⟨rfl, rfl, h, hp, hc⟩
    have h := Vacant.of_any h hp hc hany
    have hb := h.of_no_before hb
    obtain ⟨ha, hap, hf⟩ := h.of_after ha
    rw [Ipam.saveRange_eq (by simp [ha])]
    have hextend := h.extend_first ha hap hf hb
    exact ⟨_, rfl, hextend⟩
  · rename_i hb ha
    refine Tx.ensures_ident_bind fun fresh => Tx.ensures_change ?_
    rintro _ later ⟨supply, ⟨rfl, rfl, h, hp, hc⟩, he, hd, hnd⟩
    have hnone := h.find?_eq_none hnd
    have h := (Vacant.of_any h hp hc hany).of_extends he
    rw [Ipam.insertRange_eq (by exact hp)]
    exact ⟨_, rfl, h.insert_single (h.of_no_before hb) (h.of_no_after ha) hd hnone⟩

end ControlPlane
