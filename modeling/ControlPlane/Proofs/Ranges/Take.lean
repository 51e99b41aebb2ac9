import ControlPlane.Allocation.Ranges
import ControlPlane.Proofs.Ranges.Tidy

/-! Taking an address out of a range. The range loses exactly this address, and what is left of it
stays tidy: nothing, one shorter range, or two with the address between them. -/

namespace ControlPlane

open Ip (Address Span)

namespace Ip

variable {a b x : Address} {s : Span}

theorem Address.ne_iff (h : a.family = b.family) : a ≠ b ↔ a.value ≠ b.value :=
  not_congr ⟨fun hab => by rw [hab], Address.ext h⟩

theorem Address.exists_next (h : a.value < b.value) (hf : a.family = b.family) :
    ∃ c, a.next? = some c ∧ c.family = a.family ∧ c.value = a.value + 1 := by
  have hlt : a.value + 1 < a.family.size := by
    rw [hf]
    exact Nat.lt_of_le_of_lt h b.value_lt
  exact ⟨⟨a.family, a.value + 1, hlt⟩, next?_eq_some.2 ⟨rfl, rfl⟩, rfl, rfl⟩

theorem Address.exists_previous (h : b.value < a.value) :
    ∃ c, a.previous? = some c ∧ c.family = a.family ∧ c.value + 1 = a.value := by
  have hlt : a.value - 1 < a.family.size := Nat.lt_of_le_of_lt (Nat.sub_le _ _) a.value_lt
  have hv : a.value - 1 + 1 = a.value := by omega
  exact ⟨⟨a.family, a.value - 1, hlt⟩, previous?_eq_some.2 ⟨rfl, hv⟩, rfl, hv⟩

theorem Span.exists_below (ha : s.contains a = true) (hne : a ≠ s.first) :
    ∃ c, a.previous? = some c ∧ (⟨s.first, c⟩ : Span).Proper ∧ (⟨s.first, c⟩ : Span).Within s ∧
      c.value + 1 = a.value := by
  have ⟨hf, hle, hle'⟩ := contains_iff.1 ha
  have hv := (Address.ne_iff hf).1 hne
  have hlt : s.first.value < a.value := by omega
  obtain ⟨c, hc, hcf, hcv⟩ := Address.exists_previous hlt
  exact ⟨c, hc, ⟨hcf.trans hf, by simp only; omega⟩, ⟨rfl, Nat.le_refl _, by simp only; omega⟩, hcv⟩

theorem Span.exists_above (h : s.Proper) (ha : s.contains a = true) (hne : a ≠ s.last) :
    ∃ c, a.next? = some c ∧ (⟨c, s.last⟩ : Span).Proper ∧ (⟨c, s.last⟩ : Span).Within s ∧
      c.value = a.value + 1 := by
  have ⟨hf, hle, hle'⟩ := contains_iff.1 ha
  have hv := (Address.ne_iff (hf.trans h.family.symm)).1 hne
  have hlt : a.value < s.last.value := by omega
  obtain ⟨c, hc, hcf, hcv⟩ := Address.exists_next hlt (hf.trans h.family.symm)
  have hcs := hcf.trans hf
  exact ⟨c, hc, ⟨h.family.trans hcs.symm, by simp only; omega⟩,
    ⟨hcs, by simp only; omega, Nat.le_refl _⟩, hcv⟩

end Ip

open Ip.Span

variable {range : FreeRange} {address : Address} {fresh : RangeId}

/-- What becomes of a range when one of its addresses is taken. -/
theorem FreeRange.carve_cases (fresh : RangeId) (h : range.span.Proper)
    (ha : range.span.contains address = true) :
    (range.carve address fresh = some .remove ∧
      ∀ x, range.span.contains x = true → x = address) ∨
    (∃ span, range.carve address fresh = some (.shrink { range with span }) ∧ span.Proper ∧
      span.Within range.span ∧
      ∀ x, span.contains x = true ↔ range.span.contains x = true ∧ x ≠ address) ∨
    ∃ below above, range.carve address fresh =
        some (.split { range with span := below } ⟨fresh, range.pool, above⟩) ∧
      below.Proper ∧ above.Proper ∧ below.Within range.span ∧ above.Within range.span ∧
      below.Clears above ∧ ∀ x, below.contains x = true ∨ above.contains x = true ↔
        range.span.contains x = true ∧ x ≠ address := by
  have ⟨hf, hle, hle'⟩ := contains_iff.1 ha
  have hne {x : Address} (hx : x.family = range.span.first.family) :
      x ≠ address ↔ x.value ≠ address.value := Address.ne_iff (hx.trans hf.symm)
  unfold carve isSingleton
  by_cases hs : range.span.first = range.span.last
  · refine .inl ⟨by simp [ha, hs], fun x hx => ?_⟩
    have ⟨hxf, hxl, hxl'⟩ := contains_iff.1 hx
    have hv := congrArg Address.value hs
    exact Address.ext (hxf.trans hf.symm) (by omega)
  by_cases hfirst : address = range.span.first
  · obtain ⟨d, hd, hp, hw, hv⟩ := exists_above h ha (hfirst ▸ hs)
    have hdf : d.family = range.span.first.family := hw.family
    refine .inr (.inl ⟨⟨d, range.span.last⟩, ?_, hp, hw, fun x => ?_⟩)
    · rw [if_neg (by simp [ha]), if_neg (by simp [hs]), if_pos hfirst, hd]
      rfl
    · simp only [contains_iff, hdf, and_assoc, and_congr_right_iff]
      intro hx
      rw [hne hx, hv, hfirst]
      omega
  by_cases hlast : address = range.span.last
  · obtain ⟨c, hc, hp, hw, hv⟩ := exists_below ha hfirst
    refine .inr (.inl ⟨⟨range.span.first, c⟩, ?_, hp, hw, fun x => ?_⟩)
    · rw [if_neg (by simp [ha]), if_neg (by simp [hs]), if_neg hfirst, if_pos hlast, hc]
      rfl
    · simp only [contains_iff, and_assoc, and_congr_right_iff]
      intro hx
      rw [hne hx, ← hlast]
      omega
  · obtain ⟨c, hc, hp, hw, hv⟩ := exists_below ha hfirst
    obtain ⟨d, hd, hp', hw', hv'⟩ := exists_above h ha hlast
    have hdf : d.family = range.span.first.family := hw'.family
    refine .inr (.inr ⟨⟨range.span.first, c⟩, ⟨d, range.span.last⟩, ?_, hp, hp', hw, hw', ?_,
      fun x => ?_⟩)
    · rw [if_neg (by simp [ha]), if_neg (by simp [hs]), if_neg hfirst, if_neg hlast, hc, hd]
      rfl
    · simp only [Clears]
      omega
    · simp only [contains_iff, hdf, ← and_or_left, and_assoc, and_congr_right_iff]
      intro hx
      rw [hne hx]
      omega

variable {ipam : Ipam} {pools : Table PoolId Pool} {ranges : Table RangeId FreeRange}
  {supply : Supply} {pool : Pool} {p : PoolId} {a : Address}

theorem Ipam.saveRange_eq (h : ipam.ranges.find? range.id ≠ none) :
    ipam.saveRange range = .ok { ipam with ranges := ipam.ranges.insert range.id range } :=
  if_pos (Option.isSome_iff_ne_none.2 h)

theorem Ipam.insertRange_eq (h : ipam.pools.find? range.pool = some pool) :
    ipam.insertRange range = .ok { ipam with ranges := ipam.ranges.insert range.id range } :=
  if_pos (Table.contains_iff.2 ⟨pool, h⟩)

/-- When a row gives way to a rest with all of its addresses but one, this one is free no more. -/
theorem Tidy.free_rest (h : Tidy pools ranges supply) (hr : ranges.find? range.id = some range)
    (ha : range.span.contains address = true) (rest : Address → Prop)
    (hrest : ∀ x, rest x ↔ range.span.contains x = true ∧ x ≠ address) :
    (range.pool = p ∧ rest a) ∨ Free (ranges.erase range.id) p a ↔
      Free ranges p a ∧ ¬ (p = range.pool ∧ a = address) := by
  rw [free_iff hr, hrest]
  constructor
  · rintro (⟨rfl, ha', hne⟩ | hf)
    · exact ⟨.inl ⟨rfl, ha'⟩, fun hh => hne hh.2⟩
    · refine ⟨.inr hf, ?_⟩
      rintro ⟨rfl, rfl⟩
      exact h.not_free_erase hr ha hf
  · rintro ⟨⟨rfl, ha'⟩ | hf, hne⟩
    · exact .inl ⟨rfl, ha', fun hh => hne ⟨rfl, hh⟩⟩
    · exact .inr hf

/-- What a table of ranges becomes when an address of a pool is taken. -/
structure Taken (pools : Table PoolId Pool) (before after : Table RangeId FreeRange)
    (supply : Supply) (pool : PoolId) (address : Address) : Prop where
  tidy : Tidy pools after supply
  free : ∀ p a, Free after p a ↔ Free before p a ∧ ¬ (p = pool ∧ a = address)

theorem Tidy.take_all (h : Tidy pools ranges supply) (hr : ranges.find? range.id = some range)
    (ha : range.span.contains address = true)
    (hall : ∀ x, range.span.contains x = true → x = address) :
    Taken pools ranges (ranges.erase range.id) supply range.pool address := by
  refine ⟨h.erase _, fun p a => ?_⟩
  have hrest : (range.pool = p ∧ False) ∨ Free (ranges.erase range.id) p a ↔
      Free ranges p a ∧ ¬ (p = range.pool ∧ a = address) := by
    refine h.free_rest hr ha (fun _ => False) fun x => ?_
    simp only [false_iff, not_and, Decidable.not_not]
    exact hall x
  simpa only [and_false, false_or] using hrest

theorem Tidy.apart_of_within (h : Tidy pools ranges supply)
    (hr : ranges.find? range.id = some range) {span : Span} (hw : span.Within range.span)
    {id : RangeId} {other : FreeRange} (hne : id ≠ range.id) (ho : ranges.find? id = some other)
    (hpool : other.pool = range.pool) : other.span.Apart span :=
  ((h.apart hr ho hpool.symm (Ne.symm hne)).of_within hw).symm

theorem Tidy.take_shrink (h : Tidy pools ranges supply) (hr : ranges.find? range.id = some range)
    (ha : range.span.contains address = true) {span : Span} (hs : span.Proper)
    (hw : span.Within range.span)
    (hrest : ∀ x, span.contains x = true ↔ range.span.contains x = true ∧ x ≠ address) :
    Taken pools ranges (ranges.insert range.id { range with span }) supply range.pool address := by
  obtain ⟨pool, hp, _, hwp⟩ := h.within hr
  refine ⟨h.insert rfl (h.key hr).2 hp hs (hw.trans hwp) ?_, fun p a => ?_⟩
  · exact fun id other => h.apart_of_within hr hw
  · rw [free_insert]
    exact h.free_rest hr ha (fun x => span.contains x = true) hrest

theorem Tidy.take_split (h : Tidy pools ranges supply) (hr : ranges.find? range.id = some range)
    (ha : range.span.contains address = true) {below above : Span} (hb : below.Proper)
    (hb' : above.Proper) (hw : below.Within range.span) (hw' : above.Within range.span)
    (hc : below.Clears above)
    (hrest : ∀ x, below.contains x = true ∨ above.contains x = true ↔
      range.span.contains x = true ∧ x ≠ address)
    (hd : supply.Drawn fresh.value) (hn : ranges.find? fresh = none) :
    Taken pools ranges ((ranges.insert range.id { range with span := below }).insert fresh
      ⟨fresh, range.pool, above⟩) supply range.pool address := by
  obtain ⟨pool, hp, _, hwp⟩ := h.within hr
  have hfresh : range.id ≠ fresh := Table.ne_of_find? hr hn
  have hhead : Tidy pools (ranges.insert range.id { range with span := below }) supply :=
    h.insert rfl (h.key hr).2 hp hb (hw.trans hwp)
      fun id other => h.apart_of_within hr hw
  have hnone : (ranges.insert range.id { range with span := below }).find? fresh = none := by
    rw [Table.find?_insert, if_neg hfresh, hn]
  refine ⟨hhead.insert rfl hd hp hb' (hw'.trans hwp) ?_, fun p a => ?_⟩
  · intro id other hne ho hpool
    rw [Table.find?_insert] at ho
    split at ho
    · cases ho
      exact .inl hc
    · exact h.apart_of_within hr hw' (Ne.symm ‹_›) ho hpool
  · rw [free_insert, free_erase_of_none hnone, free_insert,
      ← h.free_rest hr ha (fun x => below.contains x = true ∨ above.contains x = true) hrest,
      and_or_left, or_assoc, or_left_comm]

theorem Tidy.find?_eq_none (h : Tidy pools ranges supply) (hd : ¬ supply.Drawn fresh.value) :
    ranges.find? fresh = none := by
  rw [Option.eq_none_iff_forall_ne_some]
  exact fun range hr => hd (h.key hr).2

/-- A range that is taken from is there to be changed, so that taking never fails. -/
theorem FreeRange.take_ensures (ipam : Ipam) (range : FreeRange) (address : Address) :
    (range.take address).Ensures
      (fun tables supply => tables = ipam ∧ Tidy ipam.pools ipam.ranges supply ∧
        ipam.ranges.find? range.id = some range ∧ range.span.contains address = true)
      (fun _ tables supply => ∃ ranges, tables = { ipam with ranges } ∧
        Taken ipam.pools ipam.ranges ranges supply range.pool address)
      fun _ => False := by
  refine Tx.ensures_ident_bind fun fresh => ?_
  have hcases {supply : Supply} (h : Tidy ipam.pools ipam.ranges supply)
      (hr : ipam.ranges.find? range.id = some range) (ha : range.span.contains address = true) :=
    have ⟨_, _, hs, _⟩ := h.within hr
    carve_cases fresh hs ha
  cases hcarve : range.carve address fresh with
  | none =>
    refine Tx.ensures_throw ?_
    rintro _ _ ⟨supply, ⟨_, h, hr, ha⟩, _⟩
    have hc := hcases h hr ha
    simp [hcarve] at hc
  | some change =>
    cases change with
    | remove =>
      refine Tx.ensures_modify ?_
      rintro _ later ⟨supply, ⟨rfl, h, hr, ha⟩, he, _⟩
      have hc := hcases h hr ha
      simp only [hcarve, Option.some.injEq, reduceCtorEq, false_and, exists_false, or_false,
        true_and] at hc
      exact ⟨_, rfl, (h.of_extends he).take_all hr ha hc⟩
    | shrink rest =>
      refine Tx.ensures_change ?_
      rintro _ later ⟨supply, ⟨rfl, h, hr, ha⟩, he, _⟩
      have hc := hcases h hr ha
      simp only [hcarve, Option.some.injEq, reduceCtorEq, false_and, exists_false, or_false,
        false_or, Carve.shrink.injEq] at hc
      obtain ⟨span, rfl, hs, hw, hrest⟩ := hc
      rw [Ipam.saveRange_eq (by simp [hr])]
      exact ⟨_, rfl, (h.of_extends he).take_shrink hr ha hs hw hrest⟩
    | split head tail =>
      have hsave {supply : Supply} (h : Tidy ipam.pools ipam.ranges supply)
          (hr : ipam.ranges.find? range.id = some range)
          (ha : range.span.contains address = true) : ipam.saveRange head =
            .ok { ipam with ranges := ipam.ranges.insert range.id head } := by
        have hc := hcases h hr ha
        simp only [hcarve, Option.some.injEq, reduceCtorEq, false_and, exists_false,
          false_or, Carve.split.injEq] at hc
        obtain ⟨below, above, ⟨rfl, rfl⟩, _⟩ := hc
        exact Ipam.saveRange_eq (by simp [hr])
      refine Tx.ensures_change_bind ?_ (Tx.ensures_change ?_)
      · rintro _ later error ⟨supply, ⟨rfl, h, hr, ha⟩, _⟩ hf
        rw [hsave h hr ha] at hf
        cases hf
      · rintro _ later ⟨_, ⟨supply, ⟨rfl, h, hr, ha⟩, he, hd, hnd⟩, hf⟩
        rw [hsave h hr ha] at hf
        cases hf
        have hc := hcases h hr ha
        simp only [hcarve, Option.some.injEq, reduceCtorEq, false_and, exists_false,
          false_or, Carve.split.injEq] at hc
        obtain ⟨below, above, ⟨rfl, rfl⟩, hb, hb', hw, hw', hcl, hrest⟩ := hc
        obtain ⟨pool, hp, _⟩ := h.within hr
        rw [Ipam.insertRange_eq (by exact hp)]
        exact ⟨_, rfl, (h.of_extends he).take_split hr ha hb hb' hw hw' hcl hrest hd
          (h.find?_eq_none hnd)⟩

end ControlPlane
