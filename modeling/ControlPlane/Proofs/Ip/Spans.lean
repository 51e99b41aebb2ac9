import ControlPlane.Ip.FreeRuns
import Mathlib.Data.List.Pairwise

/-! Spans as sets of addresses. Spans that leave a gap between each two are determined by the
addresses in them, and the free runs of a span are the spans of that kind that hold what is left. -/

namespace ControlPlane.Ip

namespace Span

structure Proper (s : Span) : Prop where
  family : s.last.family = s.first.family
  le : s.first.value ≤ s.last.value

structure Within (inner outer : Span) : Prop where
  family : inner.first.family = outer.first.family
  first : outer.first.value ≤ inner.first.value
  last : inner.last.value ≤ outer.last.value

/-- All of one span comes before the other. -/
def Precedes (a b : Span) : Prop := a.last.value < b.first.value

/-- Between the two there is at least one address that is in neither. -/
def Clears (a b : Span) : Prop := a.last.value + 1 < b.first.value

/-- Neither reaches or touches the other. -/
def Apart (a b : Span) : Prop := a.Clears b ∨ b.Clears a

variable {a b c s t : Span} {x : Address}

theorem contains_iff :
    s.contains x = true ↔ x.family = s.first.family ∧ s.first.value ≤ x.value ∧
      x.value ≤ s.last.value := by
  simp only [contains, Bool.and_eq_true, decide_eq_true_eq, and_assoc]
  rw [eq_comm]

theorem ext (hf : s.first = t.first) (hl : s.last = t.last) : s = t := by
  cases s; cases t; cases hf; cases hl; rfl

theorem Proper.contains_first (h : s.Proper) : s.contains s.first = true :=
  contains_iff.2 ⟨rfl, Nat.le_refl _, h.le⟩

theorem Proper.contains_last (h : s.Proper) : s.contains s.last = true :=
  contains_iff.2 ⟨h.family, h.le, Nat.le_refl _⟩

theorem Within.refl (s : Span) : s.Within s := ⟨rfl, Nat.le_refl _, Nat.le_refl _⟩

theorem Within.trans (hab : a.Within b) (hbc : b.Within c) : a.Within c :=
  ⟨hab.family.trans hbc.family, Nat.le_trans hbc.first hab.first, Nat.le_trans hab.last hbc.last⟩

theorem Within.contains (h : a.Within b) (hx : a.contains x = true) : b.contains x = true := by
  rw [contains_iff] at hx ⊢
  exact ⟨hx.1.trans h.family, Nat.le_trans h.first hx.2.1, Nat.le_trans hx.2.2 h.last⟩

theorem Apart.symm (h : a.Apart b) : b.Apart a := Or.symm h

theorem Apart.of_within (h : b.Apart c) (hab : a.Within b) : a.Apart c := by
  have hf := hab.first
  have hl := hab.last
  rcases h with h | h
  · exact .inl (Nat.lt_of_le_of_lt (Nat.succ_le_succ hl) h)
  · exact .inr (Nat.lt_of_lt_of_le h hf)

theorem Apart.clears (h : a.Apart b) (hb : b.Proper) (hle : a.first.value ≤ b.first.value) :
    a.Clears b := by
  rcases h with h | h
  · exact h
  · have h : b.last.value + 1 < a.first.value := h
    have := hb.le
    omega

theorem Clears.precedes (h : a.Clears b) : a.Precedes b := Nat.lt_of_succ_lt h

theorem Precedes.not_contains (h : a.Precedes b) (hx : a.contains x = true) :
    b.contains x = false := by
  rw [Bool.eq_false_iff]
  intro hb
  have ha := (contains_iff.1 hx).2.2
  have hb := (contains_iff.1 hb).2.1
  have h : a.last.value < b.first.value := h
  omega

theorem Apart.not_contains (h : a.Apart b) (hx : a.contains x = true) : b.contains x = false := by
  rcases h with h | h
  · exact h.precedes.not_contains hx
  · rw [Bool.eq_false_iff]
    intro hb
    have := h.precedes.not_contains hb
    rw [hx] at this
    cases this

end Span

open ControlPlane.Ip.Span

/-- Proper spans of one family, ascending with gaps between. -/
structure Runs (family : Family) (spans : List Span) : Prop where
  proper : ∀ s ∈ spans, s.Proper
  family : ∀ s ∈ spans, s.first.family = family
  clears : spans.Pairwise Clears

namespace Runs

variable {family : Family} {xs ys : List Span} {x y : Span}

theorem tail (h : Runs family (x :: xs)) : Runs family xs :=
  ⟨fun s hs => h.proper s (List.mem_cons_of_mem _ hs),
    fun s hs => h.family s (List.mem_cons_of_mem _ hs), (List.pairwise_cons.1 h.clears).2⟩

theorem first_le (h : Runs family (x :: xs)) {s : Span} (hs : s ∈ x :: xs) :
    x.first.value ≤ s.first.value := by
  have hx := (h.proper x List.mem_cons_self).le
  rcases List.mem_cons.1 hs with rfl | hs
  · exact Nat.le_refl _
  · have hc : x.last.value + 1 < s.first.value := (List.pairwise_cons.1 h.clears).1 s hs
    omega

theorem head_first_le (hx : Runs family (x :: xs)) (hy : Runs family (y :: ys))
    (h : ∀ a, (∃ s ∈ x :: xs, s.contains a = true) → ∃ s ∈ y :: ys, s.contains a = true) :
    y.first.value ≤ x.first.value := by
  obtain ⟨s, hs, ha⟩ := h x.first ⟨x, List.mem_cons_self,
    (hx.proper x List.mem_cons_self).contains_first⟩
  exact Nat.le_trans (hy.first_le hs) (contains_iff.1 ha).2.1

/-- The first span is as long as the addresses after it go on. -/
theorem head_last_le (hx : Runs family (x :: xs)) (hy : Runs family (y :: ys))
    (hf : x.first.value = y.first.value)
    (h : ∀ a, (∃ s ∈ x :: xs, s.contains a = true) → ∃ s ∈ y :: ys, s.contains a = true) :
    x.last.value ≤ y.last.value := by
  have hxp := hx.proper x List.mem_cons_self
  have hyp := hy.proper y List.mem_cons_self
  apply Nat.le_of_not_lt
  intro hlt
  have hxl := hxp.family.trans (hx.family x List.mem_cons_self)
  have hbound : y.last.value + 1 < family.size := by
    rw [← hxl]
    exact Nat.lt_of_le_of_lt hlt x.last.value_lt
  -- The address after the shorter head is in the gap before the next span.
  let beyond : Address := ⟨family, y.last.value + 1, hbound⟩
  have hle := hyp.le
  have hmem : x.contains beyond = true :=
    contains_iff.2 ⟨(hx.family x List.mem_cons_self).symm, by simp only [beyond]; omega, hlt⟩
  obtain ⟨s, hs, ha⟩ := h beyond ⟨x, List.mem_cons_self, hmem⟩
  have ha := (contains_iff.1 ha).2
  simp only [beyond] at ha
  rcases List.mem_cons.1 hs with rfl | hs
  · omega
  · have hc : y.last.value + 1 < s.first.value := (List.pairwise_cons.1 hy.clears).1 s hs
    omega

theorem tail_contains (hx : Runs family (x :: xs)) {a : Address}
    (h : ∃ s ∈ xs, s.contains a = true) : x.contains a = false := by
  obtain ⟨s, hs, ha⟩ := h
  have hapart : s.Apart x := .inr ((List.pairwise_cons.1 hx.clears).1 s hs)
  exact hapart.not_contains ha

theorem exists_mem_tail (hx : Runs family (x :: xs))
    (h : ∀ a, (∃ s ∈ x :: xs, s.contains a = true) → ∃ s ∈ x :: ys, s.contains a = true)
    (a : Address) (ha : ∃ s ∈ xs, s.contains a = true) : ∃ s ∈ ys, s.contains a = true := by
  obtain ⟨s, hs, hc⟩ := ha
  obtain ⟨t, ht, hc'⟩ := h a ⟨s, List.mem_cons_of_mem _ hs, hc⟩
  rcases List.mem_cons.1 ht with rfl | ht
  · rw [hx.tail_contains ⟨s, hs, hc⟩] at hc'
    cases hc'
  · exact ⟨t, ht, hc'⟩

/-- Spans that are ascending and are runs in some order are so in theirs. -/
theorem eq_of_perm (h : Runs family xs) (hp : ys.Perm xs)
    (hle : ys.Pairwise fun a b => a.first.value ≤ b.first.value) : ys = xs := by
  have hlt : xs.Pairwise fun a b => a.first.value < b.first.value := by
    refine h.clears.imp_of_mem fun {a b} ha _ hab => ?_
    have hproper := (h.proper a ha).le
    have hab : a.last.value + 1 < b.first.value := hab
    omega
  have : Std.Symm fun a b : Span => a.first.value ≠ b.first.value := ⟨fun _ _ => Ne.symm⟩
  have hne : xs.Pairwise fun a b => a.first.value ≠ b.first.value := hlt.imp fun h => Nat.ne_of_lt h
  refine hp.eq_of_pairwise (fun a b ha hb hab hba => ?_) hle (hlt.imp fun h => Nat.le_of_lt h)
  exact Decidable.byContradiction fun heq =>
    hne.forall (hp.mem_iff.1 ha) hb heq (Nat.le_antisymm hab hba)

/-- Runs with the same addresses are the same. -/
theorem eq_of_contains (hx : Runs family xs) (hy : Runs family ys)
    (h : ∀ a, (∃ s ∈ xs, s.contains a = true) ↔ ∃ s ∈ ys, s.contains a = true) : xs = ys := by
  induction xs generalizing ys with
  | nil =>
    cases ys with
    | nil => rfl
    | cons y ys =>
      have hp := hy.proper y List.mem_cons_self
      obtain ⟨s, hs, _⟩ := (h y.first).2 ⟨y, List.mem_cons_self, hp.contains_first⟩
      cases hs
  | cons x xs ih =>
    cases ys with
    | nil =>
      have hp := hx.proper x List.mem_cons_self
      obtain ⟨s, hs, _⟩ := (h x.first).1 ⟨x, List.mem_cons_self, hp.contains_first⟩
      cases hs
    | cons y ys =>
      have hxy := fun a => (h a).1
      have hyx := fun a => (h a).2
      -- Each list holds what the other does, so that their heads start and end together.
      have hf := Nat.le_antisymm (hy.head_first_le hx hyx) (hx.head_first_le hy hxy)
      have hl := Nat.le_antisymm (hx.head_last_le hy hf hxy) (hy.head_last_le hx hf.symm hyx)
      have hfx := hx.family x List.mem_cons_self
      have hfy := hy.family y List.mem_cons_self
      have hlx := (hx.proper x List.mem_cons_self).family.trans hfx
      have hly := (hy.proper y List.mem_cons_self).family.trans hfy
      obtain rfl : x = y :=
        Span.ext (Address.ext (hfx.trans hfy.symm) hf) (Address.ext (hlx.trans hly.symm) hl)
      rw [ih hx.tail hy.tail fun a => ⟨hx.exists_mem_tail hxy a, hy.exists_mem_tail hyx a⟩]

end Runs

section Gaps

variable {low high n m : Nat} {ns : List Nat} {p : Nat × Nat}

theorem le_of_mem_gaps (hp : p ∈ gaps low high ns) (h : ∀ n ∈ ns, n ≤ high) :
    low ≤ p.1 ∧ p.1 ≤ p.2 ∧ p.2 ≤ high := by
  induction ns generalizing low with
  | nil =>
    simp only [gaps] at hp
    split at hp
    · obtain rfl := List.mem_singleton.1 hp
      exact ⟨Nat.le_refl _, ‹_›, Nat.le_refl _⟩
    · cases hp
  | cons n ns ih =>
    have hn := h n List.mem_cons_self
    have hns := fun m hm => h m (List.mem_cons_of_mem _ hm)
    simp only [gaps] at hp
    split at hp
    · rcases List.mem_cons.1 hp with rfl | hp
      · simp only
        omega
      · have := ih hp hns
        omega
    · have := ih hp hns
      omega

theorem gaps_pairwise (h : ∀ n ∈ ns, n ≤ high) :
    (gaps low high ns).Pairwise fun a b => a.2 + 1 < b.1 := by
  induction ns generalizing low with
  | nil =>
    simp only [gaps]
    split <;> simp
  | cons n ns ih =>
    have hns := fun m hm => h m (List.mem_cons_of_mem _ hm)
    simp only [gaps]
    split
    · refine List.pairwise_cons.2 ⟨fun p hp => ?_, ih hns⟩
      have := le_of_mem_gaps hp hns
      simp only
      omega
    · exact ih hns

/-- The gaps hold the numbers that are not among those that leave them. -/
theorem exists_mem_gaps (h : ns.Pairwise (· ≤ ·)) (hle : ∀ n ∈ ns, n ≤ high) :
    (∃ p ∈ gaps low high ns, p.1 ≤ m ∧ m ≤ p.2) ↔ (low ≤ m ∧ m ≤ high) ∧ m ∉ ns := by
  induction ns generalizing low with
  | nil =>
    simp only [gaps]
    split
    · simp
    · simp only [List.not_mem_nil, false_and, exists_false, not_false_eq_true, and_true, false_iff]
      omega
  | cons n ns ih =>
    rw [List.pairwise_cons] at h
    have hn := hle n List.mem_cons_self
    have ih (low : Nat) := @ih low h.2 fun m hm => hle m (List.mem_cons_of_mem _ hm)
    simp only [gaps, List.mem_cons, not_or]
    by_cases hmn : m ∈ ns
    · have hnm := h.1 m hmn
      split
      · simp only [List.mem_cons, exists_eq_or_imp, ih, hmn, not_true, and_false, or_false,
          iff_false]
        omega
      · simp only [ih, hmn, not_true, and_false]
    · split
      · simp only [List.mem_cons, exists_eq_or_imp, ih, hmn, not_false_eq_true, and_true]
        omega
      · simp only [ih, hmn, not_false_eq_true, and_true]
        omega

end Gaps

section FreeRuns

variable {span run : Span} {taken : List Address}

def takenNumbers (span : Span) (taken : List Address) : List Nat :=
  sortOn id ((taken.filter span.contains).map Address.value)

theorem mem_takenNumbers {n : Nat} :
    n ∈ takenNumbers span taken ↔ ∃ a ∈ taken, span.contains a = true ∧ a.value = n := by
  simp only [takenNumbers, mem_sortOn, List.mem_map, List.mem_filter, and_assoc]

theorem le_last_of_mem_takenNumbers : ∀ n ∈ takenNumbers span taken, n ≤ span.last.value := by
  intro n hn
  obtain ⟨a, _, ha, rfl⟩ := mem_takenNumbers.1 hn
  exact (contains_iff.1 ha).2.2

theorem span_of_values_eq_some {family : Family} {first last : Nat} :
    (do return ⟨← Address.ofValue? family first, ← Address.ofValue? family last⟩ : Option Span) =
        some run ↔
      (run.first.family = family ∧ run.first.value = first) ∧
        run.last.family = family ∧ run.last.value = last := by
  simp only [bind, Option.bind_eq_some_iff, Address.ofValue?_eq_some, pure, Option.some.injEq]
  constructor
  · rintro ⟨x, hx, y, hy, rfl⟩
    exact ⟨hx, hy⟩
  · rintro ⟨hx, hy⟩
    exact ⟨run.first, hx, run.last, hy, rfl⟩

theorem mem_freeRuns :
    run ∈ freeRuns span taken ↔
      (run.first.value, run.last.value) ∈
        gaps span.first.value span.last.value (takenNumbers span taken) ∧
      run.first.family = span.first.family ∧ run.last.family = span.first.family := by
  simp only [freeRuns, List.mem_filterMap, span_of_values_eq_some]
  constructor
  · rintro ⟨⟨first, last⟩, hp, ⟨hf, rfl⟩, hf', rfl⟩
    exact ⟨hp, hf, hf'⟩
  · rintro ⟨hp, hf, hf'⟩
    exact ⟨_, hp, ⟨hf, rfl⟩, hf', rfl⟩

theorem freeRuns_runs (span : Span) (taken : List Address) :
    Runs span.first.family (freeRuns span taken) := by
  refine ⟨fun run hrun => ?_, fun run hrun => (mem_freeRuns.1 hrun).2.1, ?_⟩
  · obtain ⟨hp, hf, hf'⟩ := mem_freeRuns.1 hrun
    exact ⟨hf'.trans hf.symm, (le_of_mem_gaps hp le_last_of_mem_takenNumbers).2.1⟩
  · unfold freeRuns
    rw [List.pairwise_filterMap]
    refine (gaps_pairwise le_last_of_mem_takenNumbers).imp fun hlt a ha b hb => ?_
    have ha := (span_of_values_eq_some.1 ha).2.2
    have hb := (span_of_values_eq_some.1 hb).1.2
    rw [Clears, ha, hb]
    exact hlt

theorem freeRuns_within (h : run ∈ freeRuns span taken) : run.Within span := by
  obtain ⟨hp, hf, _⟩ := mem_freeRuns.1 h
  have hle := le_of_mem_gaps hp le_last_of_mem_takenNumbers
  exact ⟨hf, hle.1, hle.2.2⟩

/-- The free runs of a span hold what is left when the taken addresses are gone. -/
theorem exists_mem_freeRuns (h : span.Proper) {a : Address} :
    (∃ run ∈ freeRuns span taken, run.contains a = true) ↔
      span.contains a = true ∧ a ∉ taken := by
  have hgaps : (∃ p ∈ gaps span.first.value span.last.value (takenNumbers span taken),
      p.1 ≤ a.value ∧ a.value ≤ p.2) ↔
      (span.first.value ≤ a.value ∧ a.value ≤ span.last.value) ∧
        a.value ∉ takenNumbers span taken :=
    exists_mem_gaps (sortOn_pairwise id _) le_last_of_mem_takenNumbers
  constructor
  · rintro ⟨run, hrun, ha⟩
    obtain ⟨hp, hf, _⟩ := mem_freeRuns.1 hrun
    rw [contains_iff] at ha
    have ⟨hle, hnot⟩ := hgaps.1 ⟨_, hp, ha.2⟩
    have hspan : span.contains a = true := contains_iff.2 ⟨ha.1.trans hf, hle⟩
    exact ⟨hspan, fun htaken => hnot (mem_takenNumbers.2 ⟨a, htaken, hspan, rfl⟩)⟩
  · rintro ⟨hspan, hnot⟩
    have ⟨hf, hle⟩ := contains_iff.1 hspan
    obtain ⟨⟨first, last⟩, hp, hm⟩ := hgaps.2 ⟨hle, fun hn => by
      obtain ⟨b, hb, hbs, hv⟩ := mem_takenNumbers.1 hn
      rw [← Address.ext (((contains_iff.1 hbs).1).trans hf.symm) hv] at hnot
      exact hnot hb⟩
    have hlast : last < span.first.family.size := by
      rw [← h.family]
      exact Nat.lt_of_le_of_lt (le_of_mem_gaps hp le_last_of_mem_takenNumbers).2.2 span.last.value_lt
    have hfirst : first < span.first.family.size :=
      Nat.lt_of_le_of_lt (Nat.le_trans hm.1 hm.2) hlast
    refine ⟨⟨⟨span.first.family, first, hfirst⟩, ⟨span.first.family, last, hlast⟩⟩,
      mem_freeRuns.2 ⟨hp, rfl, rfl⟩, contains_iff.2 ⟨hf, hm⟩⟩

end FreeRuns

end ControlPlane.Ip
