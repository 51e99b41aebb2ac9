import ControlPlane.Proofs.Ip.Spans
import ControlPlane.Proofs.Ip.Words
import Mathlib.Data.List.Dedup

/-! Free runs as a cursor finds them that passes the taken numbers in ascending order, on words of 128
bits. No step overflows, and the runs are the maximal ones. -/

namespace ControlPlane.Ip

open Word

variable {low high : Nat} {ns : List Nat}

/-- The run from the cursor to a taken word, if there is any word between. -/
def runBefore (start n : BitVec 128) : Except Overflow (List (BitVec 128 × BitVec 128)) :=
  if start < n then do return [(start, ← minus n (BitVec.ofNat 128 1))] else return []

/-- Past the last word there is no cursor. -/
def cursorAfter (high n : BitVec 128) : Except Overflow (Option (BitVec 128)) :=
  if n = high then return none else do return some (← plus n (BitVec.ofNat 128 1))

/-- The runs that ascending taken words leave from a cursor on. -/
def runsOnWords (high : BitVec 128) :
    Option (BitVec 128) → List (BitVec 128) → Except Overflow (List (BitVec 128 × BitVec 128))
  | none, _ => .ok []
  | some start, [] => .ok [(start, high)]
  | some start, n :: ns => do
    let before ← runBefore start n
    let cursor ← cursorAfter high n
    let rest ← runsOnWords high cursor ns
    return before ++ rest

/-- Taken addresses count once each, in ascending order. -/
def freeRunsOnWords (span : Span) (taken : List Address) : Except Overflow (List Span) := do
  let low := BitVec.ofNat 128 span.first.value
  let high := BitVec.ofNat 128 span.last.value
  if high < low then return []
  let runs ← runsOnWords high (some low) ((takenNumbers span taken).dedup.map (BitVec.ofNat 128))
  return runs.filterMap fun (first, last) => spanOfWords? span.first.family first last

theorem gaps_dedup (h : ns.Pairwise (· ≤ ·)) : gaps low high ns.dedup = gaps low high ns := by
  induction ns generalizing low with
  | nil => rfl
  | cons n ns ih =>
    rw [List.pairwise_cons] at h
    by_cases hmem : n ∈ ns
    · rw [List.dedup_cons_of_mem hmem, ih h.2]
      cases ns with
      | nil => cases hmem
      | cons m ns =>
        -- The list ascends, so what is there again comes next.
        have hnm := h.1 m List.mem_cons_self
        have hmn : m ≤ n := by
          rcases List.mem_cons.1 hmem with rfl | hmem
          · exact Nat.le_refl _
          · exact (List.pairwise_cons.1 h.2).1 n hmem
        obtain rfl := Nat.le_antisymm hnm hmn
        by_cases hlow : low < n
        · simp [gaps, hlow]
        · have hle : n ≤ low := by omega
          simp only [gaps, hlow, if_false]
          rw [if_neg (by omega), Nat.max_assoc, Nat.max_self]
    · rw [List.dedup_cons_of_notMem hmem]
      simp only [gaps, ih h.2]

theorem runBefore_eq {start n : Nat} (hn : n < 2 ^ 128) (hle : start ≤ n) :
    runBefore (BitVec.ofNat 128 start) (BitVec.ofNat 128 n) =
      .ok (if start < n then [(BitVec.ofNat 128 start, BitVec.ofNat 128 (n - 1))] else []) := by
  have hlt := ofNat_lt (show start < 2 ^ 128 by omega) hn
  unfold runBefore
  by_cases h : start < n
  · rw [if_pos (hlt.2 h), if_pos h, minus_ofNat hn (by omega)]
    rfl
  · rw [if_neg (mt hlt.1 h), if_neg h]
    rfl

theorem cursorAfter_eq {n : Nat} (hhigh : high < 2 ^ 128) (hle : n ≤ high) :
    cursorAfter (BitVec.ofNat 128 high) (BitVec.ofNat 128 n) =
      .ok (if n = high then none else some (BitVec.ofNat 128 (n + 1))) := by
  have hinj := ofNat_inj (show n < 2 ^ 128 by omega) hhigh
  unfold cursorAfter
  by_cases h : n = high
  · rw [if_pos (hinj.2 h), if_pos h]
    rfl
  · rw [if_neg (mt hinj.1 h), if_neg h, plus_ofNat (by omega)]
    rfl

theorem runsOnWords_eq (hhigh : high < 2 ^ 128) (hlow : low ≤ high) (h : ns.Pairwise (· < ·))
    (hle : ∀ n ∈ ns, low ≤ n ∧ n ≤ high) :
    runsOnWords (BitVec.ofNat 128 high) (some (BitVec.ofNat 128 low)) (ns.map (BitVec.ofNat 128)) =
      .ok ((gaps low high ns).map fun run => (BitVec.ofNat 128 run.1, BitVec.ofNat 128 run.2)) := by
  induction ns generalizing low with
  | nil => simp [runsOnWords, gaps, hlow]
  | cons n ns ih =>
    rw [List.pairwise_cons] at h
    obtain ⟨hln, hnh⟩ := hle n List.mem_cons_self
    have hns : ∀ m ∈ ns, n + 1 ≤ m ∧ m ≤ high := fun m hm =>
      ⟨h.1 m hm, (hle m (List.mem_cons_of_mem _ hm)).2⟩
    have hrest : runsOnWords (BitVec.ofNat 128 high)
        (if n = high then none else some (BitVec.ofNat 128 (n + 1))) (ns.map (BitVec.ofNat 128)) =
        .ok ((gaps (n + 1) high ns).map fun run =>
          (BitVec.ofNat 128 run.1, BitVec.ofNat 128 run.2)) := by
      by_cases hend : n = high
      · have hnil : ns = [] := by
          apply List.eq_nil_iff_forall_not_mem.2
          intro m hm
          have := hns m hm
          omega
        simp [hnil, hend, gaps, runsOnWords]
      · rw [if_neg hend]
        exact ih (by omega) h.2 hns
    simp only [List.map_cons, runsOnWords]
    rw [runBefore_eq (by omega) hln, cursorAfter_eq hhigh hnh]
    simp only [bind, Except.bind, hrest, pure, Except.pure, gaps]
    by_cases hbefore : low < n
    · simp [hbefore]
    · obtain rfl : low = n := by omega
      simp

theorem freeRuns_eq_nil {span : Span} {taken : List Address}
    (h : span.last.value < span.first.value) : freeRuns span taken = [] := by
  apply List.eq_nil_iff_forall_not_mem.2
  intro run hrun
  have hle := le_of_mem_gaps (mem_freeRuns.1 hrun).1 le_last_of_mem_takenNumbers
  omega

theorem freeRunsOnWords_eq (span : Span) (taken : List Address) :
    freeRunsOnWords span taken = .ok (freeRuns span taken) := by
  have hfirst : span.first.value < 2 ^ 128 :=
    Nat.lt_of_lt_of_le span.first.value_lt span.first.family.size_le
  have hlast : span.last.value < 2 ^ 128 :=
    Nat.lt_of_lt_of_le span.last.value_lt span.last.family.size_le
  have hlt := ofNat_lt hlast hfirst
  unfold freeRunsOnWords
  by_cases hempty : span.last.value < span.first.value
  · simp only [if_pos (hlt.2 hempty), freeRuns_eq_nil hempty]
    rfl
  · have hsorted : (takenNumbers span taken).Pairwise (· ≤ ·) := sortOn_pairwise id _
    have hstrict : (takenNumbers span taken).dedup.Pairwise (· < ·) :=
      ((hsorted.sublist (List.dedup_sublist _)).and (List.nodup_dedup _)).imp
        fun h => Nat.lt_of_le_of_ne h.1 h.2
    have hbounds : ∀ n ∈ (takenNumbers span taken).dedup,
        span.first.value ≤ n ∧ n ≤ span.last.value := by
      intro n hn
      obtain ⟨a, _, ha, rfl⟩ := mem_takenNumbers.1 (List.mem_dedup.1 hn)
      exact (Span.contains_iff.1 ha).2
    have hruns := runsOnWords_eq hlast (Nat.le_of_not_lt hempty) hstrict hbounds
    simp only [if_neg (mt hlt.1 hempty), hruns, gaps_dedup hsorted, bind, Except.bind, pure,
      Except.pure, List.filterMap_map]
    congr 1
    refine List.filterMap_congr fun run hrun => ?_
    have hle := le_of_mem_gaps hrun le_last_of_mem_takenNumbers
    simp only [Function.comp, spanOfWords?, toNat_ofNat (show run.1 < 2 ^ 128 by omega),
      toNat_ofNat (show run.2 < 2 ^ 128 by omega)]

variable {span a b : Span} {taken : List Address}

theorem exists_mem_freeRuns_iff (h : span.last.family = span.first.family) (x : Address) :
    (∃ run ∈ freeRuns span taken, run.contains x = true) ↔
      span.contains x = true ∧ x ∉ taken := by
  by_cases hle : span.first.value ≤ span.last.value
  · exact exists_mem_freeRuns ⟨h, hle⟩
  · have hnot : ¬ span.contains x = true := by
      intro hx
      have := (Span.contains_iff.1 hx).2
      omega
    simp [freeRuns_eq_nil (Nat.lt_of_not_le hle), hnot]

/-- The address after a run is in no run, so that it is taken if the span goes on. -/
theorem exists_taken_between (h : span.last.family = span.first.family)
    (ha : a ∈ freeRuns span taken) (hb : b ∈ freeRuns span taken) (hab : a.Clears b) :
    ∃ x ∈ taken, span.contains x = true ∧ a.last.value < x.value ∧ x.value < b.first.value := by
  have hruns := freeRuns_runs span taken
  have hap := hruns.proper a ha
  have haf := hruns.family a ha
  have hal := hap.le
  have hbl := (hruns.proper b hb).le
  have hfirst := (freeRuns_within ha).first
  have hlast := (freeRuns_within hb).last
  have hlt : a.last.value + 1 < b.first.value := hab
  have hsize : a.last.value + 1 < a.first.family.size := by
    have := b.first.value_lt
    rw [hruns.family b hb] at this
    rw [haf]
    omega
  let x : Address := ⟨a.first.family, a.last.value + 1, hsize⟩
  have hspan : span.contains x = true := by
    refine Span.contains_iff.2 ⟨haf, ?_⟩
    simp only [x]
    omega
  have hnone : ¬ ∃ run ∈ freeRuns span taken, run.contains x = true := by
    rintro ⟨run, hrun, hx⟩
    have hx := (Span.contains_iff.1 hx).2
    simp only [x] at hx
    by_cases heq : run = a
    · subst heq
      omega
    · have : Std.Symm Span.Apart := ⟨fun _ _ => Span.Apart.symm⟩
      have hapart : (freeRuns span taken).Pairwise Span.Apart := hruns.clears.imp Or.inl
      rcases hapart.forall hrun ha heq with hc | hc
      · have hc : run.last.value + 1 < a.first.value := hc
        omega
      · have hc : a.last.value + 1 < run.first.value := hc
        omega
  have htaken : x ∈ taken := by
    by_contra hx
    exact hnone ((exists_mem_freeRuns_iff h x).2 ⟨hspan, hx⟩)
  exact ⟨x, htaken, hspan, Nat.lt_succ_self _, hlt⟩

/-- The free runs are what is left of a span, in ascending order and cut just where an address is
taken. -/
theorem freeRuns_maximal (h : span.last.family = span.first.family) (taken : List Address) :
    (∀ run ∈ freeRuns span taken, run.Proper ∧ run.first.family = span.first.family) ∧
    ((freeRuns span taken).Pairwise fun a b =>
      ∃ x ∈ taken, span.contains x = true ∧ a.last.value < x.value ∧ x.value < b.first.value) ∧
    (∀ x, (∃ run ∈ freeRuns span taken, run.contains x = true) ↔
      span.contains x = true ∧ x ∉ taken) ∧
    (span.last.value < span.first.value → freeRuns span taken = []) ∧
    freeRunsOnWords span taken = .ok (freeRuns span taken) := by
  have hruns := freeRuns_runs span taken
  refine ⟨fun run hrun => ⟨hruns.proper run hrun, hruns.family run hrun⟩, ?_,
    exists_mem_freeRuns_iff h, freeRuns_eq_nil, freeRunsOnWords_eq span taken⟩
  exact hruns.clears.imp_of_mem fun ha hb hab => exists_taken_between h ha hb hab

/-- The last of all addresses is taken, and so is the first. -/
theorem whole_space_maximal :
    let first : Address := ⟨.v6, 0, by decide⟩
    let last : Address := ⟨.v6, 0xffffffffffffffffffffffffffffffff, by decide⟩
    let other : Address := ⟨.v4, 5, by decide⟩
    last.family = first.family ∧
      freeRunsOnWords ⟨first, last⟩ [last, other, first, last] =
        .ok [⟨⟨.v6, 1, by decide⟩, ⟨.v6, 0xfffffffffffffffffffffffffffffffe, by decide⟩⟩] := by
  intro first last other
  have hfamily : (Span.mk first last).last.family = (Span.mk first last).first.family := rfl
  obtain ⟨_, _, _, _, hwords⟩ := freeRuns_maximal hfamily [last, other, first, last]
  refine ⟨rfl, hwords.trans (congrArg Except.ok ?_)⟩
  decide +kernel

end ControlPlane.Ip
