/-! Stable sorting by insertion. -/

namespace ControlPlane

variable {α : Type}

/-- Puts `x` before the first element that it may precede. -/
def insertSorted (le : α → α → Bool) (x : α) : List α → List α
  | [] => [x]
  | y :: ys => if le x y then x :: y :: ys else y :: insertSorted le x ys

/-- Sorts a list; elements that tie keep their order. -/
def sortBy (le : α → α → Bool) : List α → List α
  | [] => []
  | x :: xs => insertSorted le x (sortBy le xs)

def sortOn (key : α → Nat) (xs : List α) : List α := sortBy (fun a b => key a ≤ key b) xs

theorem insertSorted_perm (le : α → α → Bool) (x : α) (xs : List α) :
    (insertSorted le x xs).Perm (x :: xs) := by
  induction xs with
  | nil => exact .refl _
  | cons y ys ih =>
    simp only [insertSorted]
    split
    · exact .refl _
    · exact (List.Perm.cons y ih).trans (.swap x y ys)

theorem sortBy_perm (le : α → α → Bool) (xs : List α) : (sortBy le xs).Perm xs := by
  induction xs with
  | nil => exact .refl _
  | cons x xs ih => exact (insertSorted_perm le x _).trans (.cons x ih)

theorem sortOn_perm (key : α → Nat) (xs : List α) : (sortOn key xs).Perm xs := sortBy_perm _ xs

@[simp] theorem mem_sortOn {key : α → Nat} {xs : List α} {x : α} : x ∈ sortOn key xs ↔ x ∈ xs :=
  (sortOn_perm key xs).mem_iff

theorem insertSorted_pairwise {key : α → Nat} {x : α} {xs : List α}
    (h : xs.Pairwise fun a b => key a ≤ key b) :
    (insertSorted (fun a b => key a ≤ key b) x xs).Pairwise fun a b => key a ≤ key b := by
  induction xs with
  | nil => simp [insertSorted]
  | cons y ys ih =>
    simp only [insertSorted, decide_eq_true_eq]
    rw [List.pairwise_cons] at h
    split
    · rename_i hxy
      refine List.pairwise_cons.2 ⟨fun z hz => ?_, List.pairwise_cons.2 h⟩
      rcases List.mem_cons.1 hz with rfl | hz
      · exact hxy
      · exact Nat.le_trans hxy (h.1 z hz)
    · rename_i hxy
      refine List.pairwise_cons.2 ⟨fun z hz => ?_, ih h.2⟩
      rcases List.mem_cons.1 ((insertSorted_perm _ _ _).mem_iff.1 hz) with rfl | hz
      · omega
      · exact h.1 z hz

theorem sortOn_pairwise (key : α → Nat) (xs : List α) :
    (sortOn key xs).Pairwise fun a b => key a ≤ key b := by
  induction xs with
  | nil => exact .nil
  | cons x xs ih => exact insertSorted_pairwise ih

end ControlPlane
