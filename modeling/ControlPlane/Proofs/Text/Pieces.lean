import ControlPlane.Text.Digits
import Mathlib.Data.List.Forall2

/-! Texts cut at a separator, whose pieces are read one by one. Cutting and joining undo each other,
as long as no piece has the separator in it. -/

namespace ControlPlane.Text

variable {separator c : Char} {cs piece rest : List Char} {ps : List (List Char)}

theorem pieces_ne_nil : pieces separator cs ≠ [] := by
  cases cs with
  | nil => exact List.cons_ne_nil _ _
  | cons c cs =>
    simp only [pieces]
    split
    · exact List.cons_ne_nil _ _
    · split <;> exact List.cons_ne_nil _ _

theorem pieces_of_not_mem (h : separator ∉ piece) : pieces separator piece = [piece] := by
  induction piece with
  | nil => rfl
  | cons c cs ih =>
    rw [List.mem_cons, not_or] at h
    rw [pieces, if_neg (Ne.symm h.1), ih h.2]

theorem pieces_append (h : separator ∉ piece) :
    pieces separator (piece ++ separator :: rest) = piece :: pieces separator rest := by
  induction piece with
  | nil => simp [pieces]
  | cons c cs ih =>
    rw [List.mem_cons, not_or] at h
    rw [List.cons_append, pieces, if_neg (Ne.symm h.1), ih h.2]

theorem intercalate_cons (h : ps ≠ []) :
    List.intercalate [separator] (piece :: ps) =
      piece ++ separator :: List.intercalate [separator] ps := by
  cases ps with
  | nil => exact absurd rfl h
  | cons q ps => simp [List.intercalate_cons_cons]

theorem pieces_intercalate (hne : ps ≠ []) (h : ∀ p ∈ ps, separator ∉ p) :
    pieces separator (List.intercalate [separator] ps) = ps := by
  induction ps with
  | nil => exact absurd rfl hne
  | cons p ps ih =>
    obtain ⟨hp, hrest⟩ := List.forall_mem_cons.1 h
    by_cases hps : ps = []
    · subst hps
      simpa [List.intercalate] using pieces_of_not_mem hp
    · rw [intercalate_cons hps, pieces_append hp, ih hps hrest]

theorem intercalate_pieces : List.intercalate [separator] (pieces separator cs) = cs := by
  induction cs with
  | nil => rfl
  | cons c cs ih =>
    simp only [pieces]
    split
    · rename_i hc
      rw [intercalate_cons pieces_ne_nil, ih, hc, List.nil_append]
    · cases hpieces : pieces separator cs with
      | nil => exact absurd hpieces pieces_ne_nil
      | cons p ps =>
        rw [hpieces] at ih
        by_cases hps : ps = []
        · subst hps
          simpa [List.intercalate] using ih
        · simp only [intercalate_cons hps] at ih ⊢
          rw [List.cons_append, ih]

theorem mem_intercalate (h : c ≠ separator) :
    c ∈ List.intercalate [separator] ps ↔ ∃ p ∈ ps, c ∈ p := by
  induction ps with
  | nil => simp [List.intercalate]
  | cons p ps ih =>
    by_cases hps : ps = []
    · subst hps
      simp [List.intercalate]
    · rw [intercalate_cons hps, List.mem_append, List.mem_cons, ih]
      simp [h]

theorem length_intercalate {width : Nat} (hne : ps ≠ []) (h : ∀ p ∈ ps, p.length = width) :
    (List.intercalate [separator] ps).length + 1 = ps.length * (width + 1) := by
  induction ps with
  | nil => exact absurd rfl hne
  | cons p ps ih =>
    obtain ⟨hp, hrest⟩ := List.forall_mem_cons.1 h
    by_cases hps : ps = []
    · subst hps
      simp [List.intercalate, hp]
    · have ih := ih hps hrest
      rw [intercalate_cons hps, List.length_append, List.length_cons, List.length_cons, hp,
        Nat.succ_mul]
      omega

theorem mapM_eq_some_iff {α β : Type} {f : α → Option β} {as : List α} {bs : List β} :
    as.mapM f = some bs ↔ List.Forall₂ (fun a b => f a = some b) as bs := by
  rw [← List.mapM'_eq_mapM]
  induction as generalizing bs with
  | nil => cases bs <;> simp [List.mapM']
  | cons a as ih =>
    rw [List.mapM', Option.bind_eq_bind, Option.bind_eq_some_iff]
    constructor
    · rintro ⟨b, hb, h⟩
      obtain ⟨rest, hrest, h⟩ := Option.bind_eq_some_iff.1 h
      cases h
      exact .cons hb (ih.1 hrest)
    · intro h
      cases h with
      | cons hb hrest => exact ⟨_, hb, Option.bind_eq_some_iff.2 ⟨_, ih.2 hrest, rfl⟩⟩

end ControlPlane.Text
