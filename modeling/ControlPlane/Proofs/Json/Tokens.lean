import ControlPlane.Json.Reader
import ControlPlane.Json.Writer
import ControlPlane.Proofs.Text.Numerals

/-! Strings and numbers that were written are read back, whatever follows them. -/

namespace ControlPlane

namespace Json

open Text

variable {cs rest : List Char} {token : Token}

/-- How a character of a string comes back: itself, or its number where it was written so. -/
def piece (c : Char) : Piece :=
  if c ≠ '"' ∧ c ≠ '\\' ∧ (c.toNat < 0x20 ∨ c.toNat = 0x7F) then .unit c.toNat else .char c

theorem pieces?_hexEscape {n : Nat} (h : n < 16 ^ 4) :
    pieces? (hexEscape n ++ rest) = (pieces? rest).map fun p => (.unit n :: p.1, p.2) := by
  have hvalue : value? 16 (fixedDigits 16 4 n) = some (n % 16 ^ 4) :=
    value?_fixedDigits (by decide) (by decide)
  rw [Nat.mod_eq_of_lt h] at hvalue
  simp only [fixedDigits, List.nil_append, List.cons_append] at hvalue
  simp only [hexEscape, fixedDigits, List.nil_append, List.cons_append]
  rw [pieces?, ofDigits?_eq (List.cons_ne_nil _ _), hvalue]
  cases pieces? rest <;> rfl

theorem pieces?_escaped (c : Char) :
    pieces? (escaped c ++ rest) = (pieces? rest).map fun p => (piece c :: p.1, p.2) := by
  unfold escaped piece
  by_cases hquote : c = '"'
  · subst hquote
    cases h : pieces? rest <;> simp [pieces?, escape?, h]
  by_cases hslash : c = '\\'
  · subst hslash
    cases h : pieces? rest <;> simp [pieces?, escape?, h]
  by_cases hcontrol : c.toNat < 0x20 ∨ c.toNat = 0x7F
  · rw [if_neg hquote, if_neg hslash, if_pos hcontrol, if_pos ⟨hquote, hslash, hcontrol⟩,
      pieces?_hexEscape (by omega)]
  · rw [if_neg hquote, if_neg hslash, if_neg hcontrol, if_neg (by simp [hcontrol])]
    have hplain : ¬ (c = '\\' ∨ c.toNat < 0x20) := by
      rintro (h | h)
      · exact hslash h
      · exact hcontrol (Or.inl h)
    rw [List.singleton_append, pieces?]
    · rw [if_neg hplain]
    all_goals simp [hquote, hslash]

theorem pieces?_flatMap (cs : List Char) :
    pieces? (cs.flatMap escaped ++ '"' :: rest) = some (cs.map piece, rest) := by
  induction cs with
  | nil => simp [pieces?]
  | cons c cs ih =>
    rw [List.flatMap_cons, List.append_assoc, pieces?_escaped, ih]
    rfl

theorem joinPieces?_unit {n : Nat} {ps : List Piece} (h : n < 0xD800) :
    joinPieces? (.unit n :: ps) = (joinPieces? ps).map (Char.ofNat n :: ·) := by
  rw [joinPieces?.eq_def]
  exact if_pos (Or.inl h)

theorem joinPieces?_map (cs : List Char) : joinPieces? (cs.map piece) = some cs := by
  induction cs with
  | nil => rfl
  | cons c cs ih =>
    by_cases h : c ≠ '"' ∧ c ≠ '\\' ∧ (c.toNat < 0x20 ∨ c.toNat = 0x7F)
    · rw [List.map_cons, piece, if_pos h, joinPieces?_unit (by omega), ih]
      simp
    · simp [piece, h, joinPieces?, ih]

theorem token?_quoted (s : String) : token? (quoted s ++ rest) = some (.text (some s), rest) := by
  simp [quoted, token?, stringToken?, pieces?_flatMap, joinPieces?_map]

/-! Numerals. -/

/-- What follows a numeral does not go on with it. -/
def EndsNumeral (rest : List Char) : Prop :=
  ∀ c ∈ rest.head?, isDigit 10 c = false ∧ c ≠ '.' ∧ c ≠ 'e' ∧ c ≠ 'E'

theorem EndsNumeral.stops (h : EndsNumeral rest) : Stops 10 rest := fun c hc => (h c hc).1

theorem endsNumeral_nil : EndsNumeral [] := by simp [EndsNumeral]

theorem endsNumeral_cons {c : Char} (h : isDigit 10 c = false ∧ c ≠ '.' ∧ c ≠ 'e' ∧ c ≠ 'E') :
    EndsNumeral (c :: rest) := by
  simpa [EndsNumeral] using h

theorem fraction?_of_head (h : cs.head? ≠ some '.') : fraction? cs = some ([], cs) := by
  rw [fraction?.eq_def]
  split
  · exact absurd rfl h
  · rfl

theorem fraction?_append {ds : List Nat} {more : List Char} (hrest : EndsNumeral rest)
    (h : fraction? cs = some (ds, more)) : fraction? (cs ++ rest) = some (ds, more ++ rest) := by
  by_cases hpoint : cs.head? = some '.'
  · obtain ⟨cs, rfl⟩ := List.head?_eq_some_iff.1 hpoint
    simp only [List.cons_append, fraction?, spanDigits_rest hrest.stops] at h ⊢
    by_cases hdigits : (spanDigits 10 cs).1.isEmpty
    · simp [hdigits] at h
    · rw [if_neg hdigits] at h ⊢
      cases h
      rfl
  · rw [fraction?_of_head hpoint] at h
    cases h
    refine fraction?_of_head ?_
    cases cs with
    | nil => exact fun hhead => (hrest '.' hhead).2.1 rfl
    | cons c cs => exact hpoint

theorem exponentDigits?_append {down : Bool} {e : Option (Bool × List Nat)} {more : List Char}
    (hrest : EndsNumeral rest) (h : exponentDigits? down cs = some (e, more)) :
    exponentDigits? down (cs ++ rest) = some (e, more ++ rest) := by
  simp only [exponentDigits?, spanDigits_rest hrest.stops] at h ⊢
  by_cases hdigits : (spanDigits 10 cs).1.isEmpty
  · simp [hdigits] at h
  · rw [if_neg hdigits] at h ⊢
    cases h
    rfl

theorem exponent?_of_head (h : cs.head? ≠ some 'e' ∧ cs.head? ≠ some 'E') :
    exponent? cs = some (none, cs) := by
  rw [exponent?.eq_def]
  split
  · exact absurd rfl h.1
  · exact absurd rfl h.2
  · rfl

theorem exponent?_mark {c d : Char} (h : c = 'e' ∨ c = 'E') :
    exponent? (c :: d :: cs) =
      if d = '+' then exponentDigits? false cs
      else if d = '-' then exponentDigits? true cs
      else exponentDigits? false (d :: cs) := by
  by_cases hplus : d = '+'
  · subst hplus
    rcases h with rfl | rfl <;> simp [exponent?]
  by_cases hminus : d = '-'
  · subst hminus
    rcases h with rfl | rfl <;> simp [exponent?]
  rcases h with rfl | rfl <;> simp [exponent?, hplus, hminus]

theorem exponent?_append {e : Option (Bool × List Nat)} {more : List Char} (hrest : EndsNumeral rest)
    (h : exponent? cs = some (e, more)) : exponent? (cs ++ rest) = some (e, more ++ rest) := by
  rcases cs with _ | ⟨c, cs⟩
  · cases h
    exact exponent?_of_head ⟨fun h => (hrest _ h).2.2.1 rfl, fun h => (hrest _ h).2.2.2 rfl⟩
  by_cases hmark : c = 'e' ∨ c = 'E'
  · rcases cs with _ | ⟨d, cs⟩
    · rcases hmark with rfl | rfl <;> simp [exponent?, exponentDigits?, spanDigits] at h
    · rw [exponent?_mark hmark] at h
      rw [List.cons_append, List.cons_append, exponent?_mark hmark]
      split at h <;> rename_i hplus
      · rw [if_pos hplus, exponentDigits?_append hrest h]
      split at h <;> rename_i hminus
      · rw [if_neg hplus, if_pos hminus, exponentDigits?_append hrest h]
      · rw [if_neg hplus, if_neg hminus, ← List.cons_append, exponentDigits?_append hrest h]
  · have hhead : ∀ tail : List Char, (c :: tail).head? ≠ some 'e' ∧ (c :: tail).head? ≠ some 'E' := by
      simpa [not_or] using hmark
    rw [exponent?_of_head (hhead cs)] at h
    cases h
    exact exponent?_of_head (hhead _)

theorem numeralToken?_append {negative : Bool} {more : List Char} (hrest : EndsNumeral rest)
    (h : numeralToken? negative cs = some (token, more)) :
    numeralToken? negative (cs ++ rest) = some (token, more ++ rest) := by
  simp only [numeralToken?] at h ⊢
  rw [spanDigits_rest hrest.stops]
  split at h
  · cases h
  rename_i hdigits
  simp only [Option.bind_eq_bind, Option.bind_eq_some_iff, Option.pure_def, Option.some.injEq] at h
  obtain ⟨⟨fraction, after⟩, hfraction, ⟨exponent, afterwards⟩, hexponent, hleaf⟩ := h
  rw [if_neg hdigits, fraction?_append hrest hfraction]
  simp only [Option.bind_eq_bind, Option.bind_some, exponent?_append hrest hexponent]
  cases hleaf
  rfl

theorem isDigit_of_numeralToken? {negative : Bool} {more : List Char}
    (h : numeralToken? negative cs = some (token, more)) :
    ∃ c ds, cs = c :: ds ∧ isDigit 10 c = true := by
  rcases cs with _ | ⟨c, ds⟩
  · cases h
  · refine ⟨c, ds, rfl, ?_⟩
    by_contra hc
    simp [numeralToken?, spanDigits, hc] at h

theorem token?_digit {c : Char} (h : isDigit 10 c = true) :
    token? (c :: cs) = numeralToken? false (c :: cs) := by
  rw [token?.eq_def]
  split
  case h_12 => rfl
  -- no other kind of token starts with a digit
  all_goals
    rename_i heq
    cases heq
    exact absurd h (by decide)

theorem stringToken?_ne_number {n : Number} {more : List Char} :
    stringToken? cs ≠ some (.leaf (.number n), more) := by
  intro h
  simp only [stringToken?, Option.bind_eq_bind, Option.bind_eq_some_iff] at h
  obtain ⟨p, -, hpair⟩ := h
  cases hpair

/-- What kind of token a number is read from. -/
theorem token?_eq_number {n : Number} {more : List Char}
    (h : token? cs = some (.leaf (.number n), more)) :
    (∃ ds, cs = '-' :: ds ∧ numeralToken? true ds = some (.leaf (.number n), more)) ∨
      numeralToken? false cs = some (.leaf (.number n), more) := by
  rw [token?.eq_def] at h
  split at h
  case h_10 => exact absurd h stringToken?_ne_number
  case h_11 ds => exact Or.inl ⟨ds, rfl, h⟩
  case h_12 => exact Or.inr h
  all_goals cases h

end Json

/-- Whether the text of a number is read as this number again. -/
def Number.Legible (n : Number) : Prop :=
  Json.token? (Json.numberChars n) = some (.leaf (.number n), [])

namespace Json

open Text

variable {cs rest : List Char}

theorem token?_number {n : Number} (h : n.Legible) (hrest : EndsNumeral rest) :
    token? (numberChars n ++ rest) = some (.leaf (.number n), rest) := by
  unfold Number.Legible at h
  rcases token?_eq_number h with ⟨ds, hds, hread⟩ | hread
  · rw [hds]
    exact numeralToken?_append hrest hread
  · obtain ⟨c, ds, hcs, hc⟩ := isDigit_of_numeralToken? hread
    have happend := numeralToken?_append hrest hread
    rw [hcs] at happend ⊢
    rw [List.cons_append, token?_digit hc]
    exact happend

end Json

end ControlPlane
