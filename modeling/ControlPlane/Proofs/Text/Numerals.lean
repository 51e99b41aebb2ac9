import ControlPlane.Ident
import Mathlib.Tactic.IntervalCases

/-! Numerals that were written are read back: with the digits that they need, or with as many as there
is room for. Identifiers are numerals of the second kind with hyphens between their digits. -/

namespace ControlPlane.Text

variable {base n d width : Nat} {ds rest : List Char}

theorem digit?_digitChar (h : d < base) (hb : base ≤ 16) : digit? base d.digitChar = some d := by
  have hd : d < 16 := by omega
  interval_cases d <;> simp [digit?, Nat.digitChar, h]

theorem isDigit_digitChar (h : d < base) (hb : base ≤ 16) : isDigit base d.digitChar = true := by
  simp [isDigit, digit?_digitChar h hb]

theorem digitChar_ne_zero (h : 0 < d) (hd : d < 16) : d.digitChar ≠ '0' := by
  interval_cases d <;> decide

/-- The number that digits make, none making zero. -/
def value? (base : Nat) (ds : List Char) : Option Nat :=
  ds.foldlM (fun n c => (digit? base c).map (n * base + ·)) 0

theorem ofDigits?_eq (h : ds ≠ []) : ofDigits? base ds = value? base ds := by
  cases ds with
  | nil => exact absurd rfl h
  | cons c cs => rfl

theorem value?_snoc (h : value? base ds = some n) (hd : d < base) (hb : base ≤ 16) :
    value? base (ds ++ [d.digitChar]) = some (n * base + d) := by
  unfold value? at h ⊢
  simp [List.foldlM_append, h, digit?_digitChar hd hb]

theorem value?_toDigits (hb : 1 < base) (hb' : base ≤ 16) :
    value? base (Nat.toDigits base n) = some n := by
  induction n using Nat.strongRecOn with
  | _ n ih =>
    rw [Nat.toDigits_eq_if hb]
    by_cases h : n < base
    · have hempty : value? base [] = some 0 := rfl
      simpa [h] using value?_snoc hempty h hb'
    · have hlt : n / base < n := Nat.div_lt_self (by omega) hb
      have hdigit : n % base < base := Nat.mod_lt _ (by omega)
      rw [if_neg h, value?_snoc (ih _ hlt) hdigit hb', Nat.div_add_mod']

theorem value?_fixedDigits (hb : 1 < base) (hb' : base ≤ 16) :
    value? base (fixedDigits base width n) = some (n % base ^ width) := by
  induction width generalizing n with
  | zero => simp [fixedDigits, value?, Nat.mod_one]
  | succ width ih =>
    have hdigit : n % base < base := Nat.mod_lt _ (by omega)
    rw [fixedDigits, value?_snoc ih hdigit hb', Nat.pow_succ', Nat.mod_mul]
    congr 1
    rw [Nat.mul_comm, Nat.add_comm]

theorem length_fixedDigits : (fixedDigits base width n).length = width := by
  induction width generalizing n with
  | zero => rfl
  | succ width ih => simp [fixedDigits, ih]

theorem ofDigits?_digits (hb : 1 < base) (hb' : base ≤ 16) :
    ofDigits? base (digits base n) = some n := by
  rw [digits, ofDigits?_eq Nat.toDigits_ne_nil, value?_toDigits hb hb']

theorem isDigit_of_mem_digits (hb : 1 < base) (hb' : base ≤ 16) :
    ∀ c ∈ digits base n, isDigit base c = true := by
  unfold digits
  induction n using Nat.strongRecOn with
  | _ n ih =>
    rw [Nat.toDigits_eq_if hb]
    by_cases h : n < base
    · simpa [h] using isDigit_digitChar h hb'
    · have hlt : n / base < n := Nat.div_lt_self (by omega) hb
      have hdigit := isDigit_digitChar (Nat.mod_lt n (show 0 < base by omega)) hb'
      rw [if_neg h]
      intro c hc
      rcases List.mem_append.1 hc with hc | hc
      · exact ih _ hlt c hc
      · rwa [List.mem_singleton.1 hc]

theorem head?_digits (hb : 1 < base) (hb' : base ≤ 16) (hn : 0 < n) :
    (digits base n).head? ≠ some '0' := by
  unfold digits
  induction n using Nat.strongRecOn with
  | _ n ih =>
    rw [Nat.toDigits_eq_if hb]
    by_cases h : n < base
    · simpa [h] using digitChar_ne_zero hn (by omega)
    · have hlt : n / base < n := Nat.div_lt_self (by omega) hb
      have hpos : 0 < n / base := Nat.div_pos (by omega) (by omega)
      rw [if_neg h, List.head?_append]
      cases hdigits : (Nat.toDigits base (n / base)).head? with
      | none => exact absurd (List.head?_eq_none_iff.1 hdigits) Nat.toDigits_ne_nil
      | some c => simpa [hdigits] using ih _ hlt hpos

/-- Only zero is written with a zero at the front. -/
theorem length_digits_of_head? (hb : 1 < base) (hb' : base ≤ 16)
    (h : (digits base n).head? = some '0') : (digits base n).length = 1 := by
  by_cases hn : 0 < n
  · exact absurd h (head?_digits hb hb' hn)
  · obtain rfl : n = 0 := by omega
    simp [digits]

/-- What follows a numeral does not go on with it. -/
def Stops (base : Nat) (rest : List Char) : Prop := ∀ c ∈ rest.head?, isDigit base c = false

theorem stops_nil : Stops base [] := by simp [Stops]

theorem stops_cons {c : Char} (h : isDigit base c = false) : Stops base (c :: rest) := by
  simpa [Stops] using h

theorem spanDigits_rest {cs : List Char} (hrest : Stops base rest) :
    spanDigits base (cs ++ rest) = ((spanDigits base cs).1, (spanDigits base cs).2 ++ rest) := by
  induction cs with
  | nil =>
    cases rest with
    | nil => rfl
    | cons c rest =>
      have hc : isDigit base c = false := hrest c rfl
      simp [spanDigits, hc]
  | cons c cs ih =>
    simp only [spanDigits, Prod.mk.injEq] at ih
    by_cases hc : isDigit base c = true <;> simp [spanDigits, hc, ih]

theorem spanDigits_append (hds : ∀ c ∈ ds, isDigit base c = true) (hrest : Stops base rest) :
    spanDigits base (ds ++ rest) = (ds, rest) := by
  have htake : (ds ++ []).takeWhile (isDigit base) = ds ++ [] := List.takeWhile_append_of_pos hds
  have hdrop : (ds ++ []).dropWhile (isDigit base) = [] := List.dropWhile_append_of_pos hds
  rw [List.append_nil] at htake hdrop
  have hall : spanDigits base ds = (ds, []) := Prod.ext htake hdrop
  rw [spanDigits_rest hrest, hall, List.nil_append]

end ControlPlane.Text

namespace ControlPlane.Ident

variable {kind : Kind}

theorem plain?_append {ds : List Char} {n : Nat} (hlength : ds.length = 32)
    (h : Text.value? 16 ds = some n) : plain? ds = some (⟨BitVec.ofNat 128 n⟩ : Ident kind) := by
  have hne : ds ≠ [] := by
    rintro rfl
    cases hlength
  simp [plain?, hlength, Text.ofDigits?_eq hne, h]

theorem hyphenated?_groups {a b c d e : List Char} (ha : a.length = 8) (hb : b.length = 4)
    (hc : c.length = 4) (hd : d.length = 4) :
    (hyphenated? (a ++ '-' :: b ++ '-' :: c ++ '-' :: d ++ '-' :: e) : Option (Ident kind)) =
      plain? (a ++ b ++ c ++ d ++ e) := by
  have ha' : ∀ k, 8 ≤ k → a.drop k = [] := fun k hk => List.drop_eq_nil_of_le (by omega)
  have hb' : ∀ k, 4 ≤ k → b.drop k = [] := fun k hk => List.drop_eq_nil_of_le (by omega)
  have hc' : ∀ k, 4 ≤ k → c.drop k = [] := fun k hk => List.drop_eq_nil_of_le (by omega)
  have hd' : ∀ k, 4 ≤ k → d.drop k = [] := fun k hk => List.drop_eq_nil_of_le (by omega)
  simp [hyphenated?, List.getElem?_append, List.drop_append, ha, hb, hc, hd, ha', hb', hc', hd']

theorem ofString?_toString (id : Ident kind) : ofString? id.toString = some id := by
  have hlength : (Text.fixedDigits 16 32 id.value.toNat).length = 32 := Text.length_fixedDigits
  have hvalue : Text.value? 16 (Text.fixedDigits 16 32 id.value.toNat) =
      some (id.value.toNat % 16 ^ 32) := Text.value?_fixedDigits (by decide) (by decide)
  rw [Nat.mod_eq_of_lt (show id.value.toNat < 16 ^ 32 from id.value.isLt)] at hvalue
  rw [Ident.toString, ofString?, String.toList_ofList, toChars]
  generalize Text.fixedDigits 16 32 id.value.toNat = ds at hlength hvalue
  have hjoin : ds.take 8 ++ (ds.drop 8).take 4 ++ (ds.drop 12).take 4 ++ (ds.drop 16).take 4 ++
      ds.drop 20 = ds := by
    simp only [← List.take_add, List.take_append_drop, Nat.reduceAdd]
  have hwhole : (ds.take 8 ++ '-' :: (ds.drop 8).take 4 ++ '-' :: (ds.drop 12).take 4 ++
      '-' :: (ds.drop 16).take 4 ++ '-' :: ds.drop 20).length = 36 := by simp [hlength]
  rw [ofChars?, hwhole]
  change hyphenated? _ = _
  rw [hyphenated?_groups, hjoin, plain?_append hlength hvalue]
  · simp
  all_goals simp [hlength]

end ControlPlane.Ident
