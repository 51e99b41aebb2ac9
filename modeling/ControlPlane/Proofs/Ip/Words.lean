import ControlPlane.Ip.Address
import Mathlib.Algebra.Group.Nat.Defs

/-! Arithmetic on words of fixed width, where a result that is not a word is an error. The numbers of all
addresses are words of 128 bits. -/

namespace ControlPlane.Ip

/-- The end of a computation in an operation whose result is not a word. -/
inductive Overflow
  | overflow

namespace Word

variable {width m n : Nat}

def plus (a b : BitVec width) : Except Overflow (BitVec width) :=
  if a.uaddOverflow b then .error .overflow else .ok (a + b)

def minus (a b : BitVec width) : Except Overflow (BitVec width) :=
  if a.usubOverflow b then .error .overflow else .ok (a - b)

/-- Bits may be shifted out, but not as many as the word has. -/
def shift (a : BitVec width) (count : Nat) : Except Overflow (BitVec width) :=
  if count < width then .ok (a <<< count) else .error .overflow

theorem toNat_ofNat (h : m < 2 ^ width) : (BitVec.ofNat width m).toNat = m := by
  simp [Nat.mod_eq_of_lt h]

theorem ofNat_lt (hm : m < 2 ^ width) (hn : n < 2 ^ width) :
    BitVec.ofNat width m < BitVec.ofNat width n ↔ m < n := by
  rw [BitVec.lt_def, toNat_ofNat hm, toNat_ofNat hn]

theorem ofNat_inj (hm : m < 2 ^ width) (hn : n < 2 ^ width) :
    BitVec.ofNat width m = BitVec.ofNat width n ↔ m = n := by
  rw [← BitVec.toNat_inj, toNat_ofNat hm, toNat_ofNat hn]

theorem plus_ofNat (h : m + n < 2 ^ width) :
    plus (BitVec.ofNat width m) (BitVec.ofNat width n) = .ok (BitVec.ofNat width (m + n)) := by
  have hm : m < 2 ^ width := by omega
  have hn : n < 2 ^ width := by omega
  simp [plus, BitVec.uaddOverflow, Nat.mod_eq_of_lt hm, Nat.mod_eq_of_lt hn, h, BitVec.ofNat_add]

theorem plus_overflow (hm : m < 2 ^ width) (hn : n < 2 ^ width) (h : 2 ^ width ≤ m + n) :
    plus (BitVec.ofNat width m) (BitVec.ofNat width n) = .error .overflow := by
  simp [plus, BitVec.uaddOverflow, Nat.mod_eq_of_lt hm, Nat.mod_eq_of_lt hn, h]

theorem minus_ofNat (hm : m < 2 ^ width) (h : n ≤ m) :
    minus (BitVec.ofNat width m) (BitVec.ofNat width n) = .ok (BitVec.ofNat width (m - n)) := by
  have hn : n < 2 ^ width := by omega
  have hsub : BitVec.ofNat width m - BitVec.ofNat width n = BitVec.ofNat width (m - n) := by
    apply BitVec.eq_of_toNat_eq
    rw [BitVec.toNat_sub_of_le (by rwa [BitVec.le_def, toNat_ofNat hm, toNat_ofNat hn]),
      toNat_ofNat hm, toNat_ofNat hn, toNat_ofNat (by omega)]
  simp [minus, BitVec.usubOverflow, Nat.mod_eq_of_lt hm, Nat.mod_eq_of_lt hn, hsub, h]

theorem minus_overflow (hn : n < 2 ^ width) (h : m < n) :
    minus (BitVec.ofNat width m) (BitVec.ofNat width n) = .error .overflow := by
  have hm : m < 2 ^ width := by omega
  simp [minus, BitVec.usubOverflow, Nat.mod_eq_of_lt hm, Nat.mod_eq_of_lt hn, h]

theorem shift_one (h : n < width) :
    shift (BitVec.ofNat width 1) n = .ok (BitVec.ofNat width (2 ^ n)) := by
  have hone : 1 < 2 ^ width := Nat.one_lt_two_pow (by omega)
  have hshift : BitVec.ofNat width 1 <<< n = BitVec.ofNat width (2 ^ n) := by
    apply BitVec.eq_of_toNat_eq
    rw [BitVec.toNat_shiftLeft, BitVec.toNat_ofNat, BitVec.toNat_ofNat, Nat.mod_eq_of_lt hone,
      Nat.shiftLeft_eq, Nat.one_mul]
  simp only [shift, h, if_true, hshift]

end Word

def spanOfWords? (family : Family) (low high : BitVec 128) : Option Span := do
  return ⟨← Address.ofValue? family low.toNat, ← Address.ofValue? family high.toNat⟩

theorem Family.size_le (family : Family) : family.size ≤ 2 ^ 128 := by cases family <;> decide

theorem Family.bits_le (family : Family) : family.bits ≤ 128 := by cases family <;> decide

end ControlPlane.Ip
