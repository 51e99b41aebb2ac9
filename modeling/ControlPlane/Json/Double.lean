import ControlPlane.Text.Digits

/-! Decimal text of binary floating-point numbers of 64 bits. A numeral is read by scaling its
significand once by a power of ten; a number is written with the fewest digits that read back. -/

namespace ControlPlane.Double

/-- The largest power of ten used as a factor. -/
def maxScale : Nat := 308

def powerOfTen (k : Nat) : Float := Float.ofScientific 1 false k

/-- Divides by powers of ten, the largest first. -/
def scaleDown (f : Float) (k : Nat) : Float :=
  if k ≤ maxScale then f / powerOfTen k
  else if f == 0 then f
  else scaleDown (f / powerOfTen maxScale) (k - maxScale)
termination_by k
decreasing_by simp only [maxScale] at *; omega

/-- `significand` times ten to the power of `exponent`, unless that is too large. -/
def ofDecimal? (negative : Bool) (significand : UInt64) (exponent : Int) : Option UInt64 :=
  let f := significand.toFloat
  let scaled : Option Float :=
    if exponent < 0 then some (scaleDown f exponent.natAbs)
    else if exponent.toNat ≤ maxScale then
      let g := f * powerOfTen exponent.toNat
      if g.isInf then none else some g
    else if f == 0 then some f
    else none
  scaled.map fun g => (if negative then -g else g).toBits

/-- The number as a significand and a power of two. -/
def parts (bits : UInt64) : Nat × Int :=
  let fraction : Nat := bits.toNat % Nat.pow 2 52
  let exponent : Nat := bits.toNat / Nat.pow 2 52 % Nat.pow 2 11
  if exponent = 0 then (fraction, -1074) else (fraction + Nat.pow 2 52, (exponent : Int) - 1075)

/-- The quotient rounded to the nearest whole number, halves up. -/
def roundDiv (numerator denominator : Nat) : Nat := (2 * numerator + denominator) / (2 * denominator)

/-- The decimal exponent of the leading digit of a positive quotient. -/
def leadingExponent (numerator denominator : Nat) : Int :=
  let guess : Int := (Nat.toDigits 10 numerator).length - (Nat.toDigits 10 denominator).length
  let small := if guess < 0 then numerator * Nat.pow 10 guess.natAbs < denominator
    else numerator < denominator * Nat.pow 10 guess.toNat
  if small then guess - 1 else guess

/-- The nearest decimal with `count` digits: its digits as a number, and the exponent of the last
of them. -/
def nearest (numerator denominator count : Nat) : Nat × Int :=
  let last := leadingExponent numerator denominator - (count - 1 : Nat)
  if last < 0 then (roundDiv (numerator * Nat.pow 10 last.natAbs) denominator, last)
  else (roundDiv numerator (denominator * Nat.pow 10 last.toNat), last)

def ofScientific (digits : Nat) (exponent : Int) : UInt64 :=
  (Float.ofScientific digits (exponent < 0) exponent.natAbs).toBits

/-- The shortest decimal that reads back as a positive number. -/
def shortest (bits : UInt64) : Nat × Int :=
  let (m, e) := parts bits
  let numerator := if e < 0 then m else m * Nat.pow 2 e.toNat
  let denominator := if e < 0 then Nat.pow 2 e.natAbs else 1
  let candidates := (List.range 17).map fun k => nearest numerator denominator (k + 1)
  (candidates.find? fun (d, x) => ofScientific d x == bits).getD (nearest numerator denominator 17)

/-- A point always shows; exponents below minus five or above fifteen are written out. -/
def toChars (bits : UInt64) : List Char :=
  let negative := Nat.pow 2 63 ≤ bits.toNat
  let magnitude := UInt64.ofNat (bits.toNat % Nat.pow 2 63)
  let text :=
    if magnitude = 0 then "0.0".toList
    else
      let (d, x) := shortest magnitude
      let all := Text.digits 10 d
      let lead : Int := x + (all.length - 1 : Nat)
      let ds := (all.reverse.dropWhile (· = '0')).reverse
      if lead < -5 ∨ 15 < lead then
        ds.take 1 ++ (if ds.length = 1 then [] else '.' :: ds.drop 1) ++ 'e' :: (toString lead).toList
      else if lead < 0 then '0' :: '.' :: List.replicate (lead.natAbs - 1) '0' ++ ds
      else
        let whole := lead.toNat + 1
        let ds := ds ++ List.replicate (whole + 1 - ds.length) '0'
        ds.take whole ++ '.' :: ds.drop whole
  if negative then '-' :: text else text

end ControlPlane.Double
