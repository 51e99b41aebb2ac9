import ControlPlane.Text.Digits

/-! Hardware addresses of ports: six octets, written as pairs of hexadecimal digits with colons
between. -/

namespace ControlPlane

structure Mac where
  octets : List UInt8
  length_eq : octets.length = 6
  deriving DecidableEq

namespace Mac

/-- A hexadecimal numeral of two bytes. -/
def octet? (group : List Char) : Option UInt8 :=
  if Text.byteLength group ≠ 2 then none
  else ((Text.unsigned? 16 group).filter (· < 256)).map UInt8.ofNat

def ofOctets? (octets : List UInt8) : Option Mac :=
  if h : octets.length = 6 then some ⟨octets, h⟩ else none

def ofChars? (cs : List Char) : Option Mac := do ofOctets? (← (Text.pieces ':' cs).mapM octet?)

def ofString? (s : String) : Option Mac := ofChars? s.toList

def octetChars (octet : UInt8) : List Char := Text.fixedDigits 16 2 octet.toNat

def toChars (mac : Mac) : List Char := List.intercalate [':'] (mac.octets.map octetChars)

protected def toString (mac : Mac) : String := String.ofList mac.toChars

instance : ToString Mac := ⟨Mac.toString⟩

/-- The lowest bit of the first octet marks addresses of groups. -/
def isMulticast (mac : Mac) : Bool := mac.octets.headD 0 % 2 == 1

/-- Puts the drawn octets, from the `drawn`-th on, in the place of zero octets. -/
def fillZeros (octetAt : Nat → UInt8) : (drawn : Nat) → List UInt8 → List UInt8
  | _, [] => []
  | drawn, o :: os =>
    if o = 0 then octetAt drawn :: fillZeros octetAt (drawn + 1) os
    else o :: fillZeros octetAt drawn os

theorem length_fillZeros (octetAt : Nat → UInt8) (drawn : Nat) (os : List UInt8) :
    (fillZeros octetAt drawn os).length = os.length := by
  induction os generalizing drawn with
  | nil => rfl
  | cons o os ih => simp only [fillZeros]; split <;> simp [ih]

/-- How many octets are drawn to complete a base address. -/
def holes (base : Mac) : Nat := (base.octets.drop 3).count 0

/-- A base address with its zero octets among the last three replaced by drawn ones. -/
def complete (base : Mac) (octetAt : Nat → UInt8) (drawn : Nat) : Mac where
  octets := base.octets.take 3 ++ fillZeros octetAt drawn (base.octets.drop 3)
  length_eq := by simp [length_fillZeros, base.length_eq]

end Mac

end ControlPlane
