import ControlPlane.Ip.Notation

/-! Blocks of addresses that share their leading bits, and their notation `address/length`. -/

namespace ControlPlane.Ip

/-- An address and how many of its leading bits the block fixes. The other bits may be set. -/
structure Cidr where
  address : Address
  length : Nat
  length_le : length ≤ address.family.bits
  deriving DecidableEq

namespace Cidr

abbrev family (c : Cidr) : Family := c.address.family

/-- How many addresses the block holds. -/
def blockSize (c : Cidr) : Nat := Nat.pow 2 (c.family.bits - c.length)

theorem blockSize_pos (c : Cidr) : 0 < c.blockSize := Nat.two_pow_pos _

theorem blockSize_dvd (c : Cidr) : c.blockSize ∣ c.family.size :=
  Nat.pow_dvd_pow 2 (Nat.sub_le _ _)

def networkValue (c : Cidr) : Nat := c.address.value / c.blockSize * c.blockSize

theorem networkValue_le (c : Cidr) : c.networkValue ≤ c.address.value := Nat.div_mul_le_self _ _

/-- The first address of the block. -/
def network (c : Cidr) : Address :=
  ⟨c.family, c.networkValue, Nat.lt_of_le_of_lt c.networkValue_le c.address.value_lt⟩

def lastValue (c : Cidr) : Nat := c.networkValue + (c.blockSize - 1)

theorem lastValue_lt (c : Cidr) : c.lastValue < c.family.size := by
  obtain ⟨k, hk⟩ := c.blockSize_dvd
  have hpos := c.blockSize_pos
  have hlt : c.address.value / c.blockSize < k := by
    apply Nat.div_lt_of_lt_mul
    rw [← hk]; exact c.address.value_lt
  have hle : (c.address.value / c.blockSize + 1) * c.blockSize ≤ k * c.blockSize :=
    Nat.mul_le_mul_right _ hlt
  rw [Nat.add_mul, Nat.one_mul, Nat.mul_comm k, ← hk] at hle
  unfold lastValue networkValue
  omega

/-- The last address of the block. -/
def last (c : Cidr) : Address := ⟨c.family, c.lastValue, c.lastValue_lt⟩

/-- Whether the leading bits of an address are those of the block. -/
def contains (c : Cidr) (a : Address) : Bool :=
  a.family = c.family && a.value / c.blockSize = c.address.value / c.blockSize

/-- Whether no bit after the fixed ones is set. -/
def isCanonical (c : Cidr) : Bool := c.address = c.network

def toChars (c : Cidr) : List Char := c.address.toChars ++ '/' :: Text.digits 10 c.length

protected def toString (c : Cidr) : String := String.ofList c.toChars

instance : ToString Cidr := ⟨Cidr.toString⟩

def ofLength? (address : Address) (length : Nat) : Option Cidr :=
  if h : length ≤ address.family.bits then some ⟨address, length, h⟩ else none

/-- The length that a netmask stands for; a mask with a gap stands for none. -/
def lengthOfMask? (mask : Nat) : Option Nat :=
  (List.range 33).find? fun length => mask == Nat.pow 2 32 - Nat.pow 2 (32 - length)

/-- Without a slash the block is the one address; after the slash stands a length or, for IPv4, a
netmask. -/
def ofChars? (cs : List Char) : Option Cidr :=
  match Text.pieces '/' cs with
  | [text] => do
    let address ← Address.ofChars? text
    ofLength? address address.family.bits
  | [text, suffix] => do
    let address ← Address.ofChars? text
    match address.family, Address.ofChars? suffix with
    | .v4, some ⟨.v4, mask, _⟩ => ofLength? address (← lengthOfMask? mask)
    | _, _ => ofLength? address (← Text.unsigned? 10 suffix)
  | _ => none

def ofString? (s : String) : Option Cidr := ofChars? s.toList

end Cidr

end ControlPlane.Ip
