import ControlPlane.Text.Digits

/-! Identifiers of rows: 128-bit numbers, kept apart by the kind of row that they name. -/

namespace ControlPlane

inductive Kind
  | network | subnet | port | pool | range | segment
  deriving DecidableEq

structure Ident (kind : Kind) where
  value : BitVec 128
  deriving DecidableEq

abbrev NetworkId := Ident .network
abbrev SubnetId := Ident .subnet
abbrev PortId := Ident .port
abbrev PoolId := Ident .pool
abbrev RangeId := Ident .range
abbrev SegmentId := Ident .segment

namespace Ident

variable {kind : Kind}

instance : Inhabited (Ident kind) := ⟨⟨0⟩⟩

instance : Ord (Ident kind) := ⟨fun a b => compare a.value b.value⟩

instance : Std.TransOrd (Ident kind) where
  eq_swap {a b} :=
    (Std.OrientedCmp.eq_swap : compare a.value b.value = (compare b.value a.value).swap)
  isLE_trans {a b c} (hab : (compare a.value b.value).isLE) (hbc : (compare b.value c.value).isLE) :=
    (Std.TransCmp.isLE_trans hab hbc : (compare a.value c.value).isLE)

instance : Std.LawfulEqOrd (Ident kind) where
  eq_of_compare {a b} h := by
    have hv : a.value = b.value := Std.LawfulEqOrd.eq_of_compare h
    cases a; cases b; cases hv; rfl

/-- The four bits that say how the identifier was made. -/
def version (id : Ident kind) : Nat := id.value.toNat / Nat.pow 2 76 % 16

/-- Thirty-two digits in groups of 8, 4, 4, 4 and 12. -/
def toChars (id : Ident kind) : List Char :=
  let ds := Text.fixedDigits 16 32 id.value.toNat
  ds.take 8 ++ '-' :: (ds.drop 8).take 4 ++ '-' :: (ds.drop 12).take 4 ++
    '-' :: (ds.drop 16).take 4 ++ '-' :: ds.drop 20

protected def toString (id : Ident kind) : String := String.ofList id.toChars

instance : ToString (Ident kind) := ⟨Ident.toString⟩

def plain? (cs : List Char) : Option (Ident kind) :=
  if cs.length = 32 then (Text.ofDigits? 16 cs).map fun n => ⟨BitVec.ofNat 128 n⟩ else none

/-- The digits in groups of 8, 4, 4, 4 and 12 with hyphens between. -/
def hyphenated? (cs : List Char) : Option (Ident kind) :=
  if cs[8]? = some '-' ∧ cs[13]? = some '-' ∧ cs[18]? = some '-' ∧ cs[23]? = some '-' then
    plain? (cs.take 8 ++ (cs.drop 9).take 4 ++ (cs.drop 14).take 4 ++ (cs.drop 19).take 4 ++
      cs.drop 24)
  else none

/-- Reads the plain and the hyphenated form; the latter also in braces or, in any case, after
the scheme of a resource name. -/
def ofChars? (cs : List Char) : Option (Ident kind) :=
  match cs.length with
  | 32 => plain? cs
  | 36 => hyphenated? cs
  | 38 => if cs.head? = some '{' ∧ cs.getLast? = some '}' then hyphenated? cs.tail.dropLast else none
  | 45 =>
    if (cs.take 9).map Char.toLower = "urn:uuid:".toList then hyphenated? (cs.drop 9) else none
  | _ => none

def ofString? (s : String) : Option (Ident kind) := ofChars? s.toList

end Ident

end ControlPlane
