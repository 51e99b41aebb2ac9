import ControlPlane.Json.Double
import ControlPlane.Json.Value

/-! What the text of a JSON document says: members in the order written, repeated names and all.
A part that is well written but stands for no value is kept as `unreadable`, since a document may
still be read by a reader that passes over that part. -/

namespace ControlPlane

inductive Document
  | null
  | bool (b : Bool)
  | number (n : Number)
  | string (s : String)
  | array (items : List Document)
  | object (members : List (String × Document))
  | unreadable

namespace Document

/-- How many arrays and objects may stand inside each other. -/
def maxDepth : Nat := 127

mutual

/-- The value of a document, if every part has one. Of repeated members the last counts. -/
def value? : Document → Option Json
  | null => some .null
  | bool b => some (.bool b)
  | number n => some (.number n)
  | string s => some (.string s)
  | array items => (values? items).map .array
  | object members => (memberValues? members).map .ofMembers
  | unreadable => none

def values? : List Document → Option (List Json)
  | [] => some []
  | d :: ds => do return (← value? d) :: (← values? ds)

def memberValues? : List (String × Document) → Option (List (String × Json))
  | [] => some []
  | (n, d) :: ds => do return (n, ← value? d) :: (← memberValues? ds)

end

mutual

def ofJson : Json → Document
  | .null => null
  | .bool b => bool b
  | .number n => number n
  | .string s => string s
  | .array xs => array (ofJsons xs)
  | .object ms => object (ofMembers ms)

def ofJsons : List Json → List Document
  | [] => []
  | x :: xs => ofJson x :: ofJsons xs

def ofMembers : List (String × Json) → List (String × Document)
  | [] => []
  | (n, x) :: ms => (n, ofJson x) :: ofMembers ms

end

/-- Appends a digit to a significand of 64 bits, if it fits. -/
def pushDigit? (significand digit : Nat) : Option Nat :=
  let next := significand * 10 + digit
  if next < Nat.pow 2 64 then some next else none

/-- Adds digits to a significand until one does not fit; gives how many were added and whether
all were. -/
def pushDigits (significand : Nat) : List Nat → Nat × Nat × Bool
  | [] => (significand, 0, true)
  | d :: ds =>
    match pushDigit? significand d with
    | none => (significand, 0, false)
    | some next =>
      let (result, count, all) := pushDigits next ds
      (result, count + 1, all)

/-- The number that a numeral stands for: whole and kept exactly from -2^63 to 2^64 - 1, otherwise
the nearest that scaling its leading digits gives. A numeral with a fraction or an exponent is never
whole, and neither is a negative zero. -/
def numeralValue? (negative : Bool) (whole fraction : List Nat) (exponent : Option (Bool × List Nat)) :
    Option Number :=
  let (m, count, all) := pushDigits 0 whole
  let skipped := whole.length - count
  if fraction.isEmpty ∧ exponent.isNone ∧ all ∧ ¬ (negative ∧ (m = 0 ∨ Nat.pow 2 63 < m)) then
    some (.whole (if negative then -m else m))
  else
    let (m, count, _) := pushDigits m fraction
    let start : Int := skipped - count
    let bits := match exponent with
      | none => Double.ofDecimal? negative (UInt64.ofNat m) start
      | some (down, ds) =>
        let e : Nat := ds.foldl (fun e d => e * 10 + d) 0
        if e < Nat.pow 2 31 then
          Double.ofDecimal? negative (UInt64.ofNat m) (if down then start - e else start + e)
        else if m ≠ 0 ∧ ¬ down then none
        else Double.ofDecimal? negative 0 0
    bits.map .double

end Document

end ControlPlane
