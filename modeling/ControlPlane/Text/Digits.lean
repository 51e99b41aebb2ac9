/-! Digits of a base up to sixteen, most significant first, as characters. -/

namespace ControlPlane.Text

/-- The value of a digit below `base`; letters count in either case. -/
def digit? (base : Nat) (c : Char) : Option Nat :=
  let value :=
    if '0' ≤ c ∧ c ≤ '9' then c.toNat - 48
    else if 'a' ≤ c ∧ c ≤ 'f' then c.toNat - 87
    else if 'A' ≤ c ∧ c ≤ 'F' then c.toNat - 55
    else base
  if value < base then some value else none

def isDigit (base : Nat) (c : Char) : Bool := (digit? base c).isSome

def ofDigits? (base : Nat) : List Char → Option Nat
  | [] => none
  | cs => cs.foldlM (fun n c => (digit? base c).map (n * base + ·)) 0

/-- A numeral with any leading zeros and at most one plus sign. -/
def unsigned? (base : Nat) : List Char → Option Nat
  | '+' :: rest => ofDigits? base rest
  | cs => ofDigits? base cs

/-- How many bytes a text takes. -/
def byteLength : List Char → Nat
  | [] => 0
  | c :: cs => c.utf8Size + byteLength cs

/-- The last `width` digits of `n`, with leading zeros. -/
def fixedDigits (base : Nat) : Nat → Nat → List Char
  | 0, _ => []
  | width + 1, n => fixedDigits base width (n / base) ++ [(n % base).digitChar]

def digits (base n : Nat) : List Char := Nat.toDigits base n

def decimal (n : Nat) : String := String.ofList (digits 10 n)

/-- The longest run of digits at the front, and what follows it. -/
def spanDigits (base : Nat) (cs : List Char) : List Char × List Char :=
  (cs.takeWhile (isDigit base), cs.dropWhile (isDigit base))

/-- The pieces of a text between the separators; there is one more piece than separators. -/
def pieces (separator : Char) : List Char → List (List Char)
  | [] => [[]]
  | c :: cs =>
    if c = separator then [] :: pieces separator cs
    else match pieces separator cs with
      | [] => [[c]]
      | piece :: rest => (c :: piece) :: rest

end ControlPlane.Text
