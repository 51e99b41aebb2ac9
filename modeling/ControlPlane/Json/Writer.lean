import ControlPlane.Json.Double
import ControlPlane.Json.Value

/-! Writing a JSON value on one line. -/

namespace ControlPlane.Json

def hexEscape (n : Nat) : List Char := '\\' :: 'u' :: Text.fixedDigits 16 4 n

/-- Quotes, reverse slashes and control characters are escaped. -/
def escaped (c : Char) : List Char :=
  if c = '"' then ['\\', '"']
  else if c = '\\' then ['\\', '\\']
  else if c.toNat < 0x20 ∨ c.toNat = 0x7F then hexEscape c.toNat
  else [c]

def quoted (s : String) : List Char := '"' :: s.toList.flatMap escaped ++ ['"']

def numberChars : Number → List Char
  | .whole n => if n < 0 then '-' :: Text.digits 10 n.natAbs else Text.digits 10 n.toNat
  | .double bits => Double.toChars bits

mutual

/-- The text of a value in front of what follows it. -/
def write (rest : List Char) : Json → List Char
  | null => 'n' :: 'u' :: 'l' :: 'l' :: rest
  | bool true => 't' :: 'r' :: 'u' :: 'e' :: rest
  | bool false => 'f' :: 'a' :: 'l' :: 's' :: 'e' :: rest
  | number n => numberChars n ++ rest
  | string s => quoted s ++ rest
  | array [] => '[' :: ']' :: rest
  | array (x :: xs) => '[' :: write (writeItems rest xs) x
  | object [] => '{' :: '}' :: rest
  | object ((n, x) :: ms) => '{' :: quoted n ++ ':' :: write (writeMembers rest ms) x

def writeItems (rest : List Char) : List Json → List Char
  | [] => ']' :: rest
  | x :: xs => ',' :: write (writeItems rest xs) x

def writeMembers (rest : List Char) : List (String × Json) → List Char
  | [] => '}' :: rest
  | (n, x) :: ms => ',' :: quoted n ++ ':' :: write (writeMembers rest ms) x

end

protected def toString (v : Json) : String := String.ofList (write [] v)

instance : ToString Json := ⟨Json.toString⟩

end ControlPlane.Json
