/-! Capital letters, as far as they decide whether a text is an ASCII word in other clothes. -/

namespace ControlPlane.Text

/-- The capital form of a character. Written out are exactly the characters whose capitals are
ASCII letters: the small letters, the dotless i, the long s, the sharp s and the Latin ligatures.
Every other character stands for itself, which spells no ASCII letter either. -/
def capitals (c : Char) : List Char :=
  if 'a' ≤ c ∧ c ≤ 'z' then [Char.ofNat (c.toNat - 32)]
  else match c.toNat with
    | 0xDF => ['S', 'S']
    | 0x131 => ['I']
    | 0x17F => ['S']
    | 0xFB00 => ['F', 'F']
    | 0xFB01 => ['F', 'I']
    | 0xFB02 => ['F', 'L']
    | 0xFB03 => ['F', 'F', 'I']
    | 0xFB04 => ['F', 'F', 'L']
    | 0xFB05 => ['S', 'T']
    | 0xFB06 => ['S', 'T']
    | _ => [c]

/-- Whether the capitals of `text` spell the ASCII word `word`. -/
def spells (text : String) (word : String) : Bool :=
  text.toList.flatMap capitals == word.toList

/-- Equality of two texts up to the case of ASCII letters. -/
def sameIgnoringCase (a b : String) : Bool :=
  a.toList.map Char.toLower == b.toList.map Char.toLower

end ControlPlane.Text
