import ControlPlane.Json.Document

/-! Reading the text of a JSON document: characters to tokens, and tokens to a document on a stack
of open arrays and objects. -/

namespace ControlPlane

namespace Json

inductive Token
  | openArray | closeArray | openObject | closeObject | colon | comma
  | text (s : Option String)
  | leaf (d : Document)

/-- A piece of a string literal: a character, or a unit written with `\u`. -/
inductive Piece
  | char (c : Char)
  | unit (n : Nat)

/-- Joins surrogate pairs. A lone surrogate stands for no character. -/
def joinPieces? : List Piece → Option (List Char)
  | [] => some []
  | .char c :: rest => (joinPieces? rest).map (c :: ·)
  | .unit high :: rest =>
    if high < 0xD800 ∨ 0xDFFF < high then (joinPieces? rest).map (Char.ofNat high :: ·)
    else match rest with
      | .unit low :: rest =>
        if high < 0xDC00 ∧ 0xDC00 ≤ low ∧ low ≤ 0xDFFF then
          (joinPieces? rest).map
            (Char.ofNat (0x10000 + (high - 0xD800) * 0x400 + (low - 0xDC00)) :: ·)
        else none
      | _ => none

def escape? : Char → Option Char
  | '"' => some '"'
  | '\\' => some '\\'
  | '/' => some '/'
  | 'b' => some '\x08'
  | 'f' => some '\x0c'
  | 'n' => some '\n'
  | 'r' => some '\r'
  | 't' => some '\t'
  | _ => none

/-- The pieces of a string literal after its opening quote, and what follows the closing one. -/
def pieces? : List Char → Option (List Piece × List Char)
  | [] => none
  | '"' :: rest => some ([], rest)
  | '\\' :: 'u' :: a :: b :: c :: d :: rest => do
    let n ← Text.ofDigits? 16 [a, b, c, d]
    let (ps, rest) ← pieces? rest
    return (.unit n :: ps, rest)
  | '\\' :: c :: rest => do
    let e ← escape? c
    let (ps, rest) ← pieces? rest
    return (.char e :: ps, rest)
  | c :: rest =>
    if c = '\\' ∨ c.toNat < 0x20 then none
    else (pieces? rest).map fun (ps, rest) => (.char c :: ps, rest)

def stringToken? (cs : List Char) : Option (Token × List Char) := do
  let (ps, rest) ← pieces? cs
  return (.text ((joinPieces? ps).map String.ofList), rest)

def digitValues (ds : List Char) : List Nat := ds.map fun c => c.toNat - 48

/-- The part of a numeral after its whole digits that a mark introduces; without the mark, none. -/
def fraction? : List Char → Option (List Nat × List Char)
  | '.' :: rest =>
    let (ds, rest) := Text.spanDigits 10 rest
    if ds.isEmpty then none else some (digitValues ds, rest)
  | cs => some ([], cs)

def exponentDigits? (down : Bool) (cs : List Char) : Option (Option (Bool × List Nat) × List Char) :=
  let (ds, rest) := Text.spanDigits 10 cs
  if ds.isEmpty then none else some (some (down, digitValues ds), rest)

def exponent? : List Char → Option (Option (Bool × List Nat) × List Char)
  | 'e' :: rest | 'E' :: rest =>
    match rest with
    | '+' :: rest => exponentDigits? false rest
    | '-' :: rest => exponentDigits? true rest
    | _ => exponentDigits? false rest
  | cs => some (none, cs)

/-- A numeral after its sign. Only zero itself starts with the digit zero. -/
def numeralToken? (negative : Bool) (cs : List Char) : Option (Token × List Char) :=
  let (ds, rest) := Text.spanDigits 10 cs
  if ds.isEmpty ∨ (1 < ds.length ∧ ds.head? = some '0') then none
  else do
    let (fraction, rest) ← fraction? rest
    let (exponent, rest) ← exponent? rest
    let leaf := match Document.numeralValue? negative (digitValues ds) fraction exponent with
      | some n => .number n
      | none => .unreadable
    return (.leaf leaf, rest)

def isBlank (c : Char) : Bool := c = ' ' || c = '\n' || c = '\t' || c = '\r'

/-- The token at the front of a text. -/
def token? : List Char → Option (Token × List Char)
  | '[' :: rest => some (.openArray, rest)
  | ']' :: rest => some (.closeArray, rest)
  | '{' :: rest => some (.openObject, rest)
  | '}' :: rest => some (.closeObject, rest)
  | ':' :: rest => some (.colon, rest)
  | ',' :: rest => some (.comma, rest)
  | 'n' :: 'u' :: 'l' :: 'l' :: rest => some (.leaf .null, rest)
  | 't' :: 'r' :: 'u' :: 'e' :: rest => some (.leaf (.bool true), rest)
  | 'f' :: 'a' :: 'l' :: 's' :: 'e' :: rest => some (.leaf (.bool false), rest)
  | '"' :: rest => stringToken? rest
  | '-' :: rest => numeralToken? true rest
  | cs => numeralToken? false cs

/-- The tokens of a text. A token that takes no character ends the reading without success. -/
def tokens? (cs : List Char) : Option (List Token) :=
  match _h : cs.dropWhile isBlank with
  | [] => some []
  | c :: rest =>
    match token? (c :: rest) with
    | none => none
    | some (token, rest') =>
      if rest'.length < (c :: rest).length then (tokens? rest').map (token :: ·) else none
termination_by cs.length
decreasing_by
  have hle : (cs.dropWhile isBlank).length ≤ cs.length :=
    (List.dropWhile_suffix isBlank).length_le
  rw [_h] at hle
  omega

/-- What may come next. -/
inductive Expectation
  | value | itemOrClose | nameOrClose | name | colon | commaOrClose | finished

/-- An array or object being read, its parts in reverse order; for an object, also the name of the
member being read, which may be unreadable. -/
inductive Frame
  | array (items : List Document)
  | object (members : List (Option String × Document)) (name : Option String)

structure Reading where
  frames : List Frame
  next : Expectation
  result : Document

namespace Reading

def start : Reading := ⟨[], .value, .null⟩

/-- Takes a finished document into the innermost open array or object. -/
def deliver (d : Document) : List Frame → Reading
  | [] => ⟨[], .finished, d⟩
  | .array items :: frames => ⟨.array (d :: items) :: frames, .commaOrClose, .null⟩
  | .object members name :: frames =>
    ⟨.object ((name, d) :: members) none :: frames, .commaOrClose, .null⟩

/-- An array or object below too many others, or with an unreadable name, is unreadable itself. -/
def close : Frame → (enclosing : Nat) → Document
  | frame, enclosing =>
    if Document.maxDepth ≤ enclosing then .unreadable
    else match frame with
      | .array items => .array items.reverse
      | .object members _ =>
        match members.reverse.mapM fun (name, d) => name.map (·, d) with
        | some members => .object members
        | none => .unreadable

def step? (r : Reading) (token : Token) : Option Reading :=
  match r.next, token, r.frames with
  | .value, .leaf d, frames | .itemOrClose, .leaf d, frames => some (deliver d frames)
  | .value, .text s, frames | .itemOrClose, .text s, frames =>
    some (deliver (s.elim .unreadable .string) frames)
  | .value, .openArray, frames | .itemOrClose, .openArray, frames =>
    some ⟨.array [] :: frames, .itemOrClose, .null⟩
  | .value, .openObject, frames | .itemOrClose, .openObject, frames =>
    some ⟨.object [] none :: frames, .nameOrClose, .null⟩
  | .name, .text s, .object members _ :: frames
  | .nameOrClose, .text s, .object members _ :: frames =>
    some ⟨.object members s :: frames, .colon, .null⟩
  | .colon, .colon, frames => some ⟨frames, .value, .null⟩
  | .commaOrClose, .comma, .array items :: frames => some ⟨.array items :: frames, .value, .null⟩
  | .commaOrClose, .comma, .object members name :: frames =>
    some ⟨.object members name :: frames, .name, .null⟩
  | .commaOrClose, .closeArray, .array items :: frames
  | .itemOrClose, .closeArray, .array items :: frames =>
    some (deliver (close (.array items) frames.length) frames)
  | .commaOrClose, .closeObject, .object members name :: frames
  | .nameOrClose, .closeObject, .object members name :: frames =>
    some (deliver (close (.object members name) frames.length) frames)
  | _, _, _ => none

end Reading

end Json

/-- The document that a text is, with blanks around it at most. -/
def Document.ofString? (text : String) : Option Document := do
  let tokens ← Json.tokens? text.toList
  let reading ← tokens.foldlM Json.Reading.step? Json.Reading.start
  match reading.next with
  | .finished => some reading.result
  | _ => none

/-- The value that a text stands for. -/
def Json.ofString? (text : String) : Option Json := do (← Document.ofString? text).value?

end ControlPlane
