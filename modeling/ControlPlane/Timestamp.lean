import ControlPlane.Text.Blank
import ControlPlane.Text.Digits

/-! Points in time, read from calendar notation with a time zone and written in UTC. -/

namespace ControlPlane

/-- Seconds since the start of 1970 in UTC, without leap seconds, and nanoseconds. A leap second
is the second before it with a thousand million nanoseconds or more. -/
structure Timestamp where
  seconds : Int
  nanos : Nat
  deriving DecidableEq, Inhabited

namespace Timestamp

def isLeapYear (year : Int) : Bool := year % 4 = 0 && (year % 100 ≠ 0 || year % 400 = 0)

def daysInMonth (year : Int) (month : Nat) : Nat :=
  if month = 2 then (if isLeapYear year then 29 else 28)
  else if month = 4 ∨ month = 6 ∨ month = 9 ∨ month = 11 then 30
  else 31

/-- Days from the start of 1970 to a date, by counting years from March. -/
def daysOfDate (year : Int) (month day : Nat) : Int :=
  let y := if month ≤ 2 then year - 1 else year
  let era := y / 400
  let yearOfEra := y % 400
  let monthFromMarch : Int := (month + 9) % 12
  let dayOfYear := (153 * monthFromMarch + 2) / 5 + day - 1
  era * 146097 + (yearOfEra * 365 + yearOfEra / 4 - yearOfEra / 100 + dayOfYear) - 719468

def dateOfDays (days : Int) : Int × Nat × Nat :=
  let z := days + 719468
  let era := z / 146097
  let dayOfEra := z % 146097
  let yearOfEra := (dayOfEra - dayOfEra / 1460 + dayOfEra / 36524 - dayOfEra / 146096) / 365
  let dayOfYear := dayOfEra - (365 * yearOfEra + yearOfEra / 4 - yearOfEra / 100)
  let monthFromMarch := (5 * dayOfYear + 2) / 153
  let day := dayOfYear - (153 * monthFromMarch + 2) / 5 + 1
  let month := if monthFromMarch < 10 then monthFromMarch + 3 else monthFromMarch - 9
  (yearOfEra + era * 400 + (if month ≤ 2 then 1 else 0), month.toNat, day.toNat)

/-- A numeral of one to `width` digits at the front; digits beyond stay. -/
def numeral? (width : Nat) (cs : List Char) : Option (Nat × List Char) :=
  let ds := (Text.spanDigits 10 cs).1.take width
  (Text.ofDigits? 10 ds).map (·, cs.drop ds.length)

/-- A year has up to four digits, or a sign and any number of them. -/
def year? (cs : List Char) : Option (Int × List Char) :=
  let signed (rest : List Char) : Option (Nat × List Char) :=
    let (ds, rest) := Text.spanDigits 10 rest
    (Text.ofDigits? 10 ds).map (·, rest)
  match cs with
  | '-' :: rest => (signed rest).map fun (n, rest) => (-(n : Int), rest)
  | '+' :: rest => (signed rest).map fun (n, rest) => ((n : Int), rest)
  | _ => (numeral? 4 cs).map fun (n, rest) => ((n : Int), rest)

/-- A numeral of one or two digits within bounds, after any blanks. -/
def part? (low high : Nat) (cs : List Char) : Option (Nat × List Char) := do
  let (n, rest) ← numeral? 2 (Text.trimLeft cs)
  if low ≤ n ∧ n ≤ high then some (n, rest) else none

def mark? (c : Char) (cs : List Char) : Option (List Char) :=
  match Text.trimLeft cs with
  | d :: rest => if c = d then some rest else none
  | [] => none

/-- Nine digits of a fraction count; digits beyond are passed over. -/
def fraction? (cs : List Char) : Option (Nat × List Char) :=
  match cs with
  | '.' :: rest =>
    let (all, rest) := Text.spanDigits 10 rest
    let ds := all.take 9
    (Text.ofDigits? 10 ds).map fun n => (n * Nat.pow 10 (9 - ds.length), rest)
  | _ => some (0, cs)

/-- The offset from UTC in seconds: `Z`, `UTC` in any case, or a sign, two digits of hours and two
of minutes with colons or blanks between. -/
def offset? (cs : List Char) : Option (Int × List Char) :=
  if (cs.take 3).map Char.toLower = ['u', 't', 'c'] then some (0, cs.drop 3)
  else match cs with
    | 'Z' :: rest | 'z' :: rest => some (0, rest)
    | sign :: h₁ :: h₂ :: rest => do
      let factor : Int ←
        if sign = '+' then some 1 else if sign = '-' ∨ sign = '\u2212' then some (-1) else none
      let hours ← Text.ofDigits? 10 [h₁, h₂]
      match rest.dropWhile fun c => c = ':' || Text.isBlank c with
      | m₁ :: m₂ :: rest => do
        let minutes ← Text.ofDigits? 10 [m₁, m₂]
        if minutes < 60 ∧ hours < 24 then some (factor * (hours * 3600 + minutes * 60 : Nat), rest)
        else none
      | _ => none
    | _ => none

def minYear : Int := -262143
def maxYear : Int := 262142

/-- Reads date, `T` or a blank, time and time zone. Blanks may surround the parts. -/
def ofChars? (cs : List Char) : Option Timestamp := do
  let (year, cs) ← year? (Text.trimLeft cs)
  let (month, cs) ← part? 1 12 (← mark? '-' cs)
  let (day, cs) ← part? 1 31 (← mark? '-' cs)
  let cs ← match cs with
    | 't' :: rest | 'T' :: rest | ' ' :: rest => some rest
    | _ => none
  let (hour, cs) ← part? 0 23 cs
  let (minute, cs) ← part? 0 59 (← mark? ':' cs)
  let (second, cs) ← part? 0 60 (← mark? ':' cs)
  let (nanos, cs) ← fraction? cs
  let (offset, cs) ← offset? (Text.trimLeft cs)
  if ¬ (Text.trimLeft cs).isEmpty then none
  else if year < minYear ∨ maxYear < year ∨ daysInMonth year month < day then none
  else
    let leap := second = 60
    let clock : Nat := hour * 3600 + minute * 60 + (if leap then 59 else second)
    let seconds := daysOfDate year month day * 86400 + clock - offset
    let (utcYear, _, _) := dateOfDays (seconds / 86400)
    if utcYear < minYear ∨ maxYear < utcYear then none
    else some ⟨seconds, if leap then nanos + 1000000000 else nanos⟩

def ofString? (s : String) : Option Timestamp := ofChars? s.toList

/-- Years of four digits stand alone; others have a sign and at least four digits. -/
def yearChars (year : Int) : List Char :=
  if 0 ≤ year ∧ year ≤ 9999 then Text.fixedDigits 10 4 year.toNat
  else
    let ds := Text.digits 10 year.natAbs
    (if year < 0 then '-' else '+') :: List.replicate (4 - ds.length) '0' ++ ds

/-- Nothing, or a point and three, six or nine digits. -/
def fractionChars (nanos : Nat) : List Char :=
  if nanos = 0 then []
  else if nanos % 1000000 = 0 then '.' :: Text.fixedDigits 10 3 (nanos / 1000000)
  else if nanos % 1000 = 0 then '.' :: Text.fixedDigits 10 6 (nanos / 1000)
  else '.' :: Text.fixedDigits 10 9 nanos

def toChars (t : Timestamp) : List Char :=
  let (year, month, day) := dateOfDays (t.seconds / 86400)
  let clock := (t.seconds % 86400).toNat
  let leap := 1000000000 ≤ t.nanos
  let two := Text.fixedDigits 10 2
  yearChars year ++ '-' :: two month ++ '-' :: two day ++ 'T' :: two (clock / 3600) ++
    ':' :: two (clock / 60 % 60) ++ ':' :: two (clock % 60 + if leap then 1 else 0) ++
    fractionChars (if leap then t.nanos - 1000000000 else t.nanos) ++ ['Z']

protected def toString (t : Timestamp) : String := String.ofList t.toChars

instance : ToString Timestamp := ⟨Timestamp.toString⟩

end Timestamp

end ControlPlane
