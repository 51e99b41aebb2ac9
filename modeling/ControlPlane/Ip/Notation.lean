import ControlPlane.Ip.Address

/-! The text of addresses: dotted decimal, and groups of hexadecimal digits with the longest run
of zero groups left out. Reading allows every spelling, writing uses one. -/

namespace ControlPlane.Ip

/-- A numeral of at most `width` digits at the front of a text. -/
def numeral? (base width : Nat) (leadingZeros : Bool) (cs : List Char) : Option (Nat × List Char) :=
  let (ds, rest) := Text.spanDigits base cs
  if ds.length > width ∨ (!leadingZeros ∧ ds.length > 1 ∧ ds.head? = some '0') then none
  else (Text.ofDigits? base ds).map (·, rest)

def octet? (cs : List Char) : Option (Nat × List Char) :=
  match numeral? 10 3 false cs with
  | some (n, rest) => if n < 256 then some (n, rest) else none
  | none => none

def character? (c : Char) : List Char → Option (List Char)
  | d :: rest => if c = d then some rest else none
  | [] => none

/-- Four octets with points between, at the front of a text. -/
def dotted? (cs : List Char) : Option (Nat × List Char) := do
  let (a, cs) ← octet? cs
  let (b, cs) ← octet? (← character? '.' cs)
  let (c, cs) ← octet? (← character? '.' cs)
  let (d, cs) ← octet? (← character? '.' cs)
  return (((a * 256 + b) * 256 + c) * 256 + d, cs)

/-- Up to `slots` groups with colons between, each after the first with its colon. Two slots may
also be filled by four dotted octets, which end the groups. Gives the groups, whether they ended
with octets, and what follows. -/
def groups : (slots : Nat) → (first : Bool) → List Char → List Nat × Bool × List Char
  | 0, _, cs => ([], false, cs)
  | slots + 1, first, cs =>
    match (if first then some cs else character? ':' cs) with
    | none => ([], false, cs)
    | some body =>
      match (if slots = 0 then none else dotted? body) with
      | some (n, rest) => ([n / 65536, n % 65536], true, rest)
      | none =>
        match numeral? 16 4 true body with
        | none => ([], false, cs)
        | some (g, rest) =>
          let (gs, dotted, rest) := groups slots false rest
          (g :: gs, dotted, rest)

/-- Eight groups, or fewer around `::`. No dotted octets may stand before `::`. -/
def grouped? (cs : List Char) : Option (Nat × List Char) :=
  let number (gs : List Nat) : Nat := gs.foldl (· * 65536 + ·) 0
  let (head, dotted, rest) := groups 8 true cs
  if head.length = 8 then some (number head, rest)
  else if dotted then none
  else match rest with
    | ':' :: ':' :: rest =>
      let (tail, _, rest) := groups (7 - head.length) true rest
      some (number (head ++ List.replicate (8 - head.length - tail.length) 0 ++ tail), rest)
    | _ => none

namespace Address

def ofChars? (cs : List Char) : Option Address :=
  match dotted? cs with
  | some (n, []) => ofValue? .v4 n
  | some _ => none
  | none =>
    match grouped? cs with
    | some (n, []) => ofValue? .v6 n
    | _ => none

def ofString? (s : String) : Option Address := ofChars? s.toList

/-- Four octets with points between. -/
def dottedChars (n : Nat) : List Char :=
  let octet (k : Nat) := Text.digits 10 (n / Nat.pow 256 k % 256)
  octet 3 ++ '.' :: octet 2 ++ '.' :: octet 1 ++ '.' :: octet 0

/-- The eight groups of an address, most significant first. -/
def groupsOf (n : Nat) : List Nat := (List.range 8).map fun k => n / Nat.pow 65536 (7 - k) % 65536

/-- Start and length of the first longest run of zeros. -/
def longestZeros : (position : Nat) → (run best : Nat × Nat) → List Nat → Nat × Nat
  | _, _, best, [] => best
  | position, run, best, g :: gs =>
    let run := if g = 0 then (if run.2 = 0 then position else run.1, run.2 + 1) else (0, 0)
    longestZeros (position + 1) run (if run.2 > best.2 then run else best) gs

def joinGroups (gs : List Nat) : List Char :=
  List.intercalate [':'] (gs.map (Text.digits 16))

def groupedChars (n : Nat) : List Char :=
  let gs := groupsOf n
  let (start, length) := longestZeros 0 (0, 0) (0, 0) gs
  if length > 1 then joinGroups (gs.take start) ++ ':' :: ':' :: joinGroups (gs.drop (start + length))
  else joinGroups gs

/-- An address of the block for IPv4 in IPv6 ends in dotted octets; no other does. -/
def toChars (a : Address) : List Char :=
  match a.family with
  | .v4 => dottedChars a.value
  | .v6 =>
    if a.value / Nat.pow 2 32 = 0xFFFF then "::ffff:".toList ++ dottedChars (a.value % Nat.pow 2 32)
    else groupedChars a.value

protected def toString (a : Address) : String := String.ofList a.toChars

instance : ToString Address := ⟨Address.toString⟩

end Address

end ControlPlane.Ip
