import ControlPlane.Text.Digits

/-! Addresses of both families as numbers below a power of two, so that range arithmetic is
arithmetic of natural numbers. -/

namespace ControlPlane.Ip

inductive Family
  | v4 | v6
  deriving DecidableEq

namespace Family

def bits : Family → Nat
  | v4 => 32
  | v6 => 128

/-- How many addresses the family has. -/
def size (family : Family) : Nat := Nat.pow 2 family.bits

def number : Family → Nat
  | v4 => 4
  | v6 => 6

def ofNumber? : Nat → Option Family
  | 4 => some v4
  | 6 => some v6
  | _ => none

protected def toString (family : Family) : String := "IPv" ++ Text.decimal family.number

instance : ToString Family := ⟨Family.toString⟩

end Family

structure Address where
  family : Family
  value : Nat
  value_lt : value < family.size
  deriving DecidableEq

namespace Address

instance : Inhabited Address := ⟨⟨.v4, 0, by decide⟩⟩

theorem ext {a b : Address} (hf : a.family = b.family) (hv : a.value = b.value) : a = b := by
  cases a; cases b; cases hf; cases hv; rfl

/-- The address of a family with a given number, if the number is not too large for it. -/
def ofValue? (family : Family) (value : Nat) : Option Address :=
  if h : value < family.size then some ⟨family, value, h⟩ else none

def next? (a : Address) : Option Address := ofValue? a.family (a.value + 1)

def previous? (a : Address) : Option Address :=
  if a.value = 0 then none else ofValue? a.family (a.value - 1)

/-- IPv4 before IPv6, then by number. -/
instance : Ord Address :=
  ⟨compareLex (compareOn fun a => a.family.number) (compareOn Address.value)⟩

theorem compare_def (a b : Address) :
    compare a b = (compare a.family.number b.family.number).then (compare a.value b.value) := rfl

instance : Std.TransOrd Address :=
  inferInstanceAs (Std.TransCmp
    (compareLex (compareOn fun a : Address => a.family.number) (compareOn Address.value)))

instance : Std.LawfulEqOrd Address where
  eq_of_compare {a b} h := by
    rw [compare_def, Ordering.then_eq_eq] at h
    have hf : a.family = b.family := by
      have := Std.LawfulEqOrd.eq_of_compare h.1
      revert this
      cases a.family <;> cases b.family <;> decide
    exact ext hf (Std.LawfulEqOrd.eq_of_compare h.2)

theorem ofValue?_value (a : Address) : ofValue? a.family a.value = some a := by
  simp [ofValue?, a.value_lt]

theorem ofValue?_eq_some {family : Family} {n : Nat} {a : Address} :
    ofValue? family n = some a ↔ a.family = family ∧ a.value = n := by
  unfold ofValue?
  constructor
  · intro h
    split at h
    · cases h; exact ⟨rfl, rfl⟩
    · cases h
  · rintro ⟨rfl, rfl⟩
    simp [a.value_lt]

theorem next?_eq_some {a b : Address} :
    a.next? = some b ↔ b.family = a.family ∧ b.value = a.value + 1 := ofValue?_eq_some

theorem previous?_eq_some {a b : Address} :
    a.previous? = some b ↔ b.family = a.family ∧ b.value + 1 = a.value := by
  unfold previous?
  split
  · simp only [reduceCtorEq, false_iff]
    rintro ⟨_, h⟩
    omega
  · rw [ofValue?_eq_some]
    refine and_congr_right fun _ => ?_
    omega

end Address

/-- A first and a last address. Rows of a store may hold any two. -/
structure Span where
  first : Address
  last : Address
  deriving DecidableEq, Inhabited

namespace Span

/-- Whether an address of the family of the first lies between the two. -/
def contains (s : Span) (a : Address) : Bool :=
  s.first.family = a.family && s.first.value ≤ a.value && a.value ≤ s.last.value

/-- The largest count that a span reports. -/
def maxSize : Nat := Family.v6.size - 1

/-- How many addresses the span holds: at least one, and at most what 128 bits can count. -/
def size (s : Span) : Nat := min (s.last.value - s.first.value + 1) maxSize

end Span

end ControlPlane.Ip
