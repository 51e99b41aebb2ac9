import ControlPlane.Proofs.Ip.Blocks
import ControlPlane.Proofs.Ip.Words
import ControlPlane.Proofs.Ranges.Placed

/-! The host range of a block against the bits of addresses. An address of a block repeats the bits that
the block fixes; in the network address no other bit is set, in the broadcast address all others are.
The bounds are also computed on words of 128 bits, and no step overflows. -/

namespace ControlPlane.Ip

namespace Cidr

variable {c : Cidr} {a : Address}

/-- How many bits the block leaves open. -/
def openBits (c : Cidr) : Nat := c.family.bits - c.length

def Fixes (c : Cidr) (a : Address) : Prop :=
  a.family = c.family ∧ ∀ i, c.openBits ≤ i → a.value.testBit i = c.address.value.testBit i

structure IsNetwork (c : Cidr) (a : Address) : Prop where
  fixes : c.Fixes a
  clear : ∀ i < c.openBits, a.value.testBit i = false

structure IsBroadcast (c : Cidr) (a : Address) : Prop where
  fixes : c.Fixes a
  set : ∀ i < c.openBits, a.value.testBit i = true

theorem blockSize_eq (c : Cidr) : c.blockSize = 2 ^ c.openBits := rfl

theorem contains_iff_fixes : c.contains a = true ↔ c.Fixes a := by
  rw [contains_iff, Fixes, blockSize_eq]
  refine and_congr_right fun _ => ⟨fun h i hi => ?_, fun h => Nat.eq_of_testBit_eq fun i => ?_⟩
  · have hbit := congrArg (fun n => n.testBit (i - c.openBits)) h
    simpa only [Nat.testBit_div_two_pow, Nat.sub_add_cancel hi] using hbit
  · simpa only [Nat.testBit_div_two_pow] using h _ (Nat.le_add_left _ _)

theorem contains_iff_values : c.contains a = true ↔
    a.family = c.family ∧ c.networkValue ≤ a.value ∧ a.value ≤ c.lastValue := by
  constructor
  · intro h
    obtain ⟨hf, hdiv⟩ := contains_iff.1 h
    have hmod := Nat.div_add_mod a.value c.blockSize
    have hlt := Nat.mod_lt a.value c.blockSize_pos
    rw [hdiv, Nat.mul_comm] at hmod
    refine ⟨hf, ?_, ?_⟩
    · unfold networkValue
      omega
    · unfold lastValue networkValue
      omega
  · rintro ⟨hf, hfirst, hlast⟩
    exact contains_of_values hf hfirst hlast

/-- The fixed bits of the network address end where those of the mask begin. -/
theorem lastValue_eq_or (c : Cidr) : c.lastValue = c.networkValue ||| (2 ^ c.openBits - 1) := by
  have hpos : 0 < 2 ^ c.openBits := Nat.two_pow_pos _
  rw [lastValue, networkValue, blockSize_eq, Nat.mul_comm, ← Nat.two_pow_add_eq_or_of_lt (by omega)]

theorem testBit_networkValue (c : Cidr) (i : Nat) : c.networkValue.testBit i =
    (decide (c.openBits ≤ i) && c.address.value.testBit i) := by
  rw [networkValue, blockSize_eq, Nat.testBit_mul_two_pow, Nat.testBit_div_two_pow]
  by_cases h : c.openBits ≤ i
  · rw [Nat.sub_add_cancel h]
  · simp [h]

theorem testBit_lastValue (c : Cidr) (i : Nat) : c.lastValue.testBit i =
    (decide (i < c.openBits) || c.address.value.testBit i) := by
  rw [lastValue_eq_or, Nat.testBit_or, testBit_networkValue, Nat.testBit_two_pow_sub_one]
  by_cases h : i < c.openBits
  · simp [h]
  · simp [h, Nat.le_of_not_lt h]

theorem isNetwork_iff : c.IsNetwork a ↔ a = c.network := by
  constructor
  · rintro ⟨⟨hf, hfix⟩, hclear⟩
    refine Address.ext hf (Nat.eq_of_testBit_eq fun i => ?_)
    rw [network, testBit_networkValue]
    by_cases h : c.openBits ≤ i
    · simp [hfix i h, h]
    · simp [hclear i (Nat.lt_of_not_le h), h]
  · rintro rfl
    refine ⟨⟨rfl, fun i hi => ?_⟩, fun i hi => ?_⟩
    · simp [network, testBit_networkValue, hi]
    · simp [network, testBit_networkValue, Nat.not_le.2 hi]

theorem isBroadcast_iff : c.IsBroadcast a ↔ a = c.last := by
  constructor
  · rintro ⟨⟨hf, hfix⟩, hset⟩
    refine Address.ext hf (Nat.eq_of_testBit_eq fun i => ?_)
    rw [last, testBit_lastValue]
    by_cases h : i < c.openBits
    · simp [hset i h, h]
    · simp [hfix i (Nat.le_of_not_lt h), h]
  · rintro rfl
    refine ⟨⟨rfl, fun i hi => ?_⟩, fun i hi => ?_⟩
    · simp [last, testBit_lastValue, Nat.not_lt.2 hi]
    · simp [last, testBit_lastValue, hi]

end Cidr

section Words

open Word

/-- The last address of a block: its network address with all open bits set. -/
def lastOnWords (c : Cidr) : Except Overflow (BitVec 128) := do
  let openBits ← minus (BitVec.ofNat 32 c.family.bits) (BitVec.ofNat 32 c.length)
  if 128 ≤ openBits.toNat then return BitVec.allOnes 128
  let above ← shift (BitVec.ofNat 128 1) openBits.toNat
  let mask ← minus above (BitVec.ofNat 128 1)
  return BitVec.ofNat 128 c.networkValue ||| mask

/-- Where there is no word after the network address, or none before the broadcast address, there is
no host address either: the result of these two steps is asked for, all others must not overflow. -/
def hostBoundsOnWords (c : Cidr) : Except Overflow (Option Span) := do
  let last ← lastOnWords c
  return do
    let low ← (plus (BitVec.ofNat 128 c.networkValue) (BitVec.ofNat 128 1)).toOption
    let high ← match c.family with
      | .v4 => (minus last (BitVec.ofNat 128 1)).toOption
      | .v6 => some last
    if high < low then none else spanOfWords? c.family low high

theorem lastOnWords_eq (c : Cidr) : lastOnWords c = .ok (BitVec.ofNat 128 c.lastValue) := by
  have hbits := c.family.bits_le
  have hlength : c.length ≤ c.family.bits := c.length_le
  have hopen : c.family.bits - c.length = c.openBits := rfl
  have hminus : minus (BitVec.ofNat 32 c.family.bits) (BitVec.ofNat 32 c.length) =
      .ok (BitVec.ofNat 32 (c.family.bits - c.length)) := minus_ofNat (by omega) hlength
  have hcount : (BitVec.ofNat 32 c.openBits).toNat = c.openBits := toNat_ofNat (by omega)
  have hlast := c.lastValue_lt
  have hsize := c.family.size_le
  unfold lastOnWords
  rw [hminus, hopen]
  simp only [bind, Except.bind, hcount, pure, Except.pure]
  by_cases hwide : 128 ≤ c.openBits
  · have hblock : c.blockSize = 2 ^ 128 := by rw [c.blockSize_eq, show c.openBits = 128 by omega]
    have hvalue : c.lastValue = 2 ^ 128 - 1 := by
      unfold Cidr.lastValue at hlast ⊢
      omega
    rw [if_pos hwide, hvalue]
    rfl
  · have hpow : 2 ^ c.openBits < 2 ^ 128 := Nat.pow_lt_pow_right (by omega) (by omega)
    rw [if_neg hwide, shift_one (by omega)]
    simp only [minus_ofNat hpow (Nat.two_pow_pos _)]
    rw [← BitVec.ofNat_or, ← Cidr.lastValue_eq_or]

theorem hostBoundsOnWords_eq (c : Cidr) : hostBoundsOnWords c = .ok (hostBounds c) := by
  have hlast := c.lastValue_lt
  have hsize := c.family.size_le
  have hle : c.networkValue ≤ c.lastValue := Nat.le_add_right _ _
  have hone : 1 < 2 ^ 128 := by decide
  unfold hostBoundsOnWords hostBounds
  rw [lastOnWords_eq]
  simp only [bind, Except.bind, pure, Except.pure, spanOfWords?]
  congr 1
  by_cases htop : c.networkValue + 1 < 2 ^ 128
  · rw [plus_ofNat htop]
    cases c.family with
    | v4 =>
      by_cases hzero : c.lastValue = 0
      · rw [hzero, minus_overflow hone (by omega)]
        simp [Except.toOption]
      · rw [minus_ofNat (by omega) (by omega)]
        simp only [Except.toOption, Option.bind_some, BitVec.lt_def, toNat_ofNat htop,
          toNat_ofNat (show c.lastValue - 1 < 2 ^ 128 by omega), ← Nat.not_le, ite_not]
    | v6 =>
      simp only [Except.toOption, Option.bind_some, BitVec.lt_def, toNat_ofNat htop,
        toNat_ofNat (show c.lastValue < 2 ^ 128 by omega), ← Nat.not_le, ite_not]
  · rw [plus_overflow (by omega) hone (by omega), if_neg]
    · rfl
    · split <;> omega

end Words

variable {c : Cidr} {a : Address} {host : Span}

/-- The last host address, as a number, if there is any. -/
def lastHost (c : Cidr) : Nat :=
  match c.family with
  | .v4 => c.lastValue - 1
  | .v6 => c.lastValue

theorem hostBounds_def (c : Cidr) : hostBounds c =
    if c.networkValue + 1 ≤ lastHost c then do
      return ⟨← Address.ofValue? c.family (c.networkValue + 1),
        ← Address.ofValue? c.family (lastHost c)⟩
    else none := rfl

theorem hostBounds_eq_some : hostBounds c = some host ↔
    (host.first.family = c.family ∧ host.first.value = c.networkValue + 1) ∧
      (host.last.family = c.family ∧ host.last.value = lastHost c) ∧
      host.first.value ≤ host.last.value := by
  rw [hostBounds_def]
  by_cases hle : c.networkValue + 1 ≤ lastHost c
  · rw [if_pos hle, span_of_values_eq_some]
    constructor
    · rintro ⟨hfirst, hlast⟩
      exact ⟨hfirst, hlast, by omega⟩
    · rintro ⟨hfirst, hlast, _⟩
      exact ⟨hfirst, hlast⟩
  · rw [if_neg hle]
    constructor
    · intro h
      cases h
    · rintro ⟨hfirst, hlast, hle⟩
      omega

theorem isHostAddress_iff_values : isHostAddress c a = true ↔
    a.family = c.family ∧ c.networkValue < a.value ∧ a.value ≤ lastHost c := by
  have hlast := c.lastValue_lt
  have hle : lastHost c ≤ c.lastValue := by
    unfold lastHost
    split <;> omega
  rw [isHostAddress_iff]
  constructor
  · rintro ⟨host, hhost, ha⟩
    obtain ⟨⟨hff, hfv⟩, ⟨_, hlv⟩, _⟩ := hostBounds_eq_some.1 hhost
    obtain ⟨haf, hlo, hhi⟩ := Span.contains_iff.1 ha
    exact ⟨haf.trans hff, by omega, by omega⟩
  · rintro ⟨haf, hlo, hhi⟩
    let first : Address := ⟨c.family, c.networkValue + 1, by omega⟩
    let last : Address := ⟨c.family, lastHost c, by omega⟩
    have hordered : first.value ≤ last.value := by
      simp only [first, last]
      omega
    exact ⟨⟨first, last⟩, hostBounds_eq_some.2 ⟨⟨rfl, rfl⟩, ⟨rfl, rfl⟩, hordered⟩,
      Span.contains_iff.2 ⟨haf, hlo, hhi⟩⟩

theorem isHostAddress_iff_fixes : isHostAddress c a = true ↔
    c.Fixes a ∧ ¬ c.IsNetwork a ∧ (c.family = .v4 → ¬ c.IsBroadcast a) := by
  rw [isHostAddress_iff_values, ← Cidr.contains_iff_fixes, Cidr.contains_iff_values, Cidr.isNetwork_iff,
    Cidr.isBroadcast_iff]
  have hle : c.networkValue ≤ c.lastValue := Nat.le_add_right _ _
  constructor
  · rintro ⟨hf, hlo, hhi⟩
    refine ⟨⟨hf, by omega, ?_⟩, ?_, ?_⟩
    · unfold lastHost at hhi
      split at hhi <;> omega
    · rintro rfl
      exact Nat.lt_irrefl _ hlo
    · rintro h4 rfl
      simp only [lastHost, h4, Cidr.last] at hlo hhi
      omega
  · rintro ⟨⟨hf, hlo, hhi⟩, hnet, hbroad⟩
    have hne : a.value ≠ c.networkValue := fun h => hnet (Address.ext hf h)
    refine ⟨hf, by omega, ?_⟩
    unfold lastHost
    split
    · rename_i h4
      have hne' : a.value ≠ c.lastValue := fun h => hbroad h4 (Address.ext hf h)
      omega
    · exact hhi

/-- The first and the last of the addresses with a property. -/
structure Span.Bounds (span : Span) (p : Address → Prop) : Prop where
  first : p span.first
  last : p span.last
  between : ∀ a, p a → span.first.value ≤ a.value ∧ a.value ≤ span.last.value

theorem Span.Bounds.eq {s t : Span} {p : Address → Prop} (hs : s.Bounds p) (ht : t.Bounds p)
    (hp : ∀ a b, p a → p b → a.family = b.family) : s = t := by
  have hfirst := Nat.le_antisymm (hs.between _ ht.first).1 (ht.between _ hs.first).1
  have hlast := Nat.le_antisymm (ht.between _ hs.last).2 (hs.between _ ht.last).2
  exact Span.ext (Address.ext (hp _ _ hs.first ht.first) hfirst)
    (Address.ext (hp _ _ hs.last ht.last) hlast)

theorem hostBounds_bounds (h : hostBounds c = some host) :
    host.Bounds fun a => isHostAddress c a = true := by
  have hp := (hostBounds_proper h).1
  refine ⟨isHostAddress_iff.2 ⟨host, h, hp.contains_first⟩,
    isHostAddress_iff.2 ⟨host, h, hp.contains_last⟩, fun a ha => ?_⟩
  obtain ⟨other, hother, hc⟩ := isHostAddress_iff.1 ha
  obtain rfl := Option.some.inj (h.symm.trans hother)
  exact (Span.contains_iff.1 hc).2

/-- A host may have what repeats the fixed bits of a block but for the network address and, in IPv4,
the broadcast address. The host bounds are the first and the last of it, and words of 128 bits are wide
enough to compute them. -/
theorem hostBounds_exact (c : Cidr) :
    (∀ a, isHostAddress c a = true ↔
      c.Fixes a ∧ ¬ c.IsNetwork a ∧ (c.family = .v4 → ¬ c.IsBroadcast a)) ∧
    (hostBounds c = none ↔ ∀ a, isHostAddress c a = false) ∧
    (∀ host, hostBounds c = some host ↔ host.Bounds fun a => isHostAddress c a = true) ∧
    hostBoundsOnWords c = .ok (hostBounds c) := by
  have hfamily : ∀ a b, isHostAddress c a = true → isHostAddress c b = true → a.family = b.family :=
    fun a b ha hb => (isHostAddress_iff_values.1 ha).1.trans (isHostAddress_iff_values.1 hb).1.symm
  refine ⟨fun a => isHostAddress_iff_fixes, ⟨fun h a => ?_, fun h => ?_⟩,
    fun host => ⟨hostBounds_bounds, fun h => ?_⟩, hostBoundsOnWords_eq c⟩
  · rw [Bool.eq_false_iff, ne_eq, isHostAddress_iff, h]
    simp
  · cases hhost : hostBounds c with
    | none => rfl
    | some host =>
      have hfirst := (hostBounds_bounds hhost).first
      rw [h] at hfirst
      cases hfirst
  · obtain ⟨other, hother, _⟩ := isHostAddress_iff.1 h.first
    rw [hother, (hostBounds_bounds hother).eq h hfamily]

end ControlPlane.Ip
