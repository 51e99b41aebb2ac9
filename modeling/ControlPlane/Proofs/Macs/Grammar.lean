import ControlPlane.Proofs.Macs

/-! Which texts are read as hardware addresses. All that are in the common notation, six pairs of
hexadecimal digits with single colons between, are the addresses that they write. So is nothing
else but texts that have, in place of a pair, a plus sign and one digit. -/

namespace ControlPlane

namespace Text

variable {c : Char} {n : Nat}

/-- A hexadecimal digit, in either case, and its value. -/
def HexDigit (c : Char) (n : Nat) : Prop := n < 16 ∧ (c = n.digitChar ∨ c = n.digitChar.toUpper)

instance (c : Char) (n : Nat) : Decidable (HexDigit c n) := inferInstanceAs (Decidable (_ ∧ _))

theorem digit?_bounds {base : Nat} (h : digit? base c = some n) : n < base ∧ c.toNat < 103 := by
  unfold digit? at h
  extract_lets value at h
  obtain ⟨hlt, hvalue⟩ := Option.ite_none_right_eq_some.1 h
  refine ⟨Option.some.inj hvalue ▸ hlt, ?_⟩
  have hrange {a b : Char} (hab : a ≤ c ∧ c ≤ b) : c.toNat ≤ b.toNat := hab.2
  by_cases hdecimal : '0' ≤ c ∧ c ≤ '9'
  · exact Nat.lt_of_le_of_lt (hrange hdecimal) (by decide)
  by_cases hsmall : 'a' ≤ c ∧ c ≤ 'f'
  · exact Nat.lt_of_le_of_lt (hrange hsmall) (by decide)
  by_cases hcapital : 'A' ≤ c ∧ c ≤ 'F'
  · exact Nat.lt_of_le_of_lt (hrange hcapital) (by decide)
  simp [value, hdecimal, hsmall, hcapital] at hlt

theorem digit?_eq_some_iff : digit? 16 c = some n ↔ HexDigit c n := by
  constructor
  · intro h
    have hall : ∀ k < 103, ∀ n < 16, digit? 16 (Char.ofNat k) = some n →
        HexDigit (Char.ofNat k) n := by decide +kernel
    obtain ⟨hn, hc⟩ := digit?_bounds h
    simpa using hall c.toNat hc n hn (by simpa using h)
  · rintro ⟨hn, h⟩
    have hall : ∀ n < 16, digit? 16 n.digitChar = some n ∧
        digit? 16 n.digitChar.toUpper = some n := by decide +kernel
    rcases h with rfl | rfl
    · exact (hall n hn).1
    · exact (hall n hn).2

/-- A digit is a character of one byte. -/
theorem HexDigit.utf8Size_eq (h : HexDigit c n) : c.utf8Size = 1 := by
  obtain ⟨-, hc⟩ := digit?_bounds (digit?_eq_some_iff.2 h)
  have hle : c.toNat ≤ 127 := Nat.le_trans (Nat.le_of_lt hc) (by decide)
  exact Char.utf8Size_eq_one_iff.2 (UInt32.le_iff_toNat_le.2 hle)

theorem unsigned?_single (hc : c ≠ '+') : unsigned? 16 [c] = digit? 16 c := by
  unfold unsigned?
  split
  · rename_i heq
    cases heq
    exact absurd rfl hc
  · simp [ofDigits?]

theorem unsigned?_plus (b : Char) : unsigned? 16 ['+', b] = digit? 16 b := by
  simp [unsigned?, ofDigits?]

theorem unsigned?_pair {a b : Char} (ha : a ≠ '+') : unsigned? 16 [a, b] = some n ↔
    ∃ high low, digit? 16 a = some high ∧ digit? 16 b = some low ∧ 16 * high + low = n := by
  unfold unsigned?
  split
  · rename_i heq
    cases heq
    exact absurd rfl ha
  · simp [ofDigits?, Option.bind_eq_some_iff, Nat.mul_comm]

/-- What takes two bytes is one character or two. -/
theorem byteLength_eq_two {cs : List Char} (h : byteLength cs = 2) :
    (∃ c, cs = [c] ∧ c.utf8Size = 2) ∨ ∃ a b, cs = [a, b] := by
  match cs with
  | [] => cases h
  | [c] => exact .inl ⟨c, rfl, h⟩
  | [a, b] => exact .inr ⟨a, b, rfl⟩
  | a :: b :: c :: _ =>
    have ha := a.utf8Size_pos
    have hb := b.utf8Size_pos
    have hc := c.utf8Size_pos
    simp only [byteLength] at h
    omega

theorem HexDigit.ne {a : Char} (h : HexDigit c n) (ha : digit? 16 a = none) : c ≠ a := by
  rintro rfl
  rw [digit?_eq_some_iff.2 h] at ha
  cases ha

end Text

namespace Mac

open Text

/-- Two hexadecimal digits and the octet that they make. -/
def Pair (group : List Char) (octet : UInt8) : Prop :=
  ∃ a b m n, group = [a, b] ∧ HexDigit a m ∧ HexDigit b n ∧ octet.toNat = 16 * m + n

/-- A plus sign and one hexadecimal digit. -/
def Signed (group : List Char) (octet : UInt8) : Prop :=
  ∃ b, group = ['+', b] ∧ HexDigit b octet.toNat

/-- A text of six groups, one for each octet, with single colons between. -/
def Grouped (spells : List Char → UInt8 → Prop) (s : String) (mac : Mac) : Prop :=
  ∃ groups, s.toList = List.intercalate [':'] groups ∧ List.Forall₂ spells groups mac.octets

/-- The common notation. -/
def Written : String → Mac → Prop := Grouped Pair

variable {group : List Char} {octet : UInt8} {octets : List UInt8} {s : String} {mac : Mac}

theorem ofNat_eq_iff {m : Nat} (h : m < 256) : UInt8.ofNat m = octet ↔ octet.toNat = m := by
  constructor
  · rintro rfl
    exact Nat.mod_eq_of_lt h
  · rintro rfl
    exact UInt8.ofNat_toNat

/-- What is read as an octet is of two bytes and as a number. -/
theorem octet?_eq_some : octet? group = some octet ↔
    byteLength group = 2 ∧ unsigned? 16 group = some octet.toNat := by
  rw [octet?, Option.ite_none_left_eq_some, not_not]
  refine and_congr_right fun _ => ?_
  simp only [Option.map_eq_some_iff, Option.filter_eq_some_iff, decide_eq_true_eq]
  constructor
  · rintro ⟨n, ⟨hn, hbound⟩, ho⟩
    rw [hn, (ofNat_eq_iff hbound).1 ho]
  · exact fun hn => ⟨octet.toNat, ⟨hn, octet.toNat_lt⟩, UInt8.ofNat_toNat⟩

/-- A group is read if it is a pair of digits, or a plus sign and one digit. -/
theorem octet?_eq_some_iff : octet? group = some octet ↔ Pair group octet ∨ Signed group octet := by
  rw [octet?_eq_some]
  constructor
  · rintro ⟨hlength, hread⟩
    rcases byteLength_eq_two hlength with ⟨c, rfl, hsize⟩ | ⟨a, b, rfl⟩
    · -- Neither the plus sign nor a digit takes two bytes.
      have hplus : c ≠ '+' := by
        rintro rfl
        cases hsize
      rw [unsigned?_single hplus] at hread
      have hone := (digit?_eq_some_iff.1 hread).utf8Size_eq
      cases hone.symm.trans hsize
    · by_cases ha : a = '+'
      · subst ha
        rw [unsigned?_plus] at hread
        exact .inr ⟨b, rfl, digit?_eq_some_iff.1 hread⟩
      · obtain ⟨m, n, hm, hn, ho⟩ := (unsigned?_pair ha).1 hread
        exact .inl ⟨a, b, m, n, rfl, digit?_eq_some_iff.1 hm, digit?_eq_some_iff.1 hn, ho.symm⟩
  · have htwo {a b : Char} (ha : a.utf8Size = 1) (hb : b.utf8Size = 1) : byteLength [a, b] = 2 := by
      simp [byteLength, ha, hb]
    rintro (⟨a, b, m, n, rfl, hm, hn, ho⟩ | ⟨b, rfl, hb⟩)
    · have hplus : a ≠ '+' := hm.ne (by decide)
      exact ⟨htwo hm.utf8Size_eq hn.utf8Size_eq, (unsigned?_pair hplus).2
        ⟨m, n, digit?_eq_some_iff.2 hm, digit?_eq_some_iff.2 hn, ho.symm⟩⟩
    · refine ⟨htwo (by decide) hb.utf8Size_eq, ?_⟩
      rw [unsigned?_plus]
      exact digit?_eq_some_iff.2 hb

theorem ofOctets?_eq_some_iff : ofOctets? octets = some mac ↔ octets = mac.octets := by
  unfold ofOctets?
  constructor
  · intro h
    split at h
    · cases h
      rfl
    · cases h
  · rintro rfl
    exact dif_pos mac.length_eq

theorem Pair.not_mem {c : Char} (h : Pair group octet) (hc : digit? 16 c = none) : c ∉ group := by
  obtain ⟨a, b, m, n, rfl, ha, hb, -⟩ := h
  simp [(ha.ne hc).symm, (hb.ne hc).symm]

theorem colon_not_mem_group (h : Pair group octet ∨ Signed group octet) : ':' ∉ group := by
  rcases h with hpair | ⟨b, rfl, hb⟩
  · exact hpair.not_mem (by decide)
  · have hne : b ≠ ':' := hb.ne (by decide)
    simp [hne.symm]

/-- What holds of each group that spells an octet holds of all groups of a text. -/
theorem forall_group {spells : List Char → UInt8 → Prop} {P : List Char → Prop}
    {groups : List (List Char)} (hall : List.Forall₂ spells groups octets)
    (h : ∀ group octet, spells group octet → P group) : ∀ group ∈ groups, P group :=
  ((List.forall₂_and_left groups octets).1 (hall.imp fun _ _ hs => ⟨h _ _ hs, hs⟩)).1

theorem ofString?_eq_some_iff : ofString? s = some mac ↔
    Grouped (fun group octet => Pair group octet ∨ Signed group octet) s mac := by
  have hread : ofString? s = some mac ↔ (pieces ':' s.toList).mapM octet? = some mac.octets := by
    rw [ofString?, ofChars?, Option.bind_eq_bind, Option.bind_eq_some_iff]
    simp only [ofOctets?_eq_some_iff, exists_eq_right]
  simp only [hread, mapM_eq_some_iff, octet?_eq_some_iff]
  constructor
  · exact fun h => ⟨_, intercalate_pieces.symm, h⟩
  · rintro ⟨groups, hjoin, hall⟩
    have hne : groups ≠ [] := by
      rintro rfl
      exact mac.octets_ne_nil (List.forall₂_nil_left_iff.1 hall)
    have hcolon := forall_group hall fun _ _ => colon_not_mem_group
    rwa [hjoin, pieces_intercalate hne hcolon]

/-- The texts in common notation are those that are read and have no plus sign. -/
theorem written_iff : Written s mac ↔ ofString? s = some mac ∧ '+' ∉ s.toList := by
  rw [ofString?_eq_some_iff]
  constructor
  · rintro ⟨groups, hjoin, hall⟩
    refine ⟨⟨groups, hjoin, hall.imp fun _ _ => .inl⟩, ?_⟩
    rw [hjoin, mem_intercalate (by decide)]
    rintro ⟨group, hg, hplus⟩
    have hnone : ∀ group ∈ groups, '+' ∉ group :=
      forall_group hall fun _ _ h => h.not_mem (by decide)
    exact hnone group hg hplus
  · rintro ⟨⟨groups, hjoin, hall⟩, hplus⟩
    rw [hjoin, mem_intercalate (by decide)] at hplus
    have hnone : ∀ group ∈ groups, '+' ∉ group := fun group hg hc => hplus ⟨group, hg, hc⟩
    refine ⟨groups, hjoin, ((List.forall₂_and_left _ _).2 ⟨hnone, hall⟩).imp ?_⟩
    rintro group octet ⟨hnot, hpair | ⟨b, rfl, -⟩⟩
    · exact hpair
    · exact absurd List.mem_cons_self hnot

theorem normalize_of_none (h : ofString? s = none) :
    normalize s = .error (.invalidInput ("Invalid MAC address: " ++ s)) := by
  rw [normalize, h]

end Mac

namespace Config

variable {config accepted : Config}

theorem base_of_none (h : Mac.ofString? config.baseMac = none) :
    config.base = .error (.configuration ("Invalid base MAC: " ++ config.baseMac)) := by
  rw [base, h]
  rfl

theorem validated_eq_ok_iff : config.validated = .ok accepted ↔
    config.faults = [] ∧ (∃ base, config.base = .ok base) ∧ accepted = config := by
  unfold validated
  rw [Error.bind_eq_ok_iff]
  constructor
  · rintro ⟨_, hfaults, h⟩
    obtain ⟨base, hbase, h⟩ := Error.bind_eq_ok_iff.1 h
    exact ⟨Error.ofFaults_eq_ok_iff.1 hfaults, ⟨base, hbase⟩, (Except.ok.inj h).symm⟩
  · rintro ⟨hfaults, ⟨base, hbase⟩, rfl⟩
    exact ⟨(), Error.ofFaults_eq_ok_iff.2 hfaults, Error.bind_eq_ok_iff.2 ⟨base, hbase, rfl⟩⟩

end Config

namespace Mac

/-- What is read as an address. Neither a port nor a configuration takes any other text. -/
theorem read_iff_grouped (s : String) :
    (∀ mac, Written s mac ↔ ofString? s = some mac ∧ '+' ∉ s.toList) ∧
    (∀ mac, ofString? s = some mac ↔
      Grouped (fun group octet => Pair group octet ∨ Signed group octet) s mac) ∧
    (ofString? s = none →
      normalize s = .error (.invalidInput ("Invalid MAC address: " ++ s)) ∧
      ∀ config : Config, config.baseMac = s →
        config.base = .error (.configuration ("Invalid base MAC: " ++ s)) ∧
        ∀ accepted, config.validated ≠ .ok accepted) := by
  refine ⟨fun _ => written_iff, fun _ => ofString?_eq_some_iff, fun hnone =>
    ⟨normalize_of_none hnone, ?_⟩⟩
  rintro config rfl
  have hbase := Config.base_of_none hnone
  refine ⟨hbase, fun accepted h => ?_⟩
  obtain ⟨-, ⟨base, hok⟩, -⟩ := Config.validated_eq_ok_iff.1 h
  rw [hbase] at hok
  cases hok

/-- A group with a plus sign is read though it is no pair of digits. -/
theorem signed_group_read :
    ofString? "+a:16:3e:00:00:01" = some ⟨[10, 22, 62, 0, 0, 1], rfl⟩ ∧
    (∀ mac, ¬ Written "+a:16:3e:00:00:01" mac) ∧
    normalize "+a:16:3e:00:00:01" = .ok "0a:16:3e:00:00:01" ∧
    ({ baseMac := "+a:16:3e:00:00:01" } : Config).validated =
      .ok { baseMac := "+a:16:3e:00:00:01" } := by
  refine ⟨by decide +kernel, fun mac h => ?_, by decide +kernel, by decide +kernel⟩
  exact (written_iff.1 h).2 (by decide +kernel)

end Mac

end ControlPlane
