import ControlPlane.Proofs.Macs.Grammar
import ControlPlane.Proofs.Text.Numerals
import ControlPlane.Store.Transaction

/-! The canonical text of a hardware address: as many characters as there is room for, digits in
lower case, and one text for each address. Addresses that are drawn are written in the same form,
and a port may be given what another has drawn unless the base was the address of a group. -/

namespace ControlPlane

theorem Text.mem_fixedDigits {base width n : Nat} {c : Char} (hb : 0 < base)
    (h : c ∈ fixedDigits base width n) : ∃ d < base, c = d.digitChar := by
  induction width generalizing n with
  | zero => cases h
  | succ width ih =>
    rcases List.mem_append.1 h with h | h
    · exact ih h
    · exact ⟨n % base, Nat.mod_lt _ hb, List.mem_singleton.1 h⟩

namespace Mac

variable {s t text : String} {a b mac base : Mac} {c : Char}

theorem toString_injective (h : a.toString = b.toString) : a = b := by
  have ha := ofString?_toString a
  rw [h, ofString?_toString] at ha
  exact (Option.some.inj ha).symm

theorem length_toString (mac : Mac) : mac.toString.length = 17 := by
  have hne : mac.octets.map octetChars ≠ [] := by simpa using mac.octets_ne_nil
  have hwidth : ∀ p ∈ mac.octets.map octetChars, p.length = 2 :=
    List.forall_mem_map.2 fun _ _ => Text.length_fixedDigits
  have hlength : mac.toChars.length + 1 = _ := Text.length_intercalate hne hwidth
  rw [List.length_map, mac.length_eq] at hlength
  rw [Mac.toString, String.length_ofList]
  omega

theorem mem_toString (h : c ∈ mac.toString.toList) : c = ':' ∨ ∃ d < 16, c = d.digitChar := by
  refine or_iff_not_imp_left.2 fun hc => ?_
  rw [Mac.toString, String.toList_ofList, toChars, Text.mem_intercalate hc] at h
  obtain ⟨p, hp, hmem⟩ := h
  obtain ⟨octet, -, rfl⟩ := List.mem_map.1 hp
  exact Text.mem_fixedDigits (by decide) hmem

theorem map_toLower_toString (mac : Mac) :
    mac.toString.toList.map Char.toLower = mac.toString.toList := by
  have hlower : ∀ d < 16, d.digitChar.toLower = d.digitChar := by decide
  refine (List.map_congr_left fun c hc => ?_).trans (List.map_id _)
  rcases mem_toString hc with rfl | ⟨d, hd, rfl⟩
  · rfl
  · exact hlower d hd

theorem sameIgnoringCase_toString :
    Text.sameIgnoringCase a.toString b.toString = true ↔ a = b := by
  rw [Text.sameIgnoringCase, map_toLower_toString, map_toLower_toString, beq_iff_eq,
    String.toList_inj]
  exact ⟨toString_injective, congrArg _⟩

theorem normalize_toString (mac : Mac) : normalize mac.toString =
    if mac.isMulticast then
      .error (.invalidInput s!"MAC address {mac.toString} is a multicast address")
    else .ok mac.toString := by
  rw [normalize, ofString?_toString]

/-- The form in which an address is stored that was given as some text. -/
structure Normalizes (s text : String) : Prop where
  length : text.length = 17
  digits : ∀ c ∈ text.toList, c = ':' ∨ ∃ d < 16, c = d.digitChar
  same : ofString? text = ofString? s
  again : normalize text = .ok text

theorem normalizes_of_ok (h : normalize s = .ok text) : Normalizes s text := by
  obtain ⟨mac, hread, hmulticast, rfl⟩ := normalize_eq_ok h
  refine ⟨mac.length_toString, fun _ => mem_toString, ?_, ?_⟩
  · rw [ofString?_toString, hread]
  · rw [normalize_toString, hmulticast]
    rfl

theorem Canonical.eq_iff (hs : Canonical s) (ht : Canonical t) :
    s = t ↔ ofString? s = ofString? t := by
  obtain ⟨a, ha, rfl⟩ := hs
  obtain ⟨b, hb, rfl⟩ := ht
  rw [ha, hb, Option.some.injEq]
  exact ⟨toString_injective, congrArg _⟩

theorem Canonical.sameIgnoringCase_iff (hs : Canonical s) (ht : Canonical t) :
    Text.sameIgnoringCase s t = true ↔ ofString? s = ofString? t := by
  obtain ⟨a, ha, rfl⟩ := hs
  obtain ⟨b, hb, rfl⟩ := ht
  rw [ha, hb, Option.some.injEq, sameIgnoringCase_toString]

end Mac

/-- Among ports with canonical addresses, the one that is found has the same address. -/
theorem Ports.findMac_isSome_iff {store : Ports} {network : NetworkId} {mac : String}
    (hstored : ∀ id port, store.ports.find? id = some port → Mac.Canonical port.mac)
    (hmac : Mac.Canonical mac) : (store.findMac network mac).isSome = true ↔
      ∃ id port, store.ports.find? id = some port ∧ port.network = network ∧
        Mac.ofString? port.mac = Mac.ofString? mac := by
  constructor
  · intro h
    obtain ⟨id, port, hp, hn, hsame⟩ := findMac_isSome h
    exact ⟨id, port, hp, hn, ((hstored id port hp).sameIgnoringCase_iff hmac).1 hsame⟩
  · rintro ⟨id, port, hp, hn, heq⟩
    rw [Option.isSome_iff_ne_none]
    intro hnone
    have hdiffers := findMac_eq_none.1 hnone id port hp hn
    rw [((hstored id port hp).sameIgnoringCase_iff hmac).2 heq] at hdiffers
    cases hdiffers

namespace Mac

variable {s s' t t' : String} {base mac : Mac} {octetAt : Nat → UInt8} {drawn i : Nat}
  {octets : List UInt8} {octet : UInt8}

/-- Addresses are read back from their texts. A text that is accepted is stored in one form only, and
to compare what is stored is to compare the addresses. -/
theorem normalize_decides (hs : normalize s = .ok s') (ht : normalize t = .ok t') :
    (∀ mac, ofString? mac.toString = some mac) ∧ Normalizes s s' ∧
    (s' = t' ↔ ofString? s = ofString? t) ∧
    (Text.sameIgnoringCase s' t' = true ↔ ofString? s = ofString? t) ∧
    ∀ (store : Ports) (network : NetworkId),
      (∀ id port, store.ports.find? id = some port → Canonical port.mac) →
      ((store.findMac network s').isSome = true ↔
        ∃ id port, store.ports.find? id = some port ∧ port.network = network ∧
          ofString? port.mac = ofString? s) := by
  have hs' := normalizes_of_ok hs
  have ht' := normalizes_of_ok ht
  have hc := normalize_canonical hs
  have hc' := normalize_canonical ht
  refine ⟨ofString?_toString, hs', ?_, ?_, fun store network hstored => ?_⟩
  · rw [hc.eq_iff hc', hs'.same, ht'.same]
  · rw [hc.sameIgnoringCase_iff hc', hs'.same, ht'.same]
  · rw [Ports.findMac_isSome_iff hstored hc, hs'.same]

theorem spellings_decided :
    normalize "FA:16:3E:0A:0B:0C" = .ok "fa:16:3e:0a:0b:0c" ∧
    normalize "fa:16:3e:+a:+B:0c" = .ok "fa:16:3e:0a:0b:0c" ∧
    Normalizes "FA:16:3E:0A:0B:0C" "fa:16:3e:0a:0b:0c" ∧
    ofString? "FA:16:3E:0A:0B:0C" = ofString? "fa:16:3e:+a:+B:0c" := by
  have hcapital : normalize "FA:16:3E:0A:0B:0C" = .ok "fa:16:3e:0a:0b:0c" := by decide +kernel
  have hsigned : normalize "fa:16:3e:+a:+B:0c" = .ok "fa:16:3e:0a:0b:0c" := by decide +kernel
  obtain ⟨-, hform, hsame, -⟩ := normalize_decides hcapital hsigned
  exact ⟨hcapital, hsigned, hform, hsame.1 rfl⟩

/-- An address that a base was completed to. -/
structure Completes (base mac : Mac) : Prop where
  front : mac.octets.take 3 = base.octets.take 3
  kept : ∀ (i : Nat) (octet : UInt8), base.octets[i]? = some octet → octet ≠ 0 →
    mac.octets[i]? = some octet

theorem getElem?_fillZeros (h : octets[i]? = some octet) (hne : octet ≠ 0) :
    (fillZeros octetAt drawn octets)[i]? = some octet := by
  induction octets generalizing drawn i with
  | nil => simp at h
  | cons o os ih =>
    cases i with
    | zero =>
      obtain rfl : o = octet := by simpa using h
      simp [fillZeros, hne]
    | succ i =>
      have h : os[i]? = some octet := by simpa using h
      simp only [fillZeros]
      split <;> simpa using ih h

theorem completes_complete (base : Mac) (octetAt : Nat → UInt8) (drawn : Nat) :
    base.Completes (base.complete octetAt drawn) := by
  have hfront : (base.octets.take 3).length = 3 := by simp [base.length_eq]
  refine ⟨by simp [complete, hfront], fun i octet h hne => ?_⟩
  rw [complete]
  by_cases hi : i < 3
  · rw [List.getElem?_append_left (by omega), List.getElem?_take_of_lt hi, h]
  · have hback : (base.octets.drop 3)[i - 3]? = some octet := by
      rw [List.getElem?_drop, ← h]
      congr 1
      omega
    rw [List.getElem?_append_right (by omega), hfront, getElem?_fillZeros hback hne]

theorem Completes.isMulticast_eq (h : base.Completes mac) : mac.isMulticast = base.isMulticast := by
  have hhead : mac.octets.head? = base.octets.head? := by
    simpa [List.head?_take] using congrArg List.head? h.front
  simp [isMulticast, List.headD_eq_head?_getD, hhead]

/-- Whatever is drawn, an accepted configuration has addresses made from its base, in canonical
form. A port may be given such an address unless the base is that of a group. -/
theorem drawn_normalize {config accepted : Config} (h : config.validated = .ok accepted) :
    ∃ base, accepted.base = .ok base ∧ ∀ (tables : Ports) (supply : Supply), ∃ mac rest,
      (Tx.mac base).attempt tables supply = (.ok (mac, tables), rest) ∧
      base.Completes mac ∧ Canonical mac.toString ∧
      (normalize mac.toString = .ok mac.toString ↔ base.isMulticast = false) ∧
      (base.isMulticast = true → normalize mac.toString =
        .error (.invalidInput s!"MAC address {mac.toString} is a multicast address")) := by
  obtain ⟨-, ⟨base, hbase⟩, rfl⟩ := Config.validated_eq_ok_iff.1 h
  refine ⟨base, hbase, fun tables supply => ?_⟩
  have hmade := completes_complete base supply.octetAt supply.octets
  refine ⟨_, _, rfl, hmade, canonical_toString _, ?_, fun hmulticast => ?_⟩
  · rw [normalize_toString, hmade.isMulticast_eq]
    cases base.isMulticast <;> simp
  · rw [normalize_toString, hmade.isMulticast_eq, if_pos hmulticast]

/-- A base of which one octet is drawn. -/
def sparse : Config := { baseMac := "FA:16:3E:ab:00:cd" }

theorem sparse_normalize : sparse.validated = .ok sparse ∧ ∃ base, sparse.base = .ok base ∧
    ∀ (tables : Ports) (supply : Supply), ∃ mac rest,
      (Tx.mac base).attempt tables supply = (.ok (mac, tables), rest) ∧
      mac.octets[3]? = some 0xab ∧ normalize mac.toString = .ok mac.toString := by
  have haccepted : sparse.validated = .ok sparse := by decide +kernel
  have hread : sparse.base = .ok ⟨[0xfa, 0x16, 0x3e, 0xab, 0, 0xcd], rfl⟩ := by decide +kernel
  obtain ⟨base, hbase, hdrawn⟩ := drawn_normalize haccepted
  obtain rfl := Except.ok.inj (hread.symm.trans hbase)
  refine ⟨haccepted, _, hread, fun tables supply => ?_⟩
  obtain ⟨mac, rest, hrun, hmade, -, hiff, -⟩ := hdrawn tables supply
  exact ⟨mac, rest, hrun, hmade.kept 3 0xab rfl (by decide), hiff.2 rfl⟩

/-- A base that is the address of a group. -/
def shared : Config := { baseMac := "01:00:5e:11:22:33" }

/-- The base of a group is accepted, and what is made from it no port may be given. -/
theorem shared_refused : shared.validated = .ok shared ∧ ∃ base, shared.base = .ok base ∧
    ∀ (tables : Ports) (supply : Supply), ∃ rest,
      (Tx.mac base).attempt tables supply = (.ok (base, tables), rest) ∧
      normalize base.toString =
        .error (.invalidInput "MAC address 01:00:5e:11:22:33 is a multicast address") := by
  refine ⟨by decide +kernel, ⟨[0x01, 0x00, 0x5e, 0x11, 0x22, 0x33], rfl⟩, by decide +kernel,
    fun tables supply => ⟨_, rfl, by decide +kernel⟩⟩

end Mac

end ControlPlane
