import ControlPlane.Config
import ControlPlane.Proofs.Text.Pieces
import ControlPlane.Store.Ports

/-! Hardware addresses as texts. An address that was written is read back as the same, so what is
stored for ports is in canonical form, whether it was given or drawn. -/

namespace ControlPlane

theorem Text.sameIgnoringCase_comm (a b : String) :
    sameIgnoringCase a b = sameIgnoringCase b a :=
  Bool.beq_comm

namespace Mac

/-- A text that is read as an address and is what that is written as. -/
def Canonical (text : String) : Prop := ∃ mac, ofString? text = some mac ∧ mac.toString = text

theorem octet?_octetChars (octet : UInt8) : octet? (octetChars octet) = some octet := by
  have hall : ∀ n < 256, octet? (Text.fixedDigits 16 2 n) = some (UInt8.ofNat n) := by
    decide +kernel
  rw [octetChars, hall _ octet.toNat_lt, UInt8.ofNat_toNat]

theorem colon_not_mem (octet : UInt8) : ':' ∉ octetChars octet := by
  have hall : ∀ n < 256, ':' ∉ Text.fixedDigits 16 2 n := by decide +kernel
  exact hall _ octet.toNat_lt

theorem mapM_octetChars (octets : List UInt8) :
    (octets.map octetChars).mapM octet? = some octets := by
  rw [Text.mapM_eq_some_iff, List.forall₂_map_left_iff, List.forall₂_same]
  exact fun octet _ => octet?_octetChars octet

theorem octets_ne_nil (mac : Mac) : mac.octets ≠ [] := by
  intro h
  have hlength := mac.length_eq
  rw [h] at hlength
  cases hlength

theorem ofString?_toString (mac : Mac) : ofString? mac.toString = some mac := by
  have hpieces : Text.pieces ':' mac.toChars = mac.octets.map octetChars := by
    refine Text.pieces_intercalate (by simpa using mac.octets_ne_nil) fun p hp => ?_
    obtain ⟨octet, _, rfl⟩ := List.mem_map.1 hp
    exact colon_not_mem octet
  rw [ofString?, Mac.toString, String.toList_ofList, ofChars?, hpieces, mapM_octetChars]
  exact dif_pos mac.length_eq

theorem canonical_toString (mac : Mac) : Canonical mac.toString :=
  ⟨mac, ofString?_toString mac, rfl⟩

theorem normalize_eq_ok {s text : String} (h : normalize s = .ok text) :
    ∃ mac, ofString? s = some mac ∧ mac.isMulticast = false ∧ text = mac.toString := by
  unfold normalize at h
  split at h
  · cases h
  · rename_i mac hread
    split at h
    · cases h
    · rename_i hmulticast
      exact ⟨mac, hread, Bool.eq_false_iff.2 hmulticast, (Except.ok.inj h).symm⟩

theorem normalize_canonical {s text : String} (h : normalize s = .ok text) : Canonical text := by
  obtain ⟨mac, -, -, rfl⟩ := normalize_eq_ok h
  exact canonical_toString mac

theorem normalize_eq_error {s : String} {error : Error} (h : normalize s = .error error) :
    ∃ text, error = .invalidInput text := by
  unfold normalize at h
  split at h
  · exact ⟨_, (Except.error.inj h).symm⟩
  · split at h
    · exact ⟨_, (Except.error.inj h).symm⟩
    · cases h

end Mac

/-- What holds of an address that a new port of a network gets. -/
structure Ports.Offers (store : Ports) (network : NetworkId) (mac : String) : Prop where
  canonical : Mac.Canonical mac
  unused : store.findMac network mac = none

/-- No port of a network has an address, however it is spelled. -/
theorem Ports.findMac_eq_none {store : Ports} {network : NetworkId} {mac : String} :
    store.findMac network mac = none ↔ ∀ id port, store.ports.find? id = some port →
      port.network = network → Text.sameIgnoringCase port.mac mac = false := by
  simp only [findMac, List.find?_eq_none, Table.mem_values, Bool.and_eq_true, decide_eq_true_eq,
    not_and, Bool.not_eq_true]
  exact ⟨fun h id port hp => h port ⟨id, hp⟩, fun h port ⟨id, hp⟩ => h id port hp⟩

theorem Ports.findMac_isSome {store : Ports} {network : NetworkId} {mac : String}
    (h : (store.findMac network mac).isSome = true) : ∃ id port,
      store.ports.find? id = some port ∧ port.network = network ∧
        Text.sameIgnoringCase port.mac mac = true := by
  obtain ⟨port, hport⟩ := Option.isSome_iff_exists.1 h
  obtain ⟨id, hfind⟩ := Table.mem_values.1 (List.mem_of_find?_eq_some hport)
  have hmatches := List.find?_some hport
  rw [Bool.and_eq_true, decide_eq_true_eq] at hmatches
  exact ⟨id, port, hfind, hmatches⟩

end ControlPlane
