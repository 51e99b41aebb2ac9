import ControlPlane.Subnet.Lifecycle

/-! Blocks that overlap. Of two blocks with an address in common, the one with the shorter prefix holds
all of the other, so that it is enough to compare their first addresses. -/

namespace ControlPlane

namespace Ip.Cidr

variable {a b c : Cidr} {x : Address}

theorem contains_iff : c.contains x = true ↔
    x.family = c.family ∧ x.value / c.blockSize = c.address.value / c.blockSize := by
  simp [contains]

theorem networkValue_div : c.networkValue / c.blockSize = c.address.value / c.blockSize :=
  Nat.mul_div_cancel _ c.blockSize_pos

theorem contains_network (c : Cidr) : c.contains c.network = true :=
  contains_iff.2 ⟨rfl, networkValue_div⟩

theorem blockSize_dvd_of_length_le (hf : a.family = b.family) (hl : a.length ≤ b.length) :
    b.blockSize ∣ a.blockSize := by
  refine Nat.pow_dvd_pow 2 ?_
  rw [hf]
  omega

/-- A block that has an address in common with a smaller one holds the first address of that. -/
theorem contains_network_of_common (hl : a.length ≤ b.length) (ha : a.contains x = true)
    (hb : b.contains x = true) : a.contains b.network = true := by
  rw [contains_iff] at ha hb
  have hf : b.family = a.family := hb.1.symm.trans ha.1
  refine contains_iff.2 ⟨hf, ?_⟩
  obtain ⟨k, hk⟩ := blockSize_dvd_of_length_le hf.symm hl
  calc b.networkValue / a.blockSize
      = b.networkValue / b.blockSize / k := by rw [hk, Nat.div_div_eq_div_mul]
    _ = x.value / b.blockSize / k := by rw [networkValue_div, hb.2]
    _ = x.value / a.blockSize := by rw [hk, Nat.div_div_eq_div_mul]
    _ = a.address.value / a.blockSize := ha.2

end Ip.Cidr

open Ip (Cidr)

theorem Subnet.overlaps_comm (a b : Cidr) : overlaps a b = overlaps b a :=
  Bool.or_comm _ _

/-- The check of a new subnet finds every address that it would share with another. -/
theorem Subnet.overlaps_iff {a b : Cidr} :
    overlaps a b = true ↔ ∃ x, a.contains x = true ∧ b.contains x = true := by
  rw [overlaps, Bool.or_eq_true]
  constructor
  · rintro (h | h)
    · exact ⟨b.network, h, b.contains_network⟩
    · exact ⟨a.network, a.contains_network, h⟩
  · rintro ⟨x, ha, hb⟩
    rcases Nat.le_total a.length b.length with hl | hl
    · exact .inl (Cidr.contains_network_of_common hl ha hb)
    · exact .inr (Cidr.contains_network_of_common hl hb ha)

end ControlPlane
