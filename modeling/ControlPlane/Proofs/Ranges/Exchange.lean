import ControlPlane.Port.Update
import ControlPlane.Proofs.Ranges.Generation
import ControlPlane.Proofs.Ranges.Holders

/-! Addresses that a port gains and addresses that are freed. What a port gained is freed again
without a trace in the allocations. -/

namespace ControlPlane

open Ip (Address)

namespace Ipam

def allocation? (ipam : Ipam) (ip : AllocatedIp) : Option Allocation :=
  ipam.allocations.find? (ip.subnet, ip.address)

/-- A port has some addresses that nobody had, and nobody has lost or gained others. -/
structure Gains (before : Ipam) (port : PortId) (ips : List AllocatedIp) (after : Ipam) : Prop where
  gained : ∀ ip ∈ ips, before.holder? ip = none ∧ after.holder? ip = some port
  others : ∀ ip, ip ∉ ips → after.allocation? ip = before.allocation? ip
  nodup : ips.Nodup

/-- Nobody has some addresses, and nobody has lost or gained others. -/
def Frees (before : Ipam) (ips : List AllocatedIp) (after : Ipam) : Prop :=
  ∀ ip, after.allocation? ip = if ip ∈ ips then none else before.allocation? ip

/-- A port has some addresses that nobody had, and nobody has some addresses that the port had. -/
structure Exchanges (before : Ipam) (port : PortId) (changes : Port.IpChanges) (after : Ipam) :
    Prop where
  added : ∀ ip ∈ changes.added, before.holder? ip = none ∧ after.holder? ip = some port
  removed : ∀ ip ∈ changes.removed, before.holder? ip = some port ∧ after.holder? ip = none
  others : ∀ ip, ip ∉ changes.added → ip ∉ changes.removed →
    after.allocation? ip = before.allocation? ip

variable {before mid after last ipam : Ipam} {port : PortId} {ips more : List AllocatedIp}
  {ip other : AllocatedIp} {row : Allocation} {eager : Prop} {supply : Supply}

theorem holder?_congr (h : after.allocation? ip = before.allocation? ip) :
    after.holder? ip = before.holder? ip :=
  congrArg (Option.map Allocation.port) h

theorem holder?_eq_none : ipam.holder? ip = none ↔ ipam.allocation? ip = none :=
  Option.map_eq_none_iff

theorem allocations_eq (h : ∀ ip, after.allocation? ip = before.allocation? ip) :
    after.allocations = before.allocations :=
  Table.eq_of_find? fun key => h ⟨key.2, key.1⟩

theorem key_inj : (ip.subnet, ip.address) = (other.subnet, other.address) ↔ other = ip := by
  obtain ⟨address, subnet⟩ := ip
  obtain ⟨address', subnet'⟩ := other
  rw [Prod.mk.injEq, AllocatedIp.mk.injEq, and_comm, eq_comm, @eq_comm _ subnet]

theorem allocation?_insert :
    (before.allocations.insert (ip.subnet, ip.address) row).find? (other.subnet, other.address) =
      if other = ip then some row else before.allocation? other := by
  simp only [Table.find?_insert, key_inj, allocation?]

theorem allocation?_erase :
    (before.allocations.erase (ip.subnet, ip.address)).find? (other.subnet, other.address) =
      if other = ip then none else before.allocation? other := by
  simp only [Table.find?_erase, key_inj, eq_comm, allocation?]

namespace Gains

theorem of_eq (h : after.allocations = before.allocations) : before.Gains port [] after :=
  ⟨nofun, fun ip _ => by rw [allocation?, allocation?, h], .nil⟩

theorem of_insert (hfree : before.allocation? ip = none) (hport : row.port = port)
    (h : after.allocations = before.allocations.insert (ip.subnet, ip.address) row) :
    before.Gains port [ip] after := by
  have hafter (other : AllocatedIp) :
      after.allocation? other = if other = ip then some row else before.allocation? other := by
    rw [allocation?, h, allocation?_insert]
  refine ⟨List.forall_mem_singleton.2 ⟨holder?_eq_none.2 hfree, ?_⟩, fun other hne => ?_,
    List.pairwise_singleton _ ip⟩
  · change (after.allocation? ip).map Allocation.port = some port
    rw [hafter, if_pos rfl, ← hport]
    rfl
  · rw [hafter, if_neg (mt List.mem_singleton.2 hne)]

theorem trans (h : before.Gains port ips mid) (h' : mid.Gains port more after) :
    before.Gains port (ips ++ more) after := by
  have hapart (ip : AllocatedIp) (hip : ip ∈ ips) (hmore : ip ∈ more) : False := by
    have hsome := (h.gained ip hip).2
    rw [(h'.gained ip hmore).1] at hsome
    cases hsome
  refine ⟨List.forall_mem_append.2 ⟨fun ip hip => ?_, fun ip hmore => ?_⟩, fun ip hne => ?_,
    List.nodup_append.2 ⟨h.nodup, h'.nodup, fun ip hip other hmore heq => ?_⟩⟩
  · obtain ⟨hnone, hsome⟩ := h.gained ip hip
    have hkept : ip ∉ more := hapart ip hip
    exact ⟨hnone, (holder?_congr (h'.others ip hkept)).trans hsome⟩
  · obtain ⟨hnone, hsome⟩ := h'.gained ip hmore
    have hkept : ip ∉ ips := fun hip => hapart ip hip hmore
    exact ⟨(holder?_congr (h.others ip hkept)).symm.trans hnone, hsome⟩
  · rw [List.mem_append, not_or] at hne
    exact (h'.others ip hne.2).trans (h.others ip hne.1)
  · exact hapart ip hip (heq ▸ hmore)

theorem frees (h : before.Gains port ips mid) (hf : mid.Frees ips after) :
    after.allocations = before.allocations := by
  refine allocations_eq fun ip => ?_
  rw [hf ip]
  split
  · exact (holder?_eq_none.1 (h.gained ip ‹_›).1).symm
  · exact h.others ip ‹_›

/-- A port gains some addresses before others that it had are freed. -/
theorem exchanges {changes : Port.IpChanges} (h : before.Gains port changes.added mid)
    (hremoved : ∀ ip ∈ changes.removed, before.holder? ip = some port)
    (hf : mid.Frees changes.removed after) : before.Exchanges port changes after := by
  refine ⟨fun ip hip => ?_, fun ip hip => ⟨hremoved ip hip, holder?_eq_none.2 ?_⟩,
    fun ip hadded hne => ?_⟩
  · obtain ⟨hnone, hsome⟩ := h.gained ip hip
    have hkept : ip ∉ changes.removed := fun hr => by simp [hremoved ip hr] at hnone
    have hafter := hf ip
    rw [if_neg hkept] at hafter
    exact ⟨hnone, (holder?_congr hafter).trans hsome⟩
  · rw [hf ip, if_pos hip]
  · rw [hf ip, if_neg hne]
    exact h.others ip hadded

end Gains

theorem Frees.refl (ipam : Ipam) : ipam.Frees [] ipam := fun _ => (if_neg List.not_mem_nil).symm

theorem Frees.snoc (h : before.Frees ips mid)
    (ha : after.allocations = mid.allocations.erase (ip.subnet, ip.address)) :
    before.Frees (ips ++ [ip]) after := by
  intro other
  have hafter : after.allocation? other = if other = ip then none else mid.allocation? other := by
    rw [allocation?, ha, allocation?_erase]
  rw [hafter, h other]
  by_cases heq : other = ip
  · rw [if_pos heq, if_pos (List.mem_append_right _ (List.mem_singleton.2 heq))]
  · have hmem : other ∈ ips ++ [ip] ↔ other ∈ ips := by simp [heq]
    simp only [if_neg heq, hmem]

theorem Sound.labelled (h : ipam.Sound eager supply) : ipam.Labelled :=
  fun _ _ hrow => (h.allocation hrow).1

theorem Sound.holder?_of_mem (h : ipam.Sound eager supply)
    (hip : ip ∈ (ipam.portAllocations port).map Allocation.allocated) :
    ipam.holder? ip = some port := by
  obtain ⟨row, hrow, rfl⟩ := List.mem_map.1 hip
  obtain ⟨hrow, hport⟩ := List.mem_filter.1 hrow
  obtain ⟨key, hkey⟩ := Table.mem_values.1 hrow
  have hown := (h.allocation hkey).1
  subst hown
  have hfind : ipam.allocations.find? (row.allocated.subnet, row.allocated.address) = some row := hkey
  rw [holder?, hfind]
  exact congrArg some (of_decide_eq_true hport)

end Ipam

namespace Allocation

theorem insert_adds (ipam : Ipam) (allocation : Allocation) :
    (Tx.change fun tables : Ipam => tables.insertAllocation allocation).Ensures
      (fun tables _ => tables.allocations = ipam.allocations)
      (fun _ tables _ => tables.allocations =
        ipam.allocations.insert (allocation.subnet, allocation.address) allocation)
      fun _ => True := by
  refine Tx.ensures_change fun tables _ heq => ?_
  split
  · rename_i hk
    rw [Ipam.insertAllocation_eq hk, ← heq]
  · trivial

/-- An address that was asked for is allocated if its subnet exists and nobody has it. -/
theorem allocateTx_adds (port : PortId) (subnet : Subnet) (address : Address) (ipam : Ipam) :
    (allocateTx port subnet address).Ensures (fun tables _ => tables = ipam)
      (fun ending tables _ => ending = .commit ⟨address, subnet.id⟩ ∧
        ipam.subnets.contains subnet.id = true ∧
        ipam.allocation? ⟨address, subnet.id⟩ = none ∧ tables.allocations =
          ipam.allocations.insert (subnet.id, address) ⟨subnet.network, subnet.id, address, port⟩)
      fun _ => True := by
  refine Tx.ensures_get_bind fun seen => ?_
  dsimp only
  refine Tx.ensures_guard (fun _ _ _ _ => trivial) fun hs => ?_
  refine Tx.ensures_guard (fun _ _ _ _ => trivial) fun hc => ?_
  have hstored : seen.subnets.contains subnet.id = true := by simpa using hs
  have hfree : seen.allocation? ⟨address, subnet.id⟩ = none := by
    simpa [Table.contains, Ipam.allocation?] using hc
  let allocation : Allocation := ⟨subnet.network, subnet.id, address, port⟩
  let taken (tables : Ipam) (_ : Supply) : Prop :=
    seen = ipam ∧ tables.allocations = seen.allocations
  let post (ending : Ending AllocatedIp) (tables : Ipam) (_ : Supply) : Prop :=
    ending = .commit ⟨address, subnet.id⟩ ∧ ipam.subnets.contains subnet.id = true ∧
      ipam.allocation? ⟨address, subnet.id⟩ = none ∧
      tables.allocations = ipam.allocations.insert (subnet.id, address) allocation
  have hinsert : (do
      Tx.change fun tables : Ipam => tables.insertAllocation allocation
      pure (.commit ⟨address, subnet.id⟩) : Tx Ipam (Ending AllocatedIp)).Ensures taken post
        fun _ => True := by
    have hadds := (insert_adds seen allocation).frame (fun _ => seen = ipam) fun _ _ _ h => h
    refine hadds.bind fun _ => Tx.ensures_pure ?_
    rintro tables _ ⟨rfl, h⟩
    exact ⟨rfl, hstored, hfree, h⟩
  split
  · rename_i range _
    have htake := ((range.take_spares address).allocations seen.allocations).frame
      (fun _ => seen = ipam) fun _ _ _ h => h
    refine (htake.of_pre ?_).bind fun _ => hinsert
    rintro _ _ _ ⟨rfl, h⟩
    exact ⟨h, rfl⟩
  · refine hinsert.of_pre ?_
    rintro _ _ _ ⟨rfl, h⟩
    exact ⟨h, rfl⟩

end Allocation

end ControlPlane
