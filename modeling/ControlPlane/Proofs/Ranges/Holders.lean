import ControlPlane.Proofs.Ranges.Allocations
import ControlPlane.Proofs.Ranges.Frames

/-! How addresses change hands. No transaction but a release takes an allocation away, whoever has
it, and none gives an address to a port while another has it, nor to a port that it is not for. -/

namespace ControlPlane

open Ip (Address)

/-- What becomes of the holder of an address: it stays, it gets the address when nobody has it, or
it loses the address in a release. -/
inductive HolderChange (given : PortId → Prop) (released : Prop) :
    Option PortId → Option PortId → Prop
  | same (holder : Option PortId) : HolderChange given released holder holder
  | allocated {port : PortId} (h : given port) : HolderChange given released none (some port)
  | released (h : released) (port : PortId) : HolderChange given released (some port) none

/-- A transaction that gives addresses to no ports but some, and releases none but some. -/
def Tx.Hands {α : Type} (given : PortId → Prop) (released : AllocatedIp → Prop)
    (tx : Tx Ipam α) : Prop :=
  ∀ store : Ipam, store.Labelled →
    tx.Ensures (fun ipam _ => ipam.allocations = store.allocations)
      (fun _ ipam _ => ∀ ip, HolderChange given (released ip) (store.holder? ip) (ipam.holder? ip))
      fun _ => True

section Hands

open Tx

variable {given : PortId → Prop} {released : AllocatedIp → Prop} {α β : Type}

theorem HolderChange.mono {p q : Prop} {before after : Option PortId}
    (h : HolderChange given p before after) (hpq : p → q) : HolderChange given q before after := by
  cases h with
  | same => exact .same _
  | allocated hg => exact .allocated hg
  | released hp => exact .released (hpq hp) _

theorem Tx.Hands.mono {released' : AllocatedIp → Prop} {tx : Tx Ipam α} (h : tx.Hands given released)
    (hr : ∀ ip, released ip → released' ip) : tx.Hands given released' :=
  fun store hl => (h store hl).to_post fun _ _ _ _ hpost ip => (hpost ip).mono (hr ip)

theorem Tx.Spares.hands {tx : Tx Ipam α} (h : tx.Spares Ipam.allocations) : tx.Hands given released := by
  refine fun store _ => (h store.allocations).to_post fun _ ipam _ _ heq ip => ?_
  rw [Ipam.holder?, Ipam.holder?, heq]
  exact .same _

theorem Tx.Spares.bind_hands {tx : Tx Ipam α} {f : α → Tx Ipam β} (h : tx.Spares Ipam.allocations)
    (hf : ∀ a, (f a).Hands given released) : (tx >>= f).Hands given released :=
  fun store hl => (h store.allocations).bind fun a => hf a store hl

theorem Tx.hands_guard {c : Prop} [Decidable c] {error : Error} {f : β → Tx Ipam α} {x : Tx Ipam α}
    (h : x.Hands given released) : (if c then throw error >>= f else x).Hands given released :=
  fun store hl => Tx.ensures_guard (fun _ _ _ _ => trivial) fun _ => h store hl

theorem Tx.Hands.bind_spares {tx : Tx Ipam α} {f : α → Tx Ipam β} (h : tx.Hands given released)
    (hf : ∀ a, (f a).Spares Ipam.allocations) : (tx >>= f).Hands given released := by
  refine fun store hl => (h store hl).bind fun a => ?_
  exact (hf a).keeps fun allocations => ∀ ip, HolderChange given (released ip) (store.holder? ip)
    ((allocations.find? (ip.subnet, ip.address)).map Allocation.port)

theorem Ipam.holder?_insertAllocation {ipam kept : Ipam} {allocation : Allocation} {ip : AllocatedIp}
    (h : ipam.insertAllocation allocation = .ok kept) (hg : given allocation.port) :
    HolderChange given (released ip) (ipam.holder? ip) (kept.holder? ip) := by
  rw [insertAllocation_eq h]
  unfold insertAllocation at h
  extract_lets key at h
  simp only [holder?, Table.find?_insert]
  by_cases heq : (allocation.subnet, allocation.address) = (ip.subnet, ip.address)
  · rw [if_pos heq, ← heq]
    split at h
    · cases h
    rename_i hc
    rw [Table.contains_iff] at hc
    rw [Option.eq_none_iff_forall_ne_some.2 fun row hrow => hc ⟨row, hrow⟩]
    exact .allocated hg
  · rw [if_neg heq]
    exact .same _

theorem Tx.hands_insertAllocation {allocation : Allocation} (hg : given allocation.port) :
    (Tx.change fun ipam : Ipam => ipam.insertAllocation allocation).Hands given released := by
  refine fun store _ => Tx.ensures_change fun ipam _ heq => ?_
  split
  · rename_i hk
    intro ip
    have hchange : HolderChange given (released ip) (ipam.holder? ip) _ :=
      Ipam.holder?_insertAllocation hk hg
    rw [Ipam.holder?, heq] at hchange
    exact hchange
  · trivial

theorem Tx.hands_eraseAllocation (ip : AllocatedIp) :
    (modify fun ipam : Ipam => ipam.eraseAllocation ip.subnet ip.address : Tx Ipam PUnit).Hands
      given (· = ip) := by
  refine fun store _ => Tx.ensures_modify fun ipam _ heq other => ?_
  simp only [Ipam.holder?, Ipam.eraseAllocation, Table.find?_erase, heq]
  split
  · rename_i hkey
    obtain ⟨address, subnet⟩ := ip
    obtain ⟨_, _⟩ := other
    cases hkey
    cases store.allocations.find? (subnet, address) with
    | none => exact .same _
    | some row => exact .released rfl _
  · exact .same _

namespace Allocation

theorem takeLowest_hands {port : PortId} {candidates : List Subnet}
    (hg : ∀ subnet ∈ candidates, given port) :
    (takeLowest port candidates).Hands given released := by
  induction candidates with
  | nil => exact (spares_pure none).hands
  | cons subnet rest ih =>
    obtain ⟨hsubnet, hrest⟩ := List.forall_mem_cons.1 hg
    refine spares_get.bind_hands fun seen => ?_
    extract_lets
    split
    · refine (FreeRange.take_spares _ _).allocations.bind_hands fun _ => ?_
      exact (hands_insertAllocation hsubnet).bind_spares fun _ => spares_pure _
    · exact ih hrest

theorem generateTx_hands {port : PortId} (network : NetworkId) {candidates : List Subnet}
    (hg : ∀ subnet ∈ candidates, given port) :
    (generateTx port network candidates).Hands given released := by
  refine (takeLowest_hands hg).bind_spares fun found => ?_
  cases found with
  | none => exact spares_throw _
  | some ip => exact spares_pure _

theorem allocateTx_hands {port : PortId} (subnet : Subnet) (address : Address) (hg : given port) :
    (allocateTx port subnet address).Hands given released := by
  refine spares_get.bind_hands fun seen => ?_
  dsimp only
  refine hands_guard (hands_guard ?_)
  split
  · refine (FreeRange.take_spares _ _).allocations.bind_hands fun _ => ?_
    exact (hands_insertAllocation hg).bind_spares fun _ => spares_pure _
  · exact (hands_insertAllocation hg).bind_spares fun _ => spares_pure _

theorem releaseTx_hands (reclaim : Bool) (ip : AllocatedIp) :
    (releaseTx reclaim ip).Hands given (· = ip) := by
  refine spares_get.bind_hands fun seen => ?_
  dsimp only
  split
  · exact (spares_pure _).hands
  refine (hands_eraseAllocation ip).bind_spares fun _ => ?_
  cases reclaim with
  | false => exact spares_pure _
  | true => exact (Ipam.reclaim_spares ip.subnet ip.address).allocations.bind fun _ => spares_pure _

end Allocation

theorem Subnet.deleteTx_hands (id : SubnetId) : (Subnet.deleteTx id).Hands given released := by
  refine fun store hl => Tx.ensures_get_bind fun seen => ?_
  refine Tx.ensures_guard (fun _ _ _ _ => trivial) fun _ => ?_
  refine Tx.ensures_guard (fun _ _ _ _ => trivial) fun hcount => ?_
  refine Tx.ensures_modify_bind (Tx.ensures_pure ?_)
  rintro _ _ ⟨ipam, ⟨rfl, heq⟩, rfl⟩ ip
  -- Nothing is allocated in the subnet by then, so none of its addresses had a holder.
  have hnone := List.eq_nil_of_length_eq_zero (Decidable.not_not.1 hcount)
  rw [Ipam.allocationsOf, List.filter_eq_nil_iff] at hnone
  simp only [Ipam.holder?, Ipam.eraseSubnet, Table.find?_filter, heq]
  cases hrow : store.allocations.find? (ip.subnet, ip.address) with
  | none => exact .same _
  | some row =>
    have hkey := hl hrow
    rw [← heq] at hrow
    have hne := hnone row (Table.mem_values.2 ⟨_, hrow⟩)
    simp only [Prod.mk.injEq] at hkey
    simp only [decide_eq_true_eq, ← hkey.1] at hne
    simp only [Option.filter, hne, ne_eq, not_false_eq_true, decide_true, if_true]
    exact .same _

end Hands

/-- Whoever runs a transaction, addresses change hands as it may. -/
theorem State.runIpam_holders {α : Type} {given : PortId → Prop} {released : AllocatedIp → Prop}
    {tx : Tx Ipam (Ending α)} {state after : State} {answer : Except Error α}
    (h : tx.Hands given released) (hl : state.ipam.Labelled) (hr : (answer, after) = state.runIpam tx)
    (hd : after.supply.Distinct) (ip : AllocatedIp) :
    HolderChange given (released ip) (state.ipam.holder? ip) (after.ipam.holder? ip) := by
  have hkept (ip : AllocatedIp) : HolderChange given (released ip) (state.ipam.holder? ip)
      (state.ipam.holder? ip) := .same _
  exact State.runIpam_keeps (h state.ipam hl) hr hd rfl hkept ip

end ControlPlane
