import ControlPlane.Proofs.Ranges.Transactions
import ControlPlane.Proofs.Supply

/-! An address that a transaction answers is allocated to the port that asked for it. -/

namespace ControlPlane

open Ip (Address)

/-- The port that an address is allocated to. -/
def Ipam.holder? (ipam : Ipam) (ip : AllocatedIp) : Option PortId :=
  (ipam.allocations.find? (ip.subnet, ip.address)).map Allocation.port

/-- Allocations are stored under their own subnets and addresses. -/
def Ipam.Labelled (ipam : Ipam) : Prop :=
  ∀ ⦃key row⦄, ipam.allocations.find? key = some row → key = (row.subnet, row.address)

theorem State.runIpam_commit {α : Type} {state after : State} {a : α} {tx : Tx Ipam (Ending α)}
    {pre : Ipam → Supply → Prop} {post : α → Ipam → Prop} {fails : Error → Prop}
    (h : tx.Ensures pre (fun ending tables _ => ∃ a, ending = .commit a ∧ post a tables) fails)
    (hr : (.ok a, after) = state.runIpam tx) (hd : after.supply.Distinct)
    (hp : pre state.ipam state.supply) : post a after.ipam := by
  rcases State.runIpam_ensures h hr hd hp with
    ⟨_, ha, _⟩ | ⟨b, _, _, _, _, hc, _⟩ | ⟨b, ha, _, hc, hpost⟩
  · cases ha
  · cases hc
  · cases hc
    cases ha
    exact hpost

namespace Allocation

theorem insert_gives (allocation : Allocation) :
    (Tx.change fun ipam : Ipam => ipam.insertAllocation allocation).Ensures (fun _ _ => True)
      (fun _ tables _ =>
        tables.holder? ⟨allocation.address, allocation.subnet⟩ = some allocation.port)
      fun _ => True := by
  refine Tx.ensures_change fun ipam _ _ => ?_
  split
  · rename_i hk
    rw [Ipam.insertAllocation_eq hk]
    simp [Ipam.holder?, Table.find?_insert]
  · trivial

theorem takeLowest_gives (port : PortId) (candidates : List Subnet) :
    (takeLowest port candidates).Ensures (fun _ _ => True)
      (fun found tables _ => ∀ ip ∈ found, tables.holder? ip = some port) fun _ => True := by
  induction candidates with
  | nil => exact Tx.ensures_pure fun _ _ _ => nofun
  | cons subnet rest ih =>
    refine Tx.ensures_get_bind fun seen => ?_
    extract_lets
    split
    · rename_i stored range others hs hr
      let allocation : Allocation := ⟨subnet.network, subnet.id, range.span.first, port⟩
      have htake : (range.take range.span.first).Advances := (range.take_ensures seen _).advances
      refine (htake.of_pre fun _ _ _ _ => trivial).bind fun _ => ?_
      refine (insert_gives allocation).bind fun _ => Tx.ensures_pure fun tables _ h ip hip => ?_
      cases hip
      exact h
    · exact ih.of_pre fun _ _ _ _ => trivial

theorem generateTx_gives (port : PortId) (network : NetworkId) (candidates : List Subnet) :
    (generateTx port network candidates).Ensures (fun _ _ => True)
      (fun ending tables _ => ∃ ip, ending = .commit ip ∧ tables.holder? ip = some port)
      fun _ => True := by
  refine (takeLowest_gives port candidates).bind fun found => ?_
  cases found with
  | none => exact Tx.ensures_throw fun _ _ _ => trivial
  | some ip => exact Tx.ensures_pure fun _ _ h => ⟨ip, rfl, h ip rfl⟩

theorem allocateTx_gives (port : PortId) (subnet : Subnet) (address : Address) :
    (allocateTx port subnet address).Ensures (fun _ _ => True)
      (fun ending tables _ => ∃ ip, ending = .commit ip ∧ tables.holder? ip = some port)
      fun _ => True := by
  refine Tx.ensures_get_bind fun seen => ?_
  dsimp only
  refine Tx.ensures_guard (fun _ _ _ _ => trivial) fun hs => ?_
  refine Tx.ensures_guard (fun _ _ _ _ => trivial) fun _ => ?_
  let allocation : Allocation := ⟨subnet.network, subnet.id, address, port⟩
  split
  · rename_i range hr
    have htake : (range.take address).Advances := (range.take_ensures seen address).advances
    refine (htake.of_pre fun _ _ _ _ => trivial).bind fun _ => ?_
    exact (insert_gives allocation).bind fun _ => Tx.ensures_pure fun _ _ h => ⟨_, rfl, h⟩
  · refine ((insert_gives allocation).of_pre fun _ _ _ _ => trivial).bind fun _ => ?_
    exact Tx.ensures_pure fun _ _ h => ⟨_, rfl, h⟩

end Allocation

end ControlPlane
