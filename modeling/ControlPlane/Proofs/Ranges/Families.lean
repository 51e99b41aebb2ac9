import ControlPlane.Proofs.Ranges.Referential

/-! The families of subnets. A subnet is of the family of its block, and so are the addresses of its
pools. -/

namespace ControlPlane

open Ip (Address Cidr Span)

/-- Every subnet is of the family of its block. -/
def Kindred (subnets : Table SubnetId Subnet) : Prop :=
  ∀ ⦃id subnet⦄, subnets.find? id = some subnet → subnet.cidr.family = subnet.family

/-- A transaction that stores a subnet only if it is of the family of its block. -/
def Tx.Assorts {α : Type} (tx : Tx Ipam α) : Prop :=
  tx.Ensures (fun ipam _ => Kindred ipam.subnets) (fun _ ipam _ => Kindred ipam.subnets)
    fun _ => True

theorem Tx.Spares.assorts {α : Type} {tx : Tx Ipam α} (h : tx.Spares Ipam.layout) : tx.Assorts := by
  have hsubnets : tx.Spares Ipam.subnets := h.of Prod.fst fun _ => rfl
  exact hsubnets.keeps Kindred

namespace Subnet

theorem createTx_assorts {request : SubnetRequest} {cidr : Cidr} {gateway : Option Address}
    {bounds : List Span} (hc : parseCidr request.cidr request.family = .ok cidr) :
    (createTx request cidr gateway bounds).Assorts := by
  refine Tx.ensures_get_bind fun seen => ?_
  refine Tx.ensures_guard (fun _ _ _ _ => trivial) fun _ => ?_
  split
  · exact Tx.ensures_throw_bind fun _ _ _ => trivial
  refine Tx.ensures_ident_bind fun id => ?_
  extract_lets subnet
  refine Tx.ensures_change_bind (fun _ _ _ _ _ => trivial) ?_
  have hpools : (bounds.mapM (addPool subnet.id)).Spares Ipam.subnets :=
    (Tx.spares_mapM fun span => addPool_spares subnet.id span :
      (bounds.mapM (addPool subnet.id)).Spares Ipam.unpooled).of Ipam.subnets fun _ => rfl
  refine ((hpools.keeps Kindred).of_pre ?_).bind fun _ => Tx.ensures_pure fun _ _ h => h
  rintro kept later _ ⟨ipam, ⟨supply, ⟨_, h⟩, _⟩, hf⟩ other found ho
  obtain ⟨_, rfl⟩ := Ipam.insertSubnet_eq hf
  rw [Table.find?_insert] at ho
  split at ho
  · cases ho
    exact (parseCidr_eq_ok hc).2
  · exact h ho

theorem deleteTx_assorts (id : SubnetId) : (deleteTx id).Assorts := by
  refine Tx.ensures_get_bind fun seen => ?_
  refine Tx.ensures_guard (fun _ _ _ _ => trivial) fun _ => ?_
  refine Tx.ensures_guard (fun _ _ _ _ => trivial) fun _ => ?_
  refine Tx.ensures_modify_bind (Tx.ensures_pure ?_)
  rintro _ _ ⟨ipam, ⟨_, h⟩, rfl⟩ other found ho
  rw [Ipam.eraseSubnet, Table.find?_erase] at ho
  split at ho
  · cases ho
  · exact h ho

end Subnet

section Calls

variable {α : Type} {c : Call α} {answer : α} {setup : Setup} {licence : Licence}
  {before after : State}

def Call.Assorts : {α : Type} → Call α → Prop
  | _, .ipam tx => tx.Assorts
  | _, _ => True

theorem Call.Made.assorts (hm : c.Made setup licence) : c.Assorts := by
  cases hm with
  | readIpam f =>
    exact (Tx.spares_get.bind fun _ => Tx.spares_pure _ : Tx.Spares Ipam.layout _).assorts
  | createNetwork network => exact (Network.createTx_spares network fun _ => rfl).assorts
  | deleteNetwork id => exact (Network.deleteTx_spares id fun _ => rfl).assorts
  | createSubnet hc _ _ => exact Subnet.createTx_assorts hc
  | deleteSubnet id => exact Subnet.deleteTx_assorts id
  | generate port network candidates =>
    exact (Allocation.generateTx_spares port network candidates).layout.assorts
  | rebuild id => exact (Allocation.rebuildTx_spares id).grounds.layout.assorts
  | allocate port subnet address =>
    exact (Allocation.allocateTx_spares port subnet address).layout.assorts
  | release ip => exact (Allocation.releaseTx_spares _ ip).layout.assorts
  | _ => trivial

theorem Call.Assorts.result (h : c.Assorts) (hr : c.Result before answer after)
    (hd : after.supply.Distinct) (hk : Kindred before.ipam.subnets) :
    Kindred after.ipam.subnets := by
  cases c with
  | ipam tx =>
    have hassorts : tx.Assorts := h
    exact State.runIpam_keeps hassorts hr hd hk hk
  | ports tx =>
    obtain ⟨_, hr⟩ := hr
    exact (State.runReviewed_cases hr).1 ▸ hk
  | _ =>
    cases hr
    exact hk

end Calls

theorem Scene.Run.kindred {allowed : Setup → Command → Prop} {moves : List Move}
    {first scene : Scene} (run : Run allowed first moves scene) (hfirst : first.Initial)
    (hfresh : ∀ move ∈ moves, move.Fresh) : Kindred scene.state.ipam.subnets := by
  have hinit : Kindred first.state.ipam.subnets := by
    obtain ⟨networks, hipam⟩ := hfirst.ipam
    have hnone : (networks.foldl Ipam.saveNetwork {}).subnets = .empty :=
      Ipam.part_networks (fun _ _ => rfl) networks {}
    rw [hipam, hnone]
    exact nofun
  refine (run.induct (fun _ state => Kindred state.ipam.subnets) hfirst hfresh (nofun : False → _)
    hinit (fun _ _ _ _ _ _ h => h) ?_ fun _ _ _ _ _ h => h).2
  intro moves before after setup command tag α c answer _ _ hm hr hd h
  exact hm.assorts.result hr hd h

/-- The pools of a subnet have only addresses of its family. -/
theorem Ipam.Placed.family {ipam : Ipam} {subnet : Subnet} {pool : Pool} {address : Address}
    (h : ipam.Placed) (hk : Kindred ipam.subnets)
    (hs : ipam.subnets.find? subnet.id = some subnet) (hp : pool ∈ ipam.poolsOf subnet.id)
    (ha : pool.span.contains address = true) : address.family = subnet.family := by
  obtain ⟨⟨p, hfind⟩, hsub⟩ := mem_poolsOf.1 hp
  obtain ⟨host, hhost, hc⟩ := Ip.isHostAddress_iff.1 (h hfind (hsub ▸ hs) address ha).1
  obtain ⟨hfamily, _⟩ := Ip.Span.contains_iff.1 hc
  exact (hfamily.trans (Ip.hostBounds_values hhost).1).trans (hk hs)

/-- The pools of subnets have only addresses of the families of the subnets. -/
def Ipam.Assorted (ipam : Ipam) : Prop :=
  ∀ ⦃network subnet pool address⦄, subnet ∈ ipam.subnetsOf network →
    pool ∈ ipam.poolsOf subnet.id → pool.span.contains address = true →
    address.family = subnet.family

theorem Scene.Run.assorted {allowed : Setup → Command → Prop} {moves : List Move}
    {first scene : Scene} (run : Run allowed first moves scene) (hfirst : first.Initial)
    (hfresh : ∀ move ∈ moves, move.Fresh) : scene.state.ipam.Assorted := by
  obtain ⟨hfaithful, hcharted⟩ := run.charted hfirst hfresh
  intro network subnet pool address hmem hpool ha
  obtain ⟨⟨id, hf⟩, _⟩ := Ipam.mem_subnetsOf.1 hmem
  obtain rfl := (hfaithful.sound.laid.subnet hf).1
  exact hcharted.placed.family (run.kindred hfirst hfresh) hf hpool ha

end ControlPlane
