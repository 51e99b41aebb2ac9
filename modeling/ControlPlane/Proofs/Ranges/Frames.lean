import ControlPlane.Proofs.Ranges.Transactions
import ControlPlane.Proofs.Ranges.Lifecycle

/-! Which transactions leave which parts of the address store alone. -/

namespace ControlPlane

open Ip (Address)

/-- A transaction that leaves a part of the tables as it is. -/
def Tx.Spares {α γ : Type} (part : Ipam → γ) (tx : Tx Ipam α) : Prop :=
  ∀ value, tx.Ensures (fun ipam _ => part ipam = value) (fun _ ipam _ => part ipam = value)
    fun _ => True

namespace Ipam

/-- All tables but that of the ranges. -/
def unranged (ipam : Ipam) : Ipam := { ipam with ranges := .empty }

/-- All tables but those of the pools and ranges. -/
def unpooled (ipam : Ipam) : Ipam := { ipam with pools := .empty, ranges := .empty }

/-- All tables but those of the ranges and allocations. -/
def grounds (ipam : Ipam) : Ipam := { ipam with ranges := .empty, allocations := .empty }

variable {ipam kept : Ipam} {range : FreeRange}

theorem unranged_inj : kept.unranged = ipam.unranged ↔ kept.networks = ipam.networks ∧
    kept.subnets = ipam.subnets ∧ kept.pools = ipam.pools ∧ kept.allocations = ipam.allocations := by
  simp [unranged]

theorem insertRange_unranged (h : ipam.insertRange range = .ok kept) :
    kept.unranged = ipam.unranged := by
  unfold insertRange at h
  split at h
  · cases h
    rfl
  · cases h

theorem saveRange_unranged (h : ipam.saveRange range = .ok kept) :
    kept.unranged = ipam.unranged := by
  unfold saveRange at h
  split at h
  · cases h
    rfl
  · cases h

theorem insertSubnet_eq {subnet : Subnet} (h : ipam.insertSubnet subnet = .ok kept) :
    ipam.subnets.find? subnet.id = none ∧
      kept = { ipam with subnets := ipam.subnets.insert subnet.id subnet } := by
  unfold insertSubnet at h
  split at h
  · cases h
  · rename_i hc
    rw [Table.contains, Bool.not_eq_true, Option.isSome_eq_false_iff, Option.isNone_iff_eq_none] at hc
    exact ⟨hc, (Except.ok.inj h).symm⟩

theorem insertSubnet_allocations {subnet : Subnet} (h : ipam.insertSubnet subnet = .ok kept) :
    kept.allocations = ipam.allocations := by
  rw [(insertSubnet_eq h).2]

theorem insertAllocation_grounds {allocation : Allocation}
    (h : ipam.insertAllocation allocation = .ok kept) : kept.grounds = ipam.grounds := by
  rw [insertAllocation_eq h]
  rfl

end Ipam

namespace Tx

variable {α β γ δ ι : Type} {part : Ipam → γ} {tx : Tx Ipam α} {items : List ι}

theorem Spares.bind {f : α → Tx Ipam β} (h : tx.Spares part) (hf : ∀ a, (f a).Spares part) :
    (tx >>= f).Spares part :=
  fun value => (h value).bind fun a => hf a value

theorem spares_pure (a : α) : (pure a : Tx Ipam α).Spares part :=
  fun _ => Tx.ensures_pure fun _ _ h => h

theorem spares_throw (error : Error) : (throw error : Tx Ipam α).Spares part :=
  fun _ => Tx.ensures_throw fun _ _ _ => trivial

theorem spares_throw_bind {error : Error} {f : β → Tx Ipam α} :
    (throw error >>= f : Tx Ipam α).Spares part :=
  fun _ _ _ => ⟨.refl _, fun _ _ => trivial⟩

theorem spares_guard {c : Prop} [Decidable c] {error : Error} {f : β → Tx Ipam α}
    (h : tx.Spares part) : (if c then throw error >>= f else tx).Spares part :=
  fun value => Tx.ensures_guard (fun _ _ _ _ => trivial) fun _ => h value

theorem spares_get : (get : Tx Ipam Ipam).Spares part :=
  fun _ => Tx.ensures_get.to_post fun _ _ _ _ h => h.2

theorem spares_ident (kind : Kind) : (Tx.ident kind : Tx Ipam (Ident kind)).Spares part :=
  fun _ => Tx.ensures_ident fun _ _ _ h => h

theorem spares_modify {f : Ipam → Ipam} (h : ∀ ipam, part (f ipam) = part ipam) :
    (modify f : Tx Ipam PUnit).Spares part :=
  fun _ => Tx.ensures_modify fun ipam _ hp => (h ipam).trans hp

theorem spares_modify_bind {f : Ipam → Ipam} {g : PUnit → Tx Ipam α}
    (h : ∀ ipam, part (f ipam) = part ipam) (hg : (g ()).Spares part) :
    (modify f >>= g : Tx Ipam α).Spares part :=
  (spares_modify h).bind fun _ => hg

theorem spares_change {f : Ipam → Except Error Ipam}
    (h : ∀ ipam kept, f ipam = .ok kept → part kept = part ipam) : (Tx.change f).Spares part := by
  refine fun _ => Tx.ensures_change fun ipam _ hp => ?_
  split
  · exact (h ipam _ ‹_›).trans hp
  · trivial

theorem spares_forM {body : ι → Tx Ipam Unit} (h : ∀ item, (body item).Spares part) :
    (items.forM body).Spares part :=
  fun value => Tx.ensures_forM (fun _ (ipam : Ipam) _ => part ipam = value)
    fun _ item _ _ => h item value

theorem spares_mapM {body : ι → Tx Ipam α} (h : ∀ item, (body item).Spares part) :
    (items.mapM body).Spares part :=
  fun value => Tx.ensures_mapM (fun _ _ (ipam : Ipam) _ => part ipam = value)
    fun _ item _ _ _ => h item value

/-- What can be told from a part that is left as it is is left as it is. -/
theorem Spares.of {part' : Ipam → δ} (h : tx.Spares part) (f : γ → δ)
    (hf : ∀ ipam, part' ipam = f (part ipam)) : tx.Spares part' := by
  intro value ipam supply
  have ⟨hext, hpost⟩ := h (part ipam) ipam supply
  refine ⟨hext, fun hd hp => ?_⟩
  have hpost := hpost hd rfl
  split at hpost
  · dsimp only at hp ⊢
    rw [hf, hpost, ← hf, hp]
  · trivial

theorem Spares.keeps (h : tx.Spares part) (kept : γ → Prop) :
    tx.Ensures (fun ipam _ => kept (part ipam)) (fun _ ipam _ => kept (part ipam))
      fun _ => True := by
  intro ipam supply
  have ⟨hext, hpost⟩ := h (part ipam) ipam supply
  refine ⟨hext, fun hd hk => ?_⟩
  have hpost := hpost hd rfl
  split at hpost
  · dsimp only
    rw [hpost]
    exact hk
  · trivial

theorem Spares.allocations (h : tx.Spares Ipam.unranged) : tx.Spares Ipam.allocations :=
  h.of Ipam.allocations fun _ => rfl

theorem Spares.grounds (h : tx.Spares Ipam.unranged) : tx.Spares Ipam.grounds :=
  h.of Ipam.grounds fun _ => rfl

theorem spares_insertRange (range : FreeRange) :
    (Tx.change fun ipam : Ipam => ipam.insertRange range).Spares Ipam.unranged :=
  spares_change fun _ _ => Ipam.insertRange_unranged

theorem spares_saveRange (range : FreeRange) :
    (Tx.change fun ipam : Ipam => ipam.saveRange range).Spares Ipam.unranged :=
  spares_change fun _ _ => Ipam.saveRange_unranged

theorem spares_eraseRange (id : RangeId) :
    (modify fun ipam : Ipam => ipam.eraseRange id : Tx Ipam PUnit).Spares Ipam.unranged :=
  spares_modify fun _ => rfl

theorem spares_insertAllocation (allocation : Allocation) :
    (Tx.change fun ipam : Ipam => ipam.insertAllocation allocation).Spares Ipam.grounds :=
  spares_change fun _ _ => Ipam.insertAllocation_grounds

end Tx

open Tx

theorem FreeRange.take_spares (range : FreeRange) (address : Address) :
    (range.take address).Spares Ipam.unranged := by
  refine (spares_ident .range).bind fun fresh => ?_
  split
  · exact spares_throw _
  · exact spares_eraseRange range.id
  · exact spares_saveRange _
  · exact (spares_saveRange _).bind fun _ => spares_insertRange _

theorem Pool.reclaim_spares (pool : Pool) (address : Address) :
    (pool.reclaim address).Spares Ipam.unranged := by
  refine spares_get.bind fun seen => ?_
  dsimp only
  split
  · exact spares_pure ()
  split
  · exact (spares_saveRange _).bind fun _ => spares_eraseRange _
  · exact spares_saveRange _
  · exact spares_saveRange _
  · exact (spares_ident .range).bind fun _ => spares_insertRange _

theorem Ipam.reclaim_spares (subnet : SubnetId) (address : Address) :
    (Ipam.reclaim subnet address).Spares Ipam.unranged := by
  refine spares_get.bind fun seen => ?_
  split
  · exact Pool.reclaim_spares _ address
  · exact spares_pure ()

theorem Pool.rebuild_spares (allocated : List Address) (pool : Pool) :
    (pool.rebuild allocated).Spares Ipam.unranged := by
  refine spares_get.bind fun seen => ?_
  extract_lets stored runs
  split
  · exact spares_pure ()
  have herase : (stored.forM fun range => modify fun ipam : Ipam => ipam.eraseRange range.id :
      Tx Ipam Unit).Spares Ipam.unranged := spares_forM fun range => spares_eraseRange range.id
  have hinsert (run : Ip.Span) : (do
      let fresh ← Tx.ident .range
      Tx.change fun ipam : Ipam => ipam.insertRange ⟨fresh, pool.id, run⟩ : Tx Ipam Unit).Spares
        Ipam.unranged :=
    (spares_ident .range).bind fun fresh => spares_insertRange ⟨fresh, pool.id, run⟩
  exact herase.bind fun _ => spares_forM hinsert

theorem Ipam.rebuild_spares (subnet : SubnetId) : (Ipam.rebuild subnet).Spares Ipam.unranged := by
  refine spares_get.bind fun seen => ?_
  extract_lets allocated
  exact spares_forM fun pool => Pool.rebuild_spares allocated pool

theorem Subnet.addPool_spares (subnet : SubnetId) (span : Ip.Span) :
    (Subnet.addPool subnet span).Spares Ipam.unpooled := by
  refine (spares_ident .pool).bind fun id => ?_
  extract_lets pool
  refine spares_modify_bind (fun _ => rfl) ((spares_ident .range).bind fun fresh => ?_)
  have hrange : (Tx.change fun ipam : Ipam => ipam.insertRange ⟨fresh, pool.id, span⟩).Spares
      Ipam.unpooled := (spares_insertRange _).of Ipam.unpooled fun _ => rfl
  exact hrange.bind fun _ => spares_pure pool

theorem Subnet.createTx_spares (request : SubnetRequest) (cidr : Ip.Cidr)
    (gateway : Option Address) (bounds : List Ip.Span) :
    (Subnet.createTx request cidr gateway bounds).Spares Ipam.allocations := by
  refine spares_get.bind fun seen => ?_
  refine spares_guard ?_
  split
  · exact spares_throw_bind
  refine (spares_ident .subnet).bind fun id => ?_
  extract_lets subnet
  have hinsert : (Tx.change fun ipam : Ipam => ipam.insertSubnet subnet).Spares Ipam.allocations :=
    spares_change fun _ _ => Ipam.insertSubnet_allocations
  refine hinsert.bind fun _ => ?_
  have hpool (span : Ip.Span) : (Subnet.addPool id span).Spares Ipam.allocations :=
    (Subnet.addPool_spares id span).of Ipam.allocations fun _ => rfl
  exact (spares_mapM hpool).bind fun _ => spares_pure _

/-- A subnet that is answered is stored. -/
theorem Subnet.createTx_gives (request : SubnetRequest) (cidr : Ip.Cidr)
    (gateway : Option Address) (bounds : List Ip.Span) :
    (Subnet.createTx request cidr gateway bounds).Ensures (fun _ _ => True)
      (fun ending ipam _ => ∃ details, ending = .commit details ∧
        ipam.subnets.find? details.subnet.id = some details.subnet) fun _ => True := by
  refine Tx.ensures_get_bind fun seen => ?_
  refine Tx.ensures_guard (fun _ _ _ _ => trivial) fun _ => ?_
  split
  · exact Tx.ensures_throw_bind fun _ _ _ => trivial
  refine Tx.ensures_ident_bind fun id => ?_
  extract_lets subnet
  have hinsert {pre : Ipam → Supply → Prop} :
      (Tx.change fun ipam : Ipam => ipam.insertSubnet subnet).Ensures pre
        (fun _ ipam _ => ipam.subnets.find? subnet.id = some subnet) fun _ => True := by
    refine Tx.ensures_change fun ipam _ _ => ?_
    split
    · rename_i hkept
      rw [(Ipam.insertSubnet_eq hkept).2]
      simp [Table.find?_insert]
    · trivial
  refine hinsert.bind fun _ => ?_
  have hpools : (bounds.mapM (Subnet.addPool id)).Spares Ipam.unpooled :=
    spares_mapM fun span => Subnet.addPool_spares id span
  refine (hpools.keeps fun part => part.subnets.find? subnet.id = some subnet).bind fun pools => ?_
  exact Tx.ensures_pure fun _ _ h => ⟨⟨subnet, pools⟩, rfl, h⟩

theorem Subnet.deleteTx_erases (id : SubnetId) :
    (Subnet.deleteTx id).Ensures (fun _ _ => True)
      (fun ending ipam _ => ∃ u, ending = .commit u ∧ ipam.subnets.find? id = none) fun _ => True := by
  refine Tx.ensures_get_bind fun seen => ?_
  refine Tx.ensures_guard (fun _ _ _ _ => trivial) fun _ => ?_
  refine Tx.ensures_guard (fun _ _ _ _ => trivial) fun _ => ?_
  refine Tx.ensures_modify_bind (Tx.ensures_pure ?_)
  rintro _ _ ⟨ipam, _, rfl⟩
  exact ⟨(), rfl, Table.find?_erase.trans (if_pos rfl)⟩

namespace Allocation

theorem rebuildTx_spares (id : SubnetId) : (rebuildTx id).Spares Ipam.unranged := by
  refine spares_get.bind fun seen => ?_
  split
  · exact spares_pure _
  · exact (Ipam.rebuild_spares id).bind fun _ => spares_pure _

theorem takeLowest_spares (port : PortId) (candidates : List Subnet) :
    (takeLowest port candidates).Spares Ipam.grounds := by
  induction candidates with
  | nil => exact spares_pure _
  | cons subnet rest ih =>
    refine spares_get.bind fun seen => ?_
    extract_lets
    split
    · refine (FreeRange.take_spares _ _).grounds.bind fun _ => ?_
      exact (spares_insertAllocation _).bind fun _ => spares_pure _
    · exact ih

theorem generateTx_spares (port : PortId) (network : NetworkId) (candidates : List Subnet) :
    (generateTx port network candidates).Spares Ipam.grounds := by
  refine (takeLowest_spares port candidates).bind fun found => ?_
  cases found with
  | none => exact spares_throw _
  | some ip => exact spares_pure _

theorem allocateTx_spares (port : PortId) (subnet : Subnet) (address : Address) :
    (allocateTx port subnet address).Spares Ipam.grounds := by
  refine spares_get.bind fun seen => ?_
  dsimp only
  refine spares_guard (spares_guard ?_)
  split
  · refine (FreeRange.take_spares _ _).grounds.bind fun _ => ?_
    exact (spares_insertAllocation _).bind fun _ => spares_pure _
  · exact (spares_insertAllocation _).bind fun _ => spares_pure _

theorem releaseTx_spares (reclaim : Bool) (ip : AllocatedIp) :
    (releaseTx reclaim ip).Spares Ipam.grounds := by
  refine spares_get.bind fun seen => ?_
  dsimp only
  split
  · exact spares_pure _
  refine spares_modify_bind (fun _ => rfl) ?_
  cases reclaim with
  | false => exact spares_pure _
  | true => exact (Ipam.reclaim_spares ip.subnet ip.address).grounds.bind fun _ => spares_pure _

end Allocation

namespace Network

variable {γ : Type} {part : Ipam → γ}

theorem createTx_spares (network : Network)
    (h : ∀ ipam, part (ipam.saveNetwork network) = part ipam) : (createTx network).Spares part :=
  spares_modify_bind h (spares_pure _)

theorem deleteTx_spares (id : NetworkId) (h : ∀ ipam, part (ipam.eraseNetwork id) = part ipam) :
    (deleteTx id).Spares part := by
  refine spares_get.bind fun seen => spares_guard ?_
  exact spares_modify_bind h (spares_pure _)

end Network

end ControlPlane
