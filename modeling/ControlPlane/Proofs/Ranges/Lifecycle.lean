import ControlPlane.Network.Lifecycle
import ControlPlane.Proofs.Errors
import ControlPlane.Proofs.Ranges.Layout
import ControlPlane.Proofs.Ranges.Sound

/-! Subnets and networks that come and go keep the address store sound: a new pool is all free, and
a subnet takes its pools, their ranges and its allocations with it. -/

namespace ControlPlane

open Ip (Address Family Span)

variable {eager : Prop} {ipam : Ipam} {supply later : Supply} {subnet : Subnet} {id : SubnetId}
  {pool : Pool} {range : FreeRange} {p : PoolId} {r : RangeId}

theorem Laid.insert_pool (h : Laid ipam.subnets ipam.pools supply) (hid : pool.id = p)
    (hd : supply.Drawn p.value) (hs : pool.span.Proper)
    (hsub : ipam.subnets.contains pool.subnet = true)
    (hapart : ∀ q other, q ≠ p → ipam.pools.find? q = some other → other.subnet = pool.subnet →
      other.span.first.family = pool.span.first.family ∧ other.span.Precedes pool.span) :
    Laid ipam.subnets (ipam.pools.insert p pool) supply := by
  refine ⟨h.subnet, fun q other hq => ?_, fun q q' other other' hq hq' hsame hne => ?_⟩
  · rw [Table.find?_insert] at hq
    split at hq
    · cases hq
      subst q
      exact ⟨hid, hd, hs, hsub⟩
    · exact h.pool hq
  · rw [Table.find?_insert] at hq hq'
    split at hq <;> split at hq'
    · exact absurd (‹p = q›.symm.trans ‹_›) hne
    · cases hq
      have ⟨hf, hlt⟩ := hapart q' other' (Ne.symm ‹_›) hq' hsame.symm
      exact ⟨hf.symm, .inr hlt⟩
    · cases hq'
      have ⟨hf, hlt⟩ := hapart q other (Ne.symm ‹_›) hq hsame
      exact ⟨hf, .inl hlt⟩
    · exact h.apart hq hq' hsame hne

theorem Tidy.insert_pool {ranges : Table RangeId FreeRange} (h : Tidy ipam.pools ranges supply)
    (hn : ipam.pools.find? p = none) : Tidy (ipam.pools.insert p pool) ranges supply := by
  refine ⟨h.key, fun id range hr => ?_, h.apart⟩
  obtain ⟨other, ho, hs⟩ := h.within hr
  refine ⟨other, ?_, hs⟩
  rw [Table.find?_insert, if_neg, ho]
  rintro rfl
  rw [hn] at ho
  cases ho

theorem Laid.find?_eq_none (h : Laid ipam.subnets ipam.pools supply)
    (hd : ¬ supply.Drawn p.value) : ipam.pools.find? p = none := by
  rw [Option.eq_none_iff_forall_ne_some]
  exact fun pool hp => hd (h.pool hp).2.1

theorem Laid.find?_subnet_eq_none (h : Laid ipam.subnets ipam.pools supply)
    (hd : ¬ supply.Drawn id.value) : ipam.subnets.find? id = none := by
  rw [Option.eq_none_iff_forall_ne_some]
  exact fun subnet hs => hd (h.subnet hs).2

theorem Laid.insert_subnet (h : Laid ipam.subnets ipam.pools supply)
    (hd : supply.Drawn subnet.id.value) :
    Laid (ipam.subnets.insert subnet.id subnet) ipam.pools supply := by
  refine ⟨fun id other ho => ?_, fun q pool hq => ?_, h.apart⟩
  · rw [Table.find?_insert] at ho
    split at ho
    · cases ho
      subst id
      exact ⟨rfl, hd⟩
    · exact h.subnet ho
  · have ⟨hid, hdq, hs, hsub⟩ := h.pool hq
    refine ⟨hid, hdq, hs, ?_⟩
    obtain ⟨other, ho⟩ := Table.contains_iff.1 hsub
    rw [Table.contains_iff, Table.find?_insert]
    split
    · exact ⟨_, rfl⟩
    · exact ⟨other, ho⟩

namespace Ipam

theorem Sound.saveNetwork (h : ipam.Sound eager supply) (network : Network) :
    (ipam.saveNetwork network).Sound eager supply := by
  refine ⟨fun id other ho => ?_, h.laid, h.tidy, h.allocation, h.exclusive, h.covered⟩
  simp only [Ipam.saveNetwork, Table.find?_insert] at ho
  split at ho
  · cases ho
    exact ‹_›
  · exact h.network ho

theorem Sound.eraseNetwork (h : ipam.Sound eager supply) (id : NetworkId) :
    (ipam.eraseNetwork id).Sound eager supply := by
  refine ⟨fun other network ho => ?_, h.laid, h.tidy, h.allocation, h.exclusive, h.covered⟩
  simp only [Ipam.eraseNetwork, Table.find?_erase] at ho
  split at ho
  · cases ho
  · exact h.network ho

theorem Sound.insert_subnet (h : ipam.Sound eager supply) (hd : supply.Drawn subnet.id.value) :
    ({ ipam with subnets := ipam.subnets.insert subnet.id subnet } : Ipam).Sound eager supply := by
  refine ⟨h.network, h.laid.insert_subnet hd, h.tidy, fun key allocation hk => ?_, h.exclusive,
    h.covered⟩
  have ⟨hkey, hs⟩ := h.allocation hk
  refine ⟨hkey, ?_⟩
  obtain ⟨other, ho⟩ := Table.contains_iff.1 hs
  rw [Table.contains_iff, Table.find?_insert]
  split
  · exact ⟨_, rfl⟩
  · exact ⟨other, ho⟩

theorem Sound.insert_pool (h : ipam.Sound eager supply) (hid : pool.id = p) (he : later.Extends supply)
    (hd : later.Drawn p.value) (hnd : ¬ supply.Drawn p.value) (hs : pool.span.Proper)
    (hsub : ipam.subnets.contains pool.subnet = true)
    (hnone : ∀ a, ipam.allocations.find? (pool.subnet, a) = none)
    (hapart : ∀ q other, ipam.pools.find? q = some other → other.subnet = pool.subnet →
      other.span.first.family = pool.span.first.family ∧ other.span.Precedes pool.span)
    (hdr : later.Drawn r.value) (hndr : ¬ supply.Drawn r.value) :
    ({ ipam with
      pools := ipam.pools.insert p pool
      ranges := ipam.ranges.insert r ⟨r, p, pool.span⟩ } : Ipam).Sound eager later := by
  have hpnone := h.laid.find?_eq_none hnd
  have hrnone := h.tidy.find?_eq_none hndr
  have hlaid := (h.laid.of_extends he).insert_pool hid hd hs hsub fun q other _ => hapart q other
  have htidy : Tidy (ipam.pools.insert p pool) ipam.ranges later :=
    (h.tidy.of_extends he).insert_pool hpnone
  have hpool : (ipam.pools.insert p pool).find? p = some pool := by
    rw [Table.find?_insert, if_pos rfl]
  have hother {q : PoolId} {other : Pool} (hq : (ipam.pools.insert p pool).find? q = some other) :
      (p = q ∧ other = pool) ∨ (p ≠ q ∧ ipam.pools.find? q = some other) := by
    rw [Table.find?_insert] at hq
    split at hq
    · exact .inl ⟨‹_›, (Option.some.inj hq).symm⟩
    · exact .inr ⟨‹_›, hq⟩
  refine ⟨h.network, hlaid, ?_, h.allocation, ?_, fun hc => ?_⟩
  · refine htidy.insert rfl hdr hpool hs (.refl _) fun k other _ ho hop => ?_
    obtain ⟨pool', hp', _⟩ := h.tidy.within ho
    rw [hop, hpnone] at hp'
    cases hp'
  · intro q other a hq ha
    rw [free_insert, free_erase_of_none hrnone] at ha
    rcases hother hq with ⟨_, rfl⟩ | ⟨hne, hq⟩
    · exact hnone a
    · exact h.exclusive hq (ha.resolve_left fun hh => hne hh.1)
  · intro q other a hq ha hn
    rw [free_insert, free_erase_of_none hrnone]
    rcases hother hq with ⟨rfl, rfl⟩ | ⟨_, hq⟩
    · exact .inl ⟨rfl, ha⟩
    · exact .inr (h.covered hc hq ha hn)

theorem Sound.eraseSubnet (h : ipam.Sound eager supply) (id : SubnetId) :
    (ipam.eraseSubnet id).Sound eager supply := by
  have hpool {q : PoolId} {pool : Pool} : (ipam.eraseSubnet id).pools.find? q = some pool ↔
      ipam.pools.find? q = some pool ∧ pool.subnet ≠ id := by
    simp [Ipam.eraseSubnet, Table.find?_filter, Option.filter_eq_some_iff]
  have hrange {k : RangeId} {range : FreeRange} :
      (ipam.eraseSubnet id).ranges.find? k = some range ↔
        ipam.ranges.find? k = some range ∧ ¬ ipam.holdsPool id range.pool = true := by
    simp [Ipam.eraseSubnet, Table.find?_filter, Option.filter_eq_some_iff]
  -- The row of a range names its pool only, so whose it is must be read off the pool.
  have hholds {q : PoolId} {pool : Pool} (hq : ipam.pools.find? q = some pool) :
      ipam.holdsPool id q = true ↔ pool.subnet = id := by
    rw [Laid.holdsPool_iff h.laid]
    simp [hq]
  have hcontains {s : SubnetId} (hs : ipam.subnets.contains s = true) (hne : s ≠ id) :
      (ipam.eraseSubnet id).subnets.contains s = true := by
    obtain ⟨subnet, hf⟩ := Table.contains_iff.1 hs
    refine Table.contains_iff.2 ⟨subnet, ?_⟩
    simp only [Ipam.eraseSubnet, Table.find?_erase, if_neg hne, hf]
  refine ⟨h.network, ⟨?_, ?_, ?_⟩, ⟨?_, ?_, ?_⟩, ?_, ?_, fun hc => ?_⟩
  · intro s subnet hs
    simp only [Ipam.eraseSubnet, Table.find?_erase] at hs
    split at hs
    · cases hs
    · exact h.laid.subnet hs
  · intro q pool hq
    have ⟨hq, hne⟩ := hpool.1 hq
    have ⟨hid, hd, hs, hsub⟩ := h.laid.pool hq
    exact ⟨hid, hd, hs, hcontains hsub hne⟩
  · exact fun q q' pool pool' hq hq' => h.laid.apart (hpool.1 hq).1 (hpool.1 hq').1
  · exact fun k range hr => h.tidy.key (hrange.1 hr).1
  · intro k range hr
    have ⟨hr, hn⟩ := hrange.1 hr
    obtain ⟨pool, hp, hs⟩ := h.tidy.within hr
    exact ⟨pool, hpool.2 ⟨hp, fun hsub => hn ((hholds hp).2 hsub)⟩, hs⟩
  · exact fun k k' range range' hr hr' => h.tidy.apart (hrange.1 hr).1 (hrange.1 hr').1
  · intro key allocation hk
    have hk : (ipam.allocations.filter fun key _ => key.1 ≠ id).find? key = some allocation := hk
    rw [Table.find?_filter, Option.filter_eq_some_iff, decide_eq_true_eq] at hk
    have ⟨hkey, hs⟩ := h.allocation hk.1
    refine ⟨hkey, hcontains hs ?_⟩
    have hne := hk.2
    rw [hkey] at hne
    exact hne
  · intro q pool a hq ha
    have ⟨hq, _⟩ := hpool.1 hq
    obtain ⟨k, range, hr, hfree⟩ := ha
    have hn := h.exclusive hq ⟨k, range, (hrange.1 hr).1, hfree⟩
    simp [Ipam.eraseSubnet, Table.find?_filter, hn]
  · intro q pool a hq ha hn
    have ⟨hq, hne⟩ := hpool.1 hq
    have hn : (ipam.allocations.filter fun key _ => key.1 ≠ id).find? (pool.subnet, a) = none := hn
    rw [Table.find?_filter, Option.filter_eq_none_iff] at hn
    have hnone : ipam.allocations.find? (pool.subnet, a) = none := by
      rw [Option.eq_none_iff_forall_ne_some]
      exact fun allocation hk => hn allocation hk (decide_eq_true hne)
    obtain ⟨k, range, hr, rfl, hfree⟩ := h.covered hc hq ha hnone
    exact ⟨k, range, hrange.2 ⟨hr, fun hh => hne ((hholds hq).1 hh)⟩, rfl, hfree⟩

end Ipam

/-- A new subnet that has pools with some spans so far, and no allocations. -/
structure Adding (eager : Prop) (subnet : SubnetId) (spans : List Span) (tables : Ipam)
    (supply : Supply) : Prop where
  sound : tables.Sound eager supply
  stored : tables.subnets.contains subnet = true
  vacant : ∀ a, tables.allocations.find? (subnet, a) = none
  pools : ∀ p pool, tables.pools.find? p = some pool → pool.subnet = subnet → pool.span ∈ spans

theorem Adding.snoc {family : Family} {front rest : List Span} {span : Span} {tables : Ipam}
    (ha : Adding eager id front tables supply)
    (h : Ip.Ascending family (front ++ span :: rest)) (he : later.Extends supply)
    (hd : later.Drawn p.value) (hnd : ¬ supply.Drawn p.value) (hdr : later.Drawn r.value)
    (hndr : ¬ supply.Drawn r.value) :
    Adding eager id (front ++ [span]) { tables with
      pools := tables.pools.insert p ⟨p, id, span⟩
      ranges := tables.ranges.insert r ⟨r, p, span⟩ } later := by
  have hmem : span ∈ front ++ span :: rest := by simp
  have hprecedes := (List.pairwise_append.1 h.precedes).2.2
  refine ⟨?_, ha.stored, ha.vacant, fun q other hq hs => ?_⟩
  · refine ha.sound.insert_pool rfl he hd hnd (h.proper span hmem) ha.stored ha.vacant ?_ hdr hndr
    intro q other hq hs
    have hother := ha.pools q other hq hs
    refine ⟨?_, hprecedes other.span hother span List.mem_cons_self⟩
    exact (h.family _ (List.mem_append_left _ hother)).trans (h.family span hmem).symm
  · simp only [Table.find?_insert] at hq
    split at hq
    · cases hq
      exact List.mem_append_right _ (List.mem_singleton_self _)
    · exact List.mem_append_left _ (ha.pools q other hq hs)

theorem Ipam.Sound.not_contains (h : ipam.Sound eager supply) (hnd : ¬ supply.Drawn id.value) :
    ¬ ipam.subnets.contains id = true := by
  rw [Table.contains_iff, h.laid.find?_subnet_eq_none hnd]
  simp

/-- A subnet under a new identifier can always be inserted. -/
theorem Ipam.Sound.insertSubnet_eq (h : ipam.Sound eager supply)
    (hnd : ¬ supply.Drawn subnet.id.value) : ipam.insertSubnet subnet =
      .ok { ipam with subnets := ipam.subnets.insert subnet.id subnet } := by
  rw [insertSubnet, if_neg (h.not_contains hnd)]

theorem Ipam.Sound.adding {kept : Ipam} (h : ipam.Sound eager supply) (he : later.Extends supply)
    (hd : later.Drawn subnet.id.value) (hnd : ¬ supply.Drawn subnet.id.value)
    (hk : ipam.insertSubnet subnet = .ok kept) : Adding eager subnet.id [] kept later := by
  have habsent := h.not_contains hnd
  rw [h.insertSubnet_eq hnd] at hk
  cases hk
  refine ⟨(h.of_extends he).insert_subnet hd, ?_, fun a => ?_, fun q pool hq hs => ?_⟩
  · rw [Table.contains_iff]
    exact ⟨subnet, Table.find?_insert.trans (if_pos rfl)⟩
  · rw [Option.eq_none_iff_forall_ne_some]
    intro allocation hk
    obtain ⟨hkey, hs⟩ := h.allocation hk
    rw [Prod.mk.injEq] at hkey
    exact habsent (hkey.1 ▸ hs)
  · exact absurd (hs ▸ (h.laid.pool hq).2.2.2) habsent

namespace Subnet

theorem addPool_ensures {family : Family} {front rest : List Span} {span : Span} (subnet : SubnetId)
    (h : Ip.Ascending family (front ++ span :: rest)) :
    (addPool subnet span).Ensures (Adding eager subnet front)
      (fun _ => Adding eager subnet (front ++ [span])) fun _ => False := by
  refine Tx.ensures_ident_bind fun p => ?_
  dsimp only
  refine Tx.ensures_modify_bind (Tx.ensures_ident_bind fun r => ?_)
  have hinsert (tables : Ipam) : (tables.savePool ⟨p, subnet, span⟩).insertRange ⟨r, p, span⟩ =
      .ok { tables with
        pools := tables.pools.insert p ⟨p, subnet, span⟩
        ranges := tables.ranges.insert r ⟨r, p, span⟩ } :=
    Ipam.insertRange_eq (Table.find?_insert.trans (if_pos rfl))
  refine Tx.ensures_change_bind ?_ (Tx.ensures_pure ?_)
  · rintro _ later error ⟨_, ⟨tables, _, rfl⟩, _⟩ hf
    rw [hinsert] at hf
    cases hf
  · rintro _ later ⟨_, ⟨drawn, ⟨tables, ⟨supply, ha, he, hd, hnd⟩, rfl⟩, he', hd', hnd'⟩, hf⟩
    rw [hinsert] at hf
    cases hf
    exact ha.snoc h (he'.trans he) (hd.of_extends he') hnd hd' fun hd => hnd' (hd.of_extends he)

theorem createTx_ensures {request : SubnetRequest} {cidr : Ip.Cidr} {gateway : Option Address}
    {bounds : List Span} (hb : poolBounds cidr gateway request.pools = .ok bounds) :
    (createTx request cidr gateway bounds).Ensures (Ipam.Sound eager) (fun _ => Ipam.Sound eager)
      (Error.Due []) := by
  have hbounds := poolBounds_ascending hb
  refine Tx.ensures_get_bind fun seen => ?_
  refine Tx.ensures_guard (fun _ _ _ _ => trivial) fun _ => ?_
  split
  · exact fun tables supply => ⟨.refl _, fun _ _ => trivial⟩
  · refine Tx.ensures_ident_bind fun id => ?_
    dsimp only
    refine Tx.ensures_change_bind ?_ ?_
    · rintro _ _ error ⟨supply, ⟨rfl, h⟩, he, hd, hnd⟩ hf
      rw [h.insertSubnet_eq hnd] at hf
      cases hf
    have hpools : (bounds.mapM (addPool id)).Ensures (Adding eager id [])
        (fun _ => Adding eager id bounds) (Error.Due []) :=
      Tx.ensures_mapM (fun front _ => Adding eager id front) fun front span rest _ hitems =>
        (addPool_ensures id (hitems ▸ hbounds)).of_no_fails
    refine (hpools.of_pre ?_).bind fun _ => Tx.ensures_pure fun _ _ h => h.sound
    rintro kept later _ ⟨_, ⟨supply, ⟨rfl, h⟩, he, hd, hnd⟩, hf⟩
    exact h.adding he hd hnd hf

theorem deleteTx_ensures (id : SubnetId) :
    (deleteTx id).Ensures (Ipam.Sound eager) (fun _ => Ipam.Sound eager) (Error.Due []) := by
  refine Tx.ensures_get_bind fun seen => ?_
  refine Tx.ensures_guard (fun _ _ _ _ => trivial) fun _ => ?_
  refine Tx.ensures_guard (fun _ _ _ _ => trivial) fun _ => ?_
  refine Tx.ensures_modify_bind (Tx.ensures_pure ?_)
  rintro _ supply ⟨_, ⟨rfl, h⟩, rfl⟩
  exact h.eraseSubnet id

end Subnet

namespace Network

theorem createTx_ensures (network : Network) :
    (createTx network).Ensures (Ipam.Sound eager) (fun _ => Ipam.Sound eager) (Error.Due []) := by
  refine Tx.ensures_modify_bind (Tx.ensures_pure ?_)
  rintro _ supply ⟨ipam, h, rfl⟩
  exact h.saveNetwork network

theorem deleteTx_ensures (id : NetworkId) :
    (deleteTx id).Ensures (Ipam.Sound eager) (fun _ => Ipam.Sound eager) (Error.Due []) := by
  refine Tx.ensures_get_bind fun seen => ?_
  refine Tx.ensures_guard (fun _ _ _ _ => trivial) fun _ => ?_
  refine Tx.ensures_modify_bind (Tx.ensures_pure ?_)
  rintro _ supply ⟨ipam, ⟨rfl, h⟩, rfl⟩
  exact h.eraseNetwork id

end Network

end ControlPlane
