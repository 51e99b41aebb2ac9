import ControlPlane.Proofs.Ranges.Frames

/-! Where the pools of a subnet lie: among the host addresses of its block, and its gateway in none.
A subnet keeps its identifier to itself, so whoever has seen it knows it as long as it is stored. -/

namespace ControlPlane

open Ip (Address Cidr Span hostBounds)

namespace Ip

variable {cidr : Cidr} {host : Span} {a : Address}

theorem hostBounds_values (h : hostBounds cidr = some host) :
    host.first.family = cidr.family ∧ cidr.networkValue ≤ host.first.value ∧
      host.last.value ≤ cidr.lastValue := by
  unfold hostBounds at h
  extract_lets first last at h
  split at h
  · obtain ⟨⟨hf, hv⟩, _, hv'⟩ := span_of_values_eq_some.1 h
    refine ⟨hf, ?_, ?_⟩
    · rw [hv]
      exact Nat.le_succ _
    · rw [hv']
      simp only [last]
      split <;> omega
  · cases h

theorem Cidr.contains_of_values (hf : a.family = cidr.family) (hfirst : cidr.networkValue ≤ a.value)
    (hlast : a.value ≤ cidr.lastValue) : cidr.contains a = true := by
  have hpos := cidr.blockSize_pos
  have hdiv : a.value / cidr.blockSize = cidr.address.value / cidr.blockSize := by
    refine Nat.div_eq_of_lt_le hfirst ?_
    rw [Nat.succ_mul]
    unfold Cidr.lastValue Cidr.networkValue at hlast
    omega
  simp [Cidr.contains, hf, hdiv]

theorem isHostAddress_iff :
    isHostAddress cidr a = true ↔ ∃ host, hostBounds cidr = some host ∧ host.contains a = true := by
  constructor
  · intro h
    obtain ⟨hc, h⟩ := Bool.and_eq_true _ _ ▸ h
    split at h
    · rename_i host hhost
      have hfamily : a.family = cidr.family := by
        simp only [Cidr.contains, Bool.and_eq_true, decide_eq_true_eq] at hc
        exact hc.1
      refine ⟨host, hhost, Span.contains_iff.2 ⟨hfamily.trans (hostBounds_values hhost).1.symm, ?_⟩⟩
      simpa using h
    · cases h
  · rintro ⟨host, h, ha⟩
    obtain ⟨hf, hfirst, hlast⟩ := hostBounds_values h
    obtain ⟨haf, hlo, hhi⟩ := Span.contains_iff.1 ha
    have hc := Cidr.contains_of_values (haf.trans hf) (Nat.le_trans hfirst hlo)
      (Nat.le_trans hhi hlast)
    simp [isHostAddress, h, hc, hlo, hhi]

end Ip

/-- A span of host addresses without the gateway. -/
def Ip.Cidr.Seats (cidr : Cidr) (gateway : Option Address) (span : Span) : Prop :=
  ∀ a, span.contains a = true → Ip.isHostAddress cidr a = true ∧ gateway ≠ some a

theorem Ip.Cidr.Seats.within {cidr : Cidr} {gateway : Option Address} {span : Span}
    (h : cidr.Seats gateway span) (hs : span.Proper) :
    ∃ host, hostBounds cidr = some host ∧ span.Within host := by
  obtain ⟨host, hhost, hfirst⟩ := Ip.isHostAddress_iff.1 (h _ hs.contains_first).1
  obtain ⟨other, hother, hlast⟩ := Ip.isHostAddress_iff.1 (h _ hs.contains_last).1
  obtain rfl : host = other := Option.some.inj (hhost.symm.trans hother)
  obtain ⟨hf, hlo, _⟩ := Ip.Span.contains_iff.1 hfirst
  exact ⟨host, hhost, hf, hlo, (Ip.Span.contains_iff.1 hlast).2.2⟩

namespace Subnet

open Ip (Cidr)

variable {cidr : Cidr} {gateway : Option Address} {host span : Span}

theorem derivePools_seats : ∀ span ∈ derivePools cidr gateway, cidr.Seats gateway span := by
  intro span hs a ha
  unfold derivePools at hs
  split at hs
  · cases hs
  rename_i host hhost
  suffices h : host.contains a = true ∧ gateway ≠ some a from
    ⟨Ip.isHostAddress_iff.2 ⟨host, hhost, h.1⟩, h.2⟩
  split at hs
  · rename_i hnone
    rw [List.mem_singleton.1 hs] at ha
    refine ⟨ha, ?_⟩
    rintro rfl
    rw [Option.filter_eq_none_iff] at hnone
    exact hnone a rfl ha
  · rename_i gw hgw
    obtain ⟨rfl, hc⟩ := Option.filter_eq_some_iff.1 hgw
    obtain ⟨hgf, hlo, hhi⟩ := Ip.Span.contains_iff.1 hc
    have hvalues : a.family = host.first.family ∧ host.first.value ≤ a.value ∧
        a.value ≤ host.last.value ∧ a.value ≠ gw.value := by
      rcases List.mem_append.1 hs with hs | hs
      · split at hs
        · obtain ⟨last, hlast, rfl⟩ := List.mem_map.1 hs
          have hlv := (Address.previous?_eq_some.1 (Option.mem_toList.1 hlast)).2
          obtain ⟨hf, hlo', hhi'⟩ := Ip.Span.contains_iff.1 ha
          simp only at hf hlo' hhi'
          exact ⟨hf, hlo', by omega, by omega⟩
        · cases hs
      · split at hs
        · obtain ⟨first, hfirst, rfl⟩ := List.mem_map.1 hs
          obtain ⟨hff, hfv⟩ := Address.next?_eq_some.1 (Option.mem_toList.1 hfirst)
          obtain ⟨hf, hlo', hhi'⟩ := Ip.Span.contains_iff.1 ha
          simp only at hf hlo' hhi'
          exact ⟨hf.trans (hff.trans hgf), by omega, hhi', by omega⟩
        · cases hs
    obtain ⟨hf, hlo', hhi', hne⟩ := hvalues
    refine ⟨Ip.Span.contains_iff.2 ⟨hf, hlo', hhi'⟩, ?_⟩
    rintro ⟨⟩
    exact hne rfl

theorem checkPool_seats {spec : PoolSpec} (hhost : hostBounds cidr = some host)
    (h : checkPool cidr host gateway spec = .ok span) : cidr.Seats gateway span := by
  obtain ⟨_, _, hw, hclear⟩ := checkPool_eq_ok_iff.1 h
  intro a ha
  refine ⟨Ip.isHostAddress_iff.2 ⟨host, hhost, hw.contains ha⟩, ?_⟩
  rintro rfl
  exact hclear a rfl (Ip.Span.contains_iff.1 ha).2

theorem poolBounds_seats {specs : Option (List PoolSpec)} {bounds : List Span}
    (h : poolBounds cidr gateway specs = .ok bounds) :
    ∀ span ∈ bounds, cidr.Seats gateway span := by
  cases specs with
  | none =>
    cases h
    exact derivePools_seats
  | some specs =>
    change validatePools cidr gateway specs = .ok bounds at h
    unfold validatePools at h
    split at h
    · cases h
    · rename_i host hhost
      obtain ⟨pools, hpools, h⟩ := Error.bind_eq_ok_iff.1 h
      obtain ⟨_, _, h⟩ := Error.bind_eq_ok_iff.1 h
      cases h
      have hall := mapM_eq_ok_forall (fun _ _ => checkPool_seats hhost) hpools
      exact fun span hs => hall span (mem_sortOn.1 hs)

end Subnet

namespace Ipam

/-- The tables of subnets and pools. -/
def layout (ipam : Ipam) : Table SubnetId Subnet × Table PoolId Pool := (ipam.subnets, ipam.pools)

/-- Every pool has only addresses that its subnet can give to hosts. -/
def Placed (ipam : Ipam) : Prop :=
  ∀ ⦃p pool subnet⦄, ipam.pools.find? p = some pool →
    ipam.subnets.find? pool.subnet = some subnet → subnet.cidr.Seats subnet.gateway pool.span

/-- Pools are placed, and a subnet that is known is the one that is stored under its identifier, if
one is. -/
structure Charted (known : Subnet → Prop) (ipam : Ipam) (supply : Supply) : Prop where
  placed : ipam.Placed
  drawn : ∀ ⦃subnet⦄, known subnet → supply.Drawn subnet.id.value
  same : ∀ ⦃subnet stored⦄, known subnet → ipam.subnets.find? subnet.id = some stored →
    stored = subnet

variable {known : Subnet → Prop} {ipam kept : Ipam} {supply later : Supply} {subnet : Subnet}
  {pool : Pool} {p : PoolId}

theorem Charted.of_layout (h : ipam.Charted known supply) (hl : kept.layout = ipam.layout)
    (he : later.Extends supply) : kept.Charted known later := by
  obtain ⟨hsubnets, hpools⟩ := Prod.mk.inj hl
  refine ⟨fun p pool subnet hp hs => ?_, fun subnet hk => (h.drawn hk).of_extends he, ?_⟩
  · rw [hpools] at hp
    rw [hsubnets] at hs
    exact h.placed hp hs
  · intro subnet stored hk hs
    rw [hsubnets] at hs
    exact h.same hk hs

theorem Charted.insert_subnet (h : ipam.Charted known supply)
    (hlaid : Laid ipam.subnets ipam.pools supply) (he : later.Extends supply)
    (hnd : ¬ supply.Drawn subnet.id.value) :
    ({ ipam with subnets := ipam.subnets.insert subnet.id subnet } : Ipam).Charted known later := by
  refine ⟨fun p pool stored hp hs => ?_, fun other hk => (h.drawn hk).of_extends he, ?_⟩
  · rw [Table.find?_insert] at hs
    split at hs
    · rename_i hid
      obtain ⟨former, hf⟩ := Table.contains_iff.1 (hlaid.pool hp).2.2.2
      exact absurd (hid ▸ (hlaid.subnet hf).2) hnd
    · exact h.placed hp hs
  · intro other stored hk hs
    rw [Table.find?_insert] at hs
    split at hs
    · rename_i hid
      exact absurd (hid ▸ h.drawn hk) hnd
    · exact h.same hk hs

theorem Charted.insert_pool {ranges : Table RangeId FreeRange} (h : ipam.Charted known supply)
    (he : later.Extends supply) (hs : ipam.subnets.find? pool.subnet = some subnet)
    (hseats : subnet.cidr.Seats subnet.gateway pool.span) :
    ({ ipam with pools := ipam.pools.insert p pool, ranges } : Ipam).Charted known later := by
  refine ⟨fun q other stored hq ho => ?_, fun other hk => (h.drawn hk).of_extends he, h.same⟩
  rw [Table.find?_insert] at hq
  split at hq
  · cases hq
    rw [hs] at ho
    cases ho
    exact hseats
  · exact h.placed hq ho

theorem Charted.eraseSubnet (h : ipam.Charted known supply) (id : SubnetId) :
    (ipam.eraseSubnet id).Charted known supply := by
  have hsubnet {id' : SubnetId} {subnet : Subnet}
      (hs : (ipam.eraseSubnet id).subnets.find? id' = some subnet) :
      ipam.subnets.find? id' = some subnet := by
    simp only [Ipam.eraseSubnet, Table.find?_erase] at hs
    split at hs
    · cases hs
    · exact hs
  refine ⟨fun p pool subnet hp hs => ?_, h.drawn, fun subnet stored hk hs => h.same hk (hsubnet hs)⟩
  have hp : (ipam.pools.filter fun _ pool => pool.subnet ≠ id).find? p = some pool := hp
  rw [Table.find?_filter, Option.filter_eq_some_iff] at hp
  exact h.placed hp.1 (hsubnet hs)

end Ipam

/-- A transaction that leaves pools placed, and known subnets alone. -/
def Tx.Charts {α : Type} (tx : Tx Ipam α) : Prop :=
  ∀ known, tx.Ensures
    (fun ipam supply => Laid ipam.subnets ipam.pools supply ∧ ipam.Charted known supply)
    (fun _ ipam supply => ipam.Charted known supply) fun _ => True

theorem Tx.Spares.charts {α : Type} {tx : Tx Ipam α} (h : tx.Spares Ipam.layout) : tx.Charts := by
  intro known ipam supply
  have ⟨hext, hpost⟩ := h ipam.layout ipam supply
  refine ⟨hext, fun hd ⟨_, hc⟩ => ?_⟩
  have hpost := hpost hd rfl
  split at hpost
  · exact hc.of_layout hpost hext
  · trivial

theorem Tx.Spares.layout {α : Type} {tx : Tx Ipam α} (h : tx.Spares Ipam.grounds) :
    tx.Spares Ipam.layout :=
  h.of Ipam.layout fun _ => rfl

namespace Subnet

theorem addPool_charts (known : Subnet → Prop) {subnet : Subnet} {span : Span}
    (h : subnet.cidr.Seats subnet.gateway span) :
    (addPool subnet.id span).Ensures
      (fun ipam supply => ipam.subnets.find? subnet.id = some subnet ∧ ipam.Charted known supply)
      (fun _ ipam supply => ipam.subnets.find? subnet.id = some subnet ∧ ipam.Charted known supply)
      fun _ => True := by
  refine Tx.ensures_ident_bind fun p => ?_
  dsimp only
  refine Tx.ensures_modify_bind (Tx.ensures_ident_bind fun r => ?_)
  refine Tx.ensures_change_bind (fun _ _ _ _ _ => trivial) (Tx.ensures_pure ?_)
  rintro _ later ⟨_, ⟨drawn, ⟨ipam, ⟨supply, ⟨hs, hc⟩, he, _⟩, rfl⟩, he', _⟩, hf⟩
  rw [Ipam.insertRange_eq (Table.find?_insert.trans (if_pos rfl))] at hf
  cases hf
  exact ⟨hs, hc.insert_pool (he'.trans he) hs h⟩

theorem addPools_charts (known : Subnet → Prop) {subnet : Subnet} {bounds : List Span}
    (h : ∀ span ∈ bounds, subnet.cidr.Seats subnet.gateway span) :
    (bounds.mapM (addPool subnet.id)).Ensures
      (fun ipam supply => ipam.subnets.find? subnet.id = some subnet ∧ ipam.Charted known supply)
      (fun _ ipam supply => ipam.subnets.find? subnet.id = some subnet ∧ ipam.Charted known supply)
      fun _ => True :=
  Tx.ensures_mapM (fun _ _ (ipam : Ipam) supply => ipam.subnets.find? subnet.id = some subnet ∧
    ipam.Charted known supply) fun front span rest _ hitems =>
      addPool_charts known (h span (by simp [hitems]))

theorem createTx_charts {request : SubnetRequest} {cidr : Cidr} {gateway : Option Address}
    {bounds : List Span} (hb : poolBounds cidr gateway request.pools = .ok bounds) :
    (createTx request cidr gateway bounds).Charts := by
  have hseats := poolBounds_seats hb
  intro known
  refine Tx.ensures_get_bind fun seen => ?_
  refine Tx.ensures_guard (fun _ _ _ _ => trivial) fun _ => ?_
  split
  · exact Tx.ensures_throw_bind fun _ _ _ => trivial
  refine Tx.ensures_ident_bind fun id => ?_
  extract_lets subnet
  refine Tx.ensures_change_bind (fun _ _ _ _ _ => trivial) ?_
  have hsubnet : ∀ span ∈ bounds, subnet.cidr.Seats subnet.gateway span := hseats
  have hpools := addPools_charts known hsubnet
  refine (hpools.of_pre ?_).bind fun _ => Tx.ensures_pure fun _ _ h => h.2
  rintro kept later _ ⟨ipam, ⟨supply, ⟨_, hlaid, hc⟩, he, _, hnd⟩, hf⟩
  obtain ⟨_, rfl⟩ := Ipam.insertSubnet_eq hf
  exact ⟨Table.find?_insert.trans (if_pos rfl), hc.insert_subnet hlaid he hnd⟩

theorem deleteTx_charts (id : SubnetId) : (deleteTx id).Charts := by
  intro known
  refine Tx.ensures_get_bind fun seen => ?_
  refine Tx.ensures_guard (fun _ _ _ _ => trivial) fun _ => ?_
  refine Tx.ensures_guard (fun _ _ _ _ => trivial) fun _ => ?_
  refine Tx.ensures_modify_bind (Tx.ensures_pure ?_)
  rintro _ supply ⟨_, ⟨rfl, _, hc⟩, rfl⟩
  exact hc.eraseSubnet id

end Subnet

end ControlPlane
