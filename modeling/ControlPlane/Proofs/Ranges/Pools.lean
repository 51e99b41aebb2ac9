import ControlPlane.Proofs.Ranges.Placed

/-! The pools that an operator may give to a new subnet, and that those derived from its block are
the largest of them: every host address but the gateway is in one. -/

namespace ControlPlane

open Ip (Address Cidr Family Span hostBounds)

namespace Ip

/-- No address is in both. -/
def Span.Disjoint (a b : Span) : Prop := ∀ x, a.contains x = true → b.contains x = false

/-- A pool that a block may have: it lies in the host range and leaves the gateway out. -/
structure Cidr.Admits (cidr : Cidr) (host : Span) (gateway : Option Address) (pool : Span) :
    Prop where
  first_family : pool.first.family = cidr.family
  last_family : pool.last.family = cidr.family
  le : pool.first.value ≤ pool.last.value
  first : host.first.value ≤ pool.first.value
  last : pool.last.value ≤ host.last.value
  gateway : ∀ gw ∈ gateway, pool.contains gw = false

variable {cidr : Cidr} {gateway : Option Address} {host pool a b : Span} {pools others : List Span}

theorem Cidr.Admits.proper (h : cidr.Admits host gateway pool) : pool.Proper :=
  ⟨h.last_family.trans h.first_family.symm, h.le⟩

theorem Span.Disjoint.symm (h : a.Disjoint b) : b.Disjoint a := by
  intro x hb
  by_cases ha : a.contains x = true
  · rw [h x ha] at hb
    cases hb
  · simpa using ha

theorem Span.Precedes.disjoint (h : a.Precedes b) : a.Disjoint b := fun _ hx => h.not_contains hx

theorem Span.Disjoint.precedes (h : a.Disjoint b) (hb : b.Proper)
    (hf : b.first.family = a.first.family) (hle : a.first.value ≤ b.first.value) : a.Precedes b := by
  have hfirst := hb.contains_first
  by_cases hlast : b.first.value ≤ a.last.value
  · rw [h b.first (Span.contains_iff.2 ⟨hf, hle, hlast⟩)] at hfirst
    cases hfirst
  · simpa [Span.Precedes] using hlast

/-- In ascending order spans share no address only if each lies before the next. -/
theorem pairwise_precedes_iff {family : Family} (hp : ∀ s ∈ pools, s.Proper)
    (hf : ∀ s ∈ pools, s.first.family = family)
    (hsorted : pools.Pairwise fun a b => a.first.value ≤ b.first.value) :
    pools.Pairwise Span.Precedes ↔ pools.Pairwise Span.Disjoint := by
  constructor
  · intro h
    exact h.imp Span.Precedes.disjoint
  · intro h
    refine (h.and hsorted).imp_of_mem fun ha hb hab => ?_
    exact hab.1.precedes (hp _ hb) ((hf _ hb).trans (hf _ ha).symm) hab.2

theorem eq_of_perm_of_precedes (hp : ∀ s ∈ pools, s.Proper) (hperm : pools.Perm others)
    (h : pools.Pairwise Span.Precedes) (h' : others.Pairwise Span.Precedes) : pools = others := by
  refine hperm.eq_of_pairwise (fun a b ha hb hab hba => ?_) h h'
  have hle := (hp a ha).le
  have hle' := (hp b (hperm.mem_iff.2 hb)).le
  simp only [Span.Precedes] at hab hba
  omega

theorem Cidr.Admits.precedes_iff (h : ∀ pool ∈ pools, cidr.Admits host gateway pool) :
    (sortOn (fun pool => pool.first.value) pools).Pairwise Span.Precedes ↔
      pools.Pairwise Span.Disjoint := by
  have hperm := sortOn_perm (fun pool : Span => pool.first.value) pools
  have hsorted := sortOn_pairwise (fun pool : Span => pool.first.value) pools
  have h := fun pool hmem => h pool (hperm.mem_iff.1 hmem)
  rw [pairwise_precedes_iff (fun pool hmem => (h pool hmem).proper)
    (fun pool hmem => (h pool hmem).first_family) hsorted]
  exact hperm.pairwise_iff Span.Disjoint.symm

end Ip

namespace Subnet

variable {cidr : Cidr} {gateway : Option Address} {host pool : Span} {spec : PoolSpec}
  {specs : List PoolSpec} {pools parsed : List Span} {choice : GatewayChoice}

theorem checkPool_admits_iff (hhost : hostBounds cidr = some host)
    (hg : ∀ gw ∈ gateway, gw.family = cidr.family) : checkPool cidr host gateway spec = .ok pool ↔
      spec.Spells pool ∧ cidr.Admits host gateway pool := by
  have hf := (Ip.hostBounds_values hhost).1
  rw [checkPool_eq_ok_iff]
  refine and_congr_right fun _ => ?_
  have hclear (hp : pool.first.family = cidr.family) (gw : Address) (hgw : gw ∈ gateway) :
      pool.contains gw = false ↔
        ¬ (pool.first.value ≤ gw.value ∧ gw.value ≤ pool.last.value) := by
    rw [Bool.eq_false_iff, ne_eq, Ip.Span.contains_iff]
    simp [hg gw hgw, hp]
  constructor
  · rintro ⟨hp, hw, hgw⟩
    have hfirst := hw.family.trans hf
    exact ⟨hfirst, hp.family.trans hfirst, hp.le, hw.first, hw.last,
      fun gw hmem => (hclear hfirst gw hmem).2 (hgw gw hmem)⟩
  · intro h
    exact ⟨h.proper, ⟨h.first_family.trans hf.symm, h.first, h.last⟩,
      fun gw hmem => (hclear h.first_family gw hmem).1 (h.gateway gw hmem)⟩

theorem mapM_checkPool_eq_ok_iff (hhost : hostBounds cidr = some host)
    (hg : ∀ gw ∈ gateway, gw.family = cidr.family) :
    specs.mapM (checkPool cidr host gateway) = .ok parsed ↔
      List.Forall₂ PoolSpec.Spells specs parsed ∧ ∀ pool ∈ parsed, cidr.Admits host gateway pool := by
  rw [mapM_eq_ok_iff]
  constructor
  · intro h
    induction h with
    | nil => simp
    | cons hpool _ ih =>
      have ⟨hspells, hadmits⟩ := (checkPool_admits_iff hhost hg).1 hpool
      exact ⟨.cons hspells ih.1, List.forall_mem_cons.2 ⟨hadmits, ih.2⟩⟩
  · rintro ⟨hspells, hadmits⟩
    induction hspells with
    | nil => exact .nil
    | cons hpool _ ih =>
      have ⟨hhead, htail⟩ := List.forall_mem_cons.1 hadmits
      exact .cons ((checkPool_admits_iff hhost hg).2 ⟨hpool, hhead⟩) (ih htail)

theorem validatePools_eq_ok_iff (hhost : hostBounds cidr = some host)
    (hg : ∀ gw ∈ gateway, gw.family = cidr.family) : validatePools cidr gateway specs = .ok pools ↔
      ∃ parsed, List.Forall₂ PoolSpec.Spells specs parsed ∧
        (∀ pool ∈ parsed, cidr.Admits host gateway pool) ∧ parsed.Pairwise Ip.Span.Disjoint ∧
        pools.Perm parsed ∧ pools.Pairwise Ip.Span.Precedes := by
  simp only [validatePools, hhost, Error.bind_eq_ok_iff, mapM_checkPool_eq_ok_iff hhost hg]
  refine exists_congr fun parsed => and_assoc.trans (and_congr_right fun _ =>
    and_congr_right fun hadmits => ?_)
  have hperm := sortOn_perm (fun pool : Span => pool.first.value) parsed
  have hproper : ∀ pool ∈ sortOn (fun pool => pool.first.value) parsed, pool.Proper :=
    fun pool hmem => (hadmits pool (mem_sortOn.1 hmem)).proper
  have hdisjoint := Ip.Cidr.Admits.precedes_iff hadmits
  simp only [checkDisjoint_eq_ok_iff hproper, hdisjoint, exists_const, pure, Except.pure,
    Except.ok.injEq]
  refine and_congr_right fun hparsed => ?_
  have hprecedes := hdisjoint.2 hparsed
  constructor
  · rintro rfl
    exact ⟨hperm, hprecedes⟩
  · intro h
    exact Ip.eq_of_perm_of_precedes hproper (hperm.trans h.1.symm) hprecedes h.2

/-- The pools of an operator are accepted if they are legal, and then they are kept as they are but
for their order. -/
theorem validatePools_accepts_legal (cidr : Cidr) (gateway : Option Address)
    (specs : List PoolSpec) (hg : ∀ gw ∈ gateway, gw.family = cidr.family) :
    (hostBounds cidr = none →
      ∃ text, validatePools cidr gateway specs = .error (.invalidInput text)) ∧
    ∀ host, hostBounds cidr = some host →
      ((∃ pools, validatePools cidr gateway specs = .ok pools) ↔
        ∃ parsed, List.Forall₂ PoolSpec.Spells specs parsed ∧
          (∀ pool ∈ parsed, cidr.Admits host gateway pool) ∧ parsed.Pairwise Ip.Span.Disjoint) ∧
      ∀ pools, validatePools cidr gateway specs = .ok pools →
        ∃ parsed, List.Forall₂ PoolSpec.Spells specs parsed ∧ pools.Perm parsed ∧
          pools.Pairwise Ip.Span.Precedes := by
  constructor
  · intro hhost
    simp [validatePools, hhost, throw, throwThe, MonadExceptOf.throw]
  · intro host hhost
    simp only [validatePools_eq_ok_iff hhost hg]
    refine ⟨⟨?_, ?_⟩, ?_⟩
    · rintro ⟨pools, parsed, hspells, hadmits, hdisjoint, _⟩
      exact ⟨parsed, hspells, hadmits, hdisjoint⟩
    · rintro ⟨parsed, hspells, hadmits, hdisjoint⟩
      exact ⟨_, parsed, hspells, hadmits, hdisjoint, sortOn_perm _ _,
        (Ip.Cidr.Admits.precedes_iff hadmits).2 hdisjoint⟩
    · rintro pools ⟨parsed, hspells, _, _, hperm, hprecedes⟩
      exact ⟨parsed, hspells, hperm, hprecedes⟩

/-- Pools on both sides of the gateway, the upper one first. -/
theorem unsorted_pools_accepted :
    let block : Cidr := ⟨⟨.v4, 0x0a000000, by decide⟩, 29, by decide⟩
    let gateway : Option Address := some ⟨.v4, 0x0a000003, by decide⟩
    let specs : List PoolSpec := [⟨" 10.0.0.4", "10.0.0.6"⟩, ⟨"10.0.0.1", "10.0.0.2 "⟩]
    (∀ gw ∈ gateway, gw.family = block.family) ∧
      ∃ pools parsed, validatePools block gateway specs = .ok pools ∧
        List.Forall₂ PoolSpec.Spells specs parsed ∧ pools.Perm parsed ∧
        pools.Pairwise Ip.Span.Precedes := by
  intro block gateway specs
  have hg : ∀ gw ∈ gateway, gw.family = block.family := by simp [gateway, block]
  let host : Span := ⟨⟨.v4, 0x0a000001, by decide⟩, ⟨.v4, 0x0a000006, by decide⟩⟩
  let upper : Span := ⟨⟨.v4, 0x0a000004, by decide⟩, ⟨.v4, 0x0a000006, by decide⟩⟩
  let lower : Span := ⟨⟨.v4, 0x0a000001, by decide⟩, ⟨.v4, 0x0a000002, by decide⟩⟩
  have hspells : List.Forall₂ PoolSpec.Spells specs [upper, lower] :=
    .cons ⟨by decide +kernel, by decide +kernel⟩
      (.cons ⟨by decide +kernel, by decide +kernel⟩ .nil)
  have hadmits : ∀ pool ∈ [upper, lower], block.Admits host gateway pool := by
    intro pool hmem
    have hpool : pool = upper ∨ pool = lower := by simpa using hmem
    rcases hpool with rfl | rfl <;>
      exact ⟨rfl, rfl, by decide, by decide, by decide, by decide +kernel⟩
  have hdisjoint : [upper, lower].Pairwise Ip.Span.Disjoint := by
    have hprecedes : lower.Precedes upper := by simp [Ip.Span.Precedes, lower, upper]
    simpa using hprecedes.disjoint.symm
  obtain ⟨haccepts, hkeeps⟩ := (validatePools_accepts_legal block gateway specs hg).2 host
    (by decide +kernel)
  obtain ⟨pools, hpools⟩ := haccepts.2 ⟨_, hspells, hadmits, hdisjoint⟩
  obtain ⟨parsed, h⟩ := hkeeps pools hpools
  exact ⟨hg, pools, parsed, hpools, h⟩

theorem resolveGateway_family (h : resolveGateway cidr choice = .ok gateway) :
    ∀ gw ∈ gateway, gw.family = cidr.family := by
  intro gw hgw
  cases choice with
  | disabled =>
    cases h
    cases hgw
  | automatic =>
    cases h
    obtain ⟨host, hhost, rfl⟩ := Option.map_eq_some_iff.1 hgw
    exact (Ip.hostBounds_values hhost).1
  | address address =>
    simp only [resolveGateway] at h
    split at h
    · rename_i haddress
      cases h
      cases hgw
      obtain ⟨host, hhost, hc⟩ := Ip.isHostAddress_iff.1 haddress
      exact (Ip.Span.contains_iff.1 hc).1.trans (Ip.hostBounds_values hhost).1
    · cases h

/-- The derived pools leave out the gateway and no other host address. -/
theorem exists_mem_derivePools {a : Address} :
    (∃ pool ∈ derivePools cidr gateway, pool.contains a = true) ↔
      Ip.isHostAddress cidr a = true ∧ gateway ≠ some a := by
  constructor
  · rintro ⟨pool, hpool, ha⟩
    exact derivePools_seats pool hpool a ha
  · rintro ⟨ha, hne⟩
    obtain ⟨host, hhost, ha⟩ := Ip.isHostAddress_iff.1 ha
    simp only [derivePools, hhost]
    split
    · exact ⟨host, List.mem_singleton.2 rfl, ha⟩
    · rename_i gw hgw
      obtain ⟨rfl, hc⟩ := Option.filter_eq_some_iff.1 hgw
      obtain ⟨hf, hlo, hhi⟩ := Ip.Span.contains_iff.1 ha
      obtain ⟨hgf, hglo, hghi⟩ := Ip.Span.contains_iff.1 hc
      have hv : a.value ≠ gw.value := fun hv =>
        hne (congrArg some (Address.ext (hf.trans hgf.symm) hv).symm)
      by_cases hlt : a.value < gw.value
      · obtain ⟨last, hlast, hlf, hlv⟩ := Address.exists_previous hlt
        refine ⟨⟨host.first, last⟩, List.mem_append_left _ ?_,
          Ip.Span.contains_iff.2 ⟨hf, hlo, by simp only; omega⟩⟩
        rw [if_pos (by omega), hlast]
        simp
      · have hgt : gw.value < a.value := by omega
        obtain ⟨first, hfirst, hff, hfv⟩ := Address.exists_next hgt (hgf.trans hf.symm)
        refine ⟨⟨first, host.last⟩, List.mem_append_right _ ?_,
          Ip.Span.contains_iff.2 ⟨hf.trans (hff.trans hgf).symm, by simp only; omega, hhi⟩⟩
        rw [if_pos (by omega), hfirst]
        simp

theorem derivePools_admits (hhost : hostBounds cidr = some host) :
    ∀ pool ∈ derivePools cidr gateway, cidr.Admits host gateway pool := by
  intro pool hpool
  have hseats := derivePools_seats pool hpool
  have hp := (derivePools_ascending cidr gateway).proper pool hpool
  have hf := (derivePools_ascending cidr gateway).family pool hpool
  obtain ⟨other, hother, hw⟩ := hseats.within hp
  rw [hhost] at hother
  cases hother
  refine ⟨hf, hp.family.trans hf, hp.le, hw.first, hw.last, ?_⟩
  rintro gw rfl
  by_cases hc : pool.contains gw = true
  · exact absurd rfl (hseats gw hc).2
  · simpa using hc

/-- The derived pools are what the block can give without its gateway, and an operator who writes
them down in any order gets the same ones. -/
theorem derivePools_covers (h : resolveGateway cidr choice = .ok gateway) :
    Ip.Ascending cidr.family (derivePools cidr gateway) ∧
      (∀ a, (∃ pool ∈ derivePools cidr gateway, pool.contains a = true) ↔
        Ip.isHostAddress cidr a = true ∧ gateway ≠ some a) ∧
      ((hostBounds cidr).isSome → ∀ specs parsed, List.Forall₂ PoolSpec.Spells specs parsed →
        parsed.Perm (derivePools cidr gateway) →
        validatePools cidr gateway specs = .ok (derivePools cidr gateway)) := by
  have hascending := derivePools_ascending cidr gateway
  refine ⟨hascending, fun a => exists_mem_derivePools, fun hsome specs parsed hspells hperm => ?_⟩
  obtain ⟨host, hhost⟩ := Option.isSome_iff_exists.1 hsome
  have hdisjoint := hascending.precedes.imp Ip.Span.Precedes.disjoint
  refine (validatePools_eq_ok_iff hhost (resolveGateway_family h)).2 ⟨parsed, hspells,
    fun pool hmem => derivePools_admits hhost pool (hperm.mem_iff.1 hmem),
    (hperm.pairwise_iff Ip.Span.Disjoint.symm).2 hdisjoint, hperm.symm, hascending.precedes⟩

/-- The gateway is the last of all addresses, and there is none after it. -/
theorem widest_block_covered :
    let block : Cidr := ⟨⟨.v6, 0, by decide⟩, 0, by decide⟩
    let last : Address := ⟨.v6, 0xffffffffffffffffffffffffffffffff, by decide⟩
    let spec : PoolSpec := ⟨"::1", "ffff:ffff:ffff:ffff:ffff:ffff:ffff:fffe"⟩
    resolveGateway block (.address last) = .ok (some last) ∧
      (∀ a, (∃ pool ∈ derivePools block (some last), pool.contains a = true) ↔
        Ip.isHostAddress block a = true ∧ some last ≠ some a) ∧
      validatePools block (some last) [spec] = .ok (derivePools block (some last)) := by
  intro block last spec
  have hgateway : resolveGateway block (.address last) = .ok (some last) := by decide +kernel
  let pool : Span := ⟨⟨.v6, 1, by decide⟩, ⟨.v6, 0xfffffffffffffffffffffffffffffffe, by decide⟩⟩
  have hspells : List.Forall₂ PoolSpec.Spells [spec] [pool] :=
    .cons ⟨by decide +kernel, by decide +kernel⟩ .nil
  have hperm : [pool].Perm (derivePools block (some last)) := by decide +kernel
  obtain ⟨_, hcovers, hvalidates⟩ := derivePools_covers hgateway
  exact ⟨hgateway, hcovers, hvalidates (by decide +kernel) _ _ hspells hperm⟩

end Subnet

end ControlPlane
