import ControlPlane.Proofs.Ip.Spans
import ControlPlane.Subnet.Lifecycle
import Mathlib.Data.List.Forall2

/-! The pools of a new subnet, given or derived, are proper spans of the family of its block, in
ascending order and without a common address. -/

namespace ControlPlane

open Ip (Address Cidr Family Span hostBounds)

/-- Spans of a family that follow each other. -/
structure Ip.Ascending (family : Family) (spans : List Span) : Prop where
  proper : ∀ s ∈ spans, s.Proper
  family : ∀ s ∈ spans, s.first.family = family
  precedes : spans.Pairwise Span.Precedes

/-- The texts of a pool, but for blanks around them, are those of the bounds of a span. -/
structure PoolSpec.Spells (spec : PoolSpec) (span : Span) : Prop where
  first : Address.ofChars? (Text.trim spec.start.toList) = some span.first
  last : Address.ofChars? (Text.trim spec.stop.toList) = some span.last

theorem Ip.proper_of_values {family : Family} {first last : Nat} {span : Span}
    (h : (if first ≤ last then
        (do return ⟨← Address.ofValue? family first, ← Address.ofValue? family last⟩ : Option Span)
      else none) = some span) : span.Proper ∧ span.first.family = family := by
  split at h
  · rename_i hle
    have ⟨⟨hf, hv⟩, hf', hv'⟩ := Ip.span_of_values_eq_some.1 h
    exact ⟨⟨hf'.trans hf.symm, by rw [hv, hv']; exact hle⟩, hf⟩
  · cases h

theorem Ip.hostBounds_proper {cidr : Cidr} {host : Span} (h : hostBounds cidr = some host) :
    host.Proper ∧ host.first.family = cidr.family :=
  Ip.proper_of_values h

namespace Subnet

theorem derivePools_ascending (cidr : Cidr) (gateway : Option Address) :
    Ip.Ascending cidr.family (derivePools cidr gateway) := by
  unfold derivePools
  split
  · exact ⟨by simp, by simp, .nil⟩
  · rename_i host hhost
    have ⟨hs, hf⟩ := Ip.hostBounds_proper hhost
    split
    · exact ⟨by simpa using hs, by simpa using hf, List.pairwise_singleton _ _⟩
    · rename_i gw hgw
      have hc := (Option.filter_eq_some_iff.1 hgw).2
      have ⟨hgf, hlo, hhi⟩ := Ip.Span.contains_iff.1 hc
      have hbelow : ∀ s ∈ (if host.first.value < gw.value then
          gw.previous?.toList.map fun last => (⟨host.first, last⟩ : Span) else []),
          s.Proper ∧ s.first.family = cidr.family ∧ s.last.value + 1 = gw.value := by
        intro s hmem
        split at hmem
        · obtain ⟨last, hlast, rfl⟩ := List.mem_map.1 hmem
          have ⟨hlf, hlv⟩ := Address.previous?_eq_some.1 (Option.mem_toList.1 hlast)
          exact ⟨⟨hlf.trans hgf, by simp only; omega⟩, hf, hlv⟩
        · cases hmem
      have habove : ∀ s ∈ (if gw.value < host.last.value then
          gw.next?.toList.map fun first => (⟨first, host.last⟩ : Span) else []),
          s.Proper ∧ s.first.family = cidr.family ∧ s.first.value = gw.value + 1 := by
        intro s hmem
        split at hmem
        · obtain ⟨first, hfirst, rfl⟩ := List.mem_map.1 hmem
          have ⟨hff, hfv⟩ := Address.next?_eq_some.1 (Option.mem_toList.1 hfirst)
          have hff := hff.trans hgf
          exact ⟨⟨hs.family.trans hff.symm, by simp only; omega⟩, hff.trans hf, hfv⟩
        · cases hmem
      have hone (f : Address → Span) (found : Option Address) :
          (found.toList.map f).Pairwise Ip.Span.Precedes := by cases found <;> simp
      refine ⟨?_, ?_, List.pairwise_append.2 ⟨?_, ?_, ?_⟩⟩
      · exact fun s hmem => (List.mem_append.1 hmem).elim (fun h => (hbelow s h).1)
          fun h => (habove s h).1
      · exact fun s hmem => (List.mem_append.1 hmem).elim (fun h => (hbelow s h).2.1)
          fun h => (habove s h).2.1
      · split
        · exact hone _ _
        · exact .nil
      · split
        · exact hone _ _
        · exact .nil
      · intro s hs' t ht
        have := (hbelow s hs').2.2
        have := (habove t ht).2.2
        simp only [Ip.Span.Precedes]
        omega

theorem parseBound_eq_ok_iff {text : String} {address : Address} : parseBound text = .ok address ↔
    Address.ofChars? (Text.trim text.toList) = some address := by
  unfold parseBound
  cases Address.ofChars? (Text.trim text.toList) <;> simp

theorem checkPool_eq_ok_iff {cidr : Cidr} {host s : Span} {gateway : Option Address}
    {spec : PoolSpec} : checkPool cidr host gateway spec = .ok s ↔
      spec.Spells s ∧ s.Proper ∧ s.Within host ∧
        ∀ gw ∈ gateway, ¬ (s.first.value ≤ gw.value ∧ gw.value ≤ s.last.value) := by
  constructor
  · intro h
    obtain ⟨first, hfirst, h⟩ := Error.bind_eq_ok_iff.1 h
    obtain ⟨last, hlast, h⟩ := Error.bind_eq_ok_iff.1 h
    obtain ⟨hf, h⟩ := Error.guard_eq_ok_iff.1 h
    obtain ⟨hle, h⟩ := Error.guard_eq_ok_iff.1 h
    obtain ⟨hin, h⟩ := Error.guard_eq_ok_iff.1 h
    have hspan : s = ⟨first, last⟩ ∧ ∀ gw ∈ gateway, ¬ (first.value ≤ gw.value ∧
        gw.value ≤ last.value) := by
      cases gateway with
      | none => exact ⟨(Except.ok.inj h).symm, by simp⟩
      | some gw =>
        obtain ⟨hclear, h⟩ := Error.guard_eq_ok_iff.1 h
        exact ⟨(Except.ok.inj h).symm, by simpa using hclear⟩
    obtain ⟨rfl, hclear⟩ := hspan
    simp only [ne_eq, not_or, Decidable.not_not, Nat.not_lt] at hf hle hin
    exact ⟨⟨parseBound_eq_ok_iff.1 hfirst, parseBound_eq_ok_iff.1 hlast⟩,
      ⟨hf.2.trans hf.1.symm, hle⟩, ⟨hf.1, hin.1, hin.2⟩, hclear⟩
  · rintro ⟨hspells, hs, hw, hclear⟩
    refine Error.bind_eq_ok_iff.2 ⟨s.first, parseBound_eq_ok_iff.2 hspells.first, ?_⟩
    refine Error.bind_eq_ok_iff.2 ⟨s.last, parseBound_eq_ok_iff.2 hspells.last, ?_⟩
    have hf := hw.family
    have hf' := hs.family.trans hf
    have hle := hs.le
    have hfirst := hw.first
    have hlast := hw.last
    refine Error.guard_eq_ok_iff.2 ⟨by simp [hf, hf'], ?_⟩
    refine Error.guard_eq_ok_iff.2 ⟨by omega, ?_⟩
    refine Error.guard_eq_ok_iff.2 ⟨by omega, ?_⟩
    cases gateway with
    | none => rfl
    | some gw => exact Error.guard_eq_ok_iff.2 ⟨hclear gw rfl, rfl⟩

/-- Neighbours are compared only, but spans that follow each other share no address at all. -/
theorem checkDisjoint_eq_ok_iff {spans : List Span} (hs : ∀ s ∈ spans, s.Proper) :
    checkDisjoint spans = .ok () ↔ spans.Pairwise Ip.Span.Precedes := by
  induction spans with
  | nil => simp [checkDisjoint]
  | cons a rest ih =>
    cases rest with
    | nil => simp [checkDisjoint]
    | cons b rest =>
      have ih := ih fun s hm => hs s (List.mem_cons_of_mem _ hm)
      have hb := (hs b (by simp)).le
      by_cases hab : b.first.value ≤ a.last.value
      · have hnot : ¬ (a :: b :: rest).Pairwise Ip.Span.Precedes := fun h =>
          absurd ((List.pairwise_cons.1 h).1 b List.mem_cons_self) (Nat.not_lt.2 hab)
        simp [checkDisjoint, hab, hnot]
      · rw [checkDisjoint, if_neg hab, ih, List.pairwise_cons (a := a)]
        constructor
        · intro hrest
          refine ⟨fun s hm => ?_, hrest⟩
          simp only [Ip.Span.Precedes]
          rcases List.mem_cons.1 hm with rfl | hm
          · omega
          · have hbs : b.last.value < s.first.value := (List.pairwise_cons.1 hrest).1 s hm
            omega
        · exact fun h => h.2

theorem mapM_eq_ok_iff {α β : Type} {f : α → Except Error β} {as : List α} {bs : List β} :
    as.mapM f = .ok bs ↔ List.Forall₂ (fun a b => f a = .ok b) as bs := by
  rw [← List.mapM'_eq_mapM]
  induction as generalizing bs with
  | nil => cases bs <;> simp [List.mapM', pure, Except.pure]
  | cons a as ih =>
    rw [List.mapM', Error.bind_eq_ok_iff]
    constructor
    · rintro ⟨b, hb, h⟩
      obtain ⟨rest, hrest, h⟩ := Error.bind_eq_ok_iff.1 h
      cases h
      exact .cons hb (ih.1 hrest)
    · intro h
      cases h with
      | cons hb hrest => exact ⟨_, hb, Error.bind_eq_ok_iff.2 ⟨_, ih.2 hrest, rfl⟩⟩

theorem mapM_eq_ok_forall {α β : Type} {f : α → Except Error β} {P : β → Prop}
    (hf : ∀ a b, f a = .ok b → P b) {as : List α} {bs : List β} (h : as.mapM f = .ok bs) :
    ∀ b ∈ bs, P b := by
  replace h := mapM_eq_ok_iff.1 h
  induction h with
  | nil => simp
  | cons hb _ ih => exact List.forall_mem_cons.2 ⟨hf _ _ hb, ih⟩

theorem validatePools_ascending {cidr : Cidr} {gateway : Option Address} {specs : List PoolSpec}
    {spans : List Span} (h : validatePools cidr gateway specs = .ok spans) :
    Ip.Ascending cidr.family spans := by
  unfold validatePools at h
  split at h
  · cases h
  · rename_i host hhost
    obtain ⟨pools, hpools, h⟩ := Error.bind_eq_ok_iff.1 h
    obtain ⟨_, hdisjoint, h⟩ := Error.bind_eq_ok_iff.1 h
    cases h
    have hall := mapM_eq_ok_forall (fun _ _ hspec => (checkPool_eq_ok_iff.1 hspec).2) hpools
    have hproper : ∀ s ∈ sortOn (fun pool => pool.first.value) pools, s.Proper :=
      fun s hs => (hall s (mem_sortOn.1 hs)).1
    refine ⟨hproper, fun s hs => ?_, (checkDisjoint_eq_ok_iff hproper).1 hdisjoint⟩
    rw [(hall s (mem_sortOn.1 hs)).2.1.family]
    exact (Ip.hostBounds_proper hhost).2

theorem poolBounds_ascending {cidr : Cidr} {gateway : Option Address}
    {specs : Option (List PoolSpec)} {spans : List Span}
    (h : poolBounds cidr gateway specs = .ok spans) : Ip.Ascending cidr.family spans := by
  cases specs with
  | some specs => exact validatePools_ascending h
  | none =>
    cases h
    exact derivePools_ascending cidr gateway

end Subnet

end ControlPlane
