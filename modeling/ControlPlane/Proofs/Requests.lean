import ControlPlane.Port.Update
import Mathlib.Data.List.Perm.Basic

/-! What requests for addresses come to. Each of them is answered by a subnet of the network, and by
the address that it names if it names one. -/

namespace ControlPlane

open Ip (Address)

/-- An address is what a request asks for. -/
structure AllocatedIp.Meets (ip : AllocatedIp) (request : FixedIpRequest) : Prop where
  subnet : ∀ id ∈ request.subnet, ip.subnet = id
  address : ∀ address ∈ request.address, ip.address = address

/-- An address is of the subnet of a target, and it is that of the target if that has one. -/
structure AllocatedIp.Hits (ip : AllocatedIp) (target : Allocation.Target) : Prop where
  subnet : ip.subnet = target.subnet.id
  address : ∀ address ∈ target.address, ip.address = address

/-- A target in one of some subnets that is what a request asks for. -/
structure Allocation.Target.Answers (subnets : List Subnet) (target : Target)
    (request : FixedIpRequest) : Prop where
  mem : target.subnet ∈ subnets
  subnet : ∀ id ∈ request.subnet, target.subnet.id = id
  address : target.address = request.address

/-- The target that a request comes to. -/
structure Allocation.Target.Resolves (network : NetworkId) (subnets : List Subnet)
    (request : FixedIpRequest) (target : Target) : Prop where
  subnet : requestedSubnet network subnets request = .ok target.subnet
  address : target.address = request.address
  host : ∀ address ∈ request.address, target.subnet.isHostAddress address = true

theorem AllocatedIp.Hits.meets {ip : AllocatedIp} {target : Allocation.Target}
    {subnets : List Subnet} {request : FixedIpRequest} (h : ip.Hits target)
    (ha : target.Answers subnets request) : ip.Meets request := by
  constructor
  · intro id hid
    rw [h.subnet, ha.subnet id hid]
  · rw [← ha.address]
    exact h.address

theorem AllocatedIp.Hits.all_meet {ips : List AllocatedIp} {targets : List Allocation.Target}
    {subnets : List Subnet} {requests : List FixedIpRequest}
    (h : List.Forall₂ AllocatedIp.Hits ips targets)
    (ha : List.Forall₂ (Allocation.Target.Answers subnets) targets requests) :
    List.Forall₂ AllocatedIp.Meets ips requests := by
  induction h generalizing requests with
  | nil =>
    cases ha
    exact .nil
  | cons hhead _ ih =>
    cases ha with
    | cons hanswers hrest => exact .cons (hhead.meets hanswers) (ih hrest)

namespace Allocation

variable {network : NetworkId} {subnets : List Subnet} {seen : List Address}
  {requests : List FixedIpRequest} {targets : List Target}

theorem requestedSubnet_answers {request : FixedIpRequest} {subnet : Subnet}
    (h : requestedSubnet network subnets request = .ok subnet) :
    subnet ∈ subnets ∧ ∀ id ∈ request.subnet, subnet.id = id := by
  have hfound {p : Subnet → Bool} {error : Error}
      (hf : (subnets.find? p).elim (.error error) (.ok : Subnet → Except Error Subnet) =
        .ok subnet) : subnets.find? p = some subnet := by
    cases hs : subnets.find? p with
    | none =>
      rw [hs] at hf
      cases hf
    | some found =>
      rw [hs] at hf
      cases hf
      rfl
  unfold requestedSubnet at h
  split at h
  · rename_i id hid
    have hs := hfound h
    refine ⟨List.mem_of_find?_eq_some hs, fun other hother => ?_⟩
    have heq := List.find?_some hs
    rw [hid] at hother
    cases hother
    simpa using heq
  · rename_i hid _
    refine ⟨List.mem_of_find?_eq_some (hfound h), fun other hother => ?_⟩
    rw [hid] at hother
    cases hother
  · cases h

theorem Target.Resolves.answers {request : FixedIpRequest} {target : Target}
    (h : Target.Resolves network subnets request target) : target.Answers subnets request := by
  obtain ⟨hmem, hid⟩ := requestedSubnet_answers h.subnet
  exact ⟨hmem, hid, h.address⟩

/-- Requests are resolved one by one, but no two of them may name the same address. -/
theorem resolve_eq_ok_iff : resolve network subnets seen requests = .ok targets ↔
    List.Forall₂ (Target.Resolves network subnets) requests targets ∧
      (requests.filterMap FixedIpRequest.address).Nodup ∧
      ∀ address ∈ requests.filterMap FixedIpRequest.address, address ∉ seen := by
  induction requests generalizing seen targets with
  | nil => cases targets <;> simp [resolve]
  | cons request rest ih =>
    rw [resolve, Error.bind_eq_ok_iff]
    cases haddress : request.address with
    | none =>
      simp only [Error.bind_eq_ok_iff, ih, List.filterMap_cons, haddress]
      constructor
      · rintro ⟨subnet, hsubnet, others, ⟨hothers, hnamed⟩, h⟩
        cases h
        exact ⟨.cons ⟨hsubnet, haddress.symm, by simp [haddress]⟩ hothers, hnamed⟩
      · rintro ⟨h, hnamed⟩
        cases h with
        | @cons _ target _ others hhead hothers =>
          refine ⟨target.subnet, hhead.subnet, others, ⟨hothers, hnamed⟩, ?_⟩
          rw [← haddress, ← hhead.address]
          rfl
    | some address =>
      simp only [List.filterMap_cons, haddress, List.nodup_cons, List.forall_mem_cons]
      constructor
      · rintro ⟨subnet, hsubnet, h⟩
        obtain ⟨hhost, h⟩ := Error.guard_eq_ok_iff.1 h
        obtain ⟨hseen, h⟩ := Error.guard_eq_ok_iff.1 h
        obtain ⟨others, hothers, h⟩ := Error.bind_eq_ok_iff.1 h
        cases h
        obtain ⟨hothers, hnodup, hnew⟩ := ih.1 hothers
        have hhost : ∀ other ∈ request.address, subnet.isHostAddress other = true := by
          simpa [haddress] using hhost
        refine ⟨.cons ⟨hsubnet, haddress.symm, hhost⟩ hothers, ⟨fun hmem => ?_, hnodup⟩,
          by simpa using hseen, fun other hmem hold => ?_⟩
        · exact hnew address hmem List.mem_cons_self
        · exact hnew other hmem (List.mem_cons_of_mem _ hold)
      · rintro ⟨h, ⟨hown, hnodup⟩, hseen, hnew⟩
        cases h with
        | @cons _ target _ others hhead hothers =>
          have hhost : target.subnet.isHostAddress address = true := hhead.host address haddress
          have hnew : ∀ other ∈ rest.filterMap FixedIpRequest.address, other ∉ address :: seen := by
            intro other hmem hold
            rcases List.mem_cons.1 hold with rfl | hold
            · exact hown hmem
            · exact hnew other hmem hold
          refine ⟨target.subnet, hhead.subnet, Error.guard_eq_ok_iff.2 ⟨by simp [hhost],
            Error.guard_eq_ok_iff.2 ⟨by simpa using hseen,
              Error.bind_eq_ok_iff.2 ⟨others, ih.2 ⟨hothers, hnodup, hnew⟩, ?_⟩⟩⟩⟩
          rw [← haddress, ← hhead.address]
          rfl

theorem resolve_answers (h : resolve network subnets seen requests = .ok targets) :
    List.Forall₂ (Target.Answers subnets) targets requests :=
  ((resolve_eq_ok_iff.1 h).1.imp fun _ _ => Target.Resolves.answers).flip

/-- The order of the requests is that of their targets, and nothing else depends on it. -/
theorem resolve_perm {others : List FixedIpRequest} (hperm : others.Perm requests)
    (h : resolve network subnets [] requests = .ok targets) :
    ∃ others', resolve network subnets [] others = .ok others' ∧ others'.Perm targets := by
  obtain ⟨hresolves, hnodup, _⟩ := resolve_eq_ok_iff.1 h
  obtain ⟨others', hothers, hperm'⟩ := List.perm_comp_forall₂ hperm hresolves
  have hnamed := hperm.filterMap FixedIpRequest.address
  exact ⟨others', resolve_eq_ok_iff.2 ⟨hothers, hnamed.nodup_iff.2 hnodup, by simp⟩, hperm'⟩

theorem resolve_mem (h : resolve network subnets seen requests = .ok targets) :
    ∀ target ∈ targets, ∃ request ∈ requests, target.Answers subnets request := by
  have hanswers := resolve_answers h
  clear h
  induction hanswers with
  | nil => exact List.forall_mem_nil _
  | cons hfirst _ ih =>
    refine List.forall_mem_cons.2 ⟨⟨_, List.mem_cons_self, hfirst⟩, fun target ht => ?_⟩
    obtain ⟨request, hrequest, hanswer⟩ := ih target ht
    exact ⟨request, List.mem_cons_of_mem _ hrequest, hanswer⟩

end Allocation

/-- What is wanted was asked for. -/
theorem Port.keepAndWant_sublist {current kept final : List AllocatedIp}
    {requests wanted : List FixedIpRequest}
    (h : keepAndWant current kept requests = .ok (final, wanted)) : wanted.Sublist requests := by
  induction requests generalizing kept final wanted with
  | nil =>
    cases h
    exact .slnil
  | cons request rest ih =>
    unfold keepAndWant at h
    split at h
    · obtain ⟨⟨_, others⟩, hrest, h⟩ := Error.bind_eq_ok_iff.1 h
      cases h
      exact (ih hrest).cons_cons request
    · split at h
      · cases h
      · exact (ih h).cons request

theorem Port.matchesRequest_meets {request : FixedIpRequest} {ip : AllocatedIp}
    (h : matchesRequest request ip = true) : ip.Meets request := by
  simp only [matchesRequest, Bool.and_eq_true, decide_eq_true_eq, Option.all_eq_true] at h
  obtain ⟨haddress, hsubnet⟩ := h
  constructor
  · exact fun id hid => (hsubnet id hid).symm
  · intro address ha
    rw [haddress] at ha
    exact Option.some.inj ha

/-- What the port has and a request names is kept, under one of its subnets, and nothing else. -/
theorem Port.keepAndWant_named {current kept final : List AllocatedIp}
    {requests wanted : List FixedIpRequest}
    (h : keepAndWant current kept requests = .ok (final, wanted)) :
    (∀ ip ∈ kept, ip ∈ final) ∧
    (∀ request ∈ requests, ∀ ip ∈ current, matchesRequest request ip = true →
      ∃ same ∈ final, matchesRequest request same = true) ∧
    ∀ ip ∈ final, ip ∈ kept ∨ ∃ request ∈ requests, matchesRequest request ip = true := by
  induction requests generalizing kept final wanted with
  | nil =>
    cases h
    exact ⟨fun _ hip => hip, nofun, fun _ hip => .inl hip⟩
  | cons request rest ih =>
    unfold keepAndWant at h
    split at h
    · rename_i hnone
      obtain ⟨⟨_, others⟩, hrest, h⟩ := Error.bind_eq_ok_iff.1 h
      cases h
      obtain ⟨hkept, hnamed, hfinal⟩ := ih hrest
      refine ⟨hkept, List.forall_mem_cons.2 ⟨fun ip hip hm => ?_, hnamed⟩, fun ip hip => ?_⟩
      · exact absurd hm (List.find?_eq_none.1 hnone ip hip)
      · refine (hfinal ip hip).imp_right ?_
        rintro ⟨other, hother, hm⟩
        exact ⟨other, List.mem_cons_of_mem _ hother, hm⟩
    · rename_i found hfound
      split at h
      · cases h
      · obtain ⟨hkept, hnamed, hfinal⟩ := ih h
        obtain ⟨hown, hkept⟩ := List.forall_mem_cons.1 hkept
        have hmatch := List.find?_some hfound
        refine ⟨hkept, List.forall_mem_cons.2 ⟨fun _ _ _ => ⟨found, hown, hmatch⟩, hnamed⟩,
          fun ip hip => ?_⟩
        rcases hfinal ip hip with hip | ⟨other, hother, hm⟩
        · rcases List.mem_cons.1 hip with rfl | hip
          · exact .inr ⟨request, List.mem_cons_self, hmatch⟩
          · exact .inl hip
        · exact .inr ⟨other, List.mem_cons_of_mem _ hother, hm⟩

/-- What is kept and what is allocated for the wanted is one address for each request. -/
theorem Port.keepAndWant_meets {current kept final : List AllocatedIp}
    {requests wanted : List FixedIpRequest} (h : keepAndWant current kept requests = .ok (final, wanted))
    (hnodup : kept.Nodup) (hsub : ∀ ip ∈ kept, ip ∈ current) :
    (final.Nodup ∧ ∀ ip ∈ final, ip ∈ current) ∧
    ∀ added, List.Forall₂ AllocatedIp.Meets added wanted →
      ∃ ips, List.Forall₂ AllocatedIp.Meets ips requests ∧ (kept ++ ips).Perm (final ++ added) := by
  induction requests generalizing kept final wanted with
  | nil =>
    cases h
    refine ⟨⟨hnodup, hsub⟩, fun added hadded => ?_⟩
    cases hadded
    exact ⟨[], .nil, .refl _⟩
  | cons request rest ih =>
    unfold keepAndWant at h
    split at h
    · obtain ⟨⟨_, others⟩, hrest, h⟩ := Error.bind_eq_ok_iff.1 h
      cases h
      obtain ⟨hfinal, hmeets⟩ := ih hrest hnodup hsub
      refine ⟨hfinal, fun added hadded => ?_⟩
      cases hadded with
      | cons hfirst hothers =>
        obtain ⟨ips, hips, hperm⟩ := hmeets _ hothers
        refine ⟨_ :: ips, .cons hfirst hips, ?_⟩
        exact (List.perm_middle.trans (hperm.cons _)).trans List.perm_middle.symm
    · rename_i ip hfound
      split at h
      · cases h
      · rename_i hnew
        have hnodup : (ip :: kept).Nodup := by
          rw [List.nodup_cons]
          exact ⟨by simpa using hnew, hnodup⟩
        have hsub := List.forall_mem_cons.2 ⟨List.mem_of_find?_eq_some hfound, hsub⟩
        obtain ⟨hfinal, hmeets⟩ := ih h hnodup hsub
        refine ⟨hfinal, fun added hadded => ?_⟩
        obtain ⟨ips, hips, hperm⟩ := hmeets added hadded
        have hfirst := matchesRequest_meets (List.find?_some hfound)
        exact ⟨ip :: ips, .cons hfirst hips, List.perm_middle.trans hperm⟩

end ControlPlane
