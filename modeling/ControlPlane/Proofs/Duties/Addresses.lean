import ControlPlane.Proofs.Ledgers

/-! What operations on addresses leave a command charged with: it owes what it has allocated until it
gives that back, and it gives back whatever it was answered. -/

namespace ControlPlane

open Ip (Address)
open Operation

theorem Ipam.Labelled.mem_portAllocations {ipam : Ipam} {ip : AllocatedIp} {port : PortId}
    (hl : ipam.Labelled) : ip ∈ (ipam.portAllocations port).map Allocation.allocated ↔
      ipam.holder? ip = some port := by
  constructor
  · intro hip
    obtain ⟨row, hrow, rfl⟩ := List.mem_map.1 hip
    obtain ⟨hrow, hport⟩ := List.mem_filter.1 hrow
    obtain ⟨key, hfound⟩ := Table.mem_values.1 hrow
    rw [hl hfound] at hfound
    exact Option.map_eq_some_iff.2 ⟨row, hfound, of_decide_eq_true hport⟩
  · intro h
    obtain ⟨row, hrow, hport⟩ := Option.map_eq_some_iff.1 h
    have hkey := hl hrow
    simp only [Prod.mk.injEq] at hkey
    refine List.mem_map.2 ⟨row, List.mem_filter.2 ⟨Table.mem_values.2 ⟨_, hrow⟩, ?_⟩, ?_⟩
    · exact decide_eq_true hport
    · obtain ⟨address, subnet⟩ := ip
      obtain ⟨rfl, rfl⟩ := hkey
      rfl

theorem Ipam.Labelled.nodup_portAllocations {ipam : Ipam} (hl : ipam.Labelled) (port : PortId) :
    ((ipam.portAllocations port).map Allocation.allocated).Nodup := by
  have hdistinct : ipam.allocations.values.Pairwise fun row other =>
      row.allocated ≠ other.allocated := by
    refine Table.values_pairwise fun key other row row' hrow hrow' hne heq => hne ?_
    rw [hl hrow, hl hrow']
    simp only [Allocation.allocated, AllocatedIp.mk.injEq] at heq
    rw [heq.1, heq.2]
  exact List.pairwise_map.2 (hdistinct.filter _)

namespace Duty

variable {duty : Duty} {past others moves : List Move} {tag : Nat} {ips more : List AllocatedIp}
  {ip : AllocatedIp} {α : Type} {c : Call α} {before after : State} {answer : α}

theorem Accounts.mono (h : duty.Accounts tag ips past) (hsub : ∀ ip ∈ ips, ip ∈ more) :
    duty.Accounts tag more past :=
  ⟨fun ip ho => hsub ip (h.owes ip ho), h.loses⟩

theorem not_loses_of_ports (h : after.ports = before.ports) (id : PortId) :
    ¬ (Move.call tag c before answer after).Loses id := by
  rintro ⟨hbefore, hafter⟩
  rw [h, hbefore] at hafter
  cases hafter

theorem Accounts.gain (h : duty.Accounts tag ips past) (hothers : ∀ move ∈ others, move.tag ≠ tag)
    (hports : after.ports = before.ports) (hgains : before.ipam.Gains duty.port more after.ipam) :
    duty.Accounts tag (more ++ ips) (past ++ others ++ [.call tag c before answer after]) := by
  have hnot (id : PortId) : ¬ (Move.call tag c before answer after).Loses id :=
    not_loses_of_ports hports id
  refine (h.append_others hothers).call (fun hl => absurd hl (hnot _)) fun ip hcases hholder _ => ?_
  rcases hcases with hcharges | hip
  · rcases duty.narrow hcharges with ⟨hnone, hsome⟩ | ⟨_, hl⟩
    · by_cases hmore : ip ∈ more
      · exact List.mem_append_left _ hmore
      · rw [Ipam.holder?_congr (hgains.others ip hmore), hnone] at hsome
        cases hsome
    · exact absurd hl (hnot _)
  · exact List.mem_append_right _ hip

theorem Accounts.free (h : duty.Accounts tag (ip :: ips) past)
    (hothers : ∀ move ∈ others, move.tag ≠ tag) (hports : after.ports = before.ports)
    (hfrees : before.ipam.Frees [ip] after.ipam) :
    duty.Accounts tag ips (past ++ others ++ [.call tag c before answer after]) := by
  have hnot (id : PortId) : ¬ (Move.call tag c before answer after).Loses id :=
    not_loses_of_ports hports id
  refine (h.append_others hothers).call (fun hl => absurd hl (hnot _)) fun other hcases hholder _ => ?_
  have hafter := hfrees other
  by_cases heq : other = ip
  · rw [if_pos (List.mem_singleton.2 heq)] at hafter
    rw [Ipam.holder?_eq_none.2 hafter] at hholder
    cases hholder
  · rw [if_neg (mt List.mem_singleton.1 heq)] at hafter
    rcases hcases with hcharges | hip
    · rcases duty.narrow hcharges with ⟨hnone, hsome⟩ | ⟨_, hl⟩
      · rw [Ipam.holder?_congr hafter, hnone] at hsome
        cases hsome
      · exact absurd hl (hnot _)
    · exact (List.mem_cons.1 hip).resolve_left heq

/-- A command owes nothing but what it sees that its port has. -/
theorem Accounts.of_seen (hloses : ∀ move ∈ past, move.tag = tag → move.Loses duty.port → duty.removes)
    (hothers : ∀ move ∈ others, move.tag ≠ tag) (hports : after.ports = before.ports)
    (hips : ∀ ip, after.ipam.holder? ip = some duty.port → ip ∈ ips) :
    duty.Accounts tag ips (past ++ others ++ [.call tag c before answer after]) := by
  refine ⟨fun ip ho => hips ip ((owes_snoc ho).1 after rfl rfl).1, fun move hmove htag hl => ?_⟩
  rcases List.mem_append.1 hmove with hmove | hmove
  · rcases List.mem_append.1 hmove with hmove | hmove
    · exact hloses move hmove htag hl
    · exact absurd htag (hothers move hmove)
  · cases List.mem_singleton.1 hmove
    exact absurd hl (not_loses_of_ports hports _)

/-- What a command owes for a port is on a list that grows and shrinks with its addresses. -/
def ledger (duty : Duty) (tag : Nat) : Ledger tag duty.port where
  holds := duty.Accounts tag
  perm _ _ _ h hperm := h.mono fun _ hip => hperm.subset hip
  keep _ _ _ _ _ h hc hports hkept := by
    cases hc with
    | intro hothers => exact h.gain hothers hports (.of_eq hkept)
  gain _ _ _ _ _ _ h hc hports hgains := by
    cases hc with
    | intro hothers => exact h.gain hothers hports hgains
  free _ _ _ _ _ _ h hc hports hfrees := by
    cases hc with
    | intro hothers => exact h.free hothers hports hfrees

theorem releases_leaves (reclaim : Bool) (h : duty.Accounts tag ips past) :
    (ips.forM (Allocation.release reclaim)).Leaves tag (fun _ => duty.Accounts tag [])
      (fun _ _ => False) past := by
  apply (duty.ledger tag).releases_leaves
  rw [List.append_nil]
  exact h

theorem giveBack_leaves (h : duty.Accounts tag ips past) :
    (Allocation.giveBack ips).Leaves tag (fun _ => duty.Accounts tag []) (fun _ _ => False) past :=
  releases_leaves true h

theorem ofPort_leaves {fails : Error → List Move → Prop}
    (hloses : ∀ move ∈ past, move.tag = tag → move.Loses duty.port → duty.removes) :
    (Allocation.ofPort duty.port).Leaves tag (duty.Accounts tag) fails past :=
  Operation.leaves_readIpam fun _ _ hothers hf _ => .of_seen hloses hothers rfl fun _ hholder =>
    hf.orderly.labelled.mem_portAllocations.2 hholder

theorem releasePort_leaves (duty : Duty) (config : IpamConfig)
    (hloses : ∀ move ∈ past, move.tag = tag → move.Loses duty.port → duty.removes) :
    (Allocation.releasePort config duty.port).Leaves tag (fun _ => duty.Accounts tag [])
      (fun _ _ => False) past := by
  refine (ofPort_leaves hloses).bind fun ips later _ hips => ?_
  exact (releases_leaves _ hips).bind fun _ _ _ hlast => leaves_pure hlast

theorem forPort_leaves (config : Config) (network : NetworkId) (requests : List FixedIpRequest)
    (h : duty.Accounts tag [] past) :
    (Allocation.forPort config duty.port network requests).Leaves tag (duty.Accounts tag)
      (fun error later => duty.Accounts tag [] later ∧ error.Plain) past := by
  refine ((duty.ledger tag).forPort_leaves config network requests h).mono (fun ips _ _ hips => ?_)
    fun _ _ _ hf => hf
  rw [← List.append_nil ips]
  exact hips.1

end Duty

end ControlPlane
