import ControlPlane.Proofs.Alone.Generation
import ControlPlane.Proofs.Duties
import ControlPlane.Proofs.Requests

/-! Ledgers. A command that allocates addresses to a port and releases some keeps a list of addresses
while others run between its calls; what the list tells of the addresses is up to the ledger. -/

namespace ControlPlane

open Ip (Address)
open Operation

/-- After its moves and those of others since, a call of a command led from one state to another. -/
inductive Called (tag : Nat) (past : List Move) (before after : State) : List Move → Prop
  | intro {α : Type} {c : Call α} {answer : α} {others : List Move}
    (hothers : ∀ move ∈ others, move.tag ≠ tag) (hf : Faithful False (past ++ others) before) :
    Called tag past before after (past ++ others ++ [.call tag c before answer after])

/-- A list of addresses that a command keeps, with what it tells after the moves of the command: it
grows with an address that the port gains, and shrinks by one that is freed. -/
structure Ledger (tag : Nat) (port : PortId) where
  holds : List AllocatedIp → List Move → Prop
  perm : ∀ ⦃ips more past⦄, holds ips past → ips.Perm more → holds more past
  keep : ∀ ⦃ips past before after later⦄, holds ips past → Called tag past before after later →
    after.ports = before.ports → after.ipam.allocations = before.ipam.allocations → holds ips later
  gain : ∀ ⦃ip ips past before after later⦄, holds ips past → Called tag past before after later →
    after.ports = before.ports → before.ipam.Gains port [ip] after.ipam → holds (ip :: ips) later
  free : ∀ ⦃ip ips past before after later⦄, holds (ip :: ips) past →
    Called tag past before after later → after.ports = before.ports →
    before.ipam.Frees [ip] after.ipam → holds ips later

namespace Ledger

variable {tag : Nat} {port : PortId} (ledger : Ledger tag port) {past others : List Move}
  {ips : List AllocatedIp} {ip : AllocatedIp}

/-- An operation that allocates one address to the port, or none if it fails. -/
def Allocates (about : AllocatedIp → Prop) (operation : Operation AllocatedIp) : Prop :=
  ∀ ⦃ips past⦄, ledger.holds ips past → operation.Leaves tag
    (fun ip later => about ip ∧ ledger.holds (ip :: ips) later)
    (fun error later => ledger.holds ips later ∧ error.Plain) past

theorem readIpam_leaves {α : Type} (f : Ipam → α) {fails : Error → List Move → Prop}
    (h : ledger.holds ips past) :
    (Operation.readIpam f).Leaves tag (fun _ => ledger.holds ips) fails past :=
  leaves_readIpam fun _ _ hothers hf _ => ledger.keep h (.intro hothers hf) rfl rfl

theorem generateOnce_allocates (candidates : List Subnet) :
    ledger.Allocates (fun ip => ∃ subnet ∈ candidates, ip.subnet = subnet.id)
      (Allocation.generateOnce port candidates) := by
  intro ips past h
  cases candidates with
  | nil => exact leaves_throw ⟨h, fun _ => nofun⟩
  | cons head rest =>
    refine leaves_ipam fun others before answer after hothers hf hr hd => ?_
    have hports := (State.runIpam_cases hr).1
    have htx := Allocation.generateTx_lowest False port head.network (head :: rest) before.ipam
    rcases State.runIpam_ensures htx hr hd ⟨rfl, hf.sound⟩ with
      ⟨_, rfl, hipam, rfl, _⟩ | ⟨_, _, _, _, _, hc, _⟩ | ⟨ip, rfl, _, hc, _, hl⟩
    · refine ⟨ledger.keep h (.intro hothers hf) hports (congrArg Ipam.allocations hipam), ?_⟩
      exact fun _ => nofun
    · cases hc
    · cases hc
      obtain ⟨subnet, hs, hid, hg, _⟩ := hl.generates
      have hfree := hg.free
      have hallocations := hg.allocations
      rw [hid] at hfree hallocations
      refine ⟨⟨subnet, hs, hid.symm⟩, ledger.gain h (.intro hothers hf) hports ?_⟩
      exact .of_insert hfree (by rfl) hallocations

theorem rebuild_leaves (subnets : List SubnetId) {fails : Error → Prop} (h : ledger.holds ips past) :
    (Allocation.rebuild subnets).Leaves tag (fun _ => ledger.holds ips)
      (fun error later => ledger.holds ips later ∧ fails error) past := by
  refine leaves_forM (fun _ => ledger.holds ips) (fun id rest later _ hlater => ?_) h
  refine (ledger.readIpam_leaves _ hlater).bind fun stored last _ hlast => ?_
  split
  · refine leaves_ipam fun others before answer after hothers hf hr hd => ?_
    have hkept : after.ipam.allocations = before.ipam.allocations :=
      State.runIpam_keeps ((Allocation.rebuildTx_spares id).allocations before.ipam.allocations)
        hr hd rfl rfl
    have hnext : ledger.holds ips (last ++ others ++
        [.call tag (.ipam (Allocation.rebuildTx id)) before answer after]) :=
      ledger.keep hlast (.intro hothers hf) (State.runIpam_cases hr).1 hkept
    rcases State.runIpam_ensures (Allocation.rebuildTx_covers False id before.ipam) hr hd
      ⟨rfl, hf.sound⟩ with ⟨_, _, _, hfalse⟩ | ⟨_, _, rfl, _⟩ | ⟨_, rfl, _⟩
    · exact hfalse.elim
    · exact hnext
    · exact hnext
  · exact leaves_pure hlast

theorem generate_allocates (candidates : List Subnet) :
    ledger.Allocates (fun ip => ∃ subnet ∈ candidates, ip.subnet = subnet.id)
      (Allocation.generate port candidates) := by
  intro ips past h
  refine (ledger.generateOnce_allocates candidates h).orElse fun error later _ hlater => ?_
  split
  · refine (ledger.rebuild_leaves _ hlater.1).bind fun _ last _ hlast => ?_
    exact ledger.generateOnce_allocates candidates hlast
  · exact leaves_throw hlater

theorem allocateAddress_allocates (subnet : Subnet) (address : Address) :
    ledger.Allocates (· = ⟨address, subnet.id⟩) (Allocation.allocateAddress port subnet address) := by
  intro ips past h
  refine leaves_guard (fun _ => ⟨h, fun _ => nofun⟩) fun _ => ?_
  refine leaves_ipam fun others before answer after hothers hf hr hd => ?_
  have hports := (State.runIpam_cases hr).1
  have htx := (Allocation.allocateTx_ensures False port subnet address).and
    (Allocation.allocateTx_adds port subnet address before.ipam)
  rcases State.runIpam_ensures htx hr hd ⟨hf.sound, rfl⟩ with
    ⟨_, rfl, hipam, hrefused, _⟩ | ⟨_, _, _, _, _, hc, _⟩ | ⟨_, rfl, _, hc, _, hfree, hadds⟩
  · exact ⟨ledger.keep h (.intro hothers hf) hports (congrArg Ipam.allocations hipam),
      hrefused.plain⟩
  · cases hc
  · cases hc
    exact ⟨rfl, ledger.gain h (.intro hothers hf) hports (.of_insert hfree (by rfl) hadds)⟩

theorem Allocates.mono {ledger : Ledger tag port} {about about' : AllocatedIp → Prop}
    {operation : Operation AllocatedIp} (h : ledger.Allocates about operation)
    (habout : ∀ ip, about ip → about' ip) : ledger.Allocates about' operation :=
  fun _ _ hpast => (h hpast).mono (fun ip _ _ hip => ⟨habout ip hip.1, hip.2⟩) fun _ _ _ hf => hf

theorem allocateTarget_allocates (target : Allocation.Target) :
    ledger.Allocates (·.Hits target) (Allocation.allocateTarget port target) := by
  unfold Allocation.allocateTarget
  split
  · rename_i address haddress
    refine (ledger.allocateAddress_allocates _ _).mono fun ip hip => ?_
    subst hip
    exact ⟨rfl, fun other hother => Option.some.inj (haddress.symm.trans hother)⟩
  · rename_i hnone
    refine (ledger.generate_allocates _).mono fun ip ⟨subnet, hs, hid⟩ => ?_
    rw [List.mem_singleton.1 hs] at hid
    exact ⟨hid, fun other hother => by simp [hnone] at hother⟩

theorem dualStack_allocates (subnets : List Subnet) :
    ∀ operation ∈ Allocation.dualStack port subnets, ledger.Allocates (fun _ => True) operation := by
  intro operation hmem
  obtain ⟨_, _, rfl, _⟩ := Allocation.mem_dualStack hmem
  exact (ledger.generate_allocates _).mono fun _ _ => trivial

/-- Operations that allocate addresses, each for an item, up to the first that fails. -/
theorem gather_leaves {ι : Type _} (items : List ι) {operation : ι → Operation AllocatedIp}
    {about : ι → AllocatedIp → Prop}
    (hops : ∀ item ∈ items, ledger.Allocates (about item) (operation item))
    (h : ledger.holds ips past) :
    (Allocation.gather (items.map operation)).Leaves tag (fun result later =>
      ledger.holds (result.1 ++ ips) later ∧ (∀ error ∈ result.2, error.Plain) ∧
        (result.2 = none → List.Forall₂ (fun ip item => about item ip) result.1 items)) past := by
  -- The list has `ips` before the operations that are left.
  induction items generalizing ips past with
  | nil => exact ⟨h, nofun, fun _ => .nil⟩
  | cons item rest ih =>
    obtain ⟨hhead, hrest⟩ := List.forall_mem_cons.1 hops
    refine Program.Leaves.bind (hhead h) fun result later _ hresult => ?_
    cases result with
    | error error =>
      refine ⟨hresult.1, fun other ho => ?_, nofun⟩
      cases ho
      exact hresult.2
    | ok ip =>
      refine (ih hrest hresult.2).bind fun result last _ ⟨hlast, hplain, hmeets⟩ => ?_
      exact ⟨ledger.perm hlast List.perm_middle, hplain, fun hnone => .cons hresult.1 (hmeets hnone)⟩

theorem release_leaves (reclaim : Bool) (ip : AllocatedIp) (h : ledger.holds (ip :: ips) past) :
    (Allocation.release reclaim ip).Leaves tag (fun _ => ledger.holds ips) (fun _ _ => False)
      past := by
  refine leaves_ipam fun others before answer after hothers hf hr hd => ?_
  have hports := (State.runIpam_cases hr).1
  have htx := Allocation.releaseTx_erases (False.elim : False → reclaim = true) ip before.ipam
  rcases State.runIpam_ensures htx hr hd ⟨rfl, hf.sound⟩ with
    ⟨_, _, _, hfalse⟩ | ⟨u, tables, rfl, hipam, hback, _, herased⟩ | ⟨_, rfl, _, _, herased⟩
  · exact hfalse.elim
  · -- Nobody had the address, so there was nothing to erase.
    rw [hback u rfl] at herased
    exact ledger.free h (.intro hothers hf) hports ((Ipam.Frees.refl _).snoc (hipam ▸ herased))
  · exact ledger.free h (.intro hothers hf) hports ((Ipam.Frees.refl _).snoc herased)

theorem releases_leaves {freed : List AllocatedIp} (reclaim : Bool)
    (h : ledger.holds (freed ++ ips) past) :
    (freed.forM (Allocation.release reclaim)).Leaves tag (fun _ => ledger.holds ips)
      (fun _ _ => False) past :=
  leaves_forM (fun freed => ledger.holds (freed ++ ips))
    (fun ip _ _ _ hlater => ledger.release_leaves reclaim ip hlater) h

/-- What is allocated is given back unless all of it can be had, and then it is what was asked for. -/
theorem forPort_leaves (config : Config) (network : NetworkId) (requests : List FixedIpRequest)
    (h : ledger.holds ips past) :
    (Allocation.forPort config port network requests).Leaves tag
      (fun added later => ledger.holds (added ++ ips) later ∧
        (requests ≠ [] → List.Forall₂ AllocatedIp.Meets added requests))
      (fun error later => ledger.holds ips later ∧ error.Plain) past := by
  refine leaves_guard (fun _ => ⟨h, fun _ => nofun⟩) fun _ => ?_
  refine (ledger.readIpam_leaves _ h).bind fun subnets later _ hlater => ?_
  refine leaves_bind_except (fun error herror => ⟨hlater, (Allocation.resolve_isInput herror).plain⟩)
    fun targets htargets => ?_
  extract_lets operations
  have hgather : (Allocation.gather operations).Leaves tag (fun result last =>
      ledger.holds (result.1 ++ ips) last ∧ (∀ error ∈ result.2, error.Plain) ∧
        (result.2 = none → requests ≠ [] → List.Forall₂ AllocatedIp.Meets result.1 requests))
      later := by
    unfold operations
    split
    · rename_i hempty
      rw [List.isEmpty_iff] at hempty
      have hops := ledger.gather_leaves (Allocation.dualStack port subnets)
        (ledger.dualStack_allocates subnets) hlater
      rw [List.map_id'] at hops
      exact hops.mono fun _ _ _ hr => ⟨hr.1, hr.2.1, fun _ hne => absurd hempty hne⟩
    · have hops := ledger.gather_leaves targets
        (fun target _ => ledger.allocateTarget_allocates target) hlater
      refine hops.mono fun _ _ _ hr => ⟨hr.1, hr.2.1, fun hnone _ => ?_⟩
      exact AllocatedIp.Hits.all_meet (hr.2.2 hnone) (Allocation.resolve_answers htargets)
  refine (leaves_lift hgather).bind fun ⟨added, error⟩ last _ ⟨hlast, hplain, hmeets⟩ => ?_
  cases error with
  | none => exact leaves_pure ⟨hlast, hmeets rfl⟩
  | some error =>
    have hback := ledger.releases_leaves true hlast
    refine (hback.mono (fun _ _ _ hgiven => hgiven) fun _ _ _ => False.elim).bind ?_
    exact fun _ end_ _ hend => leaves_throw ⟨hend, hplain error rfl⟩

end Ledger

end ControlPlane
