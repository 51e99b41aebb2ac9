import ControlPlane.Proofs.Alone.Generation
import ControlPlane.Proofs.Ranges.Known
import ControlPlane.Proofs.Ranges.Reachable

/-! Asking for any address in every scene of every run. The answer is an address just when some
candidate has one to give, and it is one that a host of its subnet can have. -/

namespace ControlPlane

open Ip (Address)

/-- A port is given a free address of a candidate that exists, and it alone. If ranges show free
addresses, it is the lowest start of a range in the first candidate that has one. -/
structure Ipam.Gives (before : Ipam) (port : PortId) (candidates : List Subnet) (ip : AllocatedIp)
    (after : Ipam) (subnet : Subnet) : Prop where
  candidate : subnet ∈ candidates
  id : subnet.id = ip.subnet
  stored : before.subnets.find? subnet.id = some subnet
  pooled : ∃ pool ∈ before.poolsOf subnet.id, pool.span.contains ip.address = true
  free : before.allocations.find? (subnet.id, ip.address) = none
  host : subnet.isHostAddress ip.address = true
  gateway : subnet.gateway ≠ some ip.address
  allocations : after.allocations =
    before.allocations.insert (subnet.id, ip.address) ⟨subnet.network, subnet.id, ip.address, port⟩
  taken : ∀ range ∈ after.rangesOf subnet.id, range.span.contains ip.address = false
  lowest : ∀ offered, candidates.find? before.offers = some offered → offered = subnet ∧
    (∃ range ∈ before.rangesOf subnet.id, ip.address = range.span.first) ∧
    ∀ range ∈ before.rangesOf subnet.id, ip.address.value ≤ range.span.first.value

variable {eager : Prop} {before after : Ipam} {port : PortId} {candidates : List Subnet}
  {ip : AllocatedIp} {known : Subnet → Prop} {supply later : Supply} {subnet : Subnet}
  {address : Address}

theorem Ipam.Grants.not_contains (h : before.Grants port subnet address after)
    (hs : after.Sound eager later) {range : FreeRange} (hr : range ∈ after.rangesOf subnet.id) :
    range.span.contains address = false := by
  have hrow : ⟨subnet.network, subnet.id, address, port⟩ ∈ after.allocationsOf subnet.id := by
    have hfind : after.allocations.find? (subnet.id, address) =
        some ⟨subnet.network, subnet.id, address, port⟩ := by
      rw [h.allocations, Table.find?_insert, if_pos rfl]
    simpa [allocationsOf, Table.mem_values] using ⟨_, _, hfind⟩
  exact (hs.listed subnet.id).free range hr _ hrow

/-- What is given from candidates that are known. -/
theorem Ipam.Generates.gives (h : before.Generates port candidates ip after)
    (hc : before.Charted known supply) (hs : after.Sound eager later)
    (hknown : ∀ subnet ∈ candidates, known subnet) :
    ∃ subnet, before.Gives port candidates ip after subnet := by
  obtain ⟨subnet, hmem, hid, hg, hlowest⟩ := h
  obtain ⟨hstored, hhost, hgateway⟩ := hg.seated hc (hknown subnet hmem)
  refine ⟨subnet, hmem, hid, hstored, hg.pooled, hg.free, hhost, hgateway, hg.allocations,
    fun range hr => hg.not_contains hs hr, fun offered ho => ?_⟩
  obtain ⟨rfl, range, others, hr, haddress⟩ := hlowest offered ho
  refine ⟨rfl, ⟨range, by simp [hr], haddress⟩, ?_⟩
  have hsorted : (range :: others).Pairwise fun a b => a.span.first.value ≤ b.span.first.value :=
    hr ▸ sortOn_pairwise _ _
  rw [hr, haddress]
  exact List.forall_mem_cons.2 ⟨Nat.le_refl _, (List.pairwise_cons.1 hsorted).1⟩

namespace Scene

variable {allowed : Setup → Command → Prop} {moves : List Move} {first scene : Scene}

/-- Whatever was asked before, asking for an address of subnets that were created. -/
theorem Run.generate_exact (run : Run allowed first moves scene) (hfirst : first.Initial)
    (hfresh : ∀ move ∈ moves, move.Fresh) (port : PortId) (head : Subnet) (rest : List Subnet)
    (hcreated : ∀ subnet ∈ head :: rest, Created moves subnet) :
    (∃ result last, (Allocation.generate port (head :: rest)).run.Alone scene.state result last) ∧
    ∀ result last, (Allocation.generate port (head :: rest)).run.Alone scene.state result last →
      last.supply.Distinct →
      ((∃ ip, result = .ok ip) ↔ ∃ subnet ∈ head :: rest,
        scene.state.ipam.subnets.contains subnet.id = true ∧
          scene.state.ipam.Available subnet.id) ∧
      (∀ error, result = .error error → error = .addressesExhausted head.network ∧
        last.ipam.allocations = scene.state.ipam.allocations) ∧
      ∀ ip, result = .ok ip →
        ∃ subnet, scene.state.ipam.Gives port (head :: rest) ip last.ipam subnet := by
  obtain ⟨hfaithful, hcharted⟩ := run.charted hfirst hfresh
  refine ⟨Program.exists_alone _ _, fun result last halone hd => ?_⟩
  have hpost := (Allocation.generate_ensures False port head rest scene.state scene.state result last
    halone).2 hd ⟨rfl, hfaithful.sound⟩
  cases result with
  | ok ip =>
    obtain ⟨hsound, _, hgenerates⟩ := hpost
    refine ⟨⟨fun _ => ?_, fun _ => ⟨ip, rfl⟩⟩, nofun, ?_⟩
    · obtain ⟨subnet, hmem, _, hg, _⟩ := hgenerates
      exact ⟨subnet, hmem, hg.stored, hg.available⟩
    · rintro _ ⟨⟩
      exact hgenerates.gives hcharted hsound fun subnet hs =>
        run.created_met hfirst hfresh (hcreated subnet hs)
  | error error =>
    obtain ⟨hreranged, herror, hnone⟩ := hpost
    refine ⟨⟨nofun, ?_⟩, ?_, nofun⟩
    · rintro ⟨subnet, hmem, _, havailable⟩
      exact absurd havailable (hnone subnet hmem)
    · rintro _ ⟨⟩
      exact ⟨herror, (Ipam.unranged_inj.1 hreranged.unranged).2.2.2⟩

/-- The only address of a subnet is allocated and released, and the ranges are not told of it. -/
def regain : List Move × Scene := sample.play (
  .start {} (.createSubnet request) :: (Turn.moves 0 2 ++
  .start {} (.allocateForPort ⟨9⟩ ⟨7⟩ [{ subnet := some ⟨0⟩ }]) :: Turn.moves 1 4 ++
  .start {} (.release ⟨address, ⟨0⟩⟩) :: Turn.moves 2 2))
where
  request : SubnetRequest := { SubnetRequest.sample with cidr := "10.0.0.0/30" }
  address : Address := ⟨.v4, 0x0a000002, by decide⟩
  subnet : Subnet :=
    { Subnet.sample with cidr := ⟨Subnet.sample.cidr.address, 30, by decide⟩ }

theorem regain_run : Run (fun _ _ => True) sample regain.1 regain.2 :=
  play_run fun turn _ => by cases turn <;> trivial

theorem regain_created : Created regain.1 regain.subnet := by
  refine created_of_reply (start_mem_play [] _ {} (.createSubnet regain.request)) ?_
  decide +kernel

/-- What the ranges hide is found, and given to who asks for any address. -/
theorem regain_generates : regain.2.state.ipam.rangesOf ⟨0⟩ = [] ∧ ∃ last subnet,
    (Allocation.generate ⟨9⟩ [regain.subnet]).run.Alone regain.2.state
      (.ok ⟨regain.address, ⟨0⟩⟩) last ∧
    regain.2.state.ipam.Gives ⟨9⟩ [regain.subnet] ⟨regain.address, ⟨0⟩⟩ last.ipam subnet := by
  have halone := (Allocation.generate ⟨9⟩ [regain.subnet]).run.perform_alone [] regain.2.state
  have hanswer : (((Allocation.generate ⟨9⟩ [regain.subnet]).run.perform [] regain.2.state).1).toOption
      = some ⟨regain.address, ⟨0⟩⟩ := by decide +kernel
  have hdistinct : ((Allocation.generate ⟨9⟩ [regain.subnet]).run.perform []
      regain.2.state).2.supply.Distinct := by decide +kernel
  generalize (Allocation.generate ⟨9⟩ [regain.subnet]).run.perform [] regain.2.state = performed
    at halone hanswer hdistinct
  obtain ⟨_ | ip, last⟩ := performed
  · cases hanswer
  obtain rfl := Option.some.inj hanswer
  have hexact := regain_run.generate_exact sample_initial (by decide +kernel) ⟨9⟩ regain.subnet []
    fun subnet hs => List.mem_singleton.1 hs ▸ regain_created
  obtain ⟨subnet, hgives⟩ := (hexact.2 _ _ halone hdistinct).2.2 _ rfl
  exact ⟨by decide +kernel, last, subnet, halone, hgives⟩

end Scene

end ControlPlane
