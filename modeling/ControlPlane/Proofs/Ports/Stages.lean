import ControlPlane.Proofs.Plays

/-! The stages of port operations that succeed, with the moves of each and the states between them. -/

namespace ControlPlane

open Operation

variable {tag : Nat} {first last : State} {moves : List Move}

theorem Network.fetch_plays {id : NetworkId} {network : Network}
    (h : (fetch id).run.Plays tag first moves (.ok network) last) : last = first := by
  obtain ⟨found, mid, front, back, rfl, hread, h⟩ := plays_bind_ok.1 h
  obtain ⟨_, rfl⟩ := plays_readIpam hread
  cases found with
  | none => cases h
  | some found =>
    obtain ⟨_, _, rfl⟩ := plays_pure_ok.1 h
    rfl

/-- Who is given all that it asks for gives nothing back. -/
theorem Allocation.forPort_chained {good : {β : Type} → Call β → Prop} {config : Config}
    {port : PortId} {network : NetworkId} {requests : List FixedIpRequest}
    {ips : List AllocatedIp} (hgood : Allots good port)
    (h : (forPort config port network requests).run.Plays tag first moves (.ok ips) last) :
    Chained tag (fun c _ => good c) first moves last := by
  obtain ⟨_, h⟩ := plays_guard_ok.1 h
  obtain ⟨subnets, mid, looking, moves, rfl, hlook, h⟩ := plays_bind_ok.1 h
  obtain ⟨targets, _, h⟩ := plays_bind_except_ok.1 h
  obtain ⟨⟨gathered, error⟩, later, taking, moves, rfl, htake, h⟩ := plays_bind_ok.1 h
  have hlooking := hlook.chained (makes_ipam (hgood.read _))
  have htaking := (plays_lift.1 htake).chained (hgood.gather_makes requests subnets targets)
  cases error with
  | none =>
    obtain ⟨rfl, _, rfl⟩ := plays_pure_ok.1 h
    rw [List.append_nil]
    exact hlooking.append htaking
  | some error =>
    obtain ⟨_, _, _, _, _, _, h⟩ := plays_bind_ok.1 h
    cases h

namespace Port

/-- Addresses to be kept are sorted out, and others are added. -/
inductive Stages (tag : Nat) (config : Config) (port : Port) (requests : List FixedIpRequest)
    (first : State) : List Move → IpChanges → State → Prop
  | intro {current kept added : List AllocatedIp} {wanted : List FixedIpRequest} {last : State}
    {looking adding : List Move}
    (hlook : (Allocation.ofPort port.id).run.Plays tag first looking (.ok current) first)
    (hcurrent : current = (first.ipam.portAllocations port.id).map Allocation.allocated)
    (hsorted : keepAndWant current [] requests = .ok (kept, wanted))
    (hadd : (if wanted.isEmpty then pure []
      else Allocation.forPort config port.id port.network wanted : Operation _).run.Plays tag first
        adding (.ok added) last) :
    Stages tag config port requests first (looking ++ adding)
      { added, removed := current.filter fun ip => !kept.contains ip } last

theorem stage_plays {config : Config} {port : Port} {requests : List FixedIpRequest}
    {changes : IpChanges}
    (h : (stage config port (some requests)).run.Plays tag first moves (.ok changes) last) :
    Stages tag config port requests first moves changes last := by
  obtain ⟨_, h⟩ := plays_guard_ok.1 h
  obtain ⟨current, mid, looking, moves, rfl, hlook, h⟩ := plays_bind_ok.1 h
  obtain ⟨⟨kept, wanted⟩, hsorted, h⟩ := plays_bind_except_ok.1 h
  obtain ⟨added, later, adding, rest, rfl, hadd, h⟩ :
      ∃ added later adding rest, moves = adding ++ rest ∧
        (if wanted.isEmpty then pure [] else
          Allocation.forPort config port.id port.network wanted : Operation _).run.Plays tag mid
            adding (.ok added) later ∧
        (pure { added, removed := current.filter fun ip => !kept.contains ip } :
          Operation IpChanges).run.Plays tag later rest (.ok changes) last := by
    dsimp only at h
    split at h
    · rename_i hempty
      rw [if_pos hempty]
      exact plays_bind_ok.1 h
    · rename_i hwanted
      rw [if_neg hwanted]
      exact plays_bind_ok.1 h
  obtain ⟨rfl, rfl, rfl⟩ := plays_pure_ok.1 h
  obtain ⟨hcurrent, rfl⟩ := plays_readIpam hlook
  rw [List.append_nil]
  exact .intro hlook hcurrent hsorted hadd

theorem stage_makes {good : {β : Type} → Call β → Prop} {config : Config} {port : Port}
    (hgood : Allocation.Allots good port.id)
    (hrelease : ∀ ip, good (.ipam (Allocation.releaseTx true ip)))
    (requests : Option (List FixedIpRequest)) : (stage config port requests).Makes good := by
  cases requests with
  | none => exact makes_pure _
  | some requests =>
    refine makes_guard ((makes_ipam (hgood.read _)).bind fun current => ?_)
    refine makes_bind_except fun ⟨kept, wanted⟩ _ => ?_
    dsimp only
    split
    · exact makes_pure _
    · exact (hgood.forPort_makes hrelease config port.network wanted).bind fun _ => makes_pure _

theorem Stages.chained {good : {β : Type} → Call β → Prop} {config : Config} {port : Port}
    {requests : List FixedIpRequest} {changes : IpChanges} (hgood : Allocation.Allots good port.id)
    (h : Stages tag config port requests first moves changes last) :
    Chained tag (fun c _ => good c) first moves last := by
  cases h with
  | intro hlook _ _ hadd =>
    refine (hlook.chained (makes_ipam (hgood.read _))).append ?_
    split at hadd
    · obtain ⟨rfl, _, rfl⟩ := plays_pure_ok.1 hadd
      exact .nil _
    · exact Allocation.forPort_chained hgood hadd

/-- An update is staged, saved and bound. -/
inductive Updates (tag : Nat) (setup : Setup) (id : PortId) (update : PortUpdate) (first : State) :
    List Move → PortDetails → State → Prop
  | intro {port : Port} {network : Network} {changes : IpChanges} {saved : Saved} {news : Bool}
    {context : PortContext} {ips : List AllocatedIp} {staged stored released last : State}
    {finding fetching staging saving releasing binding closing : List Move}
    (hfind : (find id).run.Plays tag first finding (.ok (some port)) first)
    (hfound : first.ports.ports.find? id = some port)
    (howner : update.checkOwner port = .ok ())
    (hfetch : (Network.fetch port.network).run.Plays tag first fetching (.ok network) first)
    (hstage : (stage setup.config port update.fixedIps).run.Plays tag first staging (.ok changes)
      staged)
    (hsave : (save setup.drivers id network update).run.Plays tag staged saving (.ok (some saved))
      stored)
    (hrelease : (changes.removed.forM
        (Allocation.release setup.config.ipam.reclaimOnRelease)).run.Plays tag stored releasing
      (.ok ()) released)
    (hbind : (saved.context.bindWithin setup.drivers true setup.config.binding.maxBindTries
      news).run.Plays tag released binding (.ok context) last)
    (hclose : (Allocation.ofPort id).run.Plays tag last closing (.ok ips) last) :
    Updates tag setup id update first
      (finding ++ (fetching ++ (staging ++ (saving ++ (releasing ++ (binding ++ closing))))))
      { port := context.port, binding := context.binding, fixedIps := ips } last

theorem doomed_undo {α : Type} (changes : IpChanges) (error : Error) :
    (undo changes error : Operation α).Doomed :=
  .bind fun _ => doomed_throw error

theorem update_plays {setup : Setup} {id : PortId} {update : PortUpdate} {details : PortDetails}
    (h : (Port.update setup id update).run.Plays tag first moves (.ok details) last) :
    Updates tag setup id update first moves details last := by
  obtain ⟨_, _, h⟩ := plays_bind_except_ok.1 h
  obtain ⟨found, mid, finding, moves, rfl, hfind, h⟩ := plays_bind_ok.1 h
  obtain ⟨hfound, rfl⟩ := plays_readPorts hfind
  cases found with
  | none => cases h
  | some port =>
  obtain ⟨_, howner, h⟩ := plays_bind_except_ok.1 h
  obtain ⟨network, mid, fetching, moves, rfl, hfetch, h⟩ := plays_bind_ok.1 h
  obtain ⟨changes, staged, staging, moves, rfl, hstage, h⟩ := plays_bind_ok.1 h
  obtain ⟨saved, stored, saving, moves, rfl, hsave, h⟩ := plays_bind_ok.1 h
  have hsave := plays_orElse_ok (fun error => doomed_undo changes error) hsave
  cases saved with
  | none =>
    obtain ⟨_, _, _, _, _, _, h⟩ := plays_bind_ok.1 h
    cases h
  | some saved =>
  obtain ⟨_, released, releasing, moves, rfl, hrelease, h⟩ := plays_bind_ok.1 h
  extract_lets news at h
  obtain ⟨context, bound, binding, moves, rfl, hbind, h⟩ := plays_bind_ok.1 h
  obtain ⟨ips, closed, closing, rest, rfl, hclose, h⟩ := plays_bind_ok.1 h
  obtain ⟨rfl, rfl, rfl⟩ := plays_pure_ok.1 h
  obtain ⟨_, rfl⟩ := plays_readIpam hclose
  obtain rfl := Network.fetch_plays hfetch
  rw [List.append_nil]
  exact .intro hfind hfound.symm howner hfetch hstage hsave hrelease hbind hclose

end Port

end ControlPlane
