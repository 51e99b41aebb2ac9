import ControlPlane.Proofs.Ports.Bound
import ControlPlane.Proofs.Ports.Upkeep

/-! The shape of the port store in every scene of every run. -/

namespace ControlPlane

/-- A call that keeps the shape of a store. -/
def Call.Shapes (new : PortId → Prop) (store : Ports) : {α : Type} → Call α → Prop
  | _, .ports tx => tx.Ensures (fun tables _ => tables = store)
    (fun _ tables _ => store.Shapes new tables) fun _ => True
  | _, _ => True

/-- A driver is asked by a control plane that has it. -/
def Move.Registered (allowed : Setup → Command → Prop) : Move → Prop
  | call _ (.bind driver _) _ _ _ => ∃ setup command, allowed setup command ∧ driver ∈ setup.drivers
  | _ => True

/-- What holds of ports and their rows as long as no candidate is committed by hand. -/
structure Lasting (allowed : Setup → Command → Prop) (moves : List Move) (store : Ports) : Prop where
  attached : Attached moves store
  shaped : store.Shaped
  stored : ∀ ⦃id port⦄, store.ports.find? id = some port → Seen moves id port
  kinds : ∀ ⦃id port port'⦄, Seen moves id port → Seen moves id port' →
    port.isDistributed = port'.isDistributed
  registered : ∀ move ∈ moves, move.Registered allowed

variable {allowed : Setup → Command → Prop} {moves : List Move} {before after : State}
  {setup : Setup} {tag : Nat} {α : Type} {c : Call α} {answer : α} {new : PortId → Prop}
  {id : PortId} {port : Port} {store : Ports}

theorem seen_snoc {move : Move} : Seen (moves ++ [move]) id port ↔ Seen moves id port ∨
    ∃ state, move.after? = some state ∧ state.ports.ports.find? id = some port := by
  simp only [Seen, passed_snoc_iff]
  constructor
  · rintro ⟨tag, state, hs | ⟨_, hs⟩, hp⟩
    · exact .inl ⟨tag, state, hs, hp⟩
    · exact .inr ⟨state, hs, hp⟩
  · rintro (⟨tag, state, hs, hp⟩ | ⟨state, hs, hp⟩)
    · exact ⟨tag, state, .inl hs, hp⟩
    · exact ⟨move.tag, state, .inr ⟨rfl, hs⟩, hp⟩

theorem Ports.Shapes.mono {new' : PortId → Prop} {before after : Ports}
    (h : before.Shapes new after) (hn : ∀ id, new id → new' id) : before.Shapes new' after :=
  ⟨h.shaped, fun id _ hp => (h.kinds hp).imp_left (hn id)⟩

theorem Negotiated.decided {context candidate : PortContext}
    (h : Negotiated moves context candidate) : candidate.binding.Decided := by
  rcases h with rfl | ⟨_, driver, result, _, _, _, _, rfl⟩
  · exact .inr ⟨rfl, rfl, rfl, rfl⟩
  · exact .inl ⟨result.vifType, rfl⟩

theorem Call.Made.shapes {eager : Prop} (hm : c.Made setup (licence moves tag))
    (hf : Faithful eager moves before) (h : Lasting allowed moves before.ports) :
    c.Shapes (fun id => ∀ port, ¬ Seen moves id port) before.ports := by
  have hkeeps {β : Type} {tx : Tx Ports (Closing β)} {new : PortId → Prop} {holds : Ports → Prop}
      (ht : tx.Shapes new holds) (hholds : holds before.ports)
      (hn : ∀ id, new id → ∀ port, ¬ Seen moves id port) :
      (Call.ports tx).Shapes (fun id => ∀ port, ¬ Seen moves id port) before.ports := by
    refine (ht before.ports).weaken ?_ (fun _ _ _ _ hs => hs.mono hn) fun _ h => h
    exact fun _ _ _ heq => ⟨heq, hf.keyed, h.shaped, hholds⟩
  have hkind {id : PortId} {seen former : Port} (hseen : Seen moves id seen)
      (hformer : before.ports.ports.find? id = some former) :
      former.isDistributed = seen.isDistributed := h.kinds (h.stored hformer) hseen
  have hnone : ∀ id : PortId, False → ∀ port, ¬ Seen moves id port := fun _ => False.elim
  cases hm with
  | readPorts f =>
    show Tx.Ensures _ (fun tables _ => tables = before.ports)
      (fun _ tables _ => before.ports.Shapes _ tables) fun _ => True
    refine Tx.ensures_get_bind fun seen => Tx.ensures_pure ?_
    rintro _ _ ⟨_, rfl⟩
    exact h.shaped.shapes
  | fetchPort id => exact hkeeps (Port.fetchTx_shapes id) trivial hnone
  | insertPort port binding mac hl =>
    obtain ⟨hdrew, hidle, request, hdescribes, _⟩ := hl
    refine hkeeps (Port.insertTx_shapes setup.config mac hdescribes.binding)
      (hf.find?_eq_none hdrew hidle) ?_
    rintro _ rfl other hseen
    exact hf.unknown hdrew hidle hseen.known
  | removePort id => exact hkeeps (Port.removeTx_shapes id) trivial hnone
  | savePort id network update hl =>
    obtain ⟨_, port, hseen, hcheck⟩ := hl
    refine hkeeps (Port.saveTx_shapes _ id network update) (fun former hformer => ?_) hnone
    exact PortUpdate.checkOwner_congr hcheck (hkind hseen hformer)
  | hostBinding id host hl =>
    obtain ⟨port, hseen, hdistributed⟩ := hl
    refine hkeeps (Port.hostBinding_shapes id host) (fun former hformer => ?_) hnone
    exact (hkind hseen hformer).trans hdistributed
  | status id network status hl =>
    exact hkeeps (Port.statusTx_shapes _ id network status) trivial hnone
  | commit id asked candidate hl =>
    rcases hl with ⟨command, hs, hc⟩ | ⟨context, _, _, hhost, _, _, hn⟩
    · exact absurd hc (h.attached.managed tag command hs)
    · exact hkeeps (Binding.commitTx_shapes _ id hhost hn.decided) trivial hnone
  | _ => trivial

theorem Call.Shapes.result (h : c.Shapes new before.ports) (hs : before.ports.Shaped)
    (hr : c.Result before answer after) (hd : after.supply.Distinct) :
    before.ports.Shapes new after.ports := by
  cases c with
  | ipam tx =>
    rw [(State.runIpam_cases hr).1]
    exact hs.shapes
  | ports tx =>
    obtain ⟨_, hr⟩ := hr
    have h : tx.Ensures (fun tables _ => tables = before.ports)
      (fun _ tables _ => before.ports.Shapes new tables) fun _ => True := h
    rcases State.runReviewed_ensures h hr hd rfl with
      ⟨_, _, hports, _⟩ | ⟨_, _, _, hports, _⟩ | ⟨_, _, _, hpost, _⟩
    · rw [hports]
      exact hs.shapes
    · rw [hports]
      exact hs.shapes
    · exact hpost
  | _ =>
    cases hr
    exact hs.shapes

theorem Call.Made.registered {command : Command} {licence : Licence} (hm : c.Made setup licence)
    (may : allowed setup command) : (Move.call tag c before answer after).Registered allowed := by
  cases hm with
  | bind context hd => exact ⟨setup, command, may, hd⟩
  | _ => trivial

namespace Lasting

theorem snoc {move : Move} (h : Lasting allowed moves store) (ha : Attached (moves ++ [move]) store)
    (hafter : move.after? = none) (hregistered : move.Registered allowed) :
    Lasting allowed (moves ++ [move]) store := by
  have hseen {id : PortId} {port : Port} : Seen (moves ++ [move]) id port ↔ Seen moves id port := by
    simp [seen_snoc, hafter]
  refine ⟨ha, h.shaped, fun id port hp => hseen.2 (h.stored hp), fun id port port' hs hs' => ?_, ?_⟩
  · exact h.kinds (hseen.1 hs) (hseen.1 hs')
  · exact List.forall_mem_append.2 ⟨h.registered, List.forall_mem_singleton.2 hregistered⟩

theorem call {eager : Prop} {command : Command} (h : Lasting allowed moves before.ports)
    (hf : Faithful eager moves before) (may : allowed setup command)
    (hm : c.Made setup (licence moves tag)) (hr : c.Result before answer after)
    (hd : after.supply.Distinct) :
    Lasting allowed (moves ++ [.call tag c before answer after]) after.ports := by
  have hshapes := (hm.shapes hf h).result h.shaped hr hd
  -- A port that is seen after the call was seen before it, or none of its identifier was.
  have hseen {id : PortId} {port : Port}
      (hs : Seen (moves ++ [.call tag c before answer after]) id port) :
      Seen moves id port ∨ after.ports.ports.find? id = some port := by
    rcases seen_snoc.1 hs with hs | ⟨state, hstate, hp⟩
    · exact .inl hs
    · cases hstate
      exact .inr hp
  have hkind {id : PortId} {old port : Port} (hs : Seen moves id old)
      (hp : after.ports.ports.find? id = some port) : port.isDistributed = old.isDistributed := by
    rcases hshapes.kinds hp with hnew | ⟨former, hformer, hkind⟩
    · exact absurd hs (hnew old)
    · exact hkind.trans (h.kinds (h.stored hformer) hs)
  refine ⟨h.attached.call hf hm hr hd, hshapes.shaped, ?_, fun id port port' hs hs' => ?_, ?_⟩
  · exact fun id port hp => seen_snoc.2 (.inr ⟨after, rfl, hp⟩)
  · rcases hseen hs with hold | hp <;> rcases hseen hs' with hold' | hp'
    · exact h.kinds hold hold'
    · exact (hkind hold hp').symm
    · exact hkind hold' hp
    · rw [hp] at hp'
      cases hp'
      rfl
  · exact List.forall_mem_append.2 ⟨h.registered, List.forall_mem_singleton.2 (hm.registered may)⟩

end Lasting

namespace Scene

variable {first scene : Scene}

theorem Run.lasting (run : Run allowed first moves scene) (hfirst : first.Initial)
    (hfresh : ∀ move ∈ moves, move.Fresh)
    (hmanaged : ∀ setup command, allowed setup command → ¬ command.ByHand) :
    Faithful False moves scene.state ∧ Lasting allowed moves scene.state.ports := by
  have hunseen {id : PortId} {port : Port} : ¬ Seen [] id port :=
    fun ⟨_, _, ⟨_, h, _⟩, _⟩ => List.not_mem_nil h
  have hinit : Lasting allowed [] first.state.ports := by
    rw [hfirst.ports]
    refine ⟨.init, fun id => .absent, fun id port hp => ?_, fun _ _ _ hs => absurd hs hunseen,
      List.forall_mem_nil _⟩
    cases hp
  refine run.induct (fun moves state => Lasting allowed moves state.ports) hfirst hfresh nofun hinit
    ?_ ?_ ?_
  · intro moves state setup command tag may h
    refine h.snoc (h.attached.snoc trivial fun _ _ hs => ?_) rfl trivial
    cases hs
    exact hmanaged setup command may
  · intro moves before after setup command tag α c answer may hf hm hr hd h
    exact h.call hf may hm hr hd
  · intro moves state tag answer _ h
    exact h.snoc (h.attached.snoc trivial fun _ _ hs => by cases hs) rfl trivial

/-- Whatever is asked of control planes that commit no candidates but their own, ports keep their
rows and stay distributed or not, and rows are bound by drivers that were registered. -/
theorem Run.ports_shaped (run : Run allowed first moves scene) (hfirst : first.Initial)
    (hfresh : ∀ move ∈ moves, move.Fresh)
    (hmanaged : ∀ setup command, allowed setup command → ¬ command.ByHand) :
    scene.state.ports.Shaped ∧
    (∀ key row, scene.state.ports.row? key = some row → row.Bound →
      ∃ port network driver segment, scene.state.ports.ports.find? key.port = some port ∧
        row.driver = some driver ∧
        (∃ setup command, allowed setup command ∧ driver ∈ setup.drivers) ∧
        row.segment = some segment ∧ (network.segment? segment).isSome = true ∧
        network.id = port.network ∧ Stored moves network) ∧
    ∀ id port port', Seen moves id port → Seen moves id port' →
      port.isDistributed = port'.isDistributed := by
  obtain ⟨hfaithful, hlasting⟩ := run.lasting hfirst hfresh hmanaged
  refine ⟨hlasting.shaped, fun key row hrow hb => ?_, fun id port port' =>
    @hlasting.kinds id port port'⟩
  obtain ⟨driver, candidate, result, ha, hport, hknown⟩ :=
    hlasting.attached.justified key row hrow hb
  obtain ⟨port, hfind⟩ := Table.contains_iff.1 (hfaithful.keyed.row hrow).2
  obtain ⟨tag, before, after, hmove⟩ := ha.asked
  exact ⟨port, candidate.network, driver, result.segment, hfind, ha.driver,
    hlasting.registered _ hmove, ha.segment, ha.accepted,
    (hfaithful.home (hfaithful.stored hfind) hknown).symm, ha.stored⟩

/-- A port is created that is bound on each of its hosts, and the driver binds it on one. -/
def spread : List Move × Scene := sample.play (
  .start setup (.createPort request) :: Turn.moves 0 5 ++
  .start setup (.bindOnHost ⟨0⟩ "node") :: Turn.moves 1 3 ++
  .next 1 (some { segment := ⟨8⟩, vifType := "ovs" }) :: Turn.moves 1 4)
where
  setup : Setup := { drivers := ["agent"] }
  request : PortRequest :=
    { network := ⟨7⟩, deviceOwner := distributedOwner, fixedIps := some [] }

theorem spread_run : Run (fun _ command => ¬ command.ByHand) sample spread.1 spread.2 :=
  play_run (by decide +kernel)

theorem spread_shaped : spread.2.state.ports.Shaped ∧
    ∃ row, spread.2.state.ports.row? (.host ⟨0⟩ "node") = some row ∧
      ∃ port network driver segment, spread.2.state.ports.ports.find? ⟨0⟩ = some port ∧
        row.driver = some driver ∧
        (∃ (setup : Setup) (command : Command), ¬ command.ByHand ∧ driver ∈ setup.drivers) ∧
        row.segment = some segment ∧ (network.segment? segment).isSome = true ∧
        network.id = port.network ∧ Stored spread.1 network := by
  have hfresh : ∀ move ∈ spread.1, move.Fresh := by decide +kernel
  have hbound : ∃ row ∈ spread.2.state.ports.row? (.host ⟨0⟩ "node"), row.vif = .bound "ovs" := by
    decide +kernel
  obtain ⟨row, hrow, hvif⟩ := hbound
  have hshaped := spread_run.ports_shaped sample_initial hfresh fun _ _ h => h
  exact ⟨hshaped.1, row, hrow, hshaped.2.1 (.host ⟨0⟩ "node") row hrow ⟨"ovs", hvif⟩⟩

end Scene

end ControlPlane
