import ControlPlane.Proofs.Duties.Commands
import ControlPlane.Proofs.Ports.Reachable

/-! Hardware addresses in every run. No two ports of a network have the same one, however it is
spelled, and a port keeps the one that it was created with. -/

namespace ControlPlane

/-- What holds of the hardware addresses of ports: those of one network differ, and each is in
canonical form and stays with its port. -/
structure Addressed (moves : List Move) (store : Ports) : Prop where
  unique : ∀ ⦃id id' port port'⦄, store.ports.find? id = some port →
    store.ports.find? id' = some port' → id ≠ id' → port.network = port'.network →
    Text.sameIgnoringCase port.mac port'.mac = false
  stored : ∀ ⦃id port⦄, store.ports.find? id = some port → Seen moves id port
  canonical : ∀ ⦃id port⦄, Seen moves id port → Mac.Canonical port.mac
  fixed : ∀ ⦃id port port'⦄, Seen moves id port → Seen moves id port' → port.mac = port'.mac

variable {moves : List Move} {before after : State} {setup : Setup} {tag : Nat} {α : Type}
  {c : Call α} {answer : α} {id : PortId} {port : Port} {store : Ports}

/-- A port that is stored after a call was stored before it, or the command has drawn it and found
that its address is not used. -/
theorem Faithful.port_cases {eager : Prop} (h : Faithful eager moves before)
    (hm : c.Made setup (licence moves tag)) (hr : c.Result before answer after)
    (hd : after.supply.Distinct) (hp : after.ports.ports.find? id = some port) :
    (∃ former, before.ports.ports.find? id = some former ∧ port.Continues former) ∨
      Drew moves tag id ∧ before.ports.Offers port.network port.mac ∧
        ∀ other, ¬ Seen moves id other := by
  cases (hm.abides False.elim).ports hr hd h.keyed with
  | evolves he _ => exact .inl (he.ports hp)
  | inserted asked new binding hl hnew hsave =>
    obtain ⟨hdrew, hidle, _⟩ := hl
    obtain ⟨mac, rfl, hoffers⟩ := hnew
    rw [(Ports.saveBinding_eq hsave).2] at hp
    simp only [Ports.savePort, Table.find?_insert] at hp
    split at hp
    · cases hp
      subst id
      exact .inr ⟨hdrew, hoffers, fun other hseen => h.unknown hdrew hidle hseen.known⟩
    · exact .inl ⟨port, hp, rfl, rfl⟩

namespace Addressed

theorem idle {move : Move} (h : Addressed moves store) (hafter : move.after? = none) :
    Addressed (moves ++ [move]) store := by
  have hseen {id : PortId} {port : Port} : Seen (moves ++ [move]) id port ↔ Seen moves id port := by
    simp [seen_snoc, hafter]
  exact ⟨h.unique, fun id port hp => hseen.2 (h.stored hp), fun id port hs => h.canonical (hseen.1 hs),
    fun id port port' hs hs' => h.fixed (hseen.1 hs) (hseen.1 hs')⟩

theorem call {eager : Prop} (h : Addressed moves before.ports) (hf : Faithful eager moves before)
    (hm : c.Made setup (licence moves tag)) (hr : c.Result before answer after)
    (hd : after.supply.Distinct) :
    Addressed (moves ++ [.call tag c before answer after]) after.ports := by
  have hunused {id : PortId} {old port : Port} (hold : before.ports.ports.find? id = some old)
      (hoffers : before.ports.Offers port.network port.mac) (hn : old.network = port.network) :
      Text.sameIgnoringCase old.mac port.mac = false :=
    Ports.findMac_eq_none.1 hoffers.unused id old hold hn
  have hseen {id : PortId} {port : Port}
      (hs : Seen (moves ++ [.call tag c before answer after]) id port) :
      Seen moves id port ∨ after.ports.ports.find? id = some port := by
    rcases seen_snoc.1 hs with hs | ⟨state, hstate, hp⟩
    · exact .inl hs
    · cases hstate
      exact .inr hp
  have hmac {id : PortId} {old port : Port} (hs : Seen moves id old)
      (hp : after.ports.ports.find? id = some port) : port.mac = old.mac := by
    rcases hf.port_cases hm hr hd hp with ⟨former, hformer, hc⟩ | ⟨_, _, hunseen⟩
    · exact hc.mac.trans (h.fixed (h.stored hformer) hs)
    · exact absurd hs (hunseen old)
  refine ⟨fun id id' port port' hp hp' hne hn => ?_, fun id port hp => ?_, fun id port hs => ?_,
    fun id port port' hs hs' => ?_⟩
  · -- One of two ports may be new, and then its address was not used; both cannot be.
    rcases hf.port_cases hm hr hd hp with ⟨old, hold, hc⟩ | ⟨hdrew, hoffers, _⟩ <;>
      rcases hf.port_cases hm hr hd hp' with ⟨old', hold', hc'⟩ | ⟨hdrew', hoffers', _⟩
    · rw [hc.mac, hc'.mac]
      exact h.unique hold hold' hne (hc.network.symm.trans (hn.trans hc'.network))
    · rw [hc.mac]
      exact hunused hold hoffers' (hc.network.symm.trans hn)
    · rw [hc'.mac, Text.sameIgnoringCase_comm]
      exact hunused hold' hoffers (hc'.network.symm.trans hn.symm)
    · exact absurd (hf.drew hdrew hdrew') hne
  · exact seen_snoc.2 (.inr ⟨after, rfl, hp⟩)
  · rcases hseen hs with hs | hp
    · exact h.canonical hs
    · rcases hf.port_cases hm hr hd hp with ⟨former, hformer, hc⟩ | ⟨_, hoffers, _⟩
      · exact hc.mac ▸ h.canonical (h.stored hformer)
      · exact hoffers.canonical
  · rcases hseen hs with hold | hp <;> rcases hseen hs' with hold' | hp'
    · exact h.fixed hold hold'
    · exact (hmac hold hp').symm
    · exact hmac hold' hp
    · rw [hp] at hp'
      cases hp'
      rfl

end Addressed

namespace Scene

variable {allowed : Setup → Command → Prop} {first scene : Scene}

theorem Run.addressed (run : Run allowed first moves scene) (hfirst : first.Initial)
    (hfresh : ∀ move ∈ moves, move.Fresh) : Addressed moves scene.state.ports := by
  have hunseen {id : PortId} {port : Port} : ¬ Seen [] id port :=
    fun ⟨_, _, ⟨_, h, _⟩, _⟩ => List.not_mem_nil h
  have hnone {id : PortId} {port : Port} : first.state.ports.ports.find? id ≠ some port := by
    rw [hfirst.ports]
    exact fun hp => by cases hp
  have hinit : Addressed [] first.state.ports :=
    ⟨fun _ _ _ _ hp => absurd hp hnone, fun _ _ hp => absurd hp hnone,
      fun _ _ hs => absurd hs hunseen, fun _ _ _ hs => absurd hs hunseen⟩
  have hrun : Faithful False moves scene.state ∧ Addressed moves scene.state.ports := by
    refine run.induct (fun moves state => Addressed moves state.ports) hfirst hfresh nofun hinit ?_
      ?_ ?_
    · exact fun _ _ _ _ _ _ h => h.idle rfl
    · exact fun _ _ _ _ _ _ _ _ _ _ hf hm hr hd h => h.call hf hm hr hd
    · exact fun _ _ _ _ _ h => h.idle rfl
  exact hrun.2

/-- No two ports of a network have hardware addresses that differ by case only. Whatever a port was
seen with, its address was in canonical form and the same. A port is not created for want of an
address only if the caller gave none and each that was drawn was used on the network. -/
theorem Run.macs_unique (run : Run allowed first moves scene) (hfirst : first.Initial)
    (hfresh : ∀ move ∈ moves, move.Fresh) :
    (∀ id id' port port', scene.state.ports.ports.find? id = some port →
      scene.state.ports.ports.find? id' = some port' → id ≠ id' → port.network = port'.network →
      Text.sameIgnoringCase port.mac port'.mac = false) ∧
    (∀ id port, scene.state.ports.ports.find? id = some port → Seen moves id port) ∧
    (∀ id port, Seen moves id port → Mac.Canonical port.mac ∧
      ∀ port', Seen moves id port' → port'.mac = port.mac) ∧
    ∀ tag request network, .start tag (.createPort request) ∈ moves →
      .finish tag (.error (.macsExhausted network)) ∈ moves →
      ∃ setup, allowed setup (.createPort request) ∧ request.mac = none ∧
        network = request.network ∧ ∃ base port binding before after,
          setup.config.base = .ok base ∧
          .call tag (.ports (Port.insertTx setup.config port binding none)) before
            (.error (.macsExhausted network)) after ∈ moves ∧
          ∀ n < setup.config.macRetries, ∃ id used,
            before.ports.ports.find? id = some used ∧ used.network = network ∧
            Text.sameIgnoringCase used.mac (base.complete before.supply.octetAt
              (before.supply.octets + n * base.holes)).toString = true := by
  have h := run.addressed hfirst hfresh
  refine ⟨fun id id' port port' => @h.unique id id' port port', fun id port => @h.stored id port,
    fun id port hs => ⟨h.canonical hs, fun port' hs' => h.fixed hs' hs⟩,
    fun tag request network hs hf => ?_⟩
  obtain ⟨setup, may, hleft⟩ := run.left hfirst hfresh Duty.leaving_holds
    (fun _ _ _ _ _ _ => Duty.leaving_append) hs hf
  obtain ⟨hmac, hnetwork, base, port, binding, before, after, hbase, hmove, hexhausted⟩ :=
    hleft.spent network rfl
  refine ⟨setup, may, hmac, hnetwork, base, port, binding, before, after, hbase, hmove, ?_⟩
  exact fun n hn => Ports.findMac_isSome (hexhausted n hn)

/-- Two ports are created, and a third one from a base that is the address of the second. -/
def exhausting : List Move × Scene := sample.play (
  .start (setup "fa:16:3e:aa:bb:00") (.createPort request) :: Turn.moves 0 5 ++
  .start (setup "fa:16:3e:aa:bb:00") (.createPort request) :: Turn.moves 1 5 ++
  .start (setup "FA:16:3E:AA:BB:01") (.createPort request) :: Turn.moves 2 5)
where
  setup (base : String) : Setup := { config := { baseMac := base, macRetries := 2 } }
  request : PortRequest := { network := ⟨7⟩, fixedIps := some [] }

theorem exhausting_run : Run (fun setup _ => setup.config.macRetries = 2) sample exhausting.1
    exhausting.2 :=
  play_run (by decide +kernel)

theorem exhausting_fresh : ∀ move ∈ exhausting.1, move.Fresh := by decide +kernel

/-- The addresses of the ports differ, and so no address is left for the third one. -/
theorem exhausting_macs :
    (∃ port port', exhausting.2.state.ports.ports.find? ⟨0⟩ = some port ∧
      exhausting.2.state.ports.ports.find? ⟨1⟩ = some port' ∧ Mac.Canonical port.mac ∧
      Text.sameIgnoringCase port.mac port'.mac = false) ∧
    ∃ (setup : Setup) (base : Mac) (before : State), setup.config.macRetries = 2 ∧
      setup.config.base = .ok base ∧ ∃ id used, before.ports.ports.find? id = some used ∧
        Text.sameIgnoringCase used.mac (base.complete before.supply.octetAt
          (before.supply.octets + 1 * base.holes)).toString = true := by
  obtain ⟨hunique, hseen, hmac, hfails⟩ :=
    exhausting_run.macs_unique sample_initial exhausting_fresh
  have hports : ∃ port ∈ exhausting.2.state.ports.ports.find? ⟨0⟩,
      ∃ port' ∈ exhausting.2.state.ports.ports.find? ⟨1⟩, port.network = port'.network := by
    decide +kernel
  obtain ⟨port, hp, port', hp', hn⟩ := hports
  refine ⟨⟨port, port', hp, hp', (hmac _ port (hseen _ port hp)).1, ?_⟩, ?_⟩
  · exact hunique _ _ port port' hp hp' (by decide) hn
  · have hs : .start 2 (.createPort exhausting.request) ∈ exhausting.1 :=
      start_mem_play _ _ _ _
    have hfailure : ∃ move ∈ exhausting.1, move.failure? 2 = some (.macsExhausted ⟨7⟩) := by
      decide +kernel
    obtain ⟨move, hmove, hfailure⟩ := hfailure
    have hf := failure_mem hmove hfailure
    obtain ⟨setup, htries, _, _, base, _, _, before, _, hbase, _, hused⟩ := hfails 2 _ _ hs hf
    obtain ⟨id, used, hstored, _, hsame⟩ := hused 1 (by rw [htries]; decide)
    exact ⟨setup, base, before, htries, hbase, id, used, hstored, hsame⟩

end Scene

end ControlPlane
