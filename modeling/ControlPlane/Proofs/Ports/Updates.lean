import ControlPlane.Proofs.Alone.Refits

/-! Updates of ports that fail, with nothing in between. What an update has done is undone if it
cannot be saved, but not if the port cannot be bound after that. -/

namespace ControlPlane

/-- An input of a port is in a store as an update asks for it, or as it was before. -/
def PortUpdate.Stands (update : PortUpdate) (id : PortId) (input : Input) (before after : Ports) :
    Prop :=
  ∃ value, (after.entry id).input? input = some value ∧
    match update.demand input with
    | some asked => input.Same value asked
    | none => (before.entry id).input? input = some value

namespace Port

/-- An update of a port is done. The port has each input that was asked for and keeps the others, but
for its status, which drivers may set as well. It has an address for each that was asked for, and
other ports are as they were. -/
structure Updated (first : State) (id : PortId) (update : PortUpdate) (state : State) : Prop where
  entry : ∃ entry, first.ports.With id entry state.ports
  stands : ∀ input, input ≠ .status → update.Stands id input first.ports state.ports
  fits : ∀ requests, update.fixedIps = some requests → state.Fits id requests
  exchanged : ∃ changes : IpChanges, (update.fixedIps = none → changes = {}) ∧
    first.ipam.Exchanges id changes state.ipam

/-- What is left of an update of a port that fails: nothing, or all of it when the port could not be
bound after that. -/
inductive UpdateFails (setup : Setup) (id : PortId) (update : PortUpdate) (first : State)
    (error : Error) (last : State) : Prop
  | undone (hports : last.ports = first.ports)
    (hallocations : last.ipam.allocations = first.ipam.allocations)
  | kept (hrefused : Refused setup.drivers id error last.ports)
    (hupdated : Updated first id update last)

/-- A port was found, and nothing else has happened. -/
structure Found (first : State) (id : PortId) (port : Port) (state : State) : Prop where
  same : state = first
  sound : first.ipam.Sound False first.supply
  keyed : first.ports.Keyed
  found : first.ports.ports.find? id = some port

/-- What is staged for an update is what it asks for: nothing, or what makes the addresses of the port
fit once those that it loses are free. -/
structure Suits (id : PortId) (update : PortUpdate) (changes : IpChanges) (ipam : Ipam) : Prop where
  nothing : update.fixedIps = none → changes = {}
  fits : ∀ requests, update.fixedIps = some requests → ∀ last : State,
    ipam.Frees changes.removed last.ipam → last.ipam.Sound False last.supply → last.Fits id requests

/-- An update is staged, and not saved yet. -/
structure Ready (first : State) (id : PortId) (update : PortUpdate) (changes : IpChanges)
    (state : State) : Prop where
  found : ∃ port, first.ports.ports.find? id = some port
  keyed : first.ports.Keyed
  suits : Suits id update changes state.ipam
  staged : Staged first id changes state

/-- An update is saved as the context shows, and the port has lost no addresses yet. -/
structure Unreleased (first : State) (id : PortId) (update : PortUpdate) (changes : IpChanges)
    (context : PortContext) (state : State) : Prop where
  own : context.port.id = id
  sound : state.ipam.Sound False state.supply
  keyed : state.ports.Keyed
  entry : ∃ entry, first.ports.With id entry state.ports
  stands : ∀ input, update.Stands id input first.ports state.ports
  suits : Suits id update changes state.ipam
  gains : first.ipam.Gains id changes.added state.ipam
  removed : ∀ ip ∈ changes.removed, first.ipam.holder? ip = some id

variable {setup : Setup} {id : PortId} {network : Network} {update : PortUpdate}
  {first before after last : State} {error : Error} {changes : IpChanges}

/-- Binding a port undoes nothing of an update. -/
theorem Updated.rebound (h : Updated first id update before) (hr : before.Rebound id after) :
    Updated first id update after := by
  obtain ⟨_, hwith⟩ := h.entry
  obtain ⟨_, hrebound⟩ := hr.ports
  refine ⟨⟨_, hwith.trans hrebound⟩, fun input hne => ?_, fun requests hr' => ?_, ?_⟩
  · obtain ⟨value, hvalue, hasked⟩ := h.stands input hne
    exact ⟨value, (hr.inputs input hne).trans hvalue, hasked⟩
  · rw [State.Fits, hr.ipam]
    exact h.fits requests hr'
  · rw [hr.ipam]
    exact h.exchanged

theorem UpdateFails.of_gained (h : first.Gained id [] last) :
    UpdateFails setup id update first error last :=
  .undone h.ports (Ipam.allocations_eq fun ip => h.gains.others ip List.not_mem_nil)

/-- A port that is stored is saved as the update asks for it, unless the transaction fails. -/
theorem saveTx_stands (drivers : List String) (network : Network) (update : PortUpdate)
    {store : Ports} {port : Port} (hport : store.ports.find? id = some port) :
    (saveTx drivers id network update).Ensures (fun tables _ => tables = store ∧ store.Keyed)
      (fun closing tables _ => (∃ saved, closing.answer = some saved) ∧
        (∀ answer, closing ≠ .rollback answer) ∧ (∃ entry, store.With id entry tables) ∧
        ∀ input, update.Stands id input store tables) fun _ => True := by
  refine (saveTx_ensures drivers id network update alignHosts_aligns store).any_fails.to_post ?_
  rintro closing tables _ _ ⟨hk, h⟩
  have hmet := h.demand_met hk
  cases h with
  | gone hnone =>
    rw [hport] at hnone
    cases hnone
  | saved =>
    obtain ⟨port, binding, hosts, hwith, hmet⟩ := hmet rfl
    refine ⟨⟨_, rfl⟩, fun _ => nofun, ⟨_, hwith⟩, fun input => ?_⟩
    have hstored : (tables.entry id).input? input = some (input.read port binding) := by
      rw [hwith.entry_eq]
      exact Entry.input?_eq_some.2 ⟨port, binding, rfl, rfl, rfl⟩
    exact ⟨_, hstored, hmet input _ (hwith.entry_eq ▸ hstored)⟩

theorem save_ensures (drivers : List String) (id : PortId) (network : Network)
    (update : PortUpdate) (first : State) (changes : IpChanges) :
    (save drivers id network update).Ensures (Ready first id update changes)
      (fun saved state => ∃ kept, saved = some kept ∧
        Unreleased first id update changes kept.context state)
      fun _ => first.Gained id changes.added := by
  have hsave : (Operation.ports (saveTx drivers id network update)).Ensures
      (Ready first id update changes)
      (fun saved state => ∃ kept, saved = some kept ∧
        Unreleased first id update changes kept.context state)
      fun _ => first.Gained id changes.added := by
    have hcloses := saveTx_closes drivers id network update
    refine Operation.ensures_ports hcloses.advances ?_
    rintro before answer last refuser ⟨⟨port, hport⟩, hkeyed, hsuits, hg, hremoved⟩ hr hext hd
    rw [← hg.ports] at hport hkeyed
    have hipam := (State.runReviewed_cases hr).1
    have hsound : last.ipam.Sound False last.supply := hipam ▸ hg.sound.of_extends hext
    have hgains : first.ipam.Gains id changes.added last.ipam := hipam ▸ hg.gains
    obtain ⟨hevolves, habout⟩ := State.runReviewed_closes hcloses hkeyed hr hd
    have hstands := saveTx_stands drivers network update hport
    rcases State.runReviewed_ensures hstands hr hd ⟨rfl, hkeyed⟩ with
      ⟨_, rfl, hports, _⟩ | ⟨_, _, _, _, _, hrollback, _⟩ |
      ⟨saved, _, rfl, ⟨⟨kept, hkept⟩, _, hwith, hstands⟩, hclosing⟩
    · exact ⟨hsound, hports.trans hg.ports, hgains⟩
    · exact absurd rfl (hrollback _)
    · obtain rfl : saved = some kept := by
        rcases hclosing with rfl | ⟨_, _, rfl⟩
        · exact hkept
        · exact hkept
      rw [hg.ports] at hwith hstands
      exact ⟨kept, rfl, (habout _ rfl kept rfl).port, hsound, hevolves.keyed, hwith, hstands,
        hipam ▸ hsuits, hgains, hremoved⟩
  refine hsave.bind fun saved => ?_
  cases saved with
  | none => exact Operation.ensures_pure fun _ hp => hp
  | some kept =>
    refine (Operation.ensures_lift (kept.context.announce_ensures drivers)).bind fun _ => ?_
    exact Operation.ensures_pure fun _ hp => hp

open Operation

/-- What was to be lost is lost once the update is saved. -/
theorem unreleased_ensures (reclaim : Bool) (id : PortId) (update : PortUpdate) (first : State)
    (changes : IpChanges) (context : PortContext) :
    (changes.removed.forM (Allocation.release reclaim)).Ensures
      (Unreleased first id update changes context)
      (fun _ state => context.port.id = id ∧ Updated first id update state ∧ state.ports.Keyed)
      fun _ _ => False := by
  have hnamed (mid : State) : (changes.removed.forM (Allocation.release reclaim)).Ensures
      (fun state => state = mid ∧ Unreleased first id update changes context mid) _ _ :=
    (Allocation.releases_ensures reclaim changes.removed mid).of_pre fun _ hp => ⟨hp.1, hp.2.sound⟩
  refine (Ensures.named hnamed).weaken (fun _ hp => hp) ?_ ?_
  · rintro _ state ⟨mid, hmid, hf⟩
    refine ⟨hmid.own, ⟨hf.ports ▸ hmid.entry, fun input _ => hf.ports ▸ hmid.stands input,
      fun requests hr => hmid.suits.fits requests hr state hf.frees hf.sound, changes,
      hmid.suits.nothing, ?_⟩, hf.ports ▸ hmid.keyed⟩
    exact hmid.gains.exchanges hmid.removed hf.frees
  · rintro _ _ ⟨_, _, hf⟩
    exact hf

theorem stage_suits (config : Config) (port : Port) (update : PortUpdate)
    (hassorted : first.ipam.Assorted) :
    (stage config port update.fixedIps).Ensures
      (fun state => state = first ∧ first.ipam.Sound False first.supply)
      (fun changes state => Suits port.id update changes state.ipam) fun _ _ => True := by
  have hown := stage_ensures config port update.fixedIps first
  intro state result staged halone
  obtain ⟨hext, hstaged⟩ := hown state result staged halone
  refine ⟨hext, fun hd hp => ?_⟩
  have hstaged := hstaged hd hp
  obtain ⟨rfl, hsound⟩ := hp
  cases result with
  | error => trivial
  | ok changes =>
    refine ⟨hstaged.1, fun requests hr last hfrees hlast => ?_⟩
    rw [hr] at halone
    obtain ⟨_, hplays⟩ := halone.plays 0
    obtain ⟨kept, wanted, hsorted⟩ := (stage_plays hplays).sorted hd hsound hassorted
    exact hsorted.fits hsound hfrees hlast

theorem stage_ready (config : Config) (id : PortId) (update : PortUpdate) (port : Port)
    (hassorted : first.ipam.Assorted) :
    (stage config port update.fixedIps).Ensures (Found first id port) (Ready first id update)
      fun _ => first.Gained id [] := by
  have hown := (stage_ensures config port update.fixedIps first).and
    (stage_suits config port update hassorted)
  refine (hown.beside (first.ports.ports.find? id = some port ∧ first.ports.Keyed)).weaken
    (fun _ hp => ⟨⟨hp.found, hp.keyed⟩, ⟨hp.same, hp.sound⟩, hp.same, hp.sound⟩) ?_ ?_
  · rintro changes state ⟨⟨hport, hk⟩, ⟨_, hstaged⟩, hsuits⟩
    obtain rfl := hk.port hport
    exact ⟨⟨port, hport⟩, hk, hsuits, hstaged⟩
  · rintro error state ⟨⟨hport, hk⟩, hg, _⟩
    obtain rfl := hk.port hport
    exact hg

theorem update_ensures (setup : Setup) (id : PortId) (update : PortUpdate)
    (hassorted : first.ipam.Assorted) :
    (Port.update setup id update).Ensures
      (fun state => state = first ∧ first.ipam.Sound False first.supply ∧ first.ports.Keyed)
      (fun _ => Updated first id update) (UpdateFails setup id update first) := by
  let Start (state : State) : Prop :=
    state = first ∧ first.ipam.Sound False first.supply ∧ first.ports.Keyed
  let fails := UpdateFails setup id update first
  refine ensures_bind_except (fun error state hp => hp.1 ▸ .undone rfl rfl) fun _ _ => ?_
  have hfind : (find id).Ensures Start (fun found state => Start state ∧
      ∀ port ∈ found, Found first id port state) fails := by
    refine ensures_readPorts ?_
    rintro _ ⟨rfl, h, hk⟩
    exact ⟨⟨rfl, h, hk⟩, fun port hp => ⟨rfl, h, hk, hp⟩⟩
  refine hfind.bind fun found => ?_
  cases found with
  | none => exact ensures_throw fun state hp => hp.1.1 ▸ .undone rfl rfl
  | some port =>
  refine Ensures.of_pre ?_ fun state hp => hp.2 port rfl
  have hfound {error : Error} {state : State} (hp : Found first id port state) : fails error state :=
    hp.same ▸ .undone rfl rfl
  -- Up to here nothing has changed. What is staged from here on is undone unless it is saved.
  refine ensures_bind_except (fun _ _ => hfound) fun _ _ => ?_
  refine (Network.fetch_ensures fun _ _ => hfound).bind fun network => ?_
  refine ((stage_ready setup.config id update port hassorted).weaken (fun _ hp => hp)
    (fun _ _ hp => hp) fun _ _ => .of_gained).bind fun changes => ?_
  have hsave := (save_ensures setup.drivers id network update first changes).orElse fun error =>
    undo_ensures id changes error first _
  refine (hsave.weaken (fun _ hp => hp) (fun _ _ hp => hp) fun _ _ => .of_gained).bind fun saved => ?_
  cases saved with
  | none =>
    -- The port was found before, and nobody else can have removed it.
    have hrelease := (Allocation.releasePort_ensures setup.config.ipam id first).beside False
    refine (hrelease.weaken ?_ (fun _ _ hp => hp.1) fun _ _ hp => hp.1.elim).bind fun _ =>
      ensures_throw fun _ hp => hp.elim
    rintro _ ⟨_, ⟨⟩, _⟩
  | some kept =>
    have hrelease := unreleased_ensures setup.config.ipam.reclaimOnRelease id update first changes
      kept.context
    refine (hrelease.weaken ?_ (fun _ _ hp => hp) fun _ _ hf => hf.elim).bind fun _ => ?_
    · rintro _ ⟨_, ⟨⟩, hp⟩
      exact hp
    -- The update is durable now, so it stays whatever the binding comes to.
    extract_lets news
    have hbind := @PortContext.bindWithin_ensures (Updated first id update) setup.drivers id true
      setup.config.binding.maxBindTries kept.context news fun _ _ hr hp => hp.rebound hr
    refine (hbind.weaken (fun _ hp => hp) (fun _ _ hp => hp.2) fun error state hp =>
      .kept hp.2 hp.1).bind fun context => ?_
    have hread : (Allocation.ofPort id).Ensures (Updated first id update)
        (fun _ => Updated first id update) fails := ensures_readIpam fun _ hp => hp
    exact hread.bind fun _ => ensures_pure fun _ hp => hp

end Port

namespace Scene

variable {allowed : Setup → Command → Prop} {moves : List Move} {first scene : Scene}

/-- Whatever was asked before, an update of a port that fails leaves all ports and addresses as they
were, unless a driver refused to bind the port once the update was saved. Then all of it stays. -/
theorem Run.update_fails (run : Run allowed first moves scene) (hfirst : first.Initial)
    (hfresh : ∀ move ∈ moves, move.Fresh) (setup : Setup) (id : PortId) (update : PortUpdate)
    {error : Error} {last : State}
    (halone : (Port.update setup id update).run.Alone scene.state (.error error) last)
    (hd : last.supply.Distinct) : Port.UpdateFails setup id update scene.state error last := by
  have hfaithful : Faithful False moves scene.state := run.faithful hfirst hfresh nofun
  have hassorted := run.assorted hfirst hfresh
  exact (Port.update_ensures setup id update hassorted _ _ last halone).2 hd
    ⟨rfl, hfaithful.sound, hfaithful.keyed⟩

/-- A port is to give up its only address and to move to a host, where the driver binds it and then
refuses what it has bound. -/
def forsake : List Move × Scene := sample.play (
  .start {} (.createSubnet .sample) :: Turn.moves 0 2 ++
  .start {} (.createPort request) :: Turn.moves 1 7)
where
  request : PortRequest :=
    { network := ⟨7⟩, fixedIps := some [{ address := some AllocatedIp.sample.address }] }
  port : PortId := ⟨3⟩
  setup : Setup := { drivers := ["agent"] }
  update : PortUpdate := { fixedIps := some [], host := some "node" }
  sayings : List Saying := List.replicate 6 ({} : Saying) ++
    [{ bound := some { segment := ⟨8⟩, vifType := "ovs" } },
      { refuser := some ("agent", .invalidInput "no") }]

theorem forsake_run : Run (fun _ _ => True) sample forsake.1 forsake.2 :=
  play_run fun turn _ => by cases turn <;> trivial

theorem forsake_fresh : ∀ move ∈ forsake.1, move.Fresh := by decide +kernel

theorem forsake_holds : forsake.2.state.ipam.holder? .sample = some forsake.port := by
  decide +kernel

theorem forsake_performs : ∃ error last,
    (Port.update forsake.setup forsake.port forsake.update).run.Alone forsake.2.state
      (.error error) last ∧
    last.supply.Distinct ∧ last.ipam.holder? .sample = none ∧
    ∃ binding ∈ last.ports.bindings.find? forsake.port, binding.host = some "node" := by
  have halone := (Port.update forsake.setup forsake.port forsake.update).run.perform_alone
    forsake.sayings forsake.2.state
  have hends : ((Port.update forsake.setup forsake.port forsake.update).run.perform
      forsake.sayings forsake.2.state).1.toOption.isNone = true := by decide +kernel
  have hdistinct : ((Port.update forsake.setup forsake.port forsake.update).run.perform
      forsake.sayings forsake.2.state).2.supply.Distinct := by decide +kernel
  have hfreed : ((Port.update forsake.setup forsake.port forsake.update).run.perform
      forsake.sayings forsake.2.state).2.ipam.holder? .sample = none := by decide +kernel
  have hsaved : ∃ binding ∈ ((Port.update forsake.setup forsake.port forsake.update).run.perform
      forsake.sayings forsake.2.state).2.ports.bindings.find? forsake.port,
      binding.host = some "node" := by decide +kernel
  generalize (Port.update forsake.setup forsake.port forsake.update).run.perform forsake.sayings
    forsake.2.state = performed at halone hends hdistinct hfreed hsaved
  obtain ⟨error | details, last⟩ := performed
  · exact ⟨error, last, halone, hdistinct, hfreed, hsaved⟩
  · cases hends

theorem forsake_fails : ∃ error last,
    (Port.update forsake.setup forsake.port forsake.update).run.Alone forsake.2.state
      (.error error) last ∧
    Port.UpdateFails forsake.setup forsake.port forsake.update forsake.2.state error last ∧
    forsake.2.state.ipam.holder? .sample = some forsake.port ∧
    last.ipam.holder? .sample = none ∧
    ∃ binding ∈ last.ports.bindings.find? forsake.port, binding.host = some "node" := by
  obtain ⟨error, last, halone, hd, hkept⟩ := forsake_performs
  have hfails := forsake_run.update_fails sample_initial forsake_fresh forsake.setup forsake.port
    forsake.update halone hd
  exact ⟨error, last, halone, hfails, forsake_holds, hkept⟩

/-- It is not so that an update that fails leaves all addresses as they were. -/
theorem not_unchanged_of_failed : ¬ ∀ (allowed : Setup → Command → Prop) (first scene : Scene)
    (moves : List Move) (setup : Setup) (id : PortId) (update : PortUpdate) (error : Error)
    (last : State), Run allowed first moves scene → first.Initial → (∀ move ∈ moves, move.Fresh) →
    (Port.update setup id update).run.Alone scene.state (.error error) last →
    last.supply.Distinct → last.ipam.allocations = scene.state.ipam.allocations := by
  intro h
  obtain ⟨error, last, halone, hd, hfreed, _⟩ := forsake_performs
  have heq := h _ _ _ _ _ _ _ error last forsake_run sample_initial forsake_fresh halone hd
  have hheld := forsake_holds
  rw [Ipam.holder?, ← heq] at hheld
  rw [Ipam.holder?, hheld] at hfreed
  cases hfreed

end Scene

end ControlPlane
