import ControlPlane.Proofs.Alone.Addresses
import ControlPlane.Proofs.Alone.Bindings
import ControlPlane.Proofs.Alone.Discreet
import ControlPlane.Proofs.Schedules

/-! Creations of ports that fail, with nothing in between. All that was done is undone: the port is
removed with its bindings, and its addresses are given back so that none of them is hidden. -/

namespace ControlPlane

open Operation

namespace State

/-- A sound state in which no port is stored under an identifier that was not drawn. -/
structure Stocked (state : State) : Prop where
  sound : state.ipam.Sound False state.supply
  keyed : state.ports.Keyed
  drawn : ∀ ⦃id port⦄, state.ports.ports.find? id = some port → state.supply.Drawn id.value

/-- One state is another from which more may have been drawn. -/
structure Drawing (first state : State) : Prop where
  ipam : state.ipam = first.ipam
  ports : state.ports = first.ports
  supply : state.supply.Extends first.supply

/-- A sound state with the entry of a port that had none, which has gained some addresses. -/
structure Adds (first : State) (id : PortId) (ips : List AllocatedIp) (state : State) : Prop where
  sound : state.ipam.Sound False state.supply
  keyed : state.ports.Keyed
  absent : first.ports.entry id = .absent
  entry : ∃ entry, first.ports.With id entry state.ports
  gains : first.ipam.Gains id ips state.ipam

/-- Ports, bindings and allocations are what they were. -/
structure Restores (first state : State) : Prop where
  ports : state.ports = first.ports
  allocations : state.ipam.allocations = first.ipam.allocations

variable {first before mid after last : State} {id : PortId} {ips more : List AllocatedIp}

theorem Drawing.restores (h : first.Drawing last) : first.Restores last :=
  ⟨h.ports, congrArg Ipam.allocations h.ipam⟩

theorem Gained.restores (h : first.Gained id [] last) : first.Restores last :=
  ⟨h.ports, Ipam.allocations_eq fun ip => h.gains.others ip List.not_mem_nil⟩

theorem Adds.gained (h : first.Adds id ips mid) (hg : mid.Gained id more last) :
    first.Adds id (ips ++ more) last :=
  ⟨hg.sound, hg.ports ▸ h.keyed, h.absent, hg.ports ▸ h.entry, h.gains.trans hg.gains⟩

theorem Adds.rebound (h : first.Adds id ips before) (hr : before.Rebound id after) :
    first.Adds id ips after := by
  obtain ⟨entry, hwith⟩ := h.entry
  obtain ⟨rebound, hrebound⟩ := hr.ports
  exact ⟨hr.ipam ▸ h.sound.of_extends hr.supply, hr.keyed, h.absent,
    ⟨rebound, hwith.trans hrebound⟩, hr.ipam ▸ h.gains⟩

/-- Without the entry of the port, the port store is what it was. -/
theorem Adds.removed (h : first.Adds id ips before)
    (hwith : before.ports.With id .absent last.ports) (hipam : last.ipam = before.ipam)
    (hext : last.supply.Extends before.supply) : first.Gained id ips last := by
  obtain ⟨entry, hentry⟩ := h.entry
  exact ⟨hipam ▸ h.sound.of_extends hext, (hentry.trans hwith).eq_of_absent h.absent,
    hipam ▸ h.gains⟩

end State

theorem Network.fetch_ensures {pre : State → Prop} {fails : Error → State → Prop} {id : NetworkId}
    (h : ∀ error state, pre state → fails error state) :
    (fetch id).Ensures pre (fun _ => pre) fails := by
  have hread : (Operation.readIpam fun ipam => ipam.networks.find? id).Ensures pre (fun _ => pre)
      fails := Operation.ensures_readIpam fun _ hp => hp
  refine hread.bind fun found => ?_
  cases found with
  | some network => exact Operation.ensures_pure fun _ hp => hp
  | none => exact Operation.ensures_throw (h _)

namespace Port

variable {first : State} {id : PortId} {ips : List AllocatedIp}

theorem time_ensures {fails : Error → State → Prop} :
    (Operation.ask .time).Ensures first.Drawing (fun _ => first.Drawing) fails := by
  refine ensures_lift (Program.ensures_call fun before time after hr => ?_)
  cases hr
  have hext : before.drawTime.2.supply.Extends before.supply := ⟨rfl, Nat.le_refl _⟩
  exact ⟨hext, fun _ hp => ⟨hp.ipam, hp.ports, hext.trans hp.supply⟩⟩

theorem draw_ensures (h : first.Stocked) {fails : Error → State → Prop} :
    (Operation.ask (.ident .port)).Ensures first.Drawing
      (fun id state => first.ports.entry id = .absent ∧ first.Drawing state) fails := by
  refine ensures_lift (Program.ensures_call fun before id after hr => ?_)
  cases hr
  have hext := before.supply.ident_extends .port
  refine ⟨hext, fun hd hp => ⟨h.keyed.entry_eq_absent ?_, hp.ipam, hp.ports, hext.trans hp.supply⟩⟩
  rw [Option.eq_none_iff_forall_ne_some]
  intro port hport
  exact Supply.ident_not_drawn hd ((h.drawn hport).of_extends hp.supply)

theorem insert_ensures (config : Config) (port : Port) {request : PortRequest} {binding : Binding}
    (hb : initialBinding port request = .ok binding) (h : first.Stocked) :
    (insert config port binding request.mac).Ensures
      (fun state => first.ports.entry port.id = .absent ∧ first.Drawing state)
      (fun new => first.Adds new.id []) fun _ => first.Restores := by
  have htx := insertTx_stores config port binding request.mac first.ports
  obtain ⟨hport, hunbound⟩ := initialBinding_unbound hb
  refine ensures_ports htx.advances ?_
  rintro before answer last refuser ⟨habsent, hp⟩ hr hext hd
  have hipam := (State.runReviewed_cases hr).1.trans hp.ipam
  rcases State.runReviewed_ensures htx hr hd hp.ports with
    ⟨error, rfl, hports, _⟩ | ⟨_, _, _, _, _, hc, _⟩ |
    ⟨new, _, rfl, ⟨stored, rfl, ⟨mac, hnew, _⟩, hsave⟩, hends⟩
  · exact ⟨hports.trans hp.ports, congrArg Ipam.allocations hipam⟩
  · cases hc
  · obtain rfl : stored = new := by
      rcases hends with hc | ⟨_, _, hc⟩ <;> cases hc
      rfl
    have hid : stored.id = port.id := by rw [hnew]
    rw [← hid] at hport habsent
    have hnone : first.ports.ports.find? stored.id = none := congrArg Entry.port habsent
    have hevolves : (first.ports.savePort stored).Evolves (fun _ _ _ => False) last.ports :=
      h.keyed.insert hnone hport hunbound hsave
    have hwith := ((Ports.With.refl first.ports stored.id).savePort rfl).saveBinding hport hsave
    exact ⟨hipam ▸ h.sound.of_extends (hext.trans hp.supply), hevolves.keyed, habsent, ⟨_, hwith⟩,
      .of_eq (congrArg Ipam.allocations hipam)⟩

theorem initialIps_ensures (config : Config) (port : Port)
    (requests : Option (List FixedIpRequest)) (first : State) :
    (initialIps config port requests).Ensures (first.Adds port.id [])
      (fun ips => first.Adds port.id ips) fun _ => first.Adds port.id [] := by
  unfold initialIps
  split
  · exact ensures_pure fun _ hp => hp
  · have hnamed (requests : List FixedIpRequest) (mid : State) :
        (Allocation.forPort config port.id port.network requests).Ensures
          (fun state => state = mid ∧ first.Adds port.id [] mid)
          (fun ips => mid.Gained port.id ips) fun _ => mid.Gained port.id [] := by
      refine (Allocation.forPort_ensures config port.id port.network requests mid).of_pre ?_
      rintro _ ⟨rfl, hp⟩
      exact .nil hp.sound
    refine (Ensures.named (hnamed _)).weaken (fun _ hp => hp) ?_ ?_
    · rintro ips state ⟨mid, hmid, hg⟩
      exact hmid.gained hg
    · rintro _ state ⟨mid, hmid, hg⟩
      exact hmid.gained hg

theorem remove_ensures (id : PortId) (ips : List AllocatedIp) (first : State) :
    (remove id).Ensures (first.Adds id ips) (fun _ => first.Gained id ips) fun _ _ => False := by
  refine ensures_ports (removeTx_erases id {}).advances ?_
  intro before answer last refuser hp hr hext hd
  have hipam := (State.runReviewed_cases hr).1
  rcases State.runReviewed_ensures (removeTx_erases id before.ports) hr hd rfl with
    ⟨_, rfl, _, hfalse | ⟨_, _, _, _, hclosing, _⟩⟩ | ⟨_, _, rfl, hports, hclosing⟩ |
    ⟨_, _, rfl, hclosing, hends⟩
  · exact hfalse
  · rcases hclosing with ⟨hc, _⟩ | ⟨hc, _⟩ <;> cases hc
  · rcases hclosing with ⟨_, hcontains, _⟩ | ⟨hc, _⟩
    · -- The port was not stored any more, so it had no rows to remove.
      have hnone : before.ports.ports.find? id = none := by simpa [Table.contains] using hcontains
      have habsent := hp.keyed.entry_eq_absent hnone
      exact hp.removed (habsent ▸ hports ▸ .refl before.ports id) hipam hext
    · cases hc
  · rcases hclosing with ⟨rfl, _⟩ | ⟨_, herased⟩
    · rcases hends with hc | ⟨_, _, hc⟩ <;> cases hc
    · exact hp.removed (herased ▸ (Ports.With.refl before.ports id).erasePort) hipam hext

theorem abandon_ensures {α : Type} (id : PortId) (ips : List AllocatedIp) (error : Error)
    (first : State) (post : α → State → Prop) :
    (abandon id ips error : Operation α).Ensures (first.Adds id ips) post
      fun _ => first.Restores :=
  (remove_ensures id ips first).of_no_fails.bind fun _ =>
    (Allocation.giveBack_ensures id ips first).of_no_fails.bind fun _ =>
      ensures_throw fun _ hp => hp.restores

/-- A port is created with its addresses, or nothing is left of it. -/
theorem create_ensures (setup : Setup) (request : PortRequest) {first : State} (h : first.Stocked) :
    (create setup request).Ensures (fun state => state = first)
      (fun details => first.Adds details.port.id details.fixedIps) fun _ => first.Restores := by
  have hrestores {state : State} (hp : first.Drawing state) : first.Restores state :=
    hp.restores
  have hstart (state : State) (hp : state = first) : first.Drawing state := hp ▸ ⟨rfl, rfl, .refl _⟩
  refine Ensures.of_pre ?_ hstart
  refine ensures_bind_except (fun _ _ => hrestores) fun _ _ => ?_
  refine (Network.fetch_ensures fun _ _ => hrestores).bind fun network => ?_
  refine time_ensures.bind fun now => (draw_ensures h).bind fun id => ?_
  refine ensures_bind_except (fun _ _ hp => hrestores hp.2) fun binding hb => ?_
  refine (insert_ensures setup.config _ hb h).bind fun port => ?_
  -- The port is stored from here on, so whoever fails removes it.
  refine ((initialIps_ensures setup.config port request.fixedIps first).orElse fun error =>
    abandon_ensures port.id [] error first _).bind fun ips => ?_
  have hbind := @PortContext.bindWithin_ensures (first.Adds port.id ips) setup.drivers port.id false
    setup.config.binding.maxBindTries { port, network, binding } false fun _ _ hr hp => hp.rebound hr
  refine (Ensures.orElse (hbind.of_pre fun _ hp => ⟨rfl, hp, hp.keyed⟩) fun error =>
    (abandon_ensures port.id ips error first _).of_pre fun _ hp => hp.1).bind fun context => ?_
  refine ensures_pure ?_
  rintro state ⟨hid, hp⟩
  exact hid ▸ hp

end Port

theorem Faithful.stocked {moves : List Move} {state : State} (h : Faithful False moves state) :
    state.Stocked := by
  refine ⟨h.sound, h.keyed, fun id port hp => ?_⟩
  obtain ⟨tag, hdrew, _⟩ := h.known (h.stored hp)
  exact h.drawn hdrew

/-- Ports, bindings and allocations are what they were, and no range has lost an address. Ranges that
were free runs have kept their bounds. -/
structure State.Unharmed (first last : State) : Prop extends first.Restores last where
  free : ∀ ⦃pool address⦄, Free first.ipam.ranges pool address → Free last.ipam.ranges pool address
  spans : first.ipam.Shown → ∀ subnet, ∀ pool ∈ first.ipam.poolsOf subnet,
    (last.ipam.poolRanges pool.id).map FreeRange.span =
      (first.ipam.poolRanges pool.id).map FreeRange.span

theorem State.Restores.unharmed {first last : State} (h : first.Restores last)
    (hrevealed : last.Revealed first.ipam) (hs : first.ipam.Sound False first.supply) :
    first.Unharmed last := by
  refine ⟨h, ?_, ?_⟩
  · intro pool address hfree
    exact hrevealed.reveals.free hs h.allocations hfree
  · intro hshown subnet pool hpool
    exact hrevealed.reveals.poolRanges_eq hs hrevealed.sound h.allocations hshown hpool

namespace Scene

variable {allowed : Setup → Command → Prop} {moves : List Move} {first scene : Scene}

/-- Whatever was asked before, a creation of a port that fails leaves nothing behind and tells nobody
of it. -/
theorem Run.create_fails (run : Run allowed first moves scene) (hfirst : first.Initial)
    (hfresh : ∀ move ∈ moves, move.Fresh) (setup : Setup) (request : PortRequest)
    {error : Error} {last : State}
    (halone : (Port.create setup request).run.Alone scene.state (.error error) last)
    (hd : last.supply.Distinct) :
    scene.state.Unharmed last ∧ (Port.create setup request).Makes Call.Silent := by
  have hfaithful : Faithful False moves scene.state := run.faithful hfirst hfresh nofun
  have hdiscreet := Port.create_discreet setup request
  have hrestores : scene.state.Restores last :=
    (Port.create_ensures setup request hfaithful.stocked _ _ last halone).2 hd rfl
  have hrevealed := hdiscreet.revealed halone hd hfaithful.sound
  exact ⟨hrestores.unharmed hrevealed hfaithful.sound, hdiscreet.silent⟩

/-- A port gets an address and is bound, but the driver that bound it refuses the result. -/
def thwart : List Move × Scene := sample.play (
  .start {} (.createSubnet .sample) :: Turn.moves 0 2 ++
  .start {} (.createPort { network := ⟨7⟩ }) :: Turn.moves 1 7)
where
  setup : Setup := { drivers := ["agent"] }
  request : PortRequest := { network := ⟨7⟩, host := some "node" }
  refusal : Error := Environment.refusal "agent" (.invalidInput "no")
  sayings : List Saying := List.replicate 6 ({} : Saying) ++
    [{ bound := some { segment := ⟨8⟩, vifType := "ovs" } },
      { refuser := some ("agent", .invalidInput "no") }]

theorem thwart_run : Run (fun _ _ => True) sample thwart.1 thwart.2 :=
  play_run fun turn _ => by cases turn <;> trivial

theorem thwart_fresh : ∀ move ∈ thwart.1, move.Fresh := by decide +kernel

theorem thwart_performs : ∃ last, last.supply.Distinct ∧
    (Port.create thwart.setup thwart.request).run.Alone thwart.2.state (.error thwart.refusal)
      last := by
  have halone := (Port.create thwart.setup thwart.request).run.perform_alone thwart.sayings
    thwart.2.state
  have hends : (match ((Port.create thwart.setup thwart.request).run.perform thwart.sayings
      thwart.2.state).1 with
      | .error error => some error
      | .ok _ => none) = some thwart.refusal := by decide +kernel
  have hdistinct : ((Port.create thwart.setup thwart.request).run.perform thwart.sayings
      thwart.2.state).2.supply.Distinct := by decide +kernel
  generalize (Port.create thwart.setup thwart.request).run.perform thwart.sayings thwart.2.state =
    performed at halone hends hdistinct
  obtain ⟨error | details, last⟩ := performed
  · cases hends
    exact ⟨last, hdistinct, halone⟩
  · cases hends

theorem thwart_unharmed : ∃ last,
    (Port.create thwart.setup thwart.request).run.Alone thwart.2.state (.error thwart.refusal) last ∧
    thwart.2.state.Unharmed last := by
  obtain ⟨last, hd, halone⟩ := thwart_performs
  have hfails := thwart_run.create_fails sample_initial thwart_fresh thwart.setup thwart.request
    halone hd
  exact ⟨last, halone, hfails.1⟩

end Scene

end ControlPlane
