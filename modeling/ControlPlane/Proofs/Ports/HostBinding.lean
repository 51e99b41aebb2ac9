import ControlPlane.Proofs.Ports.Sites

/-! Binding a distributed port on one of its hosts, while others bind it elsewhere. The row of the
host is settled by the first round of negotiation and commit; what comes after changes nothing. -/

namespace ControlPlane.Site

variable {α : Type} {site : Site} {decision : Decision} {other : String} {tag : Nat}
  {past : List Move} {state : State} {row : Option Binding} {drivers : List String}
  {candidate context : PortContext}

/-- A context that shows a row of a site. -/
structure Of (site : Site) (network : Network) (row : Binding) (context : PortContext) : Prop where
  port : context.port.id = site.id
  network : context.network = network
  binding : context.binding = row

theorem Shows.live {live : Binding} (h : site.Shows (some live) state)
    (hneeds : live.vif.needsBinding = true) : ∃ port, port.id = site.id ∧
      port.bindingKey? live.host = some (.host site.id site.host) ∧
      Binding.Live state.ports site.id live port live := by
  obtain ⟨port, hp, _, hkind⟩ := h.port
  have hid := h.filed.port hp
  have hkey : port.bindingKey? live.host = some (.host site.id site.host) := by
    rw [Port.bindingKey?, if_pos hkind, (h.filed.host h.row).1, hid]
    rfl
  refine ⟨port, hid, hkey, hp, Ports.bindingAt_eq_some.2 ⟨_, hkey, h.row⟩, ?_⟩
  rw [Binding.isCurrent, hneeds, Binding.sameInputs_refl, Bool.and_self]

theorem Shows.guards_commit {live : Binding} (h : site.Shows (some live) state)
    (hne : site.host ≠ other) (hneeds : live.vif.needsBinding = true) :
    site.Guards decision other tag (fun result later state =>
      site.Shows (some (live.copyResult candidate.binding)) state ∧
        Move.Tells false past later ∧
        ∃ context, result = .ok (.committed context) ∧
          site.Of candidate.network (live.copyResult candidate.binding) context)
      past state (Binding.commit drivers site.id live candidate).run := by
  have htx : site.Guards decision other tag (fun result later state =>
      site.Shows (some (live.copyResult candidate.binding)) state ∧
        Move.Tells false past later ∧
        ∃ context, result = .ok (.committed context) ∧
          site.Of candidate.network (live.copyResult candidate.binding) context)
      past state (Operation.ports (Binding.commitTx drivers site.id live candidate)).run := by
    intro before answer after hrely hr hmay
    have hb := h.stable hne hrely
    obtain ⟨port, hid, hkey, hlive⟩ := hb.live hneeds
    have hp : before.ports.ports.find? port.id = some port := by rw [hid, hlive.found]
    obtain ⟨rest, _, hattempt⟩ :=
      @Binding.commitTx_live _ _ _ _ candidate _ before.supply _ drivers hb.filed hlive hkey
    have hwelcome : (answer, after) = before.runReviewed none _ := hmay
    rw [State.runReviewed_welcome hattempt] at hwelcome
    obtain ⟨rfl, hafter⟩ := Prod.mk.inj hwelcome
    let context := candidate.committing port live before.supply.time.1
    have hwrites : before.ports.Writes (.host site.id site.host) context after.ports := by
      rw [hafter]
      exact Ports.writes_committing hp
    have hspares : before.Spares site.id site.host after :=
      .of_writes (hafter ▸ rfl) hwrites hb.row rfl rfl hlive.found (Port.restate_id.trans hid)
        (Port.restate_network _ _ _) (Port.restate_isDistributed _ _ _)
    refine ⟨hspares, hb.of_spares hspares ?_, Move.Tells.snoc rfl, context, rfl, ?_⟩
    · rw [hwrites.rows, if_pos rfl]
      rfl
    · exact ⟨Port.restate_id.trans hid, rfl, rfl⟩
  refine Program.Guards.bind htx ?_
  rintro _ later state ⟨hs, hevents, context, rfl, hof⟩
  change site.Guards decision other tag _ later state (ExceptT.lift (context.announce drivers) >>=
    fun _ => pure (.committed context) : Operation CommitOutcome).run
  rw [Operation.run_lift_bind]
  refine (hs.guards_announce hne).bind fun _ last state hs => ?_
  exact ⟨hs.1, hevents.trans hs.2, context, rfl, hof⟩

theorem Shows.isPending {live : Binding} {network : Network} (h : site.Shows (some live) state)
    (hof : site.Of network live context) : context.isPending = live.vif.needsBinding := by
  have ⟨hhost, hname⟩ := h.filed.host h.row
  have hhas : context.binding.hasHost = true := by
    rw [hof.binding, Binding.hasHost, hhost]
    simpa using hname
  rw [PortContext.isPending, hhas, Bool.and_true, hof.binding]

theorem Shows.guards_idle {live : Binding} (h : site.Shows (some live) state)
    (hne : site.host ≠ other) :
    site.Guards decision other tag (fun _ later state => site.Shows (some live) state ∧
      Move.Tells (Binding.newlyBound (some live) (some live)) past later)
      past state (context.finish false).run := by
  rw [Binding.newlyBound_self]
  exact h.guards_finish hne false

/-- A round of negotiation and commit, and what comes after it. -/
theorem Shows.guards_round {live : Binding} {network : Network} {f : CommitOutcome → Operation α}
    {post : Except Error α → List Move → State → Prop} (h : site.Shows (some live) state)
    (hne : site.host ≠ other) (hof : site.Of network live context)
    (hneeds : live.vif.needsBinding = true)
    (hf : ∀ committed later state,
      site.Shows (some (live.copyResult (live.reset.decided decision network drivers))) state →
      Move.Tells false past later →
      site.Of network (live.copyResult (live.reset.decided decision network drivers)) committed →
      site.Guards decision other tag post later state (f (.committed committed)).run) :
    site.Guards decision other tag post past state (do
      let candidate ← ExceptT.lift (context.negotiate drivers)
      f (← Binding.commit drivers context.port.id context.binding candidate) : Operation α).run := by
  rw [Operation.run_lift_bind]
  refine (h.guards_tryDrivers hne).bind ?_
  rintro candidate later state' ⟨hs, hevents, hbinding, hnetwork⟩
  have hdecided : candidate.binding = live.reset.decided decision network drivers := by
    rw [hbinding]
    simp only [PortContext.candidate, hof.binding, hof.network]
  have hhome : candidate.network = network := hnetwork.trans hof.network
  rw [hof.port, hof.binding]
  refine (hs.guards_commit hne hneeds).bind ?_
  rintro _ last state'' ⟨hs', hevents', committed, rfl, hcommitted⟩
  rw [hdecided] at hs' hcommitted
  rw [hhome] at hcommitted
  exact hf committed last state'' hs' (hevents.trans hevents') hcommitted

theorem Shows.guards_bindWithin {live : Binding} {network : Network} {tries : Nat}
    (h : site.Shows (some live) state) (hne : site.host ≠ other)
    (hof : site.Of network live context) :
    site.Guards decision other tag (fun _ later state =>
      site.Shows (some (live.settle decision network drivers tries)) state ∧
        Move.Tells (Binding.newlyBound (some live) (some (live.settle decision network drivers tries)))
          past later)
      past state (context.bindWithin drivers true tries false).run := by
  -- Once drivers have failed to bind the row, what they decide does not change, nor does the row.
  induction tries generalizing live context past state with
  | zero =>
    rw [Binding.settle_of_not (by simp)]
    unfold PortContext.bindWithin
    cases context.isPending with
    | false => exact h.guards_idle hne
    | true =>
      rw [Binding.newlyBound_self]
      exact ⟨h, .refl past⟩
  | succ tries ih =>
    have hpending := h.isPending hof
    cases hneeds : live.vif.needsBinding with
    | false =>
      rw [Binding.settle_of_not (by simp [hneeds]),
        PortContext.bindWithin_idle (hpending.trans hneeds)]
      exact h.guards_idle hne
    | true =>
      have hsettle : live.settle decision network drivers (tries + 1) =
          live.copyResult (live.reset.decided decision network drivers) := if_pos ⟨hneeds, by simp⟩
      have hlive : live.vif.isBound = false := by
        rw [← Bool.not_eq_true]
        intro hbound
        rw [VifType.needsBinding_of_isBound hbound] at hneeds
        cases hneeds
      have hnew : Binding.newlyBound (some live)
          (some (live.copyResult (live.reset.decided decision network drivers))) =
            (live.reset.decided decision network drivers).vif.isBound := by
        rw [Binding.newlyBound, Option.any_some, hlive]
        rfl
      rw [hsettle, hnew]
      unfold PortContext.bindWithin
      rw [if_pos (hpending.trans hneeds)]
      refine h.guards_round hne hof hneeds fun committed later state' hs hevents hcommitted => ?_
      have hvif : committed.binding.vif = (live.reset.decided decision network drivers).vif := by
        rw [hcommitted.binding]
        rfl
      dsimp only
      rw [hvif]
      rcases live.reset.decided_vif decision network drivers with hbound | hfailed
      · -- The row is bound, and listeners are told.
        have hidle : committed.isPending = false :=
          (hs.isPending hcommitted).trans (VifType.needsBinding_of_isBound hbound)
        have hnews : (live.reset.decided decision network drivers).vif ≠ .bindingFailed := by
          intro hfailed
          rw [hfailed] at hbound
          cases hbound
        rw [PortContext.bindWithin_idle hidle, decide_eq_true hnews, hbound]
        refine (hs.guards_finish hne true).mono ?_
        rintro _ last state ⟨hs, htells⟩
        exact ⟨hs, hevents.trans htells⟩
      · -- Drivers are asked again, to no avail.
        rw [hfailed]
        refine (ih hs hcommitted).mono ?_
        rintro _ last state ⟨hs, htells⟩
        rw [Binding.settle_copyResult] at hs htells
        rw [Binding.newlyBound_self] at htells
        exact ⟨hs, hevents.trans htells⟩

/-- The row of a host is there from now on, and asks for what the primary row asks for. -/
theorem Shows.hostBinding_attempt (h : site.Shows row state)
    (hfollows : ∀ live, row = some live → live.follows site.primary = true) (hname : site.host ≠ "") :
    ∃ port tables, port.id = site.id ∧ tables.ports = state.ports.ports ∧
      (∀ key, tables.row? key = if key = .host site.id site.host then some (row.getD site.fresh)
        else state.ports.row? key) ∧
      (Port.hostBinding site.id site.host).attempt state.ports state.supply =
        (.ok (.commit (some (port, row.getD site.fresh)), tables), state.supply) := by
  obtain ⟨port, hp, hnetwork, hkind⟩ := h.port
  have hid := h.filed.port hp
  have hprimary : state.ports.bindings.find? site.id = some site.primary := h.primary
  have hrow : state.ports.hostBindings.find? (site.id, site.host) = row := h.row
  unfold Port.hostBinding
  rw [Tx.attempt_get_bind]
  simp only [hp, hprimary, hrow]
  cases row with
  | none =>
    have hkey : port.bindingKey? (some site.host) = some (.host site.id site.host) := by
      rw [Port.bindingKey?, if_pos hkind, hid]
      rfl
    have hsave := @Ports.saveBindingOf_eq state.ports _ site.fresh port _ hkey hid.symm
      (fun _ => ⟨rfl, by simpa using hname⟩) (Table.contains_iff.2 ⟨port, hid ▸ hp⟩)
    rw [Ports.saveBindingOf, if_pos hkind] at hsave
    refine ⟨port, _, hid, Ports.putRow_ports, fun key => Ports.row?_putRow, ?_⟩
    change (Tx.change (fun store : Ports => store.saveHostBinding site.fresh) >>= _).attempt _ _ = _
    rw [Tx.attempt_bind, Tx.attempt_change, hsave]
    rfl
  | some live =>
    refine ⟨port, state.ports, hid, rfl, fun key => ?_, ?_⟩
    · split
      · rename_i heq
        exact heq ▸ h.row
      · rfl
    · simp only [hfollows live rfl]
      rfl

theorem Shows.guards_hostBinding (h : site.Shows row state) (hne : site.host ≠ other)
    (hfollows : ∀ live, row = some live → live.follows site.primary = true) (hname : site.host ≠ "") :
    site.Guards decision other tag (fun result later state =>
      site.Shows (some (row.getD site.fresh)) state ∧
        Move.Tells false past later ∧
        ∃ port, result = .ok (some (port, row.getD site.fresh)) ∧ port.id = site.id)
      past state (Operation.ports (Port.hostBinding site.id site.host)).run := by
  rintro before answer after hrely ⟨refuser, hr⟩ _
  have hb := h.stable hne hrely
  obtain ⟨port, tables, hid, hports, hrows, hattempt⟩ := hb.hostBinding_attempt hfollows hname
  rw [State.runReviewed_commit hattempt] at hr
  cases hr
  have hrow : (row.getD site.fresh).port = site.id ∧ (row.getD site.fresh).host = some site.host := by
    cases row with
    | none => exact ⟨rfl, rfl⟩
    | some live => exact ⟨hb.filed.row hb.row, (hb.filed.host hb.row).1⟩
  have hspares : before.Spares site.id site.host { before with ports := tables } :=
    .of_row rfl hports hrows hrow.1 hrow.2 hname
  exact ⟨hspares, hb.of_spares hspares ((hrows _).trans (if_pos rfl)), Move.Tells.snoc rfl, port,
    rfl, hid⟩

theorem Shows.guards_bindOnHost (setup : Setup) (h : site.Shows row state) (hne : site.host ≠ other)
    (hfollows : ∀ live, row = some live → live.follows site.primary = true) (hname : site.host ≠ "") :
    site.Guards decision other tag (fun _ later state =>
      site.Shows (site.settle setup decision row) state ∧
        Move.Tells (Binding.newlyBound row (site.settle setup decision row)) past later)
      past state (Port.bindOnHost setup site.id site.host).run := by
  unfold Port.bindOnHost
  rw [if_neg hname]
  refine (h.guards_readPorts hne _).bind ?_
  rintro _ later state ⟨hs, hevents, rfl⟩
  obtain ⟨port, hp, hnetwork, hkind⟩ := hs.port
  rw [hp]
  dsimp only [ExceptT.bindCont]
  rw [if_neg (by simp [hkind]), hnetwork]
  refine (hs.guards_fetch hne).bind ?_
  rintro _ later state ⟨hs, hevents', ⟨network, hfound, rfl⟩ | ⟨hmissing, error, rfl⟩⟩
  · rw [settle_of_found hfound]
    refine (hs.guards_hostBinding hne hfollows hname).bind ?_
    rintro _ later state ⟨hs, hevents'', port, rfl, hid⟩
    rw [← newlyBound_getD]
    let context : PortContext := { port, network, binding := row.getD site.fresh }
    have hof : site.Of network (row.getD site.fresh) context := ⟨hid, rfl, rfl⟩
    refine (hs.guards_bindWithin hne hof).bind ?_
    rintro result later state ⟨hs, htells⟩
    have htold := hevents.trans (hevents'.trans (hevents''.trans htells))
    cases result <;> exact ⟨hs, htold⟩
  · rw [settle_of_missing hmissing, Binding.newlyBound_self]
    exact ⟨hs, hevents.trans hevents'⟩

end ControlPlane.Site
