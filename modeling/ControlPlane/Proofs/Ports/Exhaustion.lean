import ControlPlane.Proofs.Ports.Rounds

/-! Binding a port that no driver binds, with nobody in between. Each round finds the port as the one
before has left it, so that all attempts are used. -/

namespace ControlPlane

namespace Move

/-- A driver that is asked to bind a port does not. -/
def Declined : Move → Prop
  | call _ (.bind _ context) _ answer _ => ∀ result ∈ answer, context.accepts result = false
  | _ => True

/-- Drivers accept whatever is changed. -/
def Welcomed : Move → Prop
  | call _ (.ports tx) before answer after => (answer, after) = before.runReviewed none tx
  | _ => True

end Move

variable {context candidate next : PortContext} {drivers : List String} {tag tries : Nat}
  {moves : List Move} {mayTell news : Bool} {first last : State}
  {result : Except Error PortContext} {key : BindingKey}

namespace PortContext

theorem tryDrivers_declined (h : (candidate.tryDrivers drivers).Plays tag first moves next last)
    (hmoves : ∀ move ∈ moves, move.Declined) :
    next = candidate.failed ∧ last = first ∧ moves.filter Move.transacts = [] ∧
      ∀ driver, (moves.filter (Move.asks driver)).length = drivers.count driver := by
  induction drivers generalizing moves with
  | nil =>
    obtain ⟨rfl, rfl, rfl⟩ := Program.plays_done.1 h
    exact ⟨rfl, rfl, rfl, fun _ => rfl⟩
  | cons driver others ih =>
    obtain ⟨answer, after, rest, rfl, hr, hplays⟩ := Program.plays_call.1 h
    obtain ⟨hdeclined, hdeclines⟩ := List.forall_mem_cons.1 hmoves
    have hrest : (candidate.tryDrivers others).Plays tag first rest next last := by
      rw [show after = first from hr] at hplays
      cases answer with
      | none => exact hplays
      | some found =>
        have hno : candidate.accepts found = false := hdeclined found rfl
        dsimp only at hplays
        rwa [if_neg (by simp [hno])] at hplays
    obtain ⟨hnext, hlast, htransacts, hasks⟩ := ih hrest hdeclines
    refine ⟨hnext, hlast, htransacts, fun asked => ?_⟩
    rw [Move.asks_bind, hasks, List.count_cons]
    simp only [beq_iff_eq]

theorem announce_plays (h : (context.announce drivers).Plays tag first moves () last) :
    last = first := by
  induction drivers generalizing first moves with
  | nil => exact (Program.plays_done.1 h).2.2
  | cons driver others ih =>
    obtain ⟨_, after, _, _, hr, hrest⟩ := Program.plays_call.1 h
    exact (ih hrest).trans hr

end PortContext

/-- A commit that is welcomed, of a row that still asks for what was asked. -/
theorem Binding.commit_welcomed {id : PortId} {asked live : Binding} {port : Port}
    {answer : Except Error CommitOutcome}
    (h : (commit drivers id asked candidate).run.Plays tag first moves answer last)
    (filed : first.ports.Filed) (hlive : Live first.ports id asked port live)
    (hkey : port.bindingKey? asked.host = some key) (hmoves : ∀ move ∈ moves, move.Welcomed) :
    answer = .ok (.committed (candidate.committing port live first.supply.time.1)) ∧
      first.ports.Writes key (candidate.committing port live first.supply.time.1) last.ports := by
  have hp : first.ports.ports.find? port.id = some port := by
    rw [filed.port hlive.found, hlive.found]
  obtain ⟨rest, _, hattempt⟩ :=
    @commitTx_live _ _ _ _ candidate _ first.supply _ drivers filed hlive hkey
  obtain ⟨outcome, mid, front, back, rfl, htx, hrest⟩ := Program.plays_bind.1 h
  obtain ⟨rfl, _⟩ := Operation.plays_ports.1 htx
  have hr : (outcome, mid) = first.runReviewed none _ := hmoves _ List.mem_cons_self
  rw [State.runReviewed_welcome hattempt] at hr
  cases hr
  obtain ⟨_, later, _, back, rfl, hannounce, hdone⟩ := Operation.plays_lift_bind.1 hrest
  obtain ⟨rfl, rfl, rfl⟩ := Program.plays_done.1 hdone
  rw [PortContext.announce_plays hannounce]
  exact ⟨rfl, Ports.writes_committing hp⟩

namespace PortContext

theorem bindWithin_declined
    (h : (context.bindWithin drivers mayTell tries news).run.Plays tag first moves result last)
    (filed : first.ports.Filed)
    (seen : first.ports.seen? context.port.id context.binding.host =
      some (context.port, context.binding))
    (pending : context.isPending = true)
    (hmoves : ∀ move ∈ moves, move.Declined ∧ move.Welcomed) :
    (moves.filter Move.transacts).length = tries ∧
      (∀ driver, (moves.filter (Move.asks driver)).length = tries * drivers.count driver) ∧
      ∃ last, result = .ok last := by
  -- Each round leaves the store filed, and the context as that of the row it has just written.
  induction tries generalizing context news moves first with
  | zero =>
    unfold bindWithin at h
    rw [if_pos pending] at h
    obtain ⟨rfl, rfl, rfl⟩ := Program.plays_done.1 h
    exact ⟨rfl, fun _ => (Nat.zero_mul _).symm, context, rfl⟩
  | succ tries ih =>
    unfold bindWithin at h
    rw [if_pos pending] at h
    obtain ⟨candidate, _, front, _, rfl, hdrivers, hround⟩ := Operation.plays_lift_bind.1 h
    obtain ⟨answer, mid, commit, back, rfl, hcommit, hlater⟩ := Program.plays_bind.1 hround
    obtain ⟨hfront, hmoves⟩ := List.forall_mem_append.1 hmoves
    obtain ⟨hwelcomed, hback⟩ := List.forall_mem_append.1 hmoves
    obtain ⟨rfl, hsame, htransacts, hasks⟩ :=
      tryDrivers_declined hdrivers fun move hmove => (hfront move hmove).1
    rw [hsame] at hcommit
    obtain ⟨hport, hrow⟩ := Ports.seen?_eq_some.1 seen
    obtain ⟨hneeds, hhost⟩ := Bool.and_eq_true_iff.1 pending
    have hcurrent : context.binding.isCurrent context.binding = true := by
      rw [Binding.isCurrent, hneeds, Binding.sameInputs_refl, Bool.and_self]
    have hlive : Binding.Live first.ports context.port.id context.binding context.port
        context.binding := ⟨hport, hrow, hcurrent⟩
    obtain ⟨key, hkey, hstored⟩ := hlive.exists_key
    obtain ⟨rfl, hwrites⟩ := Binding.commit_welcomed hcommit filed hlive hkey
      fun move hmove => (hwelcomed move hmove).2
    obtain ⟨hcommits, hasked, hok⟩ := ih hlater (hwrites.filed filed hstored rfl rfl)
      (hwrites.seen? hkey) hhost hback
    obtain ⟨move, rest, rfl, hmove, hrest⟩ := Binding.commit_weaves hcommit.weaves
    obtain ⟨htransacts', _, hasks'⟩ := hmove.alone hrest
    refine ⟨?_, fun driver => ?_, hok⟩
    · rw [List.filter_append, List.filter_append, htransacts, htransacts', List.nil_append,
        List.singleton_append, List.length_cons, hcommits]
    · rw [List.filter_append, List.filter_append, hasks', List.nil_append, List.length_append, hasks,
        hasked, Nat.succ_mul, Nat.add_comm]

/-- However the port changes between its calls, a binder makes no more rounds than it has attempts; it
writes one row that is bound at most; and it tells listeners once, and only if it has found nothing left
to bind and there is news. If the port waits to be bound, nobody changes it, and drivers accept what is
written but never bind, then all attempts are used and there is no error. -/
theorem bindWithin_bounded (context : PortContext) (drivers : List String) (mayTell news : Bool)
    (tries tag : Nat) :
    (∀ moves result, (context.bindWithin drivers mayTell tries news).run.Weaves tag moves result →
      ∃ outcomes, context.Course drivers mayTell news tries tag moves result outcomes) ∧
    ∀ first moves result last,
      (context.bindWithin drivers mayTell tries news).run.Plays tag first moves result last →
      first.ports.Filed →
      first.ports.seen? context.port.id context.binding.host =
        some (context.port, context.binding) →
      context.isPending = true → (∀ move ∈ moves, move.Declined ∧ move.Welcomed) →
      (moves.filter Move.transacts).length = tries ∧
        (∀ driver, (moves.filter (Move.asks driver)).length = tries * drivers.count driver) ∧
        ∃ last, result = .ok last :=
  ⟨fun _ _ => bindWithin_course, fun _ _ _ _ => bindWithin_declined⟩

end PortContext

/-- Nothing that is said to a program binds a port or refuses a change. -/
theorem Program.performed_nil {α : Type} (tag : Nat) (p : Program α) (state : State) :
    ∀ move ∈ p.performed tag [] state, move.Declined ∧ move.Welcomed := by
  induction p generalizing state with
  | done a => exact List.forall_mem_nil _
  | call c next ih =>
    refine List.forall_mem_cons.2 ⟨?_, ih _ _⟩
    cases c with
    | bind driver context => exact ⟨nofun, trivial⟩
    | ports tx => exact ⟨trivial, rfl⟩
    | _ => exact ⟨trivial, trivial⟩

/-- The port of two hosts as the left one sees it, for an interface of some kind. -/
def World.leftContext (vnic : VnicType) : PortContext where
  port := paired.port
  network := .sample
  binding := { port := ⟨1⟩, host := some "left", vnic }

/-- The left row asks for another kind of interface than the context of the binder does, which knows
that after one round. Then the driver binds the port. -/
def World.weaveLeft : List Move × Except Error PortContext :=
  ((leftContext .direct).bindWithin ["agent"] true 3 false).run.weave 0 finds 0
where
  finds (_ : Nat) : State × Saying :=
    ((paired 0).state, { bound := some { segment := ⟨8⟩, vifType := "ovs" } })

theorem World.weaveLeft_bounded :
    ((weaveLeft.1.filterMap Move.event?).length = 1 ∧ (weaveLeft.1.filter Move.transacts).length = 2 ∧
      ∃ outcomes, (leftContext .direct).Course ["agent"] true false 3 0 weaveLeft.1 weaveLeft.2
        outcomes) ∧
    let binder := (leftContext .normal).bindWithin ["agent"] true 3 false
    ((binder.run.performed 0 [] (paired 0).state).filter Move.transacts).length = 3 ∧
      ∃ last, (binder.run.perform [] (paired 0).state).1 = .ok last := by
  have hbounded (vnic : VnicType) :=
    (leftContext vnic).bindWithin_bounded ["agent"] true false 3 0
  refine ⟨⟨by decide +kernel, by decide +kernel, ?_⟩, ?_⟩
  · exact (hbounded .direct).1 _ _ (Program.weave_weaves 0 _ 0 _)
  · intro binder
    obtain ⟨hcommits, _, hok⟩ := (hbounded .normal).2 _ _ _ _ (Program.perform_plays 0 _ [] _)
      (paired_filed 0) rfl rfl (Program.performed_nil 0 _ _)
    exact ⟨hcommits, hok⟩

end ControlPlane
