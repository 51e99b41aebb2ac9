import ControlPlane.Proofs.Interference
import ControlPlane.Proofs.Ports.Entries
import ControlPlane.Proofs.Ports.Outcomes

/-! Rounds of negotiation and commit, whatever others do to the port meanwhile: how many there are, why
they end, and what listeners are told. -/

namespace ControlPlane

namespace VifType

def isBound : VifType → Bool
  | bound _ => true
  | _ => false

theorem needsBinding_of_isBound {vif : VifType} (h : vif.isBound = true) :
    vif.needsBinding = false := by
  cases vif with
  | bound kind => rfl
  | _ => cases h

end VifType

namespace CommitOutcome

/-- The binding that a commit has written, if it has. -/
def written? : Except Error CommitOutcome → Option Binding
  | .ok (.committed context) => some context.binding
  | _ => none

/-- The context to go on with after a commit, if the port is still there. -/
def next? : Except Error CommitOutcome → Option PortContext
  | .ok outcome => outcome.context?
  | .error _ => none

theorem written?_eq_next {outcome : Except Error CommitOutcome} {binding : Binding}
    {next : PortContext} (hw : written? outcome = some binding) (hn : next? outcome = some next) :
    next.binding = binding := by
  unfold written? at hw
  split at hw
  · cases hw
    cases hn
    rfl
  · cases hw

end CommitOutcome

namespace Move

def event? : Move → Option PortEvent
  | call _ (.notify event) .. => some event
  | _ => none

/-- A move that runs a transaction on ports. -/
def transacts : Move → Bool
  | call _ (.ports _) .. => true
  | _ => false

/-- A move that asks a driver to bind. -/
def asks (driver : String) : Move → Bool
  | call _ (.bind asked _) .. => asked = driver
  | _ => false

/-- A move that commits a candidate, with what comes of it: one row is written, or nothing is. -/
inductive Commits (tag : Nat) (drivers : List String) : Move → Except Error CommitOutcome → Prop
  | mk {id : PortId} {asked : Binding} {candidate : PortContext} {before after : State}
    {answer : Except Error CommitOutcome}
    (result : (Call.ports (Binding.commitTx drivers id asked candidate)).Result before answer after)
    (unwritten : (∀ context, answer ≠ .ok (.committed context)) → after.ports = before.ports)
    (written : ∀ context, answer = .ok (.committed context) → ∃ key, ∀ other, after.ports.row? other =
      if other = key then some context.binding else before.ports.row? other) :
    Commits tag drivers
      (.call tag (.ports (Binding.commitTx drivers id asked candidate)) before answer after) answer

/-- Moves that neither run transactions on ports nor tell listeners, and that ask each driver at most
as often as it is listed. -/
structure Consults (drivers : List String) (moves : List Move) : Prop where
  transacts : moves.filter transacts = []
  events : moves.filterMap event? = []
  asks : ∀ driver, (moves.filter (asks driver)).length ≤ drivers.count driver

/-- The moves of one round, with the outcome of its commit. -/
structure Round (tag : Nat) (drivers : List String) (moves : List Move)
    (outcome : Except Error CommitOutcome) : Prop where
  commits : ∃ move, moves.filter transacts = [move] ∧ move.Commits tag drivers outcome
  events : moves.filterMap event? = []
  asks : ∀ driver, (moves.filter (asks driver)).length ≤ drivers.count driver

end Move

namespace PortContext

/-- Why a binder stops: there is nothing left to bind, its attempts are used up, the port is gone, or a
commit has failed. Listeners are told in the first case only, and only if there is news. -/
inductive Stops (mayTell news : Bool) (tries : Nat) (outcomes : List (Except Error CommitOutcome)) :
    Except Error PortContext → List PortEvent → Prop
  | settled {last : PortContext} (pending : last.isPending = false)
    (next : ∀ outcome ∈ outcomes, (CommitOutcome.next? outcome).isSome = true) :
    Stops mayTell news tries outcomes (.ok last)
      (if mayTell && (news || (outcomes.filterMap CommitOutcome.written?).any
        fun binding => binding.vif ≠ .bindingFailed) then [.updated last] else [])
  | exhausted {last : PortContext} (pending : last.isPending = true) (all : outcomes.length = tries)
    (next : ∀ outcome ∈ outcomes, (CommitOutcome.next? outcome).isSome = true) :
    Stops mayTell news tries outcomes (.ok last) []
  | gone {last : PortContext} (h : outcomes.getLast? = some (.ok .gone)) :
    Stops mayTell news tries outcomes (.ok last) []
  | failed {error : Error} (h : outcomes.getLast? = some (.error error)) :
    Stops mayTell news tries outcomes (.error error) []

/-- The course of a binder: the outcomes of its commits, one for each round, and how it ends. -/
structure Course (context : PortContext) (drivers : List String) (mayTell news : Bool) (tries tag : Nat)
    (moves : List Move) (result : Except Error PortContext)
    (outcomes : List (Except Error CommitOutcome)) : Prop where
  commits : List.Forall₂ (Move.Commits tag drivers) (moves.filter Move.transacts) outcomes
  rounds : outcomes.length ≤ tries
  asked : ∀ driver,
    (moves.filter (Move.asks driver)).length ≤ outcomes.length * drivers.count driver
  bound : (outcomes.filterMap CommitOutcome.written?).countP (fun binding => binding.vif.isBound) ≤ 1
  idle : context.isPending = false → outcomes = []
  stops : Stops mayTell news tries outcomes result (moves.filterMap Move.event?)

end PortContext

variable {context next candidate : PortContext} {drivers : List String} {tag tries : Nat}
  {moves front rest : List Move} {move : Move} {mayTell news : Bool} {events : List PortEvent}
  {result : Except Error PortContext} {outcome answer : Except Error CommitOutcome}
  {outcomes : List (Except Error CommitOutcome)}

theorem Ports.saveBindingOf_row? {store last : Ports} {port : Port} {binding : Binding}
    (h : store.saveBindingOf port binding = .ok last) : ∃ key, ∀ other,
      last.row? other = if other = key then some binding else store.row? other := by
  unfold saveBindingOf at h
  split at h
  · obtain ⟨host, hhost⟩ := exists_host_of_saved h
    obtain ⟨_, _, rfl⟩ := saveHostBinding_eq hhost h
    exact ⟨.host binding.port host, fun other => @row?_putRow store (.host _ _) other binding⟩
  · obtain ⟨_, rfl⟩ := saveBinding_eq h
    exact ⟨.primary binding.port, fun other => @row?_putRow store (.primary _) other binding⟩

/-- What a transaction of a commit answers and leaves, whatever it finds. -/
theorem Binding.commitTx_cases {store : Ports} {supply : Supply} (drivers : List String) (id : PortId)
    (asked : Binding) (candidate : PortContext) :
    (∃ answer rest, (∀ context, answer ≠ .committed context) ∧
      (commitTx drivers id asked candidate).attempt store supply =
        (.ok (.rollback answer, store), rest)) ∨
    (∃ error rest, (commitTx drivers id asked candidate).attempt store supply =
      (.error error, rest)) ∨
    ∃ context last key rest, (∀ other, last.row? other =
        if other = key then some context.binding else store.row? other) ∧
      (commitTx drivers id asked candidate).attempt store supply =
        (.ok (.review drivers context (.committed context), last), rest) := by
  cases hseen : store.seen? id asked.host with
  | none =>
    exact .inl ⟨.gone, supply, by simp, commitTx_gone (Ports.seen?_eq_none.1 hseen)⟩
  | some found =>
    obtain ⟨port, live⟩ := found
    obtain ⟨hport, hlive⟩ := Ports.seen?_eq_some.1 hseen
    cases hcurrent : live.isCurrent asked with
    | false => exact .inl ⟨_, supply, by simp, commitTx_retry hport hlive hcurrent⟩
    | true =>
      obtain ⟨rest, _, hattempt⟩ :=
        @commitTx_live_eq store id asked live candidate port supply drivers ⟨hport, hlive, hcurrent⟩
      cases hsave : (store.restate port candidate.wanted? supply.time.1).saveBindingOf port
          (live.copyResult candidate.binding) with
      | error error =>
        rw [hsave] at hattempt
        exact .inr (.inl ⟨error, rest, hattempt⟩)
      | ok last =>
        rw [hsave] at hattempt
        obtain ⟨key, hrows⟩ := Ports.saveBindingOf_row? hsave
        refine .inr (.inr ⟨_, last, key, rest, fun other => ?_, hattempt⟩)
        rw [hrows other, Ports.restate_row?]
        rfl

namespace Move

theorem commits_of_result {id : PortId} {asked : Binding} {before after : State}
    (hr : (Call.ports (Binding.commitTx drivers id asked candidate)).Result before answer after) :
    Commits tag drivers
      (.call tag (.ports (Binding.commitTx drivers id asked candidate)) before answer after)
      answer := by
  have hresult := hr
  obtain ⟨refuser, hr⟩ := hr
  -- The answer of the transaction leaves one way to end, unless opening it or the review failed.
  obtain ⟨_, _, hends⟩ := State.runReviewed_cases hr
  rcases Binding.commitTx_cases drivers id asked candidate with
    ⟨outcome, rest, hne, h⟩ | ⟨error, rest, h⟩ | ⟨context, last, key, rest, hrows, h⟩ <;>
  rw [h] at hends
  · rcases hends with ⟨_, rfl, hports, _⟩ | ⟨_, _, rfl, hports, h⟩ | ⟨_, _, _, h, hending⟩
    · exact .mk hresult (fun _ => hports) (by simp)
    · cases h
      exact .mk hresult (fun _ => hports) fun context hc => absurd (Except.ok.inj hc) (hne context)
    · obtain ⟨rfl, _⟩ := Prod.mk.inj (Except.ok.inj h)
      simp at hending
  · rcases hends with ⟨_, rfl, hports, _⟩ | ⟨_, _, _, _, h⟩ | ⟨_, _, _, h, _⟩
    · exact .mk hresult (fun _ => hports) (by simp)
    · cases h
    · cases h
  · rcases hends with ⟨_, rfl, hports, _⟩ | ⟨_, _, _, _, h⟩ | ⟨_, _, rfl, h, hending⟩
    · exact .mk hresult (fun _ => hports) (by simp)
    · cases h
    · obtain ⟨rfl, hlast⟩ := Prod.mk.inj (Except.ok.inj h)
      obtain ⟨_, _, hending⟩ := hending.resolve_left (by simp)
      cases hending
      refine .mk hresult (fun hne => absurd rfl (hne context)) fun other hc => ?_
      cases hc
      exact ⟨key, hlast ▸ hrows⟩

theorem Consults.nil (drivers : List String) : Consults drivers [] :=
  ⟨rfl, rfl, fun _ => Nat.zero_le _⟩

theorem Commits.alone (h : move.Commits tag drivers outcome) (hrest : Consults [] rest) :
    (move :: rest).filter transacts = [move] ∧ (move :: rest).filterMap event? = [] ∧
      ∀ driver, (move :: rest).filter (asks driver) = [] := by
  have hasks (driver : String) : rest.filter (asks driver) = [] :=
    List.length_eq_zero_iff.1 (Nat.le_zero.1 (hrest.asks driver))
  cases h
  exact ⟨congrArg _ hrest.transacts, hrest.events, hasks⟩

theorem Commits.round (h : move.Commits tag drivers outcome) (hfront : Consults drivers front)
    (hrest : Consults [] rest) : Round tag drivers (front ++ move :: rest) outcome := by
  obtain ⟨htransacts, hevents, hasks⟩ := h.alone hrest
  refine ⟨⟨move, ?_, h⟩, ?_, fun driver => ?_⟩
  · rw [List.filter_append, hfront.transacts, htransacts]
    rfl
  · rw [List.filterMap_append, hfront.events, hevents]
    rfl
  · rw [List.filter_append, hasks, List.append_nil]
    exact hfront.asks driver

theorem asks_bind {driver asked : String} {before after : State} {answer : Option BindResult} :
    ((Move.call tag (.bind driver candidate) before answer after :: rest).filter
      (Move.asks asked)).length =
        (rest.filter (Move.asks asked)).length + if driver = asked then 1 else 0 := by
  rw [List.filter_cons]
  change (if decide (driver = asked) = true then _ else _ : List Move).length = _
  simp only [decide_eq_true_eq]
  split <;> rfl

end Move

namespace PortContext

theorem announce_consults (h : (context.announce drivers).Weaves tag moves ()) :
    Move.Consults [] moves := by
  induction drivers generalizing moves with
  | nil =>
    obtain ⟨rfl, _⟩ := Program.weaves_done.1 h
    exact .nil _
  | cons driver others ih =>
    obtain ⟨before, answer, after, rest, rfl, _, h⟩ := Program.weaves_call.1 h
    have hrest := ih h
    exact ⟨hrest.transacts, hrest.events, hrest.asks⟩

theorem tryDrivers_consults (h : (candidate.tryDrivers drivers).Weaves tag moves next) :
    Move.Consults drivers moves := by
  induction drivers generalizing moves with
  | nil =>
    obtain ⟨rfl, _⟩ := Program.weaves_done.1 h
    exact .nil _
  | cons driver others ih =>
    obtain ⟨before, answer, after, rest, rfl, _, h⟩ := Program.weaves_call.1 h
    have hrest : Move.Consults others rest := by
      cases answer with
      | none => exact ih h
      | some found =>
        dsimp only at h
        split at h
        · obtain ⟨rfl, _⟩ := Program.weaves_done.1 h
          exact .nil _
        · exact ih h
    refine ⟨hrest.transacts, hrest.events, fun asked => ?_⟩
    have hasked := hrest.asks asked
    rw [Move.asks_bind, List.count_cons]
    simp only [beq_iff_eq]
    exact Nat.add_le_add_right hasked _

end PortContext

theorem Binding.commit_weaves {id : PortId} {asked : Binding}
    (h : (commit drivers id asked candidate).run.Weaves tag moves answer) :
    ∃ move rest, moves = move :: rest ∧ move.Commits tag drivers answer ∧ Move.Consults [] rest := by
  obtain ⟨outcome, front, back, rfl, htx, hrest⟩ := Program.weaves_bind.1 h
  obtain ⟨before, settled, after, _, rfl, hr, hdone⟩ := Program.weaves_call.1 htx
  obtain ⟨rfl, rfl⟩ := Program.weaves_done.1 hdone
  have hcommits : Move.Commits tag drivers _ _ := Move.commits_of_result hr
  have hreturned (h : answer = outcome ∧ Move.Consults [] back) : ∃ move rest,
      [.call tag (.ports (commitTx drivers id asked candidate)) before outcome after] ++ back =
        move :: rest ∧ move.Commits tag drivers answer ∧ Move.Consults [] rest := by
    obtain ⟨rfl, hback⟩ := h
    exact ⟨_, back, rfl, hcommits, hback⟩
  refine hreturned ?_
  cases outcome with
  | error error =>
    obtain ⟨rfl, rfl⟩ := Program.weaves_done.1 hrest
    exact ⟨rfl, .nil _⟩
  | ok outcome =>
    cases outcome with
    | committed context =>
      obtain ⟨_, front, back, rfl, hannounce, hdone⟩ := Operation.weaves_lift_bind.1 hrest
      obtain ⟨rfl, rfl⟩ := Program.weaves_done.1 hdone
      rw [List.append_nil]
      exact ⟨rfl, context.announce_consults hannounce⟩
    | retry context =>
      obtain ⟨rfl, rfl⟩ := Program.weaves_done.1 hrest
      exact ⟨rfl, .nil _⟩
    | gone =>
      obtain ⟨rfl, rfl⟩ := Program.weaves_done.1 hrest
      exact ⟨rfl, .nil _⟩

namespace PortContext

theorem finish_weaves {tell : Bool} (h : (context.finish tell).run.Weaves tag moves result) :
    result = .ok context ∧ moves.filter Move.transacts = [] ∧
      (∀ driver, moves.filter (Move.asks driver) = []) ∧
      moves.filterMap Move.event? = if tell then [.updated context] else [] := by
  unfold finish at h
  split at h
  · obtain ⟨before, answer, after, _, rfl, _, hdone⟩ := Program.weaves_call.1 h
    obtain ⟨rfl, rfl⟩ := Program.weaves_done.1 hdone
    exact ⟨rfl, rfl, fun _ => rfl, (if_pos ‹_›).symm⟩
  · obtain ⟨rfl, rfl⟩ := Program.weaves_done.1 h
    exact ⟨rfl, rfl, fun _ => rfl, (if_neg ‹_›).symm⟩

theorem Course.finish (hpending : context.isPending = false)
    (h : (context.finish (mayTell && news)).run.Weaves tag moves result) :
    context.Course drivers mayTell news tries tag moves result [] := by
  obtain ⟨rfl, htransacts, hasks, hevents⟩ := finish_weaves h
  have hstops := @Stops.settled mayTell news tries [] context hpending (List.forall_mem_nil _)
  rw [List.filterMap_nil, List.any_nil, Bool.or_false, ← hevents] at hstops
  refine ⟨?_, Nat.zero_le _, fun driver => ?_, Nat.zero_le _, fun _ => rfl, hstops⟩
  · rw [htransacts]
    exact .nil
  · rw [hasks]
    exact Nat.zero_le _

theorem Stops.cons (hnext : (CommitOutcome.next? outcome).isSome = true)
    (h : Stops mayTell (news || (CommitOutcome.written? outcome).any
      fun binding => binding.vif ≠ .bindingFailed) tries outcomes result events) :
    Stops mayTell news (tries + 1) (outcome :: outcomes) result events := by
  have hall {P : Except Error CommitOutcome → Prop} (ho : P outcome) (h : ∀ o ∈ outcomes, P o) :
      ∀ o ∈ outcome :: outcomes, P o := List.forall_mem_cons.2 ⟨ho, h⟩
  cases h with
  | @settled last pending next =>
    have hstops := @Stops.settled mayTell news (tries + 1) (outcome :: outcomes) last pending
      (hall hnext next)
    have hany : ((outcome :: outcomes).filterMap CommitOutcome.written?).any
        (fun binding => decide (binding.vif ≠ .bindingFailed)) =
        ((CommitOutcome.written? outcome).any (fun binding => decide (binding.vif ≠ .bindingFailed)) ||
          (outcomes.filterMap CommitOutcome.written?).any
            fun binding => decide (binding.vif ≠ .bindingFailed)) := by
      rw [List.filterMap_cons]
      cases CommitOutcome.written? outcome <;> rfl
    rwa [hany, ← Bool.or_assoc] at hstops
  | exhausted pending all next =>
    exact .exhausted pending (congrArg Nat.succ all) (hall hnext next)
  | gone hlast => exact .gone (by rw [List.getLast?_cons, hlast]; rfl)
  | failed hlast => exact .failed (by rw [List.getLast?_cons, hlast]; rfl)

theorem Course.cons (hround : Move.Round tag drivers front outcome)
    (hpending : context.isPending = true) (hnext : CommitOutcome.next? outcome = some next)
    (h : next.Course drivers mayTell (news || (CommitOutcome.written? outcome).any
      fun binding => binding.vif ≠ .bindingFailed) tries tag moves result outcomes) :
    context.Course drivers mayTell news (tries + 1) tag (front ++ moves) result
      (outcome :: outcomes) := by
  obtain ⟨⟨move, htransacts, hmove⟩, hevents, hasks⟩ := hround
  refine ⟨?_, Nat.succ_le_succ h.rounds, fun driver => ?_, ?_, fun hp => ?_, ?_⟩
  · rw [List.filter_append, htransacts]
    exact .cons hmove h.commits
  · rw [List.filter_append, List.length_append, List.length_cons, Nat.succ_mul, Nat.add_comm]
    exact Nat.add_le_add (h.asked driver) (hasks driver)
  · rw [List.filterMap_cons]
    cases hw : CommitOutcome.written? outcome with
    | none => exact h.bound
    | some binding =>
      cases CommitOutcome.written?_eq_next hw hnext
      dsimp only
      cases hbound : next.binding.vif.isBound with
      | false =>
        rw [List.countP_cons_of_neg (by simp [hbound])]
        exact h.bound
      | true =>
        -- Nothing is left to bind, so that no round follows.
        rw [h.idle (by simp [isPending, VifType.needsBinding_of_isBound hbound]), List.filterMap_nil]
        exact List.countP_le_length
  · rw [hpending] at hp
    cases hp
  · rw [List.filterMap_append, hevents]
    exact h.stops.cons (by rw [hnext]; rfl)

theorem Course.last (hround : Move.Round tag drivers moves outcome)
    (hpending : context.isPending = true) (hnone : CommitOutcome.written? outcome = none)
    (h : Stops mayTell news (tries + 1) [outcome] result []) :
    context.Course drivers mayTell news (tries + 1) tag moves result [outcome] := by
  obtain ⟨⟨move, htransacts, hmove⟩, hevents, hasks⟩ := hround
  refine ⟨?_, Nat.succ_le_succ (Nat.zero_le _), fun driver => ?_, ?_, fun hp => ?_, ?_⟩
  · rw [htransacts]
    exact .cons hmove .nil
  · rw [List.length_singleton, Nat.one_mul]
    exact hasks driver
  · rw [List.filterMap_cons_none hnone]
    exact Nat.zero_le _
  · rw [hpending] at hp
    cases hp
  · rwa [hevents]

theorem bindWithin_course
    (h : (context.bindWithin drivers mayTell tries news).run.Weaves tag moves result) :
    ∃ outcomes, context.Course drivers mayTell news tries tag moves result outcomes := by
  -- On the attempts that are left, with whatever news the rounds so far have brought.
  induction tries generalizing context news moves with
  | zero =>
    unfold bindWithin at h
    split at h
    · rename_i hpending
      obtain ⟨rfl, rfl⟩ := Program.weaves_done.1 h
      refine ⟨[], .nil, Nat.le_refl _, fun _ => Nat.zero_le _, Nat.zero_le _, fun _ => rfl, ?_⟩
      exact .exhausted hpending rfl (List.forall_mem_nil _)
    · rename_i hpending
      exact ⟨[], .finish (Bool.not_eq_true _ ▸ hpending) h⟩
  | succ tries ih =>
    unfold bindWithin at h
    split at h
    · rename_i hpending
      obtain ⟨candidate, front, _, rfl, hdrivers, h⟩ := Operation.weaves_lift_bind.1 h
      obtain ⟨answer, commit, back, rfl, hcommit, h⟩ := Program.weaves_bind.1 h
      obtain ⟨move, rest, rfl, hmove, hrest⟩ := Binding.commit_weaves hcommit
      have hround := hmove.round (tryDrivers_consults hdrivers) hrest
      rw [← List.append_assoc]
      cases answer with
      | error error =>
        obtain ⟨rfl, rfl⟩ := Program.weaves_done.1 h
        rw [List.append_nil]
        exact ⟨_, .last hround hpending rfl (.failed rfl)⟩
      | ok outcome =>
        cases outcome with
        | committed committed =>
          obtain ⟨outcomes, hcourse⟩ := ih h
          exact ⟨_, .cons hround hpending rfl hcourse⟩
        | retry live =>
          obtain ⟨outcomes, hcourse⟩ := ih h
          rw [← Bool.or_false news] at hcourse
          exact ⟨_, .cons hround hpending rfl hcourse⟩
        | gone =>
          obtain ⟨rfl, rfl⟩ := Program.weaves_done.1 h
          rw [List.append_nil]
          exact ⟨_, .last hround hpending rfl (.gone rfl)⟩
    · rename_i hpending
      exact ⟨[], .finish (Bool.not_eq_true _ ▸ hpending) h⟩

end PortContext

end ControlPlane
