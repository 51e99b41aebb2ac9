import ControlPlane.Proofs.Alone
import ControlPlane.Proofs.Schedules

/-! Programs that run alone, with the moves that they make. What is known of a run that succeeds is told
by taking its moves apart where the program is put together. -/

namespace ControlPlane

/-- A program that runs to its end with nothing between its calls, and the moves that it makes. -/
inductive Program.Plays {α : Type} (tag : Nat) : Program α → State → List Move → α → State → Prop
  | done (a : α) (state : State) : Plays tag (.done a) state [] a state
  | call {β : Type} {c : Call β} {next : β → Program α} {before after last : State}
    {moves : List Move} {answer : β} {a : α} (result : c.Result before answer after)
    (rest : (next answer).Plays tag after moves a last) :
    Plays tag (.call c next) before (.call tag c before answer after :: moves) a last

/-- Calls of a command one after the other, each `good` by what it asks and what it is answered. -/
inductive Chained (tag : Nat) (good : {β : Type} → Call β → β → Prop) :
    State → List Move → State → Prop
  | nil (state : State) : Chained tag @good state [] state
  | cons {β : Type} {c : Call β} {before after last : State} {moves : List Move} {answer : β}
    (hc : good c answer) (result : c.Result before answer after)
    (rest : Chained tag @good after moves last) :
    Chained tag @good before (.call tag c before answer after :: moves) last

variable {α β : Type} {tag : Nat} {good good' : {β : Type} → Call β → β → Prop}
  {first before mid last : State} {moves front back : List Move} {a : α} {b : β}

namespace Chained

theorem append (h : Chained tag good first front mid) (h' : Chained tag good mid back last) :
    Chained tag good first (front ++ back) last := by
  induction h with
  | nil => exact h'
  | cons hc result _ ih => exact .cons hc result (ih h')

theorem mono (h : Chained tag good first moves last)
    (hgood : ∀ {β : Type} (c : Call β) (answer : β), good c answer → good' c answer) :
    Chained tag good' first moves last := by
  induction h with
  | nil => exact .nil _
  | cons hc result _ ih => exact .cons (hgood _ _ hc) result ih

/-- What every call keeps holds after each of them. -/
theorem keeps {P : State → Prop} (h : Chained tag good first moves last)
    (hkeeps : ∀ {β : Type} (c : Call β) (before : State) (answer : β) (after : State),
      good c answer → c.Result before answer after → after.supply.Distinct → P before → P after)
    (hfresh : ∀ move ∈ moves, move.Fresh) (hfirst : P first) :
    P last ∧ ∀ move ∈ moves, ∀ state, move.after? = some state → P state := by
  induction h with
  | nil => exact ⟨hfirst, List.forall_mem_nil _⟩
  | cons hc result _ ih =>
    obtain ⟨hown, hrest⟩ := List.forall_mem_cons.1 hfresh
    have hafter := hkeeps _ _ _ _ hc result hown hfirst
    obtain ⟨hlast, hmoves⟩ := ih hrest hafter
    refine ⟨hlast, List.forall_mem_cons.2 ⟨fun state hstate => ?_, hmoves⟩⟩
    cases hstate
    exact hafter

theorem distinct (h : Chained tag good first moves last) (hfresh : ∀ move ∈ moves, move.Fresh)
    (hfirst : first.supply.Distinct) : last.supply.Distinct :=
  (h.keeps (P := fun state => state.supply.Distinct) (fun _ _ _ _ _ _ hd _ => hd) hfresh hfirst).1

end Chained

namespace Program

theorem plays_done {a b : α} : (Program.done a).Plays tag first moves b last ↔
    moves = [] ∧ b = a ∧ last = first := by
  constructor
  · intro h
    cases h
    exact ⟨rfl, rfl, rfl⟩
  · rintro ⟨rfl, rfl, rfl⟩
    exact .done _ _

theorem plays_call {c : Call α} {next : α → Program β} :
    (Program.call c next).Plays tag first moves b last ↔ ∃ answer after rest,
      moves = .call tag c first answer after :: rest ∧ c.Result first answer after ∧
        (next answer).Plays tag after rest b last := by
  constructor
  · intro h
    cases h with
    | call result rest => exact ⟨_, _, _, rfl, result, rest⟩
  · rintro ⟨_, _, _, rfl, result, rest⟩
    exact .call result rest

theorem plays_bind {p : Program α} {f : α → Program β} :
    (p >>= f).Plays tag first moves b last ↔ ∃ a mid front back, moves = front ++ back ∧
      p.Plays tag first front a mid ∧ (f a).Plays tag mid back b last := by
  change (p.bind f).Plays tag first moves b last ↔ _
  induction p generalizing first moves with
  | done a =>
    constructor
    · exact fun h => ⟨a, first, [], moves, rfl, .done a first, h⟩
    · rintro ⟨_, _, _, back, rfl, h, hrest⟩
      obtain ⟨rfl, rfl, rfl⟩ := plays_done.1 h
      exact hrest
  | call c next ih =>
    simp only [Program.bind, plays_call, ih]
    constructor
    · rintro ⟨answer, after, _, rfl, hr, a, mid, front, back, rfl, hp, hf⟩
      exact ⟨a, mid, _ :: front, back, rfl, ⟨answer, after, front, rfl, hr, hp⟩, hf⟩
    · rintro ⟨a, mid, _, back, rfl, ⟨answer, after, front, rfl, hr, hp⟩, hf⟩
      exact ⟨answer, after, front ++ back, rfl, hr, a, mid, front, back, rfl, hp, hf⟩

theorem Plays.alone {p : Program α} (h : p.Plays tag first moves a last) : p.Alone first a last := by
  induction h with
  | done => exact .done _ _
  | call result _ ih => exact .call result ih

/-- A program that runs alone makes some moves. -/
theorem Alone.plays {p : Program α} (tag : Nat) (h : p.Alone first a last) :
    ∃ moves, p.Plays tag first moves a last := by
  induction h with
  | done => exact ⟨[], .done _ _⟩
  | call result _ ih =>
    obtain ⟨moves, hplays⟩ := ih
    exact ⟨_, .call result hplays⟩

theorem Plays.chained {p : Program α} {asks : {β : Type} → Call β → Prop}
    (h : p.Plays tag first moves a last) (hp : p.All asks) :
    Chained tag (fun c _ => asks c) first moves last := by
  induction h with
  | done => exact .nil _
  | call result _ ih => exact .cons hp.1 result (ih (hp.2 _))

end Program

namespace Operation

variable {operation : Operation α} {f : α → Operation β}

/-- An operation that never succeeds when it runs alone. -/
def Doomed (operation : Operation α) : Prop :=
  ∀ ⦃tag first moves a last⦄, ¬ operation.run.Plays tag first moves (.ok a) last

theorem doomed_throw (error : Error) : Doomed (throw error : Operation α) := by
  intro _ _ _ _ _ h
  cases h

theorem Doomed.bind (h : ∀ a, (f a).Doomed) : (operation >>= f).Doomed := by
  intro _ _ _ _ _ hplays
  obtain ⟨result, _, _, _, _, _, hrest⟩ := Program.plays_bind.1 hplays
  cases result with
  | error error => cases hrest
  | ok a => exact h a hrest

theorem plays_pure_ok {a b : α} :
    (pure a : Operation α).run.Plays tag first moves (.ok b) last ↔
      moves = [] ∧ b = a ∧ last = first := by
  refine Program.plays_done.trans ?_
  rw [Except.ok.injEq]

theorem plays_bind_ok : (operation >>= f).run.Plays tag first moves (.ok b) last ↔
    ∃ a mid front back, moves = front ++ back ∧ operation.run.Plays tag first front (.ok a) mid ∧
      (f a).run.Plays tag mid back (.ok b) last := by
  constructor
  · intro h
    obtain ⟨result, mid, front, back, rfl, hp, hrest⟩ := Program.plays_bind.1 h
    cases result with
    | error error => cases hrest
    | ok a => exact ⟨a, mid, front, back, rfl, hp, hrest⟩
  · rintro ⟨a, mid, front, back, rfl, hp, hf⟩
    exact Program.plays_bind.2 ⟨.ok a, mid, front, back, rfl, hp, hf⟩

theorem plays_bind_except_ok {r : Except Error α} :
    (liftM r >>= f : Operation β).run.Plays tag first moves (.ok b) last ↔
      ∃ a, r = .ok a ∧ (f a).run.Plays tag first moves (.ok b) last := by
  cases r with
  | ok a =>
    constructor
    · exact fun h => ⟨a, rfl, h⟩
    · rintro ⟨_, ⟨⟩, h⟩
      exact h
  | error error =>
    constructor
    · intro h
      cases h
    · rintro ⟨_, ⟨⟩, _⟩

theorem plays_guard_ok {c : Prop} [Decidable c] {error : Error} {f : β → Operation α} :
    (if c then throw error >>= f else operation).run.Plays tag first moves (.ok a) last ↔
      ¬ c ∧ operation.run.Plays tag first moves (.ok a) last := by
  split
  · rename_i hc
    constructor
    · intro h
      cases h
    · exact fun h => absurd hc h.1
  · rename_i hc
    exact (and_iff_right hc).symm

theorem plays_lift {p : Program α} :
    (ExceptT.lift p : Operation α).run.Plays tag first moves (.ok a) last ↔
      p.Plays tag first moves a last := by
  constructor
  · intro h
    obtain ⟨b, mid, front, back, rfl, hp, hrest⟩ := Program.plays_bind.1 h
    obtain ⟨rfl, heq, rfl⟩ := Program.plays_done.1 hrest
    cases heq
    rwa [List.append_nil]
  · intro h
    exact Program.plays_bind.2 ⟨a, last, moves, [], (List.append_nil moves).symm, h, .done _ _⟩

theorem run_lift_bind (p : Program α) (f : α → Operation β) :
    (ExceptT.lift p >>= f : Operation β).run = p >>= fun a => (f a).run :=
  Program.bind_assoc p _ _

theorem plays_lift_bind {p : Program α} {f : α → Operation β} {result : Except Error β} :
    (ExceptT.lift p >>= f : Operation β).run.Plays tag first moves result last ↔
      ∃ a mid front back, moves = front ++ back ∧ p.Plays tag first front a mid ∧
        (f a).run.Plays tag mid back result last := by
  rw [run_lift_bind, Program.plays_bind]

/-- Who has succeeded did not have to recover, if that always fails. -/
theorem plays_orElse_ok {recover : Error → Operation α} (hr : ∀ error, (recover error).Doomed)
    (h : (operation.orElse recover).run.Plays tag first moves (.ok a) last) :
    operation.run.Plays tag first moves (.ok a) last := by
  obtain ⟨result, mid, front, back, rfl, hp, hrest⟩ := Program.plays_bind.1 h
  cases result with
  | error error => exact absurd hrest (@hr error _ _ _ _ _)
  | ok b =>
    obtain ⟨rfl, heq, rfl⟩ := Program.plays_done.1 hrest
    cases heq
    rwa [List.append_nil]

theorem plays_ports {tx : Tx Ports (Closing α)} {result : Except Error α} :
    (Operation.ports tx).run.Plays tag first moves result last ↔
      moves = [.call tag (.ports tx) first result last] ∧
        ∃ refuser, (result, last) = first.runReviewed refuser tx := by
  refine Program.plays_call.trans ?_
  constructor
  · rintro ⟨_, _, _, rfl, hr, hrest⟩
    obtain ⟨rfl, rfl, rfl⟩ := Program.plays_done.1 hrest
    exact ⟨rfl, hr⟩
  · rintro ⟨rfl, hr⟩
    exact ⟨result, last, [], rfl, hr, .done _ _⟩

theorem plays_readPorts {g : Ports → α}
    (h : (Operation.readPorts g).run.Plays tag first moves (.ok a) last) :
    a = g first.ports ∧ last = first := by
  obtain ⟨_, _, hr⟩ := plays_ports.1 h
  cases hr
  exact ⟨rfl, rfl⟩

theorem plays_readIpam {g : Ipam → α}
    (h : (Operation.readIpam g).run.Plays tag first moves (.ok a) last) :
    a = g first.ipam ∧ last = first := by
  obtain ⟨_, _, _, _, hr, hrest⟩ := Program.plays_call.1 h
  cases hr
  obtain ⟨_, heq, rfl⟩ := Program.plays_done.1 hrest
  cases heq
  exact ⟨rfl, rfl⟩

end Operation

theorem Program.Plays.ensures {operation : Operation α} {pre : State → Prop}
    {post : α → State → Prop} {fails : Error → State → Prop}
    (h : operation.run.Plays tag first moves (.ok a) last)
    (hensures : operation.Ensures pre post fails) (hd : last.supply.Distinct) (hpre : pre first) :
    post a last :=
  (hensures _ _ _ h.alone).2 hd hpre

/-- The moves of a program that is performed alone. -/
def Program.performed (tag : Nat) : Program α → List Saying → State → List Move
  | .done _, _, _ => []
  | .call c next, sayings, state =>
    let heard := c.hear state (sayings.headD {})
    .call tag c state heard.1 heard.2 :: (next heard.1).performed tag sayings.tail heard.2

theorem Program.perform_plays (tag : Nat) (p : Program α) (sayings : List Saying) (state : State) :
    p.Plays tag state (p.performed tag sayings state) (p.perform sayings state).1
      (p.perform sayings state).2 := by
  induction p generalizing sayings state with
  | done a => exact .done a state
  | call c next ih => exact .call (c.hear_result state _) (ih _ _ _)

theorem Operation.plays_ok (tag : Nat) (operation : Operation α) (sayings : List Saying)
    (state : State) {P : α → List Move → State → Prop}
    (h : ∃ a ∈ (operation.run.perform sayings state).1.toOption,
      P a (operation.run.performed tag sayings state) (operation.run.perform sayings state).2) :
    ∃ a own last, operation.run.Plays tag state own (.ok a) last ∧ P a own last := by
  have hplays := operation.run.perform_plays tag sayings state
  generalize operation.run.perform sayings state = performed at hplays h
  obtain ⟨error | a, last⟩ := performed
  · obtain ⟨_, h, _⟩ := h
    cases h
  · obtain ⟨_, ⟨⟩, h⟩ := h
    exact ⟨a, _, last, hplays, h⟩

end ControlPlane
