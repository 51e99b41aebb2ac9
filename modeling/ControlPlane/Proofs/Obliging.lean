import ControlPlane.Proofs.Interference

/-! Programs whose drivers decide in a given way, and accept whatever is written. Then it depends on
nobody but the programs themselves what they make of a state, and in which turns they make it. -/

namespace ControlPlane

/-- How drivers decide that go by the host, by what is asked for there, and by the segments of the
network. -/
abbrev Decision := String → Option String → VnicType → Json → List Segment → Option BindResult

/-- What comes of a call when drivers decide in a given way, and accept all changes. -/
def Call.oblige (decision : Decision) : {α : Type} → Call α → State → α × State
  | _, .bind driver context, state =>
    (decision driver context.binding.host context.binding.vnic context.binding.profile
      context.network.segments, state)
  | _, c, state => c.settle state none

def Move.Obliged (decision : Decision) : Move → Prop
  | call _ c before answer after => (answer, after) = c.oblige decision before
  | _ => True

/-- Runs a program alone. -/
def Program.oblige {α : Type} (decision : Decision) : Program α → State → α × State
  | .done a, state => (a, state)
  | .call c next, state =>
    (next (c.oblige decision state).1).oblige decision (c.oblige decision state).2

variable {α β : Type} {decision : Decision} {tag : Nat}

theorem Call.oblige_result (decision : Decision) (c : Call α) (state : State) :
    c.Result state (c.oblige decision state).1 (c.oblige decision state).2 := by
  cases c with
  | bind driver context => rfl
  | _ => exact settle_result _ state none

theorem Program.oblige_plays (decision : Decision) (tag : Nat) (p : Program α) (state : State) :
    ∃ moves, p.Plays tag state moves (p.oblige decision state).1 (p.oblige decision state).2 ∧
      ∀ move ∈ moves, move.Obliged decision := by
  induction p generalizing state with
  | done a => exact ⟨[], .done a state, List.forall_mem_nil _⟩
  | call c next ih =>
    obtain ⟨moves, hplays, hmoves⟩ := ih (c.oblige decision state).1 (c.oblige decision state).2
    exact ⟨_, .call (c.oblige_result decision state) hplays, List.forall_mem_cons.2 ⟨rfl, hmoves⟩⟩

namespace Program

def hasEnded : Program α → Bool
  | .done _ => true
  | .call .. => false

/-- Two programs take turns in a given order; who has ended passes. Tells their moves, the state, and
what is left of them. -/
def takeTurns (decision : Decision) (a b : Nat) :
    List Bool → Program α → Program β → State → List Move × State × Program α × Program β
  | [], p, q, state => ([], state, p, q)
  | true :: turns, .call c next, q, state =>
    let later := takeTurns decision a b turns (next (c.oblige decision state).1) q
      (c.oblige decision state).2
    (.call a c state (c.oblige decision state).1 (c.oblige decision state).2 :: later.1, later.2)
  | true :: turns, .done x, q, state => takeTurns decision a b turns (.done x) q state
  | false :: turns, p, .call c next, state =>
    let later := takeTurns decision a b turns p (next (c.oblige decision state).1)
      (c.oblige decision state).2
    (.call b c state (c.oblige decision state).1 (c.oblige decision state).2 :: later.1, later.2)
  | false :: turns, p, .done y, state => takeTurns decision a b turns p (.done y) state

theorem takeTurns_interleaves {decision : Decision} {a b : Nat} {turns : List Bool} {p : Program α}
    {q : Program β} {state : State}
    (h : (takeTurns decision a b turns p q state).2.2.1.hasEnded = true ∧
      (takeTurns decision a b turns p q state).2.2.2.hasEnded = true) :
    ∃ x y, Interleaves a b p q state (takeTurns decision a b turns p q state).1 x y
        (takeTurns decision a b turns p q state).2.1 ∧
      ∀ move ∈ (takeTurns decision a b turns p q state).1, move.Obliged decision := by
  induction turns generalizing p q state with
  | nil =>
    cases p with
    | call => cases h.1
    | done x =>
      cases q with
      | call => cases h.2
      | done y => exact ⟨x, y, .done x y state, List.forall_mem_nil _⟩
  | cons turn turns ih =>
    cases turn with
    | true =>
      cases p with
      | done x => exact ih h
      | call c next =>
        obtain ⟨x, y, hrest, hmoves⟩ := ih h
        exact ⟨x, y, .left (c.oblige_result decision state) hrest, List.forall_mem_cons.2 ⟨rfl, hmoves⟩⟩
    | false =>
      cases q with
      | done y => exact ih h
      | call c next =>
        obtain ⟨x, y, hrest, hmoves⟩ := ih h
        exact ⟨x, y, .right (c.oblige_result decision state) hrest, List.forall_mem_cons.2 ⟨rfl, hmoves⟩⟩

end Program

end ControlPlane
