import ControlPlane.Proofs.Plays

/-! Programs between whose calls others work on the same state. What a program makes of it can be told
if it is known what others leave as it is, and what the program leaves to them. -/

namespace ControlPlane

/-- The moves of a program that runs to its end. Others may do anything between two of its calls, so
that each call may find any state. -/
inductive Program.Weaves {α : Type} (tag : Nat) : Program α → List Move → α → Prop
  | done (a : α) : Weaves tag (.done a) [] a
  | call {β : Type} {c : Call β} {next : β → Program α} {before after : State} {moves : List Move}
    {answer : β} {a : α} (result : c.Result before answer after)
    (rest : (next answer).Weaves tag moves a) :
    Weaves tag (.call c next) (.call tag c before answer after :: moves) a

/-- Two programs that take turns, one call at a time, until both have ended. -/
inductive Program.Interleaves {α β : Type} (a b : Nat) :
    Program α → Program β → State → List Move → α → β → State → Prop
  | done (x : α) (y : β) (state : State) : Interleaves a b (.done x) (.done y) state [] x y state
  | left {γ : Type} {c : Call γ} {next : γ → Program α} {q : Program β} {before after last : State}
    {moves : List Move} {answer : γ} {x : α} {y : β} (result : c.Result before answer after)
    (rest : Interleaves a b (next answer) q after moves x y last) :
    Interleaves a b (.call c next) q before (.call a c before answer after :: moves) x y last
  | right {γ : Type} {c : Call γ} {next : γ → Program β} {p : Program α} {before after last : State}
    {moves : List Move} {answer : γ} {x : α} {y : β} (result : c.Result before answer after)
    (rest : Interleaves a b p (next answer) after moves x y last) :
    Interleaves a b p (.call c next) before (.call b c before answer after :: moves) x y last

/-- What a program makes of a state, of which `past` are its moves so far. Others change the state
between its calls as it may `rely` on, and each call that is as it `may` be changes it as the program
has to `keep`. -/
def Program.Guards {α : Type} (rely keep : State → State → Prop) (may : Move → Prop) (tag : Nat)
    (post : α → List Move → State → Prop) (past : List Move) (state : State) : Program α → Prop
  | .done a => post a past state
  | .call c next => ∀ before answer after, rely state before → c.Result before answer after →
      may (.call tag c before answer after) → keep before after ∧
        (next answer).Guards rely keep may tag post (past ++ [.call tag c before answer after]) after

/-- A move changes the state in a given way. -/
def Move.Within (keep : State → State → Prop) : Move → Prop
  | call _ _ before _ after => keep before after
  | _ => True

variable {α β : Type} {tag : Nat} {first last : State} {moves : List Move} {a : α} {b : β}

theorem Move.Within.mono {keep keep' : State → State → Prop} {move : Move} (h : move.Within keep)
    (hk : ∀ before after, keep before after → keep' before after) : move.Within keep' := by
  cases move with
  | call tag c before answer after => exact hk before after h
  | _ => trivial

namespace Program

theorem weaves_done {a b : α} : (Program.done a).Weaves tag moves b ↔ moves = [] ∧ b = a := by
  constructor
  · intro h
    cases h
    exact ⟨rfl, rfl⟩
  · rintro ⟨rfl, rfl⟩
    exact .done _

theorem weaves_call {c : Call α} {next : α → Program β} :
    (Program.call c next).Weaves tag moves b ↔ ∃ before answer after rest,
      moves = .call tag c before answer after :: rest ∧ c.Result before answer after ∧
        (next answer).Weaves tag rest b := by
  constructor
  · intro h
    cases h with
    | call result rest => exact ⟨_, _, _, _, rfl, result, rest⟩
  · rintro ⟨_, _, _, _, rfl, result, rest⟩
    exact .call result rest

theorem weaves_bind {p : Program α} {f : α → Program β} :
    (p >>= f).Weaves tag moves b ↔ ∃ a front back, moves = front ++ back ∧
      p.Weaves tag front a ∧ (f a).Weaves tag back b := by
  change (p.bind f).Weaves tag moves b ↔ _
  induction p generalizing moves with
  | done a =>
    constructor
    · exact fun h => ⟨a, [], moves, rfl, .done a, h⟩
    · rintro ⟨_, _, back, rfl, h, hrest⟩
      obtain ⟨rfl, rfl⟩ := weaves_done.1 h
      exact hrest
  | call c next ih =>
    simp only [Program.bind, weaves_call, ih]
    constructor
    · rintro ⟨before, answer, after, _, rfl, hr, a, front, back, rfl, hp, hf⟩
      exact ⟨a, _ :: front, back, rfl, ⟨before, answer, after, front, rfl, hr, hp⟩, hf⟩
    · rintro ⟨a, _, back, rfl, ⟨before, answer, after, front, rfl, hr, hp⟩, hf⟩
      exact ⟨before, answer, after, front ++ back, rfl, hr, a, front, back, rfl, hp, hf⟩

theorem Plays.weaves {p : Program α} (h : p.Plays tag first moves a last) : p.Weaves tag moves a := by
  induction h with
  | done => exact .done _
  | call result _ ih => exact .call result ih

end Program

/-- The moves and the answer of a program whose calls find given states and are told given things. -/
def Program.weave (tag : Nat) (finds : Nat → State × Saying) : Nat → Program α → List Move × α
  | _, .done a => ([], a)
  | n, .call c next =>
    let heard := c.hear (finds n).1 (finds n).2
    let later := (next heard.1).weave tag finds (n + 1)
    (.call tag c (finds n).1 heard.1 heard.2 :: later.1, later.2)

theorem Program.weave_weaves (tag : Nat) (finds : Nat → State × Saying) (n : Nat) (p : Program α) :
    p.Weaves tag (p.weave tag finds n).1 (p.weave tag finds n).2 := by
  induction p generalizing n with
  | done a => exact .done a
  | call c next ih => exact .call (c.hear_result _ _) (ih _ _)

theorem Operation.weaves_lift_bind {p : Program α} {f : α → Operation β} {result : Except Error β} :
    (ExceptT.lift p >>= f : Operation β).run.Weaves tag moves result ↔
      ∃ a front back, moves = front ++ back ∧ p.Weaves tag front a ∧
        (f a).run.Weaves tag back result := by
  rw [run_lift_bind, Program.weaves_bind]

namespace Program

section Guards

variable {rely keep : State → State → Prop} {may : Move → Prop} {past : List Move} {state : State}
  {post post' : α → List Move → State → Prop} {after : β → List Move → State → Prop}

theorem Guards.mono {p : Program α} (h : p.Guards rely keep may tag post past state)
    (hpost : ∀ a later state, post a later state → post' a later state) :
    p.Guards rely keep may tag post' past state := by
  induction p generalizing past state with
  | done a => exact hpost a past state h
  | call c next ih =>
    intro before answer last hrely hr hmay
    obtain ⟨hkeep, hrest⟩ := h before answer last hrely hr hmay
    exact ⟨hkeep, ih answer hrest⟩

theorem Guards.bind {p : Program α} {f : α → Program β}
    (h : p.Guards rely keep may tag post past state)
    (hf : ∀ a later state, post a later state → (f a).Guards rely keep may tag after later state) :
    (p >>= f).Guards rely keep may tag after past state := by
  change (p.bind f).Guards rely keep may tag after past state
  induction p generalizing past state with
  | done a => exact hf a past state h
  | call c next ih =>
    intro before answer last hrely hr hmay
    obtain ⟨hkeep, hrest⟩ := h before answer last hrely hr hmay
    exact ⟨hkeep, ih answer hrest⟩

end Guards

namespace Interleaves

variable {a b : Nat} {p : Program α} {q : Program β} {x : α} {y : β} {mid : State}
  {front back : List Move} {keep : State → State → Prop}

theorem of_done (h : q.Plays b first moves y last) :
    Interleaves a b (.done x) q first moves x y last := by
  induction h with
  | done y state => exact .done x y state
  | call result _ ih => exact .right result ih

theorem of_plays (h : p.Plays a first front x mid) (h' : q.Plays b mid back y last) :
    Interleaves a b p q first (front ++ back) x y last := by
  induction h with
  | done x state => exact of_done h'
  | call result _ ih => exact .left result (ih h')

theorem symm (h : Interleaves a b p q first moves x y last) :
    Interleaves b a q p first moves y x last := by
  induction h with
  | done x y state => exact .done y x state
  | left result _ ih => exact .right result ih
  | right result _ ih => exact .left result ih

/-- What every move keeps is kept by all of them together. -/
theorem within (h : Interleaves a b p q first moves x y last) (hrefl : ∀ state, keep state state)
    (htrans : ∀ {s t u}, keep s t → keep t u → keep s u) (hmoves : ∀ move ∈ moves, move.Within keep) :
    keep first last := by
  induction h with
  | done x y state => exact hrefl state
  | left _ _ ih | right _ _ ih =>
    obtain ⟨hmove, hrest⟩ := List.forall_mem_cons.1 hmoves
    exact htrans hmove (ih hrest)

/-- Two programs of which each keeps what the other relies on. -/
theorem guards {keep' : State → State → Prop} {may : Move → Prop}
    {post : α → List Move → State → Prop} {post' : β → List Move → State → Prop} {state state' : State}
    (h : Interleaves a b p q first moves x y last) (hne : a ≠ b)
    (hrefl : ∀ state, keep state state) (hrefl' : ∀ state, keep' state state)
    (htrans : ∀ {s t u}, keep s t → keep t u → keep s u)
    (htrans' : ∀ {s t u}, keep' s t → keep' t u → keep' s u)
    (hp : p.Guards keep' keep may a post front state) (hs : keep' state first)
    (hq : q.Guards keep keep' may b post' back state') (hs' : keep state' first)
    (hmay : ∀ move ∈ moves, may move) :
    (∃ own, post x (front ++ moves.filter (·.tag = a)) own ∧ keep' own last) ∧
      (∃ own, post' y (back ++ moves.filter (·.tag = b)) own ∧ keep own last) ∧
      ∀ move ∈ moves, move.tag = a ∧ move.Within keep ∨ move.tag = b ∧ move.Within keep' := by
  -- Each program is known where its own last move has left it; since then only the other has moved.
  induction h generalizing front back state state' with
  | done x y first =>
    rw [List.filter_nil, List.append_nil, List.filter_nil, List.append_nil]
    exact ⟨⟨state, hp, hs⟩, ⟨state', hq, hs'⟩, List.forall_mem_nil _⟩
  | @left γ c next q before after last moves answer x y result rest ih =>
    obtain ⟨hmove, hmay⟩ := List.forall_mem_cons.1 hmay
    obtain ⟨hkeep, hrest⟩ := hp before answer after hs result hmove
    obtain ⟨hleft, hright, hall⟩ := ih hrest (hrefl' after) hq (htrans hs' hkeep) hmay
    refine ⟨?_, ?_, List.forall_mem_cons.2 ⟨.inl ⟨rfl, hkeep⟩, hall⟩⟩
    · rw [List.filter_cons_of_pos (by simp [Move.tag]), List.append_cons]
      exact hleft
    · rw [List.filter_cons_of_neg (by simp [Move.tag, hne])]
      exact hright
  | @right γ c next p before after last moves answer x y result rest ih =>
    obtain ⟨hmove, hmay⟩ := List.forall_mem_cons.1 hmay
    obtain ⟨hkeep, hrest⟩ := hq before answer after hs' result hmove
    obtain ⟨hleft, hright, hall⟩ := ih hp (htrans' hs hkeep) hrest (hrefl after) hmay
    refine ⟨?_, ?_, List.forall_mem_cons.2 ⟨.inr ⟨rfl, hkeep⟩, hall⟩⟩
    · rw [List.filter_cons_of_neg (by simp [Move.tag, hne.symm])]
      exact hleft
    · rw [List.filter_cons_of_pos (by simp [Move.tag]), List.append_cons]
      exact hright

end Interleaves

end Program

end ControlPlane
