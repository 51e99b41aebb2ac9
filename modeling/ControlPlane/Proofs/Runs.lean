import ControlPlane.Proofs.Calls
import ControlPlane.Proofs.Transaction

/-! Invariants of runs. A program is sound when each of its calls keeps the invariant, however long
other commands ran before it; then every run keeps it in which no identifier is drawn twice. -/

namespace ControlPlane

/-- No identifier was drawn twice up to the end of a move. -/
def Move.Fresh : Move → Prop
  | call _ _ _ _ after => after.supply.Distinct
  | _ => True

/-- A program of the command `tag`, of which `past` is all that happened up to its last move. Each
of its calls keeps `inv` when it comes after any moves of other commands, and `post` holds of its
answer at its end. -/
def Program.Sound (inv : List Move → State → Prop) (tag : Nat) {α : Type}
    (post : α → List Move → Prop) (past : List Move) : Program α → Prop
  | .done answer => post answer past
  | .call c next => ∀ others before answer after, (∀ move ∈ others, move.tag ≠ tag) →
      inv (past ++ others) before → c.Result before answer after → after.supply.Distinct →
      inv (past ++ others ++ [.call tag c before answer after]) after ∧
        (next answer).Sound inv tag post (past ++ others ++ [.call tag c before answer after])

section Rules

variable {inv : List Move → State → Prop} {tag : Nat} {α β : Type}
  {past : List Move} {post post' : α → List Move → Prop} {after : β → List Move → Prop}

theorem Program.Sound.mono {p : Program α} (h : p.Sound inv tag post past)
    (hpost : ∀ a later, past <+: later → post a later → post' a later) :
    p.Sound inv tag post' past := by
  induction p generalizing past with
  | done a => exact hpost a past (List.prefix_refl _) h
  | call c next ih =>
    intro others before answer after hothers hinv hr hfresh
    have ⟨hinv', hnext⟩ := h others before answer after hothers hinv hr hfresh
    refine ⟨hinv', ih answer hnext fun a later hlater => hpost a later ?_⟩
    rw [List.append_assoc] at hlater
    exact (List.prefix_append _ _).trans hlater

theorem Program.Sound.bind {p : Program α} {f : α → Program β} (h : p.Sound inv tag post past)
    (hf : ∀ a later, past <+: later → post a later → (f a).Sound inv tag after later) :
    (p >>= f).Sound inv tag after past := by
  change (p.bind f).Sound inv tag after past
  induction p generalizing past with
  | done a => exact hf a past (List.prefix_refl _) h
  | call c next ih =>
    intro others before answer after hothers hinv hr hfresh
    have ⟨hinv', hnext⟩ := h others before answer after hothers hinv hr hfresh
    refine ⟨hinv', ih answer hnext fun a later hlater => hf a later ?_⟩
    rw [List.append_assoc] at hlater
    exact (List.prefix_append _ _).trans hlater

end Rules

/-- A program that runs to its end with nothing between its calls. -/
inductive Program.Alone {α : Type} : Program α → State → α → State → Prop
  | done (a : α) (state : State) : Alone (.done a) state a state
  | call {β : Type} {c : Call β} {next : β → Program α} {before after last : State} {answer : β}
    {a : α} (result : c.Result before answer after) (rest : (next answer).Alone after a last) :
    Alone (.call c next) before a last

namespace Program

variable {α β : Type} {before last : State} {b : β}

theorem alone_call {c : Call α} {next : α → Program β} :
    (Program.call c next).Alone before b last ↔
      ∃ answer after, c.Result before answer after ∧ (next answer).Alone after b last := by
  constructor
  · intro h
    cases h with
    | call result rest => exact ⟨_, _, result, rest⟩
  · rintro ⟨_, _, result, rest⟩
    exact .call result rest

theorem alone_done {a : β} : (Program.done a).Alone before b last ↔ b = a ∧ last = before := by
  constructor
  · intro h
    cases h with
    | done => exact ⟨rfl, rfl⟩
  · rintro ⟨rfl, rfl⟩
    exact .done _ _

theorem alone_bind {p : Program α} {f : α → Program β} :
    (p >>= f).Alone before b last ↔ ∃ a mid, p.Alone before a mid ∧ (f a).Alone mid b last := by
  change (p.bind f).Alone before b last ↔ _
  induction p generalizing before with
  | done a =>
    simp only [Program.bind, alone_done]
    constructor
    · exact fun hf => ⟨a, before, ⟨rfl, rfl⟩, hf⟩
    · rintro ⟨_, _, ⟨rfl, rfl⟩, hf⟩
      exact hf
  | call c next ih =>
    simp only [Program.bind, alone_call, ih]
    constructor
    · rintro ⟨answer, after, hr, a, mid, hp, hf⟩
      exact ⟨a, mid, ⟨answer, after, hr, hp⟩, hf⟩
    · rintro ⟨a, mid, ⟨answer, after, hr, hp⟩, hf⟩
      exact ⟨answer, after, hr, a, mid, hp, hf⟩

end Program

namespace Operation

variable {α β : Type} {state last : State}

theorem alone_ipam {tx : Tx Ipam (Ending α)} {result : Except Error α} :
    (Operation.ipam tx).run.Alone state result last ↔ (result, last) = state.runIpam tx := by
  change (Program.call (.ipam tx) .done).Alone state result last ↔ _
  simp only [Program.alone_call, Program.alone_done, Call.Result]
  constructor
  · rintro ⟨answer, after, hr, rfl, rfl⟩
    exact hr
  · exact fun hr => ⟨result, last, hr, rfl, rfl⟩

theorem alone_ports {tx : Tx Ports (Closing α)} {result : Except Error α} :
    (Operation.ports tx).run.Alone state result last ↔
      ∃ refuser, (result, last) = state.runReviewed refuser tx := by
  change (Program.call (.ports tx) .done).Alone state result last ↔ _
  simp only [Program.alone_call, Program.alone_done, Call.Result]
  constructor
  · rintro ⟨answer, after, hr, rfl, rfl⟩
    exact hr
  · exact fun hr => ⟨result, last, hr, rfl, rfl⟩

theorem alone_readIpam {f : Ipam → α} {result : Except Error α} :
    (Operation.readIpam f).run.Alone state result last ↔
      result = .ok (f state.ipam) ∧ last = state := by
  refine alone_ipam.trans ?_
  rw [← Prod.mk.injEq]
  rfl

theorem alone_readPorts {f : Ports → α} {result : Except Error α} :
    (Operation.readPorts f).run.Alone state result last ↔
      result = .ok (f state.ports) ∧ last = state := by
  refine alone_ports.trans ?_
  simp only [State.runReviewed, State.runPorts]
  constructor
  · rintro ⟨_, h⟩
    exact Prod.mk.inj h
  · rintro ⟨rfl, rfl⟩
    exact ⟨none, rfl⟩

theorem alone_bind_of {operation : Operation α} {f : α → Operation β} {a : α} {mid : State}
    {result : Except Error β}
    (h : ∀ answer after, operation.run.Alone state answer after ↔ answer = .ok a ∧ after = mid) :
    (operation >>= f).run.Alone state result last ↔ (f a).run.Alone mid result last := by
  refine Program.alone_bind.trans ?_
  constructor
  · rintro ⟨answer, after, hp, hf⟩
    obtain ⟨rfl, rfl⟩ := (h answer after).1 hp
    exact hf
  · exact fun hf => ⟨.ok a, mid, (h _ _).2 ⟨rfl, rfl⟩, hf⟩

theorem alone_lift_bind {p : Program α} {f : α → Operation β} {result : Except Error β} :
    (ExceptT.lift p >>= f).run.Alone state result last ↔
      ∃ a mid, p.Alone state a mid ∧ (f a).run.Alone mid result last := by
  refine Program.alone_bind.trans ⟨?_, ?_⟩
  · rintro ⟨_, mid, hlift, hf⟩
    obtain ⟨a, _, hp, hdone⟩ := Program.alone_bind.1 hlift
    obtain ⟨rfl, rfl⟩ := Program.alone_done.1 hdone
    exact ⟨a, _, hp, hf⟩
  · rintro ⟨a, mid, hp, hf⟩
    exact ⟨.ok a, mid, Program.alone_bind.2 ⟨a, mid, hp, .done _ _⟩, hf⟩

theorem alone_bind_error {operation : Operation α} {f : α → Operation β} {error : Error} {mid : State}
    {result : Except Error β}
    (h : ∀ answer after, operation.run.Alone state answer after ↔
      answer = .error error ∧ after = mid) :
    (operation >>= f).run.Alone state result last ↔ result = .error error ∧ last = mid := by
  refine Program.alone_bind.trans ?_
  constructor
  · rintro ⟨answer, after, hp, hf⟩
    obtain ⟨rfl, rfl⟩ := (h answer after).1 hp
    exact Program.alone_done.1 hf
  · rintro ⟨rfl, rfl⟩
    exact ⟨_, _, (h _ _).2 ⟨rfl, rfl⟩, .done _ _⟩

end Operation

/-- An invariant that holds with each command that starts and ends, and a program of each command
that is sound for it. -/
structure Scene.Invariant (allowed : Setup → Command → Prop)
    (inv : List Move → State → Prop) (final : Nat → Except Error Reply → List Move → Prop) :
    Prop where
  start : ∀ {moves state setup command tag}, allowed setup command →
    (∀ move ∈ moves, move.tag < tag) → inv moves state →
    inv (moves ++ [.start tag command]) state ∧
      (setup.operation command).run.Sound inv tag (final tag) (moves ++ [.start tag command])
  finish : ∀ {past others state tag answer}, final tag answer past →
    (∀ move ∈ others, move.tag ≠ tag) → inv (past ++ others) state →
    inv (past ++ others ++ [.finish tag answer]) state

theorem snoc_eq_append_cons {moves past rest : List Move} {move last : Move}
    (h : moves ++ [last] = past ++ move :: rest) :
    (past = moves ∧ move = last ∧ rest = []) ∨
      ∃ front, rest = front ++ [last] ∧ moves = past ++ move :: front := by
  rcases List.eq_nil_or_concat rest with rfl | ⟨front, other, rfl⟩
  · obtain ⟨hmoves, hlast⟩ := List.append_inj' h rfl
    cases hlast
    exact .inl ⟨hmoves.symm, rfl, rfl⟩
  · rw [List.concat_eq_append, ← List.cons_append, ← List.append_assoc] at h
    obtain ⟨hmoves, hlast⟩ := List.append_inj' h rfl
    cases hlast
    exact .inr ⟨front, List.concat_eq_append, hmoves⟩

theorem split_cases {early late front rest : List Move} {a b : Move}
    (h : early ++ a :: late = front ++ b :: rest) :
    (∃ mid, early = front ++ b :: mid ∧ rest = mid ++ a :: late) ∨
      ∀ move ∈ b :: rest, move ∈ a :: late := by
  rcases List.append_eq_append_iff.1 h with ⟨mid, rfl, hmid⟩ | ⟨mid, rfl, hmid⟩
  · rw [hmid]
    exact .inr fun move hmove => List.mem_append_right _ hmove
  · cases mid with
    | nil =>
      rw [List.nil_append] at hmid
      exact .inr fun move hmove => hmid ▸ hmove
    | cons first mid =>
      cases hmid
      exact .inl ⟨mid, rfl, rfl⟩

/-- What is left of a command is sound after its last move. -/
def Running.Sound (inv : List Move → State → Prop)
    (final : Nat → Except Error Reply → List Move → Prop) (moves : List Move) (running : Running) :
    Prop :=
  ∃ past others, moves = past ++ others ∧ (∀ move ∈ others, move.tag ≠ running.tag) ∧
    running.program.Sound inv running.tag (final running.tag) past

/-- What a run keeps of a scene: commands have tags of their own, and what is left of each is
sound after its last move. -/
structure Scene.Kept (inv : List Move → State → Prop)
    (final : Nat → Except Error Reply → List Move → Prop) (moves : List Move) (scene : Scene) :
    Prop where
  holds : inv moves scene.state
  started : ∀ move ∈ moves, move.tag < scene.started
  tags : ∀ running ∈ scene.running, running.tag < scene.started
  distinct : scene.running.Pairwise fun a b => a.tag ≠ b.tag
  sound : ∀ running ∈ scene.running, running.Sound inv final moves

namespace Scene

variable {allowed : Setup → Command → Prop} {inv : List Move → State → Prop}
  {final : Nat → Except Error Reply → List Move → Prop} {moves : List Move}
  {first scene next : Scene} {move : Move}

theorem sound_last {tag : Nat} {p : Program (Except Error Reply)}
    (h : p.Sound inv tag (final tag) moves) : (Running.mk tag p).Sound inv final moves :=
  ⟨moves, [], (List.append_nil moves).symm, List.forall_mem_nil _, h⟩

theorem sound_snoc {running : Running} (hne : move.tag ≠ running.tag)
    (h : running.Sound inv final moves) : running.Sound inv final (moves ++ [move]) := by
  obtain ⟨past, others, rfl, hothers, hs⟩ := h
  refine ⟨past, others ++ [move], by rw [List.append_assoc], fun other hother => ?_, hs⟩
  rcases List.mem_append.1 hother with hother | hother
  · exact hothers other hother
  · rw [List.mem_singleton.1 hother]
    exact hne

theorem forall_tag_snoc {started : Nat} (h : ∀ move ∈ moves, move.tag < started)
    (hm : move.tag < started) : ∀ other ∈ moves ++ [move], other.tag < started := by
  intro other hother
  rcases List.mem_append.1 hother with hother | hother
  · exact h other hother
  · rw [List.mem_singleton.1 hother]
    exact hm

theorem forall_mem_middle {α : Type 1} {P : α → Prop} {front rest : List α} {x : α} :
    (∀ y ∈ front ++ x :: rest, P y) ↔ P x ∧ ∀ y ∈ front ++ rest, P y := by
  simp only [List.perm_middle.mem_iff, List.forall_mem_cons]

theorem Kept.start {setup : Setup} {command : Command} (hi : Invariant allowed inv final)
    (h : Kept inv final moves scene) (may : allowed setup command) :
    Kept inv final (moves ++ [.start scene.started command]) { scene with
      running := ⟨scene.started, (setup.operation command).run⟩ :: scene.running
      started := scene.started + 1 } := by
  have ⟨hinv', hs⟩ := hi.start may h.started h.holds
  refine ⟨hinv', ?_, ?_, ?_, ?_⟩
  · exact forall_tag_snoc (fun m hm => Nat.lt_succ_of_lt (h.started m hm)) (Nat.lt_succ_self _)
  · refine List.forall_mem_cons.2 ⟨Nat.lt_succ_self _, fun running hr => ?_⟩
    exact Nat.lt_succ_of_lt (h.tags running hr)
  · refine List.pairwise_cons.2 ⟨fun running hr => ?_, h.distinct⟩
    exact Nat.ne_of_gt (h.tags running hr)
  · refine List.forall_mem_cons.2 ⟨sound_last hs, fun running hr => ?_⟩
    exact sound_snoc (Nat.ne_of_gt (h.tags running hr)) (h.sound running hr)

theorem Kept.call {α : Type} {state after : State} {front rest : List Running} {started tag : Nat}
    {c : Call α} {next : α → Program (Except Error Reply)} {answer : α}
    (h : Kept inv final moves ⟨state, front ++ ⟨tag, .call c next⟩ :: rest, started⟩)
    (result : c.Result state answer after) (hfresh : after.supply.Distinct) :
    Kept inv final (moves ++ [.call tag c state answer after])
      ⟨after, front ++ ⟨tag, next answer⟩ :: rest, started⟩ := by
  obtain ⟨hinv, hstarted, htags, hdistinct, hsound⟩ := h
  rw [List.pairwise_middle fun hab => Ne.symm hab, List.pairwise_cons] at hdistinct
  have ⟨htag, htags⟩ := forall_mem_middle.1 htags
  have ⟨⟨past, others, hmoves, hothers, hs⟩, hsound⟩ := forall_mem_middle.1 hsound
  subst hmoves
  -- The command is sound after any moves of others, so after those that came since its last one.
  have ⟨hinv', hs'⟩ := hs others state answer after hothers hinv result hfresh
  refine ⟨hinv', forall_tag_snoc hstarted htag, forall_mem_middle.2 ⟨htag, htags⟩, ?_,
    forall_mem_middle.2 ⟨sound_last hs', fun running hr => ?_⟩⟩
  · rw [List.pairwise_middle fun hab => Ne.symm hab, List.pairwise_cons]
    exact hdistinct
  · exact sound_snoc (hdistinct.1 running hr) (hsound running hr)

theorem Kept.finish {state : State} {front rest : List Running} {started tag : Nat}
    {answer : Except Error Reply} (hi : Invariant allowed inv final)
    (h : Kept inv final moves ⟨state, front ++ ⟨tag, .done answer⟩ :: rest, started⟩) :
    Kept inv final (moves ++ [.finish tag answer]) ⟨state, front ++ rest, started⟩ := by
  obtain ⟨hinv, hstarted, htags, hdistinct, hsound⟩ := h
  rw [List.pairwise_middle fun hab => Ne.symm hab, List.pairwise_cons] at hdistinct
  have ⟨htag, htags⟩ := forall_mem_middle.1 htags
  have ⟨⟨past, others, hmoves, hothers, hs⟩, hsound⟩ := forall_mem_middle.1 hsound
  subst hmoves
  refine ⟨hi.finish hs hothers hinv, forall_tag_snoc hstarted htag, htags, hdistinct.2,
    fun running hr => ?_⟩
  exact sound_snoc (hdistinct.1 running hr) (hsound running hr)

theorem Kept.step (hi : Invariant allowed inv final) (h : Kept inv final moves scene)
    (hs : Step allowed scene move next) (hfresh : move.Fresh) :
    Kept inv final (moves ++ [move]) next := by
  cases hs with
  | start _ setup command may => exact h.start hi may
  | call state after front rest started tag c next answer result => exact h.call result hfresh
  | finish state front rest started tag answer => exact h.finish hi

/-- What begins a run is a run. -/
theorem Run.of_prefix {past : List Move} (run : Run allowed first moves scene)
    (hp : past <+: moves) : ∃ mid, Run allowed first past mid := by
  induction run with
  | nil =>
    obtain rfl := List.prefix_nil.1 hp
    exact ⟨first, .nil⟩
  | snoc run step ih =>
    rcases List.prefix_concat_iff.1 hp with rfl | hp
    · exact ⟨_, run.snoc step⟩
    · exact ih hp

theorem Run.append {mid : Scene} {later : List Move} (run : Run allowed first moves mid)
    (hlater : Run allowed mid later scene) : Run allowed first (moves ++ later) scene := by
  induction hlater with
  | nil => rwa [List.append_nil]
  | snoc _ step ih =>
    rw [← List.append_assoc]
    exact ih.snoc step

/-- An invariant that holds at first, with nothing running, holds at the end of every run. -/
theorem Run.kept (run : Run allowed first moves scene) (hi : Invariant allowed inv final)
    (hrunning : first.running = []) (hinv : inv [] first.state) (hfresh : ∀ move ∈ moves, move.Fresh) :
    Kept inv final moves scene := by
  induction run with
  | nil =>
    refine ⟨hinv, List.forall_mem_nil _, ?_, ?_, ?_⟩ <;> simp [hrunning]
  | snoc _ step ih =>
    have ⟨hfront, hlast⟩ := List.forall_mem_append.1 hfresh
    exact (ih hfront).step hi step (hlast _ (List.mem_singleton_self _))

end Scene

end ControlPlane
