import ControlPlane.Proofs.Faithful

/-! Traces of operations. What a command has done by its end is told by its moves, whatever other
commands did between them, and in a run that has come to rest every command has come to its end. -/

namespace ControlPlane

/-- What becomes of a program of the command `tag`, of which `past` is all that happened up to its
last move: `post` holds of its answer at its end. -/
def Program.Leaves (tag : Nat) {α : Type} (post : α → List Move → Prop) (past : List Move) :
    Program α → Prop
  | .done answer => post answer past
  | .call c next => ∀ others before answer after, (∀ move ∈ others, move.tag ≠ tag) →
      Faithful False (past ++ others) before → c.Result before answer after →
      after.supply.Distinct →
      (next answer).Leaves tag post (past ++ others ++ [.call tag c before answer after])

/-- What becomes of an operation that may fail. -/
def Operation.Leaves (tag : Nat) {α : Type} (post : α → List Move → Prop)
    (fails : Error → List Move → Prop) (past : List Move) (operation : Operation α) : Prop :=
  operation.run.Leaves tag (fun result later =>
    match result with
    | .ok a => post a later
    | .error error => fails error later) past

section Rules

variable {tag : Nat} {α β : Type} {past : List Move}

namespace Program

variable {post post' : α → List Move → Prop} {after : β → List Move → Prop}

theorem Leaves.mono {p : Program α} (h : p.Leaves tag post past)
    (hpost : ∀ a later, past <+: later → post a later → post' a later) :
    p.Leaves tag post' past := by
  induction p generalizing past with
  | done a => exact hpost a past (List.prefix_refl _) h
  | call c next ih =>
    intro others before answer after hothers hf hr hd
    refine ih answer (h others before answer after hothers hf hr hd) fun a later hlater => ?_
    rw [List.append_assoc] at hlater
    exact hpost a later ((List.prefix_append _ _).trans hlater)

theorem Leaves.bind {p : Program α} {f : α → Program β} (h : p.Leaves tag post past)
    (hf : ∀ a later, past <+: later → post a later → (f a).Leaves tag after later) :
    (p >>= f).Leaves tag after past := by
  change (p.bind f).Leaves tag after past
  induction p generalizing past with
  | done a => exact hf a past (List.prefix_refl _) h
  | call c next ih =>
    intro others before answer last hothers hfaithful hr hd
    refine ih answer (h others before answer last hothers hfaithful hr hd) fun a later hlater => ?_
    rw [List.append_assoc] at hlater
    exact hf a later ((List.prefix_append _ _).trans hlater)

theorem leaves_true (p : Program α) : p.Leaves tag (fun _ _ => True) past := by
  induction p generalizing past with
  | done a => trivial
  | call c next ih => exact fun _ _ answer _ _ _ _ _ => ih answer

theorem Leaves.forall {ι : Type} {p : Program α} {post : ι → α → List Move → Prop}
    (h : ∀ i, p.Leaves tag (post i) past) : p.Leaves tag (fun a later => ∀ i, post i a later) past := by
  induction p generalizing past with
  | done a => exact h
  | call c next ih =>
    intro others before answer after hothers hf hr hd
    exact ih answer fun i => h i others before answer after hothers hf hr hd

/-- What holds of the moves of a program after each of its calls, if it held before, holds at its
end. -/
theorem All.leaves {good : {β : Type} → Call β → Prop} {inv : List Move → Prop} {p : Program α}
    (hp : p.All good) (h : inv past)
    (hcall : ∀ {β : Type} {c : Call β}, good c → ∀ {past others before answer after}, inv past →
      (∀ move ∈ others, move.tag ≠ tag) → Faithful False (past ++ others) before →
      c.Result before answer after → after.supply.Distinct →
      inv (past ++ others ++ [.call tag c before answer after])) :
    p.Leaves tag (fun _ => inv) past := by
  induction p generalizing past with
  | done a => exact h
  | call c next ih =>
    intro others before answer after hothers hf hr hd
    exact ih answer (hp.2 answer) (hcall hp.1 h hothers hf hr hd)

/-- What becomes of a sound program holds beside what it is sound for. -/
theorem Sound.and_leaves {inv : List Move → State → Prop} {p : Program α}
    (h : p.Sound inv tag post past) (hl : p.Leaves tag post' past)
    (hinv : ∀ moves state, inv moves state → Faithful False moves state) :
    p.Sound inv tag (fun a later => post a later ∧ post' a later) past := by
  induction p generalizing past with
  | done a => exact ⟨h, hl⟩
  | call c next ih =>
    intro others before answer after hothers hi hr hd
    obtain ⟨hkept, hnext⟩ := h others before answer after hothers hi hr hd
    exact ⟨hkept, ih answer hnext (hl others before answer after hothers (hinv _ _ hi) hr hd)⟩

end Program

namespace Operation

variable {post post' : α → List Move → Prop} {after : β → List Move → Prop}
  {fails fails' : Error → List Move → Prop}

theorem leaves_any (operation : Operation α) :
    operation.Leaves tag (fun _ _ => True) (fun _ _ => True) past := by
  refine (Program.leaves_true operation.run).mono fun result _ _ _ => ?_
  cases result <;> trivial

theorem leaves_pure {a : α} (h : post a past) : Leaves tag post fails past (pure a) := h

theorem leaves_throw {error : Error} (h : fails error past) :
    Leaves tag post fails past (throw error : Operation α) := h

theorem Leaves.mono {operation : Operation α} (h : operation.Leaves tag post fails past)
    (hpost : ∀ a later, past <+: later → post a later → post' a later)
    (hfails : ∀ error later, past <+: later → fails error later → fails' error later) :
    operation.Leaves tag post' fails' past := by
  refine Program.Leaves.mono h fun result later hlater hr => ?_
  cases result with
  | ok a => exact hpost a later hlater hr
  | error error => exact hfails error later hlater hr

theorem Leaves.bind {operation : Operation α} {f : α → Operation β}
    (h : operation.Leaves tag post fails past)
    (hf : ∀ a later, past <+: later → post a later → (f a).Leaves tag after fails later) :
    (operation >>= f).Leaves tag after fails past := by
  refine Program.Leaves.bind h fun result later hlater hr => ?_
  cases result with
  | ok a => exact hf a later hlater hr
  | error error => exact hr

theorem leaves_bind_except {r : Except Error α} {f : α → Operation β}
    (hfails : ∀ error, r = .error error → fails error past)
    (h : ∀ a, r = .ok a → (f a).Leaves tag after fails past) :
    Leaves tag after fails past (liftM r >>= f) := by
  cases r with
  | ok a => exact h a rfl
  | error error => exact hfails error rfl

theorem leaves_guard {c : Prop} [Decidable c] {error : Error} {f : β → Operation α}
    {operation : Operation α} (hfails : c → fails error past)
    (h : ¬ c → operation.Leaves tag post fails past) :
    Leaves tag post fails past (if c then throw error >>= f else operation) := by
  split
  · exact hfails ‹_›
  · exact h ‹_›

theorem Leaves.orElse {operation : Operation α} {recover : Error → Operation α}
    (h : operation.Leaves tag post fails' past)
    (hr : ∀ error later, past <+: later → fails' error later →
      (recover error).Leaves tag post fails later) :
    (operation.orElse recover).Leaves tag post fails past := by
  refine Program.Leaves.bind h fun result later hlater hresult => ?_
  cases result with
  | ok a => exact hresult
  | error error => exact hr error later hlater hresult

theorem leaves_lift {p : Program α} (h : p.Leaves tag post past) :
    Leaves tag post fails past (ExceptT.lift p) :=
  Program.Leaves.bind h fun _ _ _ ha => ha

theorem Leaves.forall {ι : Type} {operation : Operation α} {post : ι → α → List Move → Prop}
    {fails : ι → Error → List Move → Prop}
    (h : ∀ i, operation.Leaves tag (post i) (fails i) past) :
    operation.Leaves tag (fun a later => ∀ i, post i a later)
      (fun error later => ∀ i, fails i error later) past := by
  refine Program.Leaves.mono (Program.Leaves.forall h) fun result later _ hr => ?_
  cases result with
  | ok a => exact hr
  | error error => exact hr

theorem Makes.leaves {good : {β : Type} → Call β → Prop} {inv : List Move → Prop}
    {operation : Operation α} (ho : operation.Makes good) (h : inv past)
    (hcall : ∀ {β : Type} {c : Call β}, good c → ∀ {past others before answer after}, inv past →
      (∀ move ∈ others, move.tag ≠ tag) → Faithful False (past ++ others) before →
      c.Result before answer after → after.supply.Distinct →
      inv (past ++ others ++ [.call tag c before answer after])) :
    operation.Leaves tag (fun _ => inv) (fun _ => inv) past := by
  refine Program.Leaves.mono (Program.All.leaves ho h hcall) fun result _ _ hr => ?_
  cases result with
  | ok a => exact hr
  | error error => exact hr

theorem leaves_forM {ι : Type} {items : List ι} {body : ι → Operation Unit}
    (inv : List ι → List Move → Prop)
    (h : ∀ item rest later, past <+: later → inv (item :: rest) later →
      (body item).Leaves tag (fun _ => inv rest) fails later) (hpast : inv items past) :
    (items.forM body).Leaves tag (fun _ => inv []) fails past := by
  induction items generalizing past with
  | nil => exact leaves_pure hpast
  | cons item rest ih =>
    refine (h item rest past (List.prefix_refl _) hpast).bind fun _ later hlater hrest => ?_
    exact ih (fun item rest last hlast => h item rest last (hlater.trans hlast)) hrest

theorem leaves_ipam {tx : Tx Ipam (Ending α)}
    (h : ∀ others before answer after, (∀ move ∈ others, move.tag ≠ tag) →
      Faithful False (past ++ others) before → (answer, after) = before.runIpam tx →
      after.supply.Distinct →
        match answer with
        | .ok a => post a (past ++ others ++ [.call tag (.ipam tx) before answer after])
        | .error error => fails error (past ++ others ++ [.call tag (.ipam tx) before answer after])) :
    (Operation.ipam tx).Leaves tag post fails past := by
  intro others before answer after hothers hf hr hd
  have hpost := h others before answer after hothers hf hr hd
  cases answer with
  | ok a => exact hpost
  | error error => exact hpost

theorem leaves_ports {tx : Tx Ports (Closing α)}
    (h : ∀ others before answer after refuser, (∀ move ∈ others, move.tag ≠ tag) →
      Faithful False (past ++ others) before → (answer, after) = before.runReviewed refuser tx →
      after.supply.Distinct →
        match answer with
        | .ok a => post a (past ++ others ++ [.call tag (.ports tx) before answer after])
        | .error error =>
          fails error (past ++ others ++ [.call tag (.ports tx) before answer after])) :
    (Operation.ports tx).Leaves tag post fails past := by
  rintro others before answer after hothers hf ⟨refuser, hr⟩ hd
  have hpost := h others before answer after refuser hothers hf hr hd
  cases answer with
  | ok a => exact hpost
  | error error => exact hpost

theorem leaves_readIpam {f : Ipam → α}
    (h : ∀ others before, (∀ move ∈ others, move.tag ≠ tag) →
      Faithful False (past ++ others) before → before.supply.Distinct →
      post (f before.ipam) (past ++ others ++ [.call tag
        (.ipam do return .commit (f (← get))) before (.ok (f before.ipam)) before])) :
    (Operation.readIpam f).Leaves tag post fails past := by
  refine leaves_ipam fun others before answer after hothers hf hr hd => ?_
  cases hr
  exact h others before hothers hf hd

theorem leaves_readPorts {f : Ports → α}
    (h : ∀ others before, (∀ move ∈ others, move.tag ≠ tag) →
      Faithful False (past ++ others) before → before.supply.Distinct →
      post (f before.ports) (past ++ others ++ [.call tag
        (.ports do return .commit (f (← get))) before (.ok (f before.ports)) before])) :
    (Operation.readPorts f).Leaves tag post fails past := by
  refine leaves_ports fun others before answer after refuser hothers hf hr hd => ?_
  cases hr
  exact h others before hothers hf hd

end Operation

end Rules

namespace Scene

variable {allowed : Setup → Command → Prop} {inv : List Move → State → Prop}
  {final : Nat → Except Error Reply → List Move → Prop} {moves : List Move}
  {first scene next : Scene} {move : Move}

/-- What the moves tell of commands that have ended: they do not run and move no more. All others
that were started run. -/
structure Ended (moves : List Move) (scene : Scene) : Prop where
  silent : ∀ ⦃past tag answer rest⦄, moves = past ++ .finish tag answer :: rest →
    (∀ running ∈ scene.running, running.tag ≠ tag) ∧ ∀ move ∈ rest, move.tag ≠ tag
  started : ∀ ⦃tag command⦄, .start tag command ∈ moves →
    (∃ running ∈ scene.running, running.tag = tag) ∨ ∃ answer, .finish tag answer ∈ moves

theorem Ended.step (h : Ended moves scene) (hk : Kept inv final moves scene)
    (hs : Step allowed scene move next) : Ended (moves ++ [move]) next := by
  have hlt {past : List Move} {tag : Nat} {answer : Except Error Reply} {rest : List Move}
      (hmoves : moves = past ++ .finish tag answer :: rest) : tag < scene.started :=
    hk.started (.finish tag answer) (by simp [hmoves])
  cases hs with
  | start _ setup command may =>
    refine ⟨fun past tag answer rest hmoves => ?_, fun tag other hs => ?_⟩
    · rcases snoc_eq_append_cons hmoves with ⟨_, hf, _⟩ | ⟨front, rfl, hfront⟩
      · cases hf
      · obtain ⟨hrunning, hrest⟩ := h.silent hfront
        have hne : scene.started ≠ tag := Nat.ne_of_gt (hlt hfront)
        exact ⟨List.forall_mem_cons.2 ⟨hne, hrunning⟩,
          List.forall_mem_append.2 ⟨hrest, List.forall_mem_singleton.2 hne⟩⟩
    · rcases List.mem_append.1 hs with hs | hs
      · rcases h.started hs with ⟨running, hr, htag⟩ | ⟨answer, hf⟩
        · exact .inl ⟨running, List.mem_cons_of_mem _ hr, htag⟩
        · exact .inr ⟨answer, List.mem_append_left _ hf⟩
      · cases List.mem_singleton.1 hs
        exact .inl ⟨_, List.mem_cons_self, rfl⟩
  | call state after front rest started own c resume answer result =>
    -- The same commands run as before, so that nobody comes to run who has ended.
    have hown (tag : Nat) :
        (∃ running ∈ front ++ ⟨own, .call c resume⟩ :: rest, running.tag = tag) ↔
          ∃ running ∈ front ++ ⟨own, resume answer⟩ :: rest, running.tag = tag := by
      simp only [List.mem_append, List.mem_cons, or_and_right, exists_or, exists_eq_left]
    refine ⟨fun past tag ended later hmoves => ?_, fun tag command hs => ?_⟩
    · rcases snoc_eq_append_cons hmoves with ⟨_, hf, _⟩ | ⟨others, rfl, hfront⟩
      · cases hf
      · obtain ⟨hrunning, hrest⟩ := h.silent hfront
        refine ⟨fun running hr htag => ?_, List.forall_mem_append.2 ⟨hrest, ?_⟩⟩
        · obtain ⟨old, hold, hsame⟩ := (hown tag).2 ⟨running, hr, htag⟩
          exact hrunning old hold hsame
        · exact List.forall_mem_singleton.2 (forall_mem_middle.1 hrunning).1
    · rcases List.mem_append.1 hs with hs | hs
      · rcases h.started hs with hr | ⟨ended, hf⟩
        · exact .inl ((hown tag).1 hr)
        · exact .inr ⟨ended, List.mem_append_left _ hf⟩
      · cases List.mem_singleton.1 hs
  | finish state front rest started own answer =>
    have hdistinct := hk.distinct
    rw [List.pairwise_middle fun hab => Ne.symm hab, List.pairwise_cons] at hdistinct
    refine ⟨fun past tag ended later hmoves => ?_, fun tag command hs => ?_⟩
    · rcases snoc_eq_append_cons hmoves with ⟨_, hf, rfl⟩ | ⟨others, rfl, hfront⟩
      · cases hf
        exact ⟨fun running hr => Ne.symm (hdistinct.1 running hr), List.forall_mem_nil _⟩
      · obtain ⟨hrunning, hrest⟩ := h.silent hfront
        obtain ⟨hne, hrunning⟩ := forall_mem_middle.1 hrunning
        exact ⟨hrunning, List.forall_mem_append.2 ⟨hrest, List.forall_mem_singleton.2 hne⟩⟩
    · rcases List.mem_append.1 hs with hs | hs
      · rcases h.started hs with ⟨running, hr, rfl⟩ | ⟨ended, hf⟩
        · rcases List.perm_middle.mem_iff.1 hr with _ | ⟨_, hr⟩
          · exact .inr ⟨answer, List.mem_append_right _ (List.mem_singleton_self _)⟩
          · exact .inl ⟨running, hr, rfl⟩
        · exact .inr ⟨ended, List.mem_append_left _ hf⟩
      · cases List.mem_singleton.1 hs

theorem Run.ended (run : Run allowed first moves scene) (hi : Invariant allowed inv final)
    (hrunning : first.running = []) (hinv : inv [] first.state)
    (hfresh : ∀ move ∈ moves, move.Fresh) : Ended moves scene := by
  induction run with
  | nil =>
    refine ⟨fun past tag answer rest hmoves => ?_, fun tag command hs => ?_⟩
    · cases past <;> cases hmoves
    · cases hs
  | snoc run step ih =>
    have hfront := (List.forall_mem_append.1 hfresh).1
    exact (ih hfront).step (run.kept hi hrunning hinv hfront) step

/-- Whatever has ended came to what is `final` for it. -/
def Finals (final : Nat → Except Error Reply → List Move → Prop) (moves : List Move) : Prop :=
  ∀ ⦃front tag answer rest⦄, moves = front ++ .finish tag answer :: rest →
    ∃ past others, front = past ++ others ∧ (∀ move ∈ others, move.tag ≠ tag) ∧
      final tag answer past

theorem Finals.nil : Finals final [] := by
  intro front tag answer rest hmoves
  cases front <;> cases hmoves

theorem Finals.snoc (h : Finals final moves)
    (hm : ∀ tag answer, move = .finish tag answer → ∃ past others, moves = past ++ others ∧
      (∀ move ∈ others, move.tag ≠ tag) ∧ final tag answer past) :
    Finals final (moves ++ [move]) := by
  intro front tag answer rest hmoves
  rcases snoc_eq_append_cons hmoves with ⟨rfl, rfl, _⟩ | ⟨_, _, hfront⟩
  · exact hm tag answer rfl
  · exact h hfront

theorem Finals.keeps (final : Nat → Except Error Reply → List Move → Prop) (setup : Setup)
    (tag : Nat) :
    Keeps setup (fun moves state => Faithful False moves state ∧ Finals final moves) tag := by
  refine ⟨fun _ _ h => h.1.orderly, fun α c moves before answer after hm ⟨hf, h⟩ hr hd => ?_⟩
  refine ⟨hf.call hm nofun hr hd, h.snoc fun _ _ heq => ?_⟩
  cases heq

/-- What a command of a setup leaves when it ends with an answer, as its moves and those between
them tell. -/
abbrev Leaving := Setup → Command → Nat → Except Error Reply → List Move → Prop

/-- A command that has been started, and that leaves what its setup makes it leave. -/
def Leaving.Final (leaves : Leaving) (allowed : Setup → Command → Prop) (tag : Nat)
    (answer : Except Error Reply) (past : List Move) : Prop :=
  ∃ setup command, allowed setup command ∧ .start tag command ∈ past ∧
    leaves setup command tag answer past

/-- What becomes of any command that has just started. -/
def Leaving.Holds (leaves : Leaving) (allowed : Setup → Command → Prop) : Prop :=
  ∀ ⦃setup command tag past⦄, allowed setup command → .start tag command ∈ past →
    (∀ move ∈ past, move.tag = tag → move = .start tag command) →
    (setup.operation command).run.Leaves tag (leaves setup command tag) past

theorem Leaving.Holds.invariant {leaves : Leaving} (h : leaves.Holds allowed) :
    Invariant allowed
      (fun moves state => Faithful False moves state ∧ Finals (leaves.Final allowed) moves)
      (leaves.Final allowed) := by
  refine ⟨fun {moves state setup command tag} may htags ⟨hf, hfinals⟩ => ?_,
    fun {past others state tag answer} hfinal hothers ⟨hf, hfinals⟩ => ?_⟩
  · have hstart : Move.start tag command ∈ moves ++ [.start tag command] :=
      List.mem_append_right _ (List.mem_singleton_self _)
    have hown : ∀ move ∈ moves ++ [.start tag command], move.tag = tag →
        move = .start tag command := by
      intro move hmove htag
      rcases List.mem_append.1 hmove with hmove | hmove
      · exact absurd htag (Nat.ne_of_lt (htags move hmove))
      · exact List.mem_singleton.1 hmove
    have hidle : Idle (moves ++ [.start tag command]) tag := fun move hmove htag => by
      rw [hown move hmove htag]
      trivial
    have hundrawn : Undrawn (moves ++ [.start tag command]) tag := fun move hmove htag => by
      rw [hown move hmove htag]
      rfl
    have hkeeps := Finals.keeps (leaves.Final allowed) setup tag
    have hsound := Program.Sound.and_leaves (hkeeps.operation hstart hidle hundrawn)
      (h may hstart hown) fun _ _ hi => hi.1
    refine ⟨⟨hf.snoc rfl rfl fun _ _ hs => ?_, hfinals.snoc fun _ _ heq => ?_⟩, ?_⟩
    · cases hs
      exact htags
    · cases heq
    · refine hsound.mono fun answer later hlater hl => ?_
      exact ⟨setup, command, may, hlater.subset hstart, hl.2⟩
  · refine ⟨hf.snoc rfl rfl fun _ _ hs => ?_, hfinals.snoc fun _ _ heq => ?_⟩
    · cases hs
    · cases heq
      exact ⟨past, others, rfl, hothers, hfinal⟩

/-- What a command has left is told by its moves up to its end, and it makes none after that. So what
moves of other commands cannot undo holds at the end of a run. -/
theorem Run.left {leaves : Leaving} (run : Run allowed first moves scene) (hfirst : first.Initial)
    (hfresh : ∀ move ∈ moves, move.Fresh) (hleaves : leaves.Holds allowed)
    (hkept : ∀ ⦃setup command tag answer past others⦄, leaves setup command tag answer past →
      (∀ move ∈ others, move.tag = tag → move.after? = none) →
      leaves setup command tag answer (past ++ others))
    {tag : Nat} {command : Command} {answer : Except Error Reply}
    (hs : .start tag command ∈ moves) (hf : .finish tag answer ∈ moves) :
    ∃ setup, allowed setup command ∧ leaves setup command tag answer moves := by
  have hi := hleaves.invariant
  have hinit : Faithful False [] first.state ∧ Finals (leaves.Final allowed) [] :=
    ⟨hfirst.faithful, .nil⟩
  obtain ⟨hfaithful, hfinals⟩ := (run.kept hi hfirst.running hinit hfresh).holds
  have hended := run.ended hi hfirst.running hinit hfresh
  obtain ⟨front, rest, rfl⟩ := List.append_of_mem hf
  -- The moves after its end are of others, as are those between its last call and its end.
  have hrest := (hended.silent rfl).2
  obtain ⟨past, others, rfl, hothers, setup, ended, may, hstart, h⟩ := hfinals rfl
  obtain rfl : ended = command := hfaithful.starts (by simp [hstart]) hs
  refine ⟨setup, may, ?_⟩
  rw [List.append_assoc]
  refine hkept h fun move hmove htag => ?_
  rcases List.mem_append.1 hmove with hmove | hmove
  · exact absurd htag (hothers move hmove)
  · rcases List.mem_cons.1 hmove with rfl | hmove
    · rfl
    · exact absurd htag (hrest move hmove)

theorem Run.rested (run : Run allowed first moves scene) (hfirst : first.Initial)
    (hfresh : ∀ move ∈ moves, move.Fresh) (hrunning : scene.running = []) {tag : Nat}
    {command : Command} (hs : .start tag command ∈ moves) :
    ∃ answer, .finish tag answer ∈ moves := by
  let idle : Leaving := fun _ _ _ _ _ => True
  have hidle : idle.Holds allowed := fun _ _ _ _ _ _ _ => Program.leaves_true _
  have hended := run.ended hidle.invariant hfirst.running ⟨hfirst.faithful, .nil⟩ hfresh
  rcases hended.started hs with ⟨_, hr, _⟩ | hf
  · rw [hrunning] at hr
    cases hr
  · exact hf

end Scene

end ControlPlane
