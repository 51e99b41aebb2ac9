import ControlPlane.Proofs.Ports.Reachable

/-! Failures of operations. Whatever other commands do between its calls, an operation meets stores
that are in order, so it fails with what its calls can fail with there and with nothing else. -/

namespace ControlPlane

/-- Both stores are in order. -/
structure State.Whole (state : State) : Prop where
  sound : state.ipam.Sound False state.supply
  keyed : state.ports.Keyed
  shaped : state.ports.Shaped

/-- The answers of a program whose calls meet any states that are whole. -/
def Program.Yields {α : Type} (post : α → Prop) : Program α → Prop
  | .done answer => post answer
  | .call c next => ∀ before answer after, before.Whole → c.Result before answer after →
      after.supply.Distinct → (next answer).Yields post

/-- An operation that fails with some errors and with no others. -/
def Operation.FailsWith {α : Type} (fails : Error → Prop) (operation : Operation α) : Prop :=
  operation.run.Yields fun result => ∀ error, result = .error error → fails error

section Rules

variable {α β : Type} {post post' : α → Prop} {after : β → Prop} {fails fails' : Error → Prop}

namespace Program

theorem Yields.bind {p : Program α} {f : α → Program β} (h : p.Yields post)
    (hf : ∀ a, post a → (f a).Yields after) : (p >>= f).Yields after := by
  show (p.bind f).Yields after
  induction p with
  | done a => exact hf a h
  | call c next ih =>
    intro before answer last hw hr hd
    exact ih answer (h before answer last hw hr hd)

theorem Yields.mono {p : Program α} (h : p.Yields post) (hpost : ∀ a, post a → post' a) :
    p.Yields post' := by
  induction p with
  | done a => exact hpost a h
  | call c next ih =>
    intro before answer after hw hr hd
    exact ih answer (h before answer after hw hr hd)

theorem yields_true (p : Program α) : p.Yields fun _ => True := by
  induction p with
  | done a => trivial
  | call c next ih => exact fun _ answer _ _ _ _ => ih answer

end Program

namespace Operation

theorem fails_pure (a : α) : FailsWith fails (pure a) := by
  intro error h
  cases h

theorem fails_throw {error : Error} (h : fails error) :
    FailsWith fails (throw error : Operation α) := by
  intro other ho
  cases ho
  exact h

theorem FailsWith.mono {operation : Operation α} (h : operation.FailsWith fails)
    (hf : ∀ error, fails error → fails' error) : operation.FailsWith fails' :=
  Program.Yields.mono h fun _ hr error he => hf error (hr error he)

theorem FailsWith.bind {operation : Operation α} {f : α → Operation β}
    (h : operation.FailsWith fails) (hf : ∀ a, (f a).FailsWith fails) :
    (operation >>= f).FailsWith fails := by
  refine Program.Yields.bind h fun result hr => ?_
  cases result with
  | ok a => exact hf a
  | error error => exact fails_throw (hr error rfl)

theorem fails_except {r : Except Error α} {f : α → Operation β}
    (hfails : ∀ error, r = .error error → fails error)
    (hf : ∀ a, r = .ok a → (f a).FailsWith fails) : FailsWith fails (liftM r >>= f) := by
  cases r with
  | ok a => exact hf a rfl
  | error error => exact fails_throw (hfails error rfl)

theorem fails_guard {c : Prop} [Decidable c] {error : Error} {f : β → Operation α}
    {operation : Operation α} (hfails : c → fails error)
    (h : ¬ c → operation.FailsWith fails) :
    FailsWith fails (if c then throw error >>= f else operation) := by
  by_cases hc : c
  · rw [if_pos hc]
    exact fails_throw (hfails hc)
  · rw [if_neg hc]
    exact h hc

theorem FailsWith.orElse {operation : Operation α} {recover : Error → Operation α}
    (h : operation.FailsWith fails) (hr : ∀ error, fails error → (recover error).FailsWith fails') :
    (operation.orElse recover).FailsWith fails' := by
  refine Program.Yields.bind h fun result hresult => ?_
  cases result with
  | ok a => exact fails_pure a
  | error error => exact hr error (hresult error rfl)

theorem fails_lift_bind {p : Program α} {f : α → Operation β} (h : p.Yields post)
    (hf : ∀ a, post a → (f a).FailsWith fails) : FailsWith fails (ExceptT.lift p >>= f) := by
  have hlift : (ExceptT.lift p : Operation α).run.Yields fun result => ∃ a, result = .ok a ∧ post a :=
    Program.Yields.bind h fun a ha => ⟨a, rfl, ha⟩
  refine Program.Yields.bind hlift fun result hr => ?_
  obtain ⟨a, rfl, ha⟩ := hr
  exact hf a ha

theorem fails_lift (p : Program α) : FailsWith fails (ExceptT.lift p : Operation α) :=
  Program.Yields.bind p.yields_true fun a _ => fails_pure a

theorem fails_ask (c : Call α) : FailsWith fails (ask c) := fails_lift _

theorem fails_forM {ι : Type} {items : List ι} {body : ι → Operation Unit}
    (h : ∀ item ∈ items, (body item).FailsWith fails) : (items.forM body).FailsWith fails := by
  induction items with
  | nil => exact fails_pure ()
  | cons item rest ih =>
    apply FailsWith.bind (h item List.mem_cons_self)
    intro _
    exact ih fun other hother => h other (List.mem_cons_of_mem _ hother)

theorem fails_ipam {tx : Tx Ipam (Ending α)} {kept : Ending α → Ipam → Supply → Prop}
    (h : tx.Ensures (Ipam.Sound False) kept fails) : (ipam tx).FailsWith fails := by
  intro before answer after hw hr hd error he
  rcases State.runIpam_ensures h hr hd hw.sound with
    ⟨other, rfl, _, hfails⟩ | ⟨_, _, rfl, _⟩ | ⟨_, rfl, _⟩
  · cases he
    exact hfails
  · cases he
  · cases he

/-- A transaction of the port store may also fail because a driver refuses what it would leave. -/
theorem fails_ports {tx : Tx Ports (Closing α)}
    {kept : Ports → Closing α → Ports → Supply → Prop}
    (h : ∀ store : Ports, store.Keyed → store.Shaped →
      tx.Ensures (fun tables _ => tables = store) (kept store) fails)
    (hrefusal : ∀ driver cause, fails (Environment.refusal driver cause)) :
    (ports tx).FailsWith fails := by
  rintro before answer after hw ⟨refuser, hr⟩ hd error he
  rcases State.runReviewed_ensures (h before.ports hw.keyed hw.shaped) hr hd rfl with
    ⟨other, rfl, _, hfails | ⟨_, _, _, _, _, driver, _, cause, rfl⟩⟩ | ⟨_, _, rfl, _⟩ | ⟨_, _, rfl, _⟩
  · cases he
    exact hfails
  · cases he
    exact hrefusal driver cause
  · cases he
  · cases he

theorem fails_readIpam (f : Ipam → α) : (readIpam f).FailsWith fails := by
  intro before answer after _ hr _ error he
  cases hr
  cases he

theorem fails_readPorts (f : Ports → α) : (readPorts f).FailsWith fails := by
  rintro before answer after _ ⟨refuser, hr⟩ _ error he
  cases hr
  cases he

end Operation

end Rules

namespace Scene

variable {allowed : Setup → Command → Prop} {due : Command → Except Error Reply → Prop}
  {moves : List Move} {first scene next : Scene} {move : Move}

/-- Each command that runs will end with an answer that is due to it, and each that has ended did. -/
structure Yielding (due : Command → Except Error Reply → Prop) (moves : List Move) (scene : Scene) :
    Prop where
  running : ∀ running ∈ scene.running, ∃ command, .start running.tag command ∈ moves ∧
    running.program.Yields (due command)
  ended : ∀ ⦃tag answer⦄, .finish tag answer ∈ moves → ∃ command, .start tag command ∈ moves ∧
    due command answer

theorem Yielding.step (h : Yielding due moves scene) (hs : Step allowed scene move next)
    (hw : scene.state.Whole) (hfresh : move.Fresh)
    (hyields : ∀ setup command, allowed setup command →
      (setup.operation command).run.Yields (due command)) : Yielding due (moves ++ [move]) next := by
  have hstart {tag : Nat} {command : Command} (hs : .start tag command ∈ moves) :
      Move.start tag command ∈ moves ++ [move] := List.mem_append_left _ hs
  have hkept {running : Running} (hr : running ∈ scene.running) : ∃ command,
      .start running.tag command ∈ moves ++ [move] ∧ running.program.Yields (due command) := by
    obtain ⟨command, hcommand, hy⟩ := h.running running hr
    exact ⟨command, hstart hcommand, hy⟩
  have hended {tag : Nat} {answer : Except Error Reply} (hf : .finish tag answer ∈ moves) :
      ∃ command, .start tag command ∈ moves ++ [move] ∧ due command answer := by
    obtain ⟨command, hcommand, hdue⟩ := h.ended hf
    exact ⟨command, hstart hcommand, hdue⟩
  cases hs with
  | start _ setup command may =>
    refine ⟨List.forall_mem_cons.2 ⟨⟨command, ?_, hyields setup command may⟩, fun _ => hkept⟩, ?_⟩
    · exact List.mem_append_right _ (List.mem_singleton_self _)
    · intro tag answer hf
      rcases List.mem_append.1 hf with hf | hf
      · exact hended hf
      · cases List.mem_singleton.1 hf
  | call state after front rest started tag c resume answer result =>
    refine ⟨forall_mem_middle.2 ⟨?_, fun running hr => hkept ?_⟩, ?_⟩
    · obtain ⟨command, hcommand, hy⟩ := hkept (List.mem_append_right _ List.mem_cons_self)
      exact ⟨command, hcommand, hy state answer after hw result hfresh⟩
    · exact List.perm_middle.mem_iff.2 (List.mem_cons_of_mem _ hr)
    · intro tag answer hf
      rcases List.mem_append.1 hf with hf | hf
      · exact hended hf
      · cases List.mem_singleton.1 hf
  | finish state front rest started tag answer =>
    refine ⟨fun running hr => hkept (List.perm_middle.mem_iff.2 (List.mem_cons_of_mem _ hr)), ?_⟩
    intro other ended hf
    rcases List.mem_append.1 hf with hf | hf
    · exact hended hf
    · cases List.mem_singleton.1 hf
      obtain ⟨command, hcommand, hy⟩ := hkept (List.mem_append_right _ List.mem_cons_self)
      exact ⟨command, hcommand, hy⟩

theorem Run.whole (run : Run allowed first moves scene) (hfirst : first.Initial)
    (hfresh : ∀ move ∈ moves, move.Fresh)
    (hmanaged : ∀ setup command, allowed setup command → ¬ command.ByHand) : scene.state.Whole := by
  obtain ⟨hfaithful, hlasting⟩ := run.lasting hfirst hfresh hmanaged
  exact ⟨hfaithful.sound, hfaithful.keyed, hlasting.shaped⟩

/-- What the programs of commands yield is what commands end with in every run. -/
theorem Run.yields (run : Run allowed first moves scene) (hfirst : first.Initial)
    (hfresh : ∀ move ∈ moves, move.Fresh)
    (hmanaged : ∀ setup command, allowed setup command → ¬ command.ByHand)
    (hyields : ∀ setup command, allowed setup command →
      (setup.operation command).run.Yields (due command))
    {tag : Nat} {command : Command} {answer : Except Error Reply}
    (hs : .start tag command ∈ moves) (hf : .finish tag answer ∈ moves) : due command answer := by
  have hstarts := (run.lasting hfirst hfresh hmanaged).1.starts
  have hyielding : Yielding due moves scene := by
    clear hs hf hstarts
    induction run with
    | nil =>
      refine ⟨fun running hr => ?_, fun _ _ hf => absurd hf List.not_mem_nil⟩
      rw [hfirst.running] at hr
      exact absurd hr List.not_mem_nil
    | snoc run step ih =>
      obtain ⟨hfront, hlast⟩ := List.forall_mem_append.1 hfresh
      have hw := run.whole hfirst hfront hmanaged
      exact (ih hfront).step step hw (hlast _ (List.mem_singleton_self _)) hyields
  obtain ⟨ended, hended, hdue⟩ := hyielding.ended hf
  rw [hstarts hs hended]
  exact hdue

end Scene

end ControlPlane
