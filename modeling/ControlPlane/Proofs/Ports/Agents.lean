import ControlPlane.Proofs.Schedules

/-! What agents are shown. The host of a binding is compared once, before the port is bound, so an
agent is shown the binding of another host if the port moves there meanwhile. -/

namespace ControlPlane

namespace Scene

variable {allowed : Setup → Command → Prop} {moves : List Move} {first scene : Scene} {tag : Nat}
  {id : PortId} {host : String} {context : PortContext}

/-- An agent is shown the port that it asked for, with the binding of its own host unless the
command saw the port move to another one. -/
theorem Run.context_shown (run : Run allowed first moves scene) (hfirst : first.Initial)
    (hfresh : ∀ move ∈ moves, move.Fresh) (hs : .start tag (.boundContext id host) ∈ moves)
    (hf : .finish tag (.ok (.context (some context))) ∈ moves) :
    Shown moves tag id host context :=
  run.backed hfirst hfresh hs hf

/-- The agent of a host asks for a port whose binding failed there. While the driver is asked, the
port is moved to another host and bound. -/
def visit : List Move × Scene := sample.play (
  .start setup (.createPort request) :: Turn.moves 0 11 ++
  .start setup (.boundContext ⟨0⟩ "node") :: (Turn.moves 1 3 ++
  .start setup (.updatePort ⟨0⟩ { host := some "other" }) :: Turn.moves 2 4 ++
  .next 2 (some { segment := ⟨8⟩, vifType := "ovs" }) :: Turn.moves 2 5 ++ Turn.moves 1 3))
where
  setup : Setup := { drivers := ["agent"], config.binding.maxBindTries := 2 }
  request : PortRequest := { network := ⟨7⟩, fixedIps := some [], host := some "node" }

theorem visit_run : Run (fun _ _ => True) sample visit.1 visit.2 :=
  play_run fun turn _ => by cases turn <;> trivial

theorem visit_fresh : ∀ move ∈ visit.1, move.Fresh := by decide +kernel

theorem visit_starts : .start 1 (.boundContext ⟨0⟩ "node") ∈ visit.1 := by
  have hstarted : (sample.play (.start visit.setup (.createPort visit.request) ::
      Turn.moves 0 11)).2.started = 1 := by decide +kernel
  rw [← hstarted]
  exact start_mem_play _ _ visit.setup _

theorem visit_finishes : ∃ context, .finish 1 (.ok (.context (some context))) ∈ visit.1 ∧
    context.binding.host = some "other" := by
  have hreply : ∃ move ∈ visit.1, ∃ reply ∈ move.reply? 1, ∃ context ∈ reply.context?,
      context.binding.host = some "other" := by decide +kernel
  obtain ⟨move, hmove, reply, hreply, context, hcontext, hhost⟩ := hreply
  refine ⟨context, finish_mem hmove ?_, hhost⟩
  cases reply <;> cases hcontext
  exact hreply

theorem visit_shown : ∃ context, Shown visit.1 1 ⟨0⟩ "node" context ∧
    context.binding.host = some "other" := by
  obtain ⟨context, hf, hhost⟩ := visit_finishes
  exact ⟨context, visit_run.context_shown sample_initial visit_fresh visit_starts hf, hhost⟩

/-- It is not so that agents are shown bindings of their own hosts only. -/
theorem not_context_of_host : ¬ ∀ (allowed : Setup → Command → Prop) (first scene : Scene)
    (moves : List Move) (tag : Nat) (id : PortId) (host : String) (context : PortContext),
    Run allowed first moves scene → first.Initial → (∀ move ∈ moves, move.Fresh) →
    host ≠ "" → .start tag (.boundContext id host) ∈ moves →
    .finish tag (.ok (.context (some context))) ∈ moves → context.binding.host = some host := by
  intro h
  obtain ⟨context, hf, hhost⟩ := visit_finishes
  have heq := h _ _ _ _ 1 ⟨0⟩ "node" context visit_run sample_initial visit_fresh (by decide)
    visit_starts hf
  rw [hhost] at heq
  exact absurd heq (by decide)

end Scene

end ControlPlane
