import ControlPlane.Binding.Commit
import ControlPlane.Environment

/-! Programs in an environment. What drivers answer may depend on all that they were asked before. -/

namespace ControlPlane.Environment

variable {ε α β : Type} {env : Environment ε} {drivers : List String} {context : PortContext}
  {world : World ε} {outside : ε}

/-- An environment that opens every transaction, and leaves both stores to the control plane. -/
structure Quiet (env : Environment ε) : Prop where
  opening : ∀ store world, (env.opening store).run world = (.ok (), world)
  postcommit : ∀ driver context world,
    ((env.postcommit driver context).run world).2.state = world.state

/-- Each of the drivers that are asked in turn accepts a change. -/
def Accepts (env : Environment ε) (context : PortContext) : List String → ε → Prop
  | [], _ => True
  | driver :: rest, outside =>
    ((env.precommit driver context).run outside).1 = .ok () ∧
      env.Accepts context rest ((env.precommit driver context).run outside).2

theorem review_eq_ok_iff (env : Environment ε) (drivers : List String) (context : PortContext)
    (outside : ε) :
    ((env.review drivers context).run outside).1 = .ok () ↔ env.Accepts context drivers outside := by
  induction drivers generalizing outside with
  | nil => exact iff_of_true rfl trivial
  | cons driver rest ih =>
    have hrun : (env.review (driver :: rest) context).run outside =
        match (env.precommit driver context).run outside with
        | (.ok (), next) => (env.review rest context).run next
        | (.error error, next) => (.error (refusal driver error), next) := by
      simp only [review, StateT.run_bind]
      rcases (env.precommit driver context).run outside with ⟨_ | _, _⟩ <;> rfl
    rw [hrun]
    unfold Accepts
    rcases (env.precommit driver context).run outside with ⟨error | ⟨⟩, next⟩
    · simp
    · simpa using ih next

theorem run_bind (p : Program α) (f : α → Program β) :
    env.run (p >>= f) = env.run p >>= fun a => env.run (f a) := by
  change env.run (p.bind f) = _
  induction p with
  | done a => simp [Program.bind, run]
  | call c next ih => simp only [Program.bind, run, ih, bind_assoc]

theorem run_lift (p : Program α) : env.run (ExceptT.lift p : Operation α).run =
    env.run p >>= fun a => pure (Except.ok a) := by
  refine (run_bind p fun a => .done (Except.ok a)).trans ?_
  rfl

theorem Quiet.run_ports (quiet : env.Quiet) (tx : Tx Ports (Closing α)) (world : World ε) :
    (env.run (Operation.ports tx).run).run world =
      let settled := (world.state.runPorts env.review tx).run world.outside
      (settled.1.1, ⟨settled.1.2, settled.2⟩) := by
  change (env.perform (.ports tx) >>= fun answer => pure answer).run world = _
  rw [bind_pure]
  simp only [perform, transact, StateT.run_bind, quiet.opening]
  rfl

theorem Quiet.run_announce (quiet : env.Quiet) (context : PortContext) (drivers : List String)
    (world : World ε) : ((env.run (context.announce drivers)).run world).2.state = world.state := by
  induction drivers generalizing world with
  | nil => rfl
  | cons driver rest ih => exact (ih _).trans (quiet.postcommit driver context world)

end ControlPlane.Environment
