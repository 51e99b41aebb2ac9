import ControlPlane.Proofs.Schedules

/-! Bound rows in every scene of every run. A row is bound to what a driver answered when it was
asked for the inputs that the row has, and stays so until its inputs change. -/

namespace ControlPlane

/-- A row holds what a driver answered for a candidate with its inputs, on a segment of the network
of the candidate. -/
structure Binding.Answers (moves : List Move) (row : Binding) (driver : String)
    (candidate : PortContext) (result : BindResult) : Prop where
  asked : ∃ tag before after, .call tag (.bind driver candidate) before (some result) after ∈ moves
  host : row.host = candidate.binding.host
  vnic : row.vnic = candidate.binding.vnic
  profile : row.profile.agrees candidate.binding.profile = true
  vif : row.vif = .bound result.vifType
  details : row.details = result.details
  driver : row.driver = some driver
  segment : row.segment = some result.segment
  accepted : (candidate.network.segment? result.segment).isSome = true
  stored : Stored moves candidate.network

/-- A bound row was negotiated for its own port, in the network of that. -/
def Binding.Justified (moves : List Move) (key : BindingKey) (row : Binding) : Prop :=
  ∃ driver candidate result, row.Answers moves driver candidate result ∧
    candidate.port.id = key.port ∧ Known moves key.port candidate.network.id

/-- A bound row stays as it is, is removed, or is reset when its inputs change. -/
def BindingKey.Steady (key : BindingKey) (before after : Ports) : Prop :=
  ∀ row, before.row? key = some row → row.Bound →
    after.row? key = some row ∨ after.row? key = none ∨
      ∃ new, after.row? key = some new ∧ new.sameInputs row = false ∧ new.reset = new

def Move.Steady : Move → Prop
  | call _ _ before _ after => ∀ key : BindingKey, key.Steady before.ports after.ports
  | _ => True

variable {moves later : List Move} {key : BindingKey} {row old new : Binding} {tag : Nat}

theorem Binding.Justified.mono (h : row.Justified moves key) (hp : moves <+: later) :
    row.Justified later key := by
  obtain ⟨driver, candidate, result, ha, hport, hknown⟩ := h
  obtain ⟨tag, before, after, hmove⟩ := ha.asked
  refine ⟨driver, candidate, result, ?_, hport, hknown.mono hp⟩
  exact { ha with asked := ⟨tag, before, after, hp.subset hmove⟩, stored := ha.stored.mono hp }

theorem Binding.Bound.not_reset (h : row.Bound) : row.reset ≠ row := by
  obtain ⟨kind, hkind⟩ := h
  intro heq
  rw [← heq] at hkind
  cases hkind

theorem Binding.Bound.not_needsBinding (h : row.Bound) : row.vif.needsBinding = false := by
  obtain ⟨kind, hkind⟩ := h
  rw [hkind]
  rfl

/-- What a command commits that was not given its candidate by hand. -/
theorem Licence.Commits.justified (h : (licence moves tag).Commits key old new)
    (hmanaged : ∀ tag command, .start tag command ∈ moves → ¬ command.ByHand) (hb : new.Bound) :
    new.Justified moves key := by
  obtain ⟨id, asked, candidate, hl, hcommits⟩ := h
  have hport := hcommits.port
  have hinputs := hcommits.inputs
  -- A candidate that was not made up is a failure, or what a driver answered.
  rcases hl with ⟨command, hs, hc⟩ | ⟨context, hid, hasked, _, hknown, hstored, hn⟩
  · exact absurd hc (hmanaged tag command hs)
  subst hasked
  rw [hcommits.result] at hb ⊢
  rcases hn with rfl | ⟨owner, driver, result, before, after, hmove, haccepts, rfl⟩
  · obtain ⟨kind, hkind⟩ := hb
    cases hkind
  · simp only [Binding.sameInputs, Bool.and_eq_true, decide_eq_true_eq] at hinputs
    obtain ⟨⟨hhost, hvnic⟩, hprofile⟩ := hinputs
    refine ⟨driver, context.candidate, result, ?_, hid.trans hport.symm, hport ▸ hknown⟩
    exact ⟨⟨owner, before, after, hmove⟩, hhost, hvnic, hprofile, rfl, rfl, rfl, rfl, haccepts,
      hstored⟩

theorem RowChange.bound_cases {bound : Binding → Binding → Prop} {old : Option Binding}
    (h : RowChange bound old (some new)) (hb : new.Bound) :
    old = some new ∨ ∃ former, bound former new := by
  cases h with
  | same => exact .inl rfl
  | created hn => exact absurd hb hn
  | distributed ho hn =>
    obtain ⟨kind, hkind⟩ := hb
    rw [hn] at hkind
    cases hkind
  | reset hi hr => exact absurd hr hb.not_reset
  | bound ho hbound => exact .inr ⟨_, hbound⟩

theorem RowChange.steady {bound : Binding → Binding → Prop} {new : Option Binding}
    (h : RowChange bound (some row) new) (hb : row.Bound) :
    new = some row ∨ new = none ∨
      ∃ changed, new = some changed ∧ changed.sameInputs row = false ∧ changed.reset = changed := by
  cases h with
  | same => exact .inl rfl
  | removed => exact .inr (.inl rfl)
  | distributed ho hn =>
    obtain ⟨kind, hkind⟩ := hb
    rw [ho] at hkind
    cases hkind
  | reset hi hr => exact .inr (.inr ⟨_, rfl, hi, hr⟩)
  | bound ho hbound =>
    rw [hb.not_needsBinding] at ho
    cases ho

/-- What holds of rows as long as no candidate is committed by hand. -/
structure Attached (moves : List Move) (store : Ports) : Prop where
  managed : ∀ tag command, .start tag command ∈ moves → ¬ command.ByHand
  justified : ∀ key row, store.row? key = some row → row.Bound → row.Justified moves key
  steady : ∀ move ∈ moves, move.Steady

theorem Attached.init : Attached [] {} := by
  refine ⟨fun _ _ hs => absurd hs List.not_mem_nil, fun key row hr => ?_, List.forall_mem_nil _⟩
  cases key <;> cases hr

theorem Attached.snoc {store : Ports} {move : Move} (h : Attached moves store)
    (hsteady : move.Steady) (hmanaged : ∀ tag command, move = .start tag command → ¬ command.ByHand) :
    Attached (moves ++ [move]) store := by
  refine ⟨fun tag command hs => ?_, fun key row hr hb => ?_, fun other hother => ?_⟩
  · rcases List.mem_append.1 hs with hs | hs
    · exact h.managed tag command hs
    · exact hmanaged tag command (List.mem_singleton.1 hs).symm
  · exact (h.justified key row hr hb).mono (List.prefix_append moves [move])
  · rcases List.mem_append.1 hother with hother | hother
    · exact h.steady other hother
    · rw [List.mem_singleton.1 hother]
      exact hsteady

theorem Attached.call {eager : Prop} {before after : State} {setup : Setup} {α : Type} {c : Call α}
    {answer : α} (h : Attached moves before.ports) (hf : Faithful eager moves before)
    (hm : c.Made setup (licence moves tag)) (hr : c.Result before answer after)
    (hd : after.supply.Distinct) :
    Attached (moves ++ [.call tag c before answer after]) after.ports := by
  have hrows := hf.rows hm hr hd
  have hsteady : (Move.call tag c before answer after).Steady := by
    intro key row hrow hb
    have hchange := hrows key
    rw [hrow] at hchange
    exact hchange.steady hb
  have hsnoc := h.snoc hsteady fun _ _ hs => by cases hs
  refine ⟨hsnoc.managed, fun key row hrow hb => ?_, hsnoc.steady⟩
  have hchange := hrows key
  rw [hrow] at hchange
  rcases hchange.bound_cases hb with hold | ⟨former, hcommits⟩
  · exact hsnoc.justified key row hold hb
  · exact (hcommits.justified h.managed hb).mono (List.prefix_append _ _)

namespace Scene

variable {allowed : Setup → Command → Prop} {first scene : Scene}

theorem Run.attached (run : Run allowed first moves scene) (hfirst : first.Initial)
    (hfresh : ∀ move ∈ moves, move.Fresh)
    (hmanaged : ∀ setup command, allowed setup command → ¬ command.ByHand) :
    Faithful False moves scene.state ∧ Attached moves scene.state.ports := by
  have hinit : Attached [] first.state.ports := hfirst.ports ▸ .init
  refine run.induct (fun moves state => Attached moves state.ports) hfirst hfresh nofun hinit ?_ ?_ ?_
  · intro moves state setup command tag may h
    refine h.snoc trivial fun _ _ hs => ?_
    cases hs
    exact hmanaged setup command may
  · intro moves before after setup command tag α c answer _ hf hm hr hd h
    exact h.call hf hm hr hd
  · intro moves state tag answer _ h
    exact h.snoc trivial fun _ _ hs => by cases hs

/-- Whatever is asked of control planes that commit no candidates but their own, whatever drivers
answer and whoever refuses a change. -/
theorem Run.rows_answered (run : Run allowed first moves scene) (hfirst : first.Initial)
    (hfresh : ∀ move ∈ moves, move.Fresh)
    (hmanaged : ∀ setup command, allowed setup command → ¬ command.ByHand) :
    (∀ key row, scene.state.ports.row? key = some row → row.Bound →
      ∃ driver candidate result port, row.Answers moves driver candidate result ∧
        candidate.port.id = key.port ∧ scene.state.ports.ports.find? key.port = some port ∧
        port.network = candidate.network.id) ∧
    ∀ move ∈ moves, move.Steady := by
  obtain ⟨hfaithful, hattached⟩ := run.attached hfirst hfresh hmanaged
  refine ⟨fun key row hrow hb => ?_, hattached.steady⟩
  obtain ⟨driver, candidate, result, hanswers, hport, hknown⟩ := hattached.justified key row hrow hb
  obtain ⟨port, hfind⟩ := Table.contains_iff.1 (hfaithful.keyed.row hrow).2
  exact ⟨driver, candidate, result, port, hanswers, hport, hfind,
    hfaithful.home (hfaithful.stored hfind) hknown⟩

/-- A port is created on a host, and the driver binds it there. -/
def attach : List Move × Scene := sample.play (
  .start { drivers := ["agent"] } (.createPort request) :: Turn.moves 0 4 ++
  .next 0 (some { segment := ⟨8⟩, vifType := "ovs" }) :: Turn.moves 0 3)
where
  request : PortRequest := { network := ⟨7⟩, fixedIps := some [], host := some "node" }

theorem attach_run : Run (fun _ command => ¬ command.ByHand) sample attach.1 attach.2 :=
  play_run (by decide +kernel)

theorem attach_answered : ∃ row, attach.2.state.ports.row? (.primary ⟨0⟩) = some row ∧
    ∃ driver candidate result port, row.Answers attach.1 driver candidate result ∧
      candidate.port.id = ⟨0⟩ ∧ attach.2.state.ports.ports.find? ⟨0⟩ = some port ∧
      port.network = candidate.network.id := by
  have hfresh : ∀ move ∈ attach.1, move.Fresh := by decide +kernel
  have hbound : ∃ row ∈ attach.2.state.ports.row? (.primary ⟨0⟩), row.vif = .bound "ovs" := by
    decide +kernel
  obtain ⟨row, hrow, hvif⟩ := hbound
  have hanswered := attach_run.rows_answered sample_initial hfresh fun _ _ h => h
  exact ⟨row, hrow, hanswered.1 (.primary ⟨0⟩) row hrow ⟨"ovs", hvif⟩⟩

end Scene

end ControlPlane
