import ControlPlane.Proofs.Alone.Discreet
import ControlPlane.Proofs.Plays

/-! What an operation tells while it runs alone. Each commit is of what the port still asks for, and
listeners are told at the end, if the operation succeeds. -/

namespace ControlPlane

/-- A licence for everything but to commit a candidate. -/
def Licence.uncommitted : Licence where
  draw := True
  insert _ _ := True
  remove _ := True
  drop _ := True
  save _ _ := True
  report _ _ := True
  host _ := True
  commit _ _ _ := False
  take _ _ := True
  release _ := True

/-- A call that commits no candidate and sends no event. -/
def Call.Quiet (setup : Setup) {α : Type} (c : Call α) : Prop :=
  c.Made setup .uncommitted ∧ c.Silent

/-- A call of an operation that tells only what is `shown`, and that is never too late with a
commit. -/
inductive Call.Reports (setup : Setup) (shown : PortContext → Prop) : {α : Type} → Call α → α → Prop
  | quiet {α : Type} {c : Call α} (answer : α) (h : c.Quiet setup) : Reports setup shown c answer
  /-- A commit goes through unless a driver refuses it. -/
  | commit (id : PortId) (asked : Binding) (candidate : PortContext)
    (answer : Except Error CommitOutcome)
    (h : ∀ outcome, answer = .ok outcome → ∃ context, outcome = .committed context) :
    Reports setup shown (.ports (Binding.commitTx setup.drivers id asked candidate)) answer
  | updated (context : PortContext) (h : shown context) :
    Reports setup shown (.notify (.updated context)) ()

theorem Call.Reports.mono {setup : Setup} {shown shown' : PortContext → Prop} {α : Type} {c : Call α}
    {answer : α} (h : c.Reports setup shown answer)
    (hshown : ∀ context, shown context → shown' context) : c.Reports setup shown' answer := by
  cases h with
  | quiet _ h => exact .quiet answer h
  | commit id asked candidate _ h => exact .commit id asked candidate _ h
  | updated context h => exact .updated context (hshown context h)

/-- What fails has reported nothing. -/
theorem Call.Reports.of_error {setup : Setup} {said shown : PortContext → Prop} {α β : Type}
    {c : Call α} {answer : α} {error : Error}
    (h : c.Reports setup (fun context => (∃ b : β, Except.error error = .ok b) ∧ said context) answer) :
    c.Reports setup shown answer := by
  refine h.mono ?_
  rintro _ ⟨⟨_, ⟨⟩⟩, _⟩

/-- What an operation makes of a state that satisfies `pre`, and what it reports on the way: nothing
if it fails, and else what is `shown` by the ports that it leaves. -/
def Operation.Reports {α : Type} (setup : Setup) (shown : Ports → PortContext → Prop)
    (operation : Operation α) (pre : State → Prop) (post : α → State → Prop) : Prop :=
  ∀ ⦃tag first moves result last⦄, operation.run.Plays tag first moves result last →
    last.supply.Extends first.supply ∧ (last.supply.Distinct → pre first →
      Chained tag (Call.Reports setup fun context =>
        (∃ a, result = .ok a) ∧ shown last.ports context) first moves last ∧
      ∀ a, result = .ok a → post a last)

/-- An operation that reports nothing. -/
def Operation.Mute {α : Type} (setup : Setup) (operation : Operation α) (pre : State → Prop)
    (post : α → State → Prop) : Prop :=
  operation.Reports setup (fun _ _ => False) pre post

namespace Operation

variable {setup : Setup} {shown : Ports → PortContext → Prop} {α β : Type}
  {operation : Operation α} {f : α → Operation β} {pre pre' : State → Prop}
  {mid : α → State → Prop} {post : β → State → Prop} {fails : Error → State → Prop}

theorem reports_quiet (hmakes : operation.Makes (Call.Quiet setup))
    (hensures : operation.Ensures pre mid fails) : operation.Reports setup shown pre mid := by
  intro tag first moves result last h
  obtain ⟨hextends, hpost⟩ := hensures _ _ _ h.alone
  refine ⟨hextends, fun hd hpre => ⟨?_, fun a ha => ?_⟩⟩
  · exact (h.chained hmakes).mono fun _ answer hc => .quiet answer hc
  · subst ha
    exact hpost hd hpre

theorem reports_pure {a : α} (h : ∀ state, pre state → mid a state) :
    (pure a : Operation α).Reports setup shown pre mid := by
  have hpure : (pure a : Operation α).Ensures pre mid fun _ _ => True := ensures_pure h
  exact reports_quiet (makes_pure a) hpure

theorem reports_throw (error : Error) : (throw error : Operation α).Reports setup shown pre mid := by
  have hthrow : (throw error : Operation α).Ensures pre mid fun _ _ => True :=
    ensures_throw fun _ _ => trivial
  exact reports_quiet (makes_throw error) hthrow

theorem reports_lift {p : Program α} (hp : p.All (Call.Quiet setup)) (h : p.Ensures pre mid) :
    Operation.Reports setup shown (ExceptT.lift p) pre mid := by
  have hlift : Operation.Ensures (ExceptT.lift p) pre mid fun _ _ => True := ensures_lift h
  exact reports_quiet (makes_lift hp) hlift

theorem Reports.of_pre (h : operation.Reports setup shown pre mid)
    (hpre : ∀ state, pre' state → pre state) : operation.Reports setup shown pre' mid := by
  intro tag first moves result last hplays
  obtain ⟨hextends, hreports⟩ := h hplays
  exact ⟨hextends, fun hd hp => hreports hd (hpre first hp)⟩

theorem Reports.beside (h : operation.Reports setup shown pre mid) (fact : Prop) :
    operation.Reports setup shown (fun state => fact ∧ pre state) fun a state => fact ∧ mid a state := by
  intro tag first moves result last hplays
  obtain ⟨hextends, hreports⟩ := h hplays
  refine ⟨hextends, fun hd hp => ?_⟩
  obtain ⟨hchained, hmid⟩ := hreports hd hp.2
  exact ⟨hchained, fun a ha => ⟨hp.1, hmid a ha⟩⟩

theorem Mute.bind (h : operation.Mute setup pre mid)
    (hf : ∀ a, (f a).Reports setup shown (mid a) post) :
    (operation >>= f).Reports setup shown pre post := by
  intro tag first moves result last hplays
  obtain ⟨answer, between, front, back, rfl, hp, hrest⟩ := Program.plays_bind.1 hplays
  obtain ⟨hextends, hfront⟩ := h hp
  cases answer with
  | error error =>
    obtain ⟨rfl, rfl, rfl⟩ := Program.plays_done.1 hrest
    rw [List.append_nil]
    refine ⟨hextends, fun hd hpre => ⟨?_, nofun⟩⟩
    exact (hfront hd hpre).1.mono fun _ _ hc => hc.of_error
  | ok a =>
    obtain ⟨hextends', hback⟩ := hf a hrest
    refine ⟨hextends'.trans hextends, fun hd hpre => ?_⟩
    obtain ⟨hchained, hmid⟩ := hfront (hd.of_extends hextends') hpre
    obtain ⟨hchained', hpost⟩ := hback hd (hmid a rfl)
    exact ⟨(hchained.mono fun _ _ hc => hc.mono fun _ h => h.2.elim).append hchained', hpost⟩

theorem reports_bind_except {r : Except Error α}
    (h : ∀ a, r = .ok a → (f a).Reports setup shown pre post) :
    (liftM r >>= f : Operation β).Reports setup shown pre post := by
  cases r with
  | ok a => exact h a rfl
  | error error => exact reports_throw error

/-- What comes after a report leaves the ports alone and cannot fail. -/
theorem Reports.bind_still (h : operation.Reports setup shown pre mid)
    (hmakes : ∀ a, (f a).Makes (Call.Quiet setup))
    (hf : ∀ a ports, (f a).Ensures (fun state => mid a state ∧ state.ports = ports)
      (fun b state => post b state ∧ state.ports = ports) fun _ _ => False) :
    (operation >>= f).Reports setup shown pre post := by
  intro tag first moves result last hplays
  obtain ⟨answer, between, front, back, rfl, hp, hrest⟩ := Program.plays_bind.1 hplays
  obtain ⟨hextends, hfront⟩ := h hp
  cases answer with
  | error error =>
    obtain ⟨rfl, rfl, rfl⟩ := Program.plays_done.1 hrest
    rw [List.append_nil]
    refine ⟨hextends, fun hd hpre => ⟨?_, nofun⟩⟩
    exact (hfront hd hpre).1.mono fun _ _ hc => hc.of_error
  | ok a =>
    obtain ⟨hextends', hback⟩ := hf a between.ports _ _ _ hrest.alone
    refine ⟨hextends'.trans hextends, fun hd hpre => ?_⟩
    obtain ⟨hchained, hmid⟩ := hfront (hd.of_extends hextends') hpre
    have hback := hback hd ⟨hmid a rfl, rfl⟩
    cases result with
    | error error => exact hback.elim
    | ok b =>
      obtain ⟨hpost, hports⟩ := hback
      refine ⟨(hchained.mono fun _ _ hc => hc.mono ?_).append
        ((hrest.chained (hmakes a)).mono fun _ answer hc => .quiet answer hc), ?_⟩
      · rintro context ⟨_, hshown⟩
        exact ⟨⟨b, rfl⟩, hports ▸ hshown⟩
      · rintro _ ⟨⟩
        exact hpost

/-- Who recovers from a failure only to fail has nothing to report. -/
theorem Reports.orElse {recover : Error → Operation α} (h : operation.Reports setup shown pre mid)
    (hmakes : ∀ error, (recover error).Makes (Call.Quiet setup))
    (hfails : ∀ error, (recover error).Ensures (fun _ => True) (fun _ _ => False) fun _ _ => True) :
    (operation.orElse recover).Reports setup shown pre mid := by
  intro tag first moves result last hplays
  obtain ⟨answer, between, front, back, rfl, hp, hrest⟩ := Program.plays_bind.1 hplays
  obtain ⟨hextends, hfront⟩ := h hp
  cases answer with
  | ok a =>
    obtain ⟨rfl, rfl, rfl⟩ := Program.plays_done.1 hrest
    rw [List.append_nil]
    exact ⟨hextends, hfront⟩
  | error error =>
    have hrecover : (recover error).Reports setup shown (fun _ => True) fun _ _ => False :=
      reports_quiet (hmakes error) (hfails error)
    obtain ⟨hextends', hback⟩ := hrecover hrest
    refine ⟨hextends'.trans hextends, fun hd hpre => ?_⟩
    obtain ⟨hchained, hfailed⟩ := hback hd trivial
    refine ⟨.append ?_ hchained, fun a ha => (hfailed a ha).elim⟩
    exact (hfront (hd.of_extends hextends') hpre).1.mono fun _ _ hc => hc.of_error

end Operation

end ControlPlane
