import ControlPlane.Proofs.Supply

/-! Contracts of programs that run alone, with nothing between their calls. Whatever they do in
between, it is done on the state that their last call has left. -/

namespace ControlPlane

/-- What a program that runs alone makes of a state that satisfies `pre`, provided that no identifier
is drawn twice. In any case the supply only moves on. -/
def Program.Ensures {α : Type} (p : Program α) (pre : State → Prop) (post : α → State → Prop) :
    Prop :=
  ∀ state a last, p.Alone state a last →
    last.supply.Extends state.supply ∧ (last.supply.Distinct → pre state → post a last)

/-- What holds at the end of an operation that may fail. -/
def Operation.Ensures {α : Type} (operation : Operation α) (pre : State → Prop)
    (post : α → State → Prop) (fails : Error → State → Prop) : Prop :=
  operation.run.Ensures pre fun result last =>
    match result with
    | .ok a => post a last
    | .error error => fails error last

namespace Program

variable {α β : Type} {pre pre' : State → Prop} {post post' : α → State → Prop}
  {after : β → State → Prop}

theorem ensures_done {a : α} (h : ∀ state, pre state → post a state) :
    (Program.done a).Ensures pre post := by
  intro state b last hrun
  obtain ⟨rfl, rfl⟩ := alone_done.1 hrun
  exact ⟨.refl _, fun _ => h last⟩

theorem Ensures.bind {p : Program α} {f : α → Program β} (h : p.Ensures pre post)
    (hf : ∀ a, (f a).Ensures (post a) after) : (p >>= f).Ensures pre after := by
  intro state b last hrun
  obtain ⟨a, mid, hp, hrest⟩ := alone_bind.1 hrun
  obtain ⟨he, hpost⟩ := h state a mid hp
  obtain ⟨he', hafter⟩ := hf a mid b last hrest
  exact ⟨he'.trans he, fun hd hpre => hafter hd (hpost (hd.of_extends he') hpre)⟩

theorem Ensures.weaken {p : Program α} (h : p.Ensures pre post)
    (hpre : ∀ state, pre' state → pre state) (hpost : ∀ a state, post a state → post' a state) :
    p.Ensures pre' post' := by
  intro state a last hrun
  obtain ⟨he, hr⟩ := h state a last hrun
  exact ⟨he, fun hd hp => hpost a last (hr hd (hpre state hp))⟩

/-- What does not depend on the state may be kept beside any contract. -/
theorem Ensures.beside {p : Program α} (h : p.Ensures pre post) (fact : Prop) :
    p.Ensures (fun state => fact ∧ pre state) fun a state => fact ∧ post a state := by
  intro state a last hrun
  obtain ⟨he, hr⟩ := h state a last hrun
  exact ⟨he, fun hd hp => ⟨hp.1, hr hd hp.2⟩⟩

theorem ensures_call {c : Call α}
    (hc : ∀ before answer after, c.Result before answer after →
      after.supply.Extends before.supply ∧
        (after.supply.Distinct → pre before → post answer after)) :
    (Program.call c .done).Ensures pre post := by
  intro state a last hrun
  obtain ⟨answer, after, hr, hrest⟩ := alone_call.1 hrun
  obtain ⟨rfl, rfl⟩ := alone_done.1 hrest
  exact hc state a last hr

/-- A call that asks outside of the control plane. -/
theorem ensures_outside {c : Call β} {next : β → Program α}
    (hc : ∀ before answer after, c.Result before answer after → after = before)
    (h : ∀ answer, (next answer).Ensures pre post) : (Program.call c next).Ensures pre post := by
  have hcall : (Program.call c .done).Ensures pre fun _ => pre := by
    refine ensures_call fun before answer after hr => ?_
    obtain rfl := hc before answer after hr
    exact ⟨.refl _, fun _ hp => hp⟩
  exact hcall.bind h

/-- A program that does not wait for others runs to its end in every state. -/
theorem exists_alone (p : Program α) (state : State) : ∃ a last, p.Alone state a last := by
  induction p generalizing state with
  | done a => exact ⟨a, state, .done a state⟩
  | call c next ih =>
    have hanswer : ∃ answer after, c.Result state answer after := by
      cases c with
      | ipam tx => exact ⟨_, _, rfl⟩
      | ports tx => exact ⟨_, _, none, rfl⟩
      | bind driver context => exact ⟨none, _, rfl⟩
      | postcommit driver context => exact ⟨(), _, rfl⟩
      | notify event => exact ⟨(), _, rfl⟩
      | ident kind => exact ⟨_, _, rfl⟩
      | time => exact ⟨_, _, rfl⟩
    obtain ⟨answer, after, hr⟩ := hanswer
    obtain ⟨a, last, hrest⟩ := ih answer after
    exact ⟨a, last, .call hr hrest⟩

end Program

namespace Operation

variable {α β : Type} {pre pre' : State → Prop} {post post' : α → State → Prop}
  {after : β → State → Prop} {fails fails' : Error → State → Prop}

theorem ensures_pure {a : α} (h : ∀ state, pre state → post a state) :
    Ensures (pure a) pre post fails :=
  Program.ensures_done h

theorem ensures_throw {error : Error} (h : ∀ state, pre state → fails error state) :
    Ensures (throw error : Operation α) pre post fails :=
  Program.ensures_done h

theorem ensures_throw_bind {error : Error} {f : β → Operation α}
    (h : ∀ state, pre state → fails error state) :
    Ensures (throw error >>= f : Operation α) pre post fails :=
  Program.ensures_done h

theorem Ensures.bind {operation : Operation α} {f : α → Operation β}
    (h : operation.Ensures pre post fails) (hf : ∀ a, (f a).Ensures (post a) after fails) :
    (operation >>= f).Ensures pre after fails := by
  refine Program.Ensures.bind h fun result => ?_
  cases result with
  | ok a => exact hf a
  | error error => exact ensures_throw fun _ hp => hp

theorem ensures_bind_except {r : Except Error α} {f : α → Operation β}
    (herror : ∀ error state, pre state → fails error state)
    (h : ∀ a, r = .ok a → (f a).Ensures pre after fails) :
    Ensures (liftM r >>= f) pre after fails := by
  cases r with
  | ok a => exact h a rfl
  | error error => exact ensures_throw (herror error)

theorem ensures_guard {c : Prop} [Decidable c] {error : Error} {f : β → Operation α}
    {operation : Operation α} (herror : ∀ state, pre state → fails error state)
    (h : operation.Ensures pre post fails) :
    Ensures (if c then throw error >>= f else operation) pre post fails := by
  split
  · exact ensures_throw_bind herror
  · exact h

theorem Ensures.orElse {operation : Operation α} {recover : Error → Operation α}
    (h : operation.Ensures pre post fails')
    (hr : ∀ error, (recover error).Ensures (fails' error) post fails) :
    (operation.orElse recover).Ensures pre post fails := by
  refine Program.Ensures.bind h fun result => ?_
  cases result with
  | ok a => exact ensures_pure fun _ hp => hp
  | error error => exact hr error

theorem ensures_lift {p : Program α} (h : p.Ensures pre post) :
    Ensures (ExceptT.lift p) pre post fails :=
  Program.Ensures.bind h fun _ => Program.ensures_done fun _ hp => hp

theorem Ensures.weaken {operation : Operation α} (h : operation.Ensures pre post fails)
    (hpre : ∀ state, pre' state → pre state) (hpost : ∀ a state, post a state → post' a state)
    (hfails : ∀ error state, fails error state → fails' error state) :
    operation.Ensures pre' post' fails' := by
  refine Program.Ensures.weaken h hpre fun result state hr => ?_
  cases result with
  | ok a => exact hpost a state hr
  | error error => exact hfails error state hr

theorem Ensures.of_pre {operation : Operation α} (h : operation.Ensures pre post fails)
    (hpre : ∀ state, pre' state → pre state) : operation.Ensures pre' post fails :=
  h.weaken hpre (fun _ _ hp => hp) fun _ _ hp => hp

theorem Ensures.of_no_fails {operation : Operation α}
    (h : operation.Ensures pre post fun _ _ => False) : operation.Ensures pre post fails :=
  h.weaken (fun _ hp => hp) (fun _ _ hp => hp) fun _ _ hf => hf.elim

/-- Whoever has a contract moves the supply on in every state. -/
theorem Ensures.advances {operation : Operation α} (h : operation.Ensures pre post fails) :
    operation.Ensures pre' (fun _ _ => True) fun _ _ => True := by
  intro state result last hrun
  refine ⟨(h state result last hrun).1, fun _ _ => ?_⟩
  cases result <;> exact True.intro

theorem Ensures.beside {operation : Operation α} (h : operation.Ensures pre post fails)
    (fact : Prop) : operation.Ensures (fun state => fact ∧ pre state)
      (fun a state => fact ∧ post a state) fun error state => fact ∧ fails error state := by
  refine (Program.Ensures.beside h fact).weaken (fun _ hp => hp) fun result state hr => ?_
  cases result with
  | ok a => exact hr
  | error error => exact hr

theorem Ensures.and {operation : Operation α} (h : operation.Ensures pre post fails)
    (h' : operation.Ensures pre' post' fails') :
    operation.Ensures (fun state => pre state ∧ pre' state)
      (fun a state => post a state ∧ post' a state)
      fun error state => fails error state ∧ fails' error state := by
  intro state result last hrun
  obtain ⟨he, hr⟩ := h state result last hrun
  refine ⟨he, fun hd hp => ?_⟩
  have hr := hr hd hp.1
  have hr' := (h' state result last hrun).2 hd hp.2
  cases result with
  | ok a => exact ⟨hr, hr'⟩
  | error error => exact ⟨hr, hr'⟩

/-- A contract that names the state at the start may be used from any state. -/
theorem Ensures.named {operation : Operation α} {post : State → α → State → Prop}
    {fails : State → Error → State → Prop}
    (h : ∀ first, operation.Ensures (fun state => state = first ∧ pre first) (post first)
      (fails first)) :
    operation.Ensures pre (fun a state => ∃ first, pre first ∧ post first a state)
      fun error state => ∃ first, pre first ∧ fails first error state := by
  intro state result last hrun
  obtain ⟨he, hr⟩ := h state state result last hrun
  refine ⟨he, fun hd hp => ?_⟩
  have hr := hr hd ⟨rfl, hp⟩
  cases result with
  | ok a => exact ⟨state, hp, hr⟩
  | error error => exact ⟨state, hp, hr⟩

theorem ensures_forM {ι : Type} {items : List ι} {body : ι → Operation Unit}
    (inv : List ι → State → Prop)
    (h : ∀ front item rest, items = front ++ item :: rest →
      (body item).Ensures (inv front) (fun _ => inv (front ++ [item])) fails) :
    (items.forM body).Ensures (inv []) (fun _ => inv items) fails := by
  suffices hs : ∀ rest front, items = front ++ rest →
      (rest.forM body).Ensures (inv front) (fun _ => inv items) fails from hs items [] rfl
  intro rest
  induction rest with
  | nil =>
    intro front hf
    refine ensures_pure fun state hp => ?_
    simpa [hf] using hp
  | cons item rest ih =>
    intro front hf
    exact (h front item rest hf).bind fun _ => ih (front ++ [item]) (by simp [hf])

theorem ensures_ipam {tx : Tx Ipam (Ending α)} (hadvances : tx.Advances)
    (h : ∀ before answer after, pre before → (answer, after) = before.runIpam tx →
      after.supply.Extends before.supply → after.supply.Distinct →
        match answer with
        | .ok a => post a after
        | .error error => fails error after) :
    (Operation.ipam tx).Ensures pre post fails := by
  refine Program.ensures_call fun before answer after hr => ?_
  have hext := State.runIpam_extends hadvances hr
  exact ⟨hext, fun hd hp => h before answer after hp hr hext hd⟩

theorem ensures_ports {tx : Tx Ports (Closing α)} (hadvances : tx.Advances)
    (h : ∀ before answer after refuser, pre before →
      (answer, after) = before.runReviewed refuser tx → after.supply.Extends before.supply →
      after.supply.Distinct →
        match answer with
        | .ok a => post a after
        | .error error => fails error after) :
    (Operation.ports tx).Ensures pre post fails := by
  refine Program.ensures_call fun before answer after ⟨refuser, hr⟩ => ?_
  have hext := State.runReviewed_extends hadvances hr
  exact ⟨hext, fun hd hp => h before answer after refuser hp hr hext hd⟩

theorem ensures_readIpam {f : Ipam → α} (h : ∀ state, pre state → post (f state.ipam) state) :
    (Operation.readIpam f).Ensures pre post fails := by
  refine Program.ensures_call fun before answer after hr => ?_
  cases hr
  exact ⟨.refl _, fun _ => h before⟩

/-- What is done with an answer of the address store may rely on the state that was read. -/
theorem ensures_readIpam_bind {f : Ipam → β} {g : β → Operation α}
    (h : ∀ first : State, (g (f first.ipam)).Ensures (fun state => state = first ∧ pre first) post
      fails) : (Operation.readIpam f >>= g).Ensures pre post fails := by
  intro state result last hrun
  obtain ⟨answer, mid, hr, hrest⟩ := Program.alone_call.1 hrun
  cases hr
  obtain ⟨he, hr⟩ := h state state result last hrest
  exact ⟨he, fun hd hp => hr hd ⟨rfl, hp⟩⟩

theorem ensures_readPorts {f : Ports → α} (h : ∀ state, pre state → post (f state.ports) state) :
    (Operation.readPorts f).Ensures pre post fails := by
  refine Program.ensures_call fun before answer after ⟨refuser, hr⟩ => ?_
  cases hr
  exact ⟨.refl _, fun _ => h before⟩

end Operation

end ControlPlane
