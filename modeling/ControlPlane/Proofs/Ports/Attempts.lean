import ControlPlane.Proofs.Alone.Bindings
import ControlPlane.Proofs.Ports.Commits
import ControlPlane.Proofs.Ports.Upkeep
import ControlPlane.Proofs.Reports

/-! Attempts to bind a port, with nothing in between. The port that is handed on from one attempt to the
next is the one that is stored, so that nothing is read again. -/

namespace ControlPlane

open Operation

namespace Binding

theorem agrees_refl (binding : Binding) : binding.agrees binding = true := by
  simp [agrees, Json.agrees_refl, Json.agreesMembers_refl]

theorem isCurrent_of_agrees {asked live : Binding} (h : asked.agrees live = true)
    (hneeds : asked.vif.needsBinding = true) : live.isCurrent asked = true := by
  simp only [agrees, Bool.and_eq_true, decide_eq_true_eq] at h
  obtain ⟨⟨⟨⟨⟨⟨⟨_, hhost⟩, hvnic⟩, hprofile⟩, hvif⟩, _⟩, _⟩, _⟩ := h
  simp [isCurrent, sameInputs, ← hvif, hneeds, hhost, hvnic, Json.agrees_comm, hprofile]

theorem agrees_of_sameInputs {a b : Binding} (h : a.sameInputs b = true) (hport : a.port = b.port)
    (hresult : a.copyResult b = a) : a.agrees b = true := by
  simp only [sameInputs, Bool.and_eq_true, decide_eq_true_eq] at h
  obtain ⟨⟨hhost, hvnic⟩, hprofile⟩ := h
  rw [← hresult]
  simp [agrees, copyResult, hport, hhost, hvnic, hprofile, Json.agreesMembers_refl]

end Binding

namespace PortUpdate

variable {update : PortUpdate} {binding : Binding}

theorem applyToBinding_agrees (h : (update.applyToBinding binding).sameInputs binding = true) :
    (update.applyToBinding binding).agrees binding = true := by
  unfold applyToBinding at h ⊢
  extract_lets changed at h
  split at h
  · rename_i hc
    rw [if_pos hc]
    exact Binding.agrees_of_sameInputs h rfl rfl
  · rename_i hc
    have hsame : changed.sameInputs binding = true := h
    simp [hsame] at hc

theorem applyToBinding_distributed (h : binding.vif = .distributed) :
    (update.applyToBinding binding).vif = .distributed := by
  unfold applyToBinding
  extract_lets changed
  have hvif : changed.vif = .distributed := h
  rw [if_pos (by simp [hvif])]
  exact hvif

end PortUpdate

/-- A port is stored with its primary binding. -/
structure Ports.Stores (store : Ports) (port : Port) (binding : Binding) : Prop where
  found : store.ports.find? port.id = some port
  row : ∃ row, store.bindings.find? port.id = some row ∧ binding.agrees row = true

def Ports.Shown (store : Ports) (context : PortContext) : Prop :=
  store.Stores context.port context.binding

theorem Ports.Stores.of_with {store last : Ports} {port : Port} {binding row : Binding}
    {hosts : String → Option Binding}
    (h : store.With port.id ⟨some port, some row, hosts⟩ last)
    (hrow : binding.agrees row = true) : last.Stores port binding := by
  have hentry := h port.id
  rw [if_pos rfl] at hentry
  exact ⟨congrArg Entry.port hentry, row, congrArg Entry.primary hentry, hrow⟩

/-- A context shows a port as it is stored, so that the port may be bound. -/
structure PortContext.Ready (context : PortContext) (store : Ports) : Prop where
  stores : store.Stores context.port context.binding
  keyed : store.Keyed
  apart : context.port.isDistributed = true → context.binding.vif.needsBinding = false

namespace PortContext

variable {setup : Setup} {context candidate : PortContext} {store : Ports} {id : PortId}

theorem Ready.not_distributed (h : context.Ready store) (hpending : context.isPending = true) :
    context.port.isDistributed = false := by
  rw [← Bool.not_eq_true]
  intro hd
  have hneeds := (Bool.and_eq_true_iff.1 hpending).1
  rw [h.apart hd] at hneeds
  cases hneeds

theorem Ready.live (h : context.Ready store) (hpending : context.isPending = true) :
    ∃ live, Binding.Live store context.port.id context.binding context.port live := by
  obtain ⟨row, hrow, hagrees⟩ := h.stores.row
  refine ⟨row, h.stores.found, ?_, ?_⟩
  · rw [Ports.bindingAt, h.not_distributed hpending]
    exact hrow
  · exact Binding.isCurrent_of_agrees hagrees (Bool.and_eq_true_iff.1 hpending).1

/-- What a commit finds is what was asked for, and the context of its outcome shows what it has
stored. -/
theorem Ready.commit (h : context.Ready store) (hpending : context.isPending = true)
    {closing : Closing CommitOutcome} {last : Ports}
    (hc : Binding.Committing store setup.drivers context.port.id context.binding candidate closing
      last) :
    ∃ drivers committed, closing = .review drivers committed (.committed committed) ∧
      committed.port.id = context.port.id ∧ (last.Keyed → committed.Ready last) := by
  obtain ⟨row, hlive⟩ := h.live hpending
  cases hc with
  | gone hnone =>
    have hrow := hlive.row
    rw [hnone _ hlive.found] at hrow
    cases hrow
  | retry hp hl hcurrent =>
    cases Option.some.inj (hlive.found.symm.trans hp)
    cases Option.some.inj (hlive.row.symm.trans hl)
    rw [hlive.current] at hcurrent
    cases hcurrent
  | @committed port changed live tables _ committed hl hs hsave hport hnetwork hbinding =>
    cases Option.some.inj (hlive.found.symm.trans hl.found)
    have hkind := h.not_distributed hpending
    obtain ⟨hwith, hid, hchanged⟩ := hs.with rfl hl.found rfl
    have hrow : live.port = context.port.id := h.keyed.port_bindingAt hl.found hl.row
    have hown : (live.copyResult candidate.binding).port = context.port.id := hrow
    rw [Ports.saveBindingOf, hkind] at hsave
    have hsaved := hwith.saveBinding hown hsave
    subst hport
    refine ⟨_, committed, rfl, hid, fun hlast => ⟨.of_with (hid.symm ▸ hsaved) ?_, hlast, ?_⟩⟩
    · rw [hbinding]
      exact Binding.agrees_refl _
    · rw [hchanged, hkind]
      exact nofun

theorem Ready.committed {refuser : Option (String × Error)} {before after : State}
    {answer : Except Error CommitOutcome} {outcome : CommitOutcome}
    (h : context.Ready before.ports) (hpending : context.isPending = true)
    (hr : (answer, after) = before.runReviewed refuser
      (Binding.commitTx setup.drivers context.port.id context.binding candidate))
    (hd : after.supply.Distinct) (ho : answer = .ok outcome) :
    ∃ committed, outcome = .committed committed ∧ committed.port.id = context.port.id ∧
      committed.Ready after.ports := by
  have hcloses := Binding.commitTx_closes setup.drivers context.port.id context.binding candidate
  have htx := Binding.commitTx_ensures setup.drivers context.port.id context.binding candidate
    before.ports
  have hkeyed := (State.runReviewed_closes hcloses h.keyed hr hd).1.keyed
  rcases State.runReviewed_ensures htx hr hd rfl with
    ⟨error, ha, _⟩ | ⟨other, tables, ha, _, hc⟩ | ⟨other, closing, ha, hc, hends⟩
  · rw [ho] at ha
    cases ha
  · obtain ⟨drivers, committed, hclosing, _⟩ := h.commit hpending hc
    cases hclosing
  · rw [ho] at ha
    cases ha
    obtain ⟨drivers, committed, rfl, hid, hafter⟩ := h.commit hpending hc
    rcases hends with hclosing | ⟨_, _, hclosing⟩ <;> cases hclosing
    exact ⟨committed, rfl, hid, hafter hkeyed⟩

theorem commit_reports (context candidate : PortContext) (id : PortId) :
    (Binding.commit setup.drivers context.port.id context.binding candidate).Mute setup
      (fun state => context.isPending = true ∧ context.port.id = id ∧ context.Ready state.ports)
      fun outcome state => ∃ committed, outcome = .committed committed ∧ committed.port.id = id ∧
        committed.Ready state.ports := by
  have hcommit : (Operation.ports (Binding.commitTx setup.drivers context.port.id context.binding
      candidate)).Mute setup
      (fun state => context.isPending = true ∧ context.port.id = id ∧ context.Ready state.ports)
      fun outcome state => ∃ committed, outcome = .committed committed ∧ committed.port.id = id ∧
        committed.Ready state.ports := by
    have hcloses := Binding.commitTx_closes setup.drivers context.port.id context.binding candidate
    intro tag before moves result after hplays
    obtain ⟨rfl, refuser, hr⟩ := plays_ports.1 hplays
    refine ⟨State.runReviewed_extends hcloses.advances hr, ?_⟩
    rintro hd ⟨hpending, rfl, hready⟩
    refine ⟨.cons (.commit _ _ _ _ fun outcome ho => ?_) ⟨refuser, hr⟩ (.nil _), fun outcome ho => ?_⟩
    · obtain ⟨committed, hcommitted, _⟩ := hready.committed hpending hr hd ho
      exact ⟨committed, hcommitted⟩
    · exact hready.committed hpending hr hd ho
  refine hcommit.bind fun outcome => ?_
  cases outcome with
  | committed committed =>
    have hannounce : (committed.announce setup.drivers).All (Call.Quiet setup) :=
      announce_makes (fun driver context => ⟨.postcommit driver context, trivial⟩) _ _
    refine Mute.bind (reports_lift hannounce (committed.announce_ensures setup.drivers)) fun _ => ?_
    exact reports_pure fun _ hp => hp
  | _ => exact reports_pure fun _ hp => hp

theorem finish_reports (context : PortContext) (tell : Bool) :
    (context.finish tell).Reports setup Ports.Shown
      (fun state => context.port.id = id ∧ context.Ready state.ports)
      fun last state => last.port.id = id ∧ state.ports.Shown last := by
  unfold finish
  split
  · intro tag first moves result last hplays
    change (Program.call (.notify (.updated context)) fun _ =>
      .done (Except.ok context)).Plays tag first moves result last at hplays
    obtain ⟨_, _, _, rfl, rfl, hrest⟩ := Program.plays_call.1 hplays
    obtain ⟨rfl, rfl, rfl⟩ := Program.plays_done.1 hrest
    refine ⟨.refl _, fun _ hp => ⟨.cons (.updated context ⟨⟨_, rfl⟩, hp.2.stores⟩) rfl (.nil _), ?_⟩⟩
    rintro _ ⟨⟩
    exact ⟨hp.1, hp.2.stores⟩
  · exact reports_pure fun _ hp => ⟨hp.1, hp.2.stores⟩

theorem bindWithin_reports (mayTell : Bool) (tries : Nat) (context : PortContext) (news : Bool) :
    (context.bindWithin setup.drivers mayTell tries news).Reports setup
      Ports.Shown
      (fun state => context.port.id = id ∧ context.Ready state.ports)
      fun last state => last.port.id = id ∧ state.ports.Shown last := by
  -- Each attempt hands on a context that is ready for the next one.
  induction tries generalizing context news with
  | zero =>
    unfold bindWithin
    split
    · exact reports_pure fun _ hp => ⟨hp.1, hp.2.stores⟩
    · exact context.finish_reports _
  | succ tries ih =>
    unfold bindWithin
    split
    · rename_i hpending
      have hdrivers : (context.candidate.tryDrivers setup.drivers).All (Call.Quiet setup) :=
        tryDrivers_makes (fun _ hd context => ⟨.bind context hd, trivial⟩) _
      refine Mute.bind (reports_lift hdrivers
        (context.candidate.tryDrivers_ensures setup.drivers)) fun candidate => ?_
      have hcommit := (@commit_reports setup context candidate id).of_pre fun state hp =>
        ⟨hpending, hp⟩
      refine Mute.bind hcommit fun outcome => ?_
      cases outcome with
      | committed committed =>
        refine (ih committed _).of_pre ?_
        rintro state ⟨_, ⟨⟩, hp⟩
        exact hp
      | retry live =>
        refine (ih live news).of_pre ?_
        rintro _ ⟨_, ⟨⟩, _⟩
      | gone =>
        refine reports_pure ?_
        rintro _ ⟨_, ⟨⟩, _⟩
    · exact context.finish_reports _

end PortContext

end ControlPlane
