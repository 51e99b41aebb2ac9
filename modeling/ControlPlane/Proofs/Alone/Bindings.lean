import ControlPlane.Proofs.Alone
import ControlPlane.Proofs.Ports.Inputs

/-! Binding a port, with nothing in between. It fails only if a driver refuses what it was asked to
accept. Addresses have no part in it, nor do other ports. -/

namespace ControlPlane

/-- One state is another but for the rows of a port, of which all inputs but the status are as they
were, and more may have been drawn. -/
structure State.Rebound (before : State) (id : PortId) (after : State) : Prop where
  ipam : after.ipam = before.ipam
  supply : after.supply.Extends before.supply
  keyed : after.ports.Keyed
  ports : ∃ entry, before.ports.With id entry after.ports
  inputs : ∀ input, input ≠ .status →
    (after.ports.entry id).input? input = (before.ports.entry id).input? input

/-- A driver refuses the result of binding a port, which waits to be bound to its host still. -/
structure Port.Refused (drivers : List String) (id : PortId) (error : Error) (store : Ports) :
    Prop where
  refusal : ∃ driver ∈ drivers, ∃ cause, error = Environment.refusal driver cause
  waits : ∃ port binding, store.ports.find? id = some port ∧
    store.bindingAt port binding.host = some binding ∧ binding.vif.needsBinding = true ∧
    binding.hasHost = true

variable {drivers : List String} {id : PortId} {pre holds : State → Prop}

namespace PortContext

theorem announce_ensures (context : PortContext) (drivers : List String) :
    (context.announce drivers).Ensures pre fun _ => pre := by
  induction drivers with
  | nil => exact Program.ensures_done fun _ hp => hp
  | cons driver rest ih => exact Program.ensures_outside (fun _ _ _ hr => hr) fun _ => ih

theorem tryDrivers_ensures (candidate : PortContext) (drivers : List String) :
    (candidate.tryDrivers drivers).Ensures pre fun _ => pre := by
  induction drivers with
  | nil => exact Program.ensures_done fun _ hp => hp
  | cons driver rest ih =>
    refine Program.ensures_outside (fun _ _ _ hr => hr) fun answer => ?_
    cases answer with
    | none => exact ih
    | some result =>
      dsimp only
      split
      · exact Program.ensures_done fun _ hp => hp
      · exact ih

theorem finish_ensures (context : PortContext) (tell : Bool) {fails : Error → State → Prop} :
    (context.finish tell).Ensures pre (fun last state => last = context ∧ pre state) fails := by
  have htell : (Operation.ask (.notify (.updated context))).Ensures pre (fun _ => pre) fails :=
    Operation.ensures_lift (Program.ensures_outside (fun _ _ _ hr => hr)
      fun _ => Program.ensures_done fun _ hp => hp)
  unfold finish
  split
  · exact htell.bind fun _ => Operation.ensures_pure fun _ hp => ⟨rfl, hp⟩
  · exact Operation.ensures_pure fun _ hp => ⟨rfl, hp⟩

end PortContext

namespace Binding

theorem Live.refused {asked : Binding} {store : Ports} {port : Port} {live : Binding} {error : Error}
    (hl : Live store id asked port live) (hhost : asked.hasHost = true)
    (h : ∃ driver ∈ drivers, ∃ cause, error = Environment.refusal driver cause) :
    Port.Refused drivers id error store := by
  refine ⟨h, port, live, hl.found, ?_, (Bool.and_eq_true_iff.1 hl.current).1, ?_⟩
  · rw [hl.host_eq]
    exact hl.row
  · rw [hasHost, hl.host_eq]
    exact hhost

/-- What holds however a port is bound holds after a commit. -/
theorem commit_ensures (drivers : List String) (id : PortId) {asked : Binding}
    (candidate : PortContext) (hhost : asked.hasHost = true)
    (hholds : ∀ before after : State, before.Rebound id after → holds before → holds after) :
    (commit drivers id asked candidate).Ensures (fun state => holds state ∧ state.ports.Keyed)
      (fun outcome state => (∀ context ∈ outcome.context?, context.port.id = id) ∧
        holds state ∧ state.ports.Keyed)
      fun error state => holds state ∧ Port.Refused drivers id error state.ports := by
  have hcommit : (Operation.ports (commitTx drivers id asked candidate)).Ensures
      (fun state => holds state ∧ state.ports.Keyed)
      (fun outcome state => (∀ context ∈ outcome.context?, context.port.id = id) ∧
        holds state ∧ state.ports.Keyed)
      fun error state => holds state ∧ Port.Refused drivers id error state.ports := by
    have hcloses := commitTx_closes drivers id asked candidate
    refine Operation.ensures_ports hcloses.advances ?_
    rintro before answer last refuser ⟨hbefore, hkeyed⟩ hr hext hd
    have hipam := (State.runReviewed_cases hr).1
    obtain ⟨hevolves, habout⟩ := State.runReviewed_closes hcloses hkeyed hr hd
    have hkept (hports : last.ports = before.ports) : holds last := by
      have hwith : before.ports.With id (before.ports.entry id) last.ports :=
        hports ▸ .refl before.ports id
      exact hholds before last
        ⟨hipam, hext, hevolves.keyed, ⟨_, hwith⟩, fun _ _ => by rw [hports]⟩ hbefore
    have htx := commitTx_ensures drivers id asked candidate before.ports
    rcases State.runReviewed_ensures htx hr hd rfl with
      ⟨error, rfl, hports, hfails⟩ | ⟨outcome, _, rfl, hports, _⟩ | ⟨outcome, _, rfl, hc, _⟩
    · refine ⟨hkept hports, hports ▸ ?_⟩
      -- The row can be saved, so only a driver can have refused the commit.
      rcases hfails with hunsaved | ⟨_, _, _, _, hpost, hrefusal⟩
      · exact absurd hunsaved (hkeyed.not_unsaved hhost)
      · cases hpost with
        | committed hl => exact hl.refused hhost hrefusal
    · exact ⟨fun context hc => (habout outcome rfl context hc).port, hkept hports, hevolves.keyed⟩
    · obtain ⟨hwith, hinputs⟩ := hkeyed.committing hc
      have hlast := hholds before last ⟨hipam, hext, hevolves.keyed, hwith, hinputs⟩ hbefore
      exact ⟨fun context hc => (habout outcome rfl context hc).port, hlast, hevolves.keyed⟩
  refine hcommit.bind fun outcome => ?_
  cases outcome with
  | committed context =>
    refine (Operation.ensures_lift (context.announce_ensures drivers)).bind fun _ => ?_
    exact Operation.ensures_pure fun _ hp => hp
  | _ => exact Operation.ensures_pure fun _ hp => hp

end Binding

/-- Attempts to bind a port fail with what a driver says of the last of them. -/
theorem PortContext.bindWithin_ensures (drivers : List String) (id : PortId) (mayTell : Bool)
    (tries : Nat) (context : PortContext) (news : Bool)
    (hholds : ∀ before after : State, before.Rebound id after → holds before → holds after) :
    (context.bindWithin drivers mayTell tries news).Ensures
      (fun state => context.port.id = id ∧ holds state ∧ state.ports.Keyed)
      (fun last state => last.port.id = id ∧ holds state)
      fun error state => holds state ∧ Port.Refused drivers id error state.ports := by
  have hdone (context : PortContext) (tell : Bool) : (context.finish tell).Ensures
      (fun state => context.port.id = id ∧ holds state ∧ state.ports.Keyed)
      (fun last state => last.port.id = id ∧ holds state)
      fun error state => holds state ∧ Port.Refused drivers id error state.ports := by
    refine (context.finish_ensures tell).weaken (fun _ hp => hp) ?_ fun _ _ hp => hp
    rintro last state ⟨rfl, hid, hp, _⟩
    exact ⟨hid, hp⟩
  -- Each attempt goes on with the context that its commit has answered.
  induction tries generalizing context news with
  | zero =>
    unfold bindWithin
    split
    · exact Operation.ensures_pure fun _ hp => ⟨hp.1, hp.2.1⟩
    · exact hdone context _
  | succ tries ih =>
    unfold bindWithin
    split
    · rename_i hpending
      have hhost := (Bool.and_eq_true_iff.1 hpending).2
      refine (Operation.ensures_lift (context.candidate.tryDrivers_ensures drivers)).bind
        fun candidate => ?_
      have hcommit : (Binding.commit drivers context.port.id context.binding candidate).Ensures
          (fun state => context.port.id = id ∧ holds state ∧ state.ports.Keyed)
          (fun outcome state => (∀ last ∈ outcome.context?, last.port.id = id) ∧
            context.port.id = id ∧ holds state ∧ state.ports.Keyed)
          fun error state => holds state ∧ Port.Refused drivers id error state.ports := by
        -- Only the contract says whose context it is, so that is kept as part of what holds.
        have hown := @Binding.commit_ensures (fun state => context.port.id = id ∧ holds state)
          drivers context.port.id context.binding candidate hhost
          fun before after h hp => ⟨hp.1, hholds before after (hp.1 ▸ h) hp.2⟩
        refine hown.weaken (fun _ hp => ⟨⟨hp.1, hp.2.1⟩, hp.2.2⟩) ?_ ?_
        · rintro outcome state ⟨hcontext, ⟨rfl, hp⟩, hk⟩
          exact ⟨hcontext, rfl, hp, hk⟩
        · rintro error state ⟨⟨rfl, hp⟩, hrefused⟩
          exact ⟨hp, hrefused⟩
      refine hcommit.bind fun outcome => ?_
      cases outcome with
      | committed committed => exact (ih committed _).of_pre fun _ hp => ⟨hp.1 committed rfl, hp.2.2⟩
      | retry live => exact (ih live _).of_pre fun _ hp => ⟨hp.1 live rfl, hp.2.2⟩
      | gone => exact Operation.ensures_pure fun _ hp => ⟨hp.2.1, hp.2.2.1⟩
    · exact hdone context _

end ControlPlane
