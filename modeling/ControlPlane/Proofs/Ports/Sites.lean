import ControlPlane.Proofs.Obliging
import ControlPlane.Proofs.Ports.Rounds

/-! The hosts of a distributed port. All that a command goes by that binds the port on a host stays as it
is while others bind it elsewhere, but for the row of the host; and nobody else writes that row. -/

namespace ControlPlane

/-- What drivers make of a row that is not bound, when they are asked in turn. -/
def Binding.decided (decision : Decision) (network : Network) (row : Binding) : List String → Binding
  | [] => { row with vif := .bindingFailed }
  | driver :: rest =>
    match decision driver row.host row.vnic row.profile network.segments with
    | some result =>
      if (network.segment? result.segment).isSome then
        { row with
          vif := .bound result.vifType
          details := result.details
          driver := some driver
          segment := some result.segment }
      else row.decided decision network rest
    | none => row.decided decision network rest

/-- What becomes of a row that is bound if need be, with so many attempts. -/
def Binding.settle (decision : Decision) (network : Network) (drivers : List String) (tries : Nat)
    (row : Binding) : Binding :=
  if row.vif.needsBinding = true ∧ 0 < tries then
    row.copyResult (row.reset.decided decision network drivers)
  else row

/-- A row was not bound before, if it was there at all, and is bound after. -/
def Binding.newlyBound (before after : Option Binding) : Bool :=
  !before.any (fun row => row.vif.isBound) && after.any fun row => row.vif.isBound

/-- Listeners are told of one more update if there is news, and of nothing else. -/
def Move.Tells (news : Bool) (past later : List Move) : Prop :=
  ∃ told : List PortContext, told.length = (if news then 1 else 0) ∧
    later.filterMap event? = past.filterMap event? ++ told.map .updated

/-- All but the row of a host stays as it is, and the port stays what it is up to its status. -/
structure State.Spares (id : PortId) (host : String) (before after : State) : Prop where
  ipam : after.ipam = before.ipam
  port : ∀ ⦃port⦄, before.ports.ports.find? id = some port → ∃ port',
    after.ports.ports.find? id = some port' ∧ port'.network = port.network ∧
      port'.isDistributed = port.isDistributed
  rows : ∀ key, key ≠ .host id host → after.ports.row? key = before.ports.row? key
  filed : before.ports.Filed → after.ports.Filed

/-- A host of a distributed port, with all that a command goes by that binds the port there. -/
structure Site where
  id : PortId
  host : String
  ipam : Ipam
  network : NetworkId
  primary : Binding

namespace Site

def fresh (site : Site) : Binding where
  port := site.id
  host := some site.host
  vnic := site.primary.vnic
  profile := site.primary.profile

/-- The row of the host after the port was bound there. -/
def settle (site : Site) (setup : Setup) (decision : Decision) (row : Option Binding) : Option Binding :=
  match site.ipam.networks.find? site.network with
  | none => row
  | some network => some ((row.getD site.fresh).settle decision network setup.drivers
      setup.config.binding.maxBindTries)

/-- A state shows what there is at a site, and the row of its host. -/
structure Shows (site : Site) (row : Option Binding) (state : State) : Prop where
  ipam : state.ipam = site.ipam
  port : ∃ port, state.ports.ports.find? site.id = some port ∧ port.network = site.network ∧
    port.isDistributed = true
  primary : state.ports.row? (.primary site.id) = some site.primary
  row : state.ports.row? (.host site.id site.host) = row
  filed : state.ports.Filed

/-- A program that writes the row of a site, while others write rows of other hosts. -/
abbrev Guards {α : Type} (site : Site) (decision : Decision) (other : String) (tag : Nat)
    (post : α → List Move → State → Prop) (past : List Move) (state : State) (p : Program α) : Prop :=
  p.Guards (State.Spares site.id other) (State.Spares site.id site.host) (Move.Obliged decision) tag post
    past state

end Site

section Settling

theorem PortContext.bindWithin_idle {context : PortContext} (h : context.isPending = false)
    (drivers : List String) (mayTell : Bool) (tries : Nat) (news : Bool) :
    context.bindWithin drivers mayTell tries news = context.finish (mayTell && news) := by
  cases tries <;> exact if_neg (Bool.eq_false_iff.1 h)

theorem Binding.decided_vif (decision : Decision) (network : Network) (row : Binding)
    (drivers : List String) : (row.decided decision network drivers).vif.isBound = true ∨
      (row.decided decision network drivers).vif = .bindingFailed := by
  induction drivers with
  | nil => exact .inr rfl
  | cons driver rest ih =>
    unfold decided
    split
    · split
      · exact .inl rfl
      · exact ih
    · exact ih

variable {decision : Decision}

theorem Binding.settle_of_not {network : Network} {drivers : List String} {tries : Nat}
    {row : Binding} (h : ¬ (row.vif.needsBinding = true ∧ 0 < tries)) :
    row.settle decision network drivers tries = row :=
  if_neg h

theorem Binding.settle_copyResult (network : Network) (drivers : List String) (tries : Nat)
    (row : Binding) :
    (row.copyResult (row.reset.decided decision network drivers)).settle decision network drivers tries =
      row.copyResult (row.reset.decided decision network drivers) := by
  unfold settle
  split <;> rfl

theorem Binding.newlyBound_self (row : Option Binding) : newlyBound row row = false := by
  simp [newlyBound]

end Settling

namespace Move.Tells

variable {news : Bool} {past mid later : List Move} {move : Move}

theorem refl (past : List Move) : Tells false past past := ⟨[], rfl, (List.append_nil _).symm⟩

theorem snoc (h : move.event? = none) : Tells false past (past ++ [move]) := by
  refine ⟨[], rfl, ?_⟩
  rw [List.filterMap_append, List.filterMap_cons_none h]
  rfl

theorem trans (h : Tells false past mid) (h' : Tells news mid later) : Tells news past later := by
  obtain ⟨told, hlength, hevents⟩ := h
  obtain ⟨told', hlength', hevents'⟩ := h'
  cases List.length_eq_zero_iff.1 hlength
  exact ⟨told', hlength', by rw [hevents', hevents, List.map_nil, List.append_nil]⟩

end Move.Tells

namespace State.Spares

variable {id : PortId} {host : String} {s t u : State}

theorem refl (id : PortId) (host : String) (s : State) : s.Spares id host s :=
  ⟨rfl, fun port hp => ⟨port, hp, rfl, rfl⟩, fun _ _ => rfl, fun h => h⟩

theorem trans (h : s.Spares id host t) (h' : t.Spares id host u) : s.Spares id host u := by
  refine ⟨h'.ipam.trans h.ipam, fun port hp => ?_, fun key hk => (h'.rows key hk).trans (h.rows key hk),
    fun hf => h'.filed (h.filed hf)⟩
  obtain ⟨port', hp', hnetwork, hkind⟩ := h.port hp
  obtain ⟨port'', hp'', hnetwork', hkind'⟩ := h'.port hp'
  exact ⟨port'', hp'', hnetwork'.trans hnetwork, hkind'.trans hkind⟩

end State.Spares

theorem State.Spares.of_writes {id : PortId} {host : String} {before after : State} {port : Port}
    {context : PortContext} {live : Binding} (hipam : after.ipam = before.ipam)
    (hw : before.ports.Writes (.host id host) context after.ports)
    (hlive : before.ports.row? (.host id host) = some live)
    (hport : context.binding.port = live.port) (hhost : context.binding.host = live.host)
    (hp : before.ports.ports.find? id = some port) (hid : context.port.id = id)
    (hnetwork : context.port.network = port.network)
    (hkind : context.port.isDistributed = port.isDistributed) : before.Spares id host after := by
  refine ⟨hipam, fun other hother => ⟨context.port, ?_, ?_⟩, fun key hne => ?_,
    fun hf => hw.filed hf hlive hport hhost⟩
  · rw [hw.ports, if_pos hid.symm]
  · cases hp.symm.trans hother
    exact ⟨hnetwork, hkind⟩
  · rw [hw.rows, if_neg hne]

theorem State.Spares.of_row {id : PortId} {host : String} {before after : State} {row : Binding}
    (hipam : after.ipam = before.ipam) (hports : after.ports.ports = before.ports.ports)
    (hrows : ∀ key, after.ports.row? key =
      if key = .host id host then some row else before.ports.row? key)
    (hport : row.port = id) (hhost : row.host = some host) (hname : host ≠ "") :
    before.Spares id host after := by
  refine ⟨hipam, fun port hp => ⟨port, hports ▸ hp, rfl, rfl⟩, fun key hne => ?_, fun hf => ?_⟩
  · rw [hrows, if_neg hne]
  · refine hf.of_row (fun id port hp => hf.port (hports ▸ hp)) hrows hport ?_
    rintro _ _ ⟨⟩
    exact ⟨hhost, hname⟩

@[simp] theorem Port.restate_network (port : Port) (wanted : Option PortStatus) (time : Timestamp) :
    (port.restate wanted time).network = port.network := by
  cases wanted <;> rfl

@[simp] theorem Port.restate_isDistributed (port : Port) (wanted : Option PortStatus)
    (time : Timestamp) : (port.restate wanted time).isDistributed = port.isDistributed := by
  cases wanted <;> rfl

namespace Site

variable {α β : Type} {site : Site} {decision : Decision} {other : String} {tag : Nat}
  {past : List Move} {state after : State} {row : Option Binding}
  {post : α → List Move → State → Prop} {drivers : List String} {candidate context : PortContext}

theorem Shows.of_spares {row' : Option Binding} (h : site.Shows row state)
    (hs : state.Spares site.id other after)
    (hrow : after.ports.row? (.host site.id site.host) = row') : site.Shows row' after := by
  obtain ⟨port, hp, hnetwork, hkind⟩ := h.port
  obtain ⟨port', hp', hnetwork', hkind'⟩ := hs.port hp
  refine ⟨hs.ipam.trans h.ipam, ⟨port', hp', hnetwork'.trans hnetwork, hkind'.trans hkind⟩, ?_, hrow,
    hs.filed h.filed⟩
  exact (hs.rows _ (by simp)).trans h.primary

/-- What is shown at a site stays so while others write rows of other hosts. -/
theorem Shows.stable (h : site.Shows row state) (hne : site.host ≠ other)
    (hs : state.Spares site.id other after) : site.Shows row after :=
  h.of_spares hs ((hs.rows _ (by simp [hne])).trans h.row)

theorem Shows.guards_outside {c : Call β} {next : β → Program α} (h : site.Shows row state)
    (hne : site.host ≠ other)
    (hc : ∀ before answer after, c.Result before answer after → after = before)
    (hnext : ∀ before answer, site.Shows row before →
      (Move.call tag c before answer before).Obliged decision →
      site.Guards decision other tag post (past ++ [.call tag c before answer before]) before
        (next answer)) :
    site.Guards decision other tag post past state (.call c next) := by
  intro before answer after hrely hr hmay
  obtain rfl := hc before answer after hr
  exact ⟨.refl _ _ _, hnext after answer (h.stable hne hrely) hmay⟩

theorem settle_of_found {setup : Setup} {network : Network}
    (h : site.ipam.networks.find? site.network = some network) :
    site.settle setup decision row = some ((row.getD site.fresh).settle decision network setup.drivers
      setup.config.binding.maxBindTries) := by
  rw [settle, h]

theorem settle_of_missing {setup : Setup} (h : site.ipam.networks.find? site.network = none) :
    site.settle setup decision row = row := by
  rw [settle, h]

theorem newlyBound_getD {last : Option Binding} :
    Binding.newlyBound (some (row.getD site.fresh)) last = Binding.newlyBound row last := by
  cases row <;> rfl

theorem Shows.guards_tryDrivers (h : site.Shows row state) (hne : site.host ≠ other) :
    site.Guards decision other tag (fun found later state => site.Shows row state ∧
      Move.Tells false past later ∧
      found.binding = candidate.binding.decided decision candidate.network drivers ∧
      found.network = candidate.network) past state (candidate.tryDrivers drivers) := by
  induction drivers generalizing past state with
  | nil => exact ⟨h, .refl past, rfl, rfl⟩
  | cons driver rest ih =>
    refine h.guards_outside hne (fun _ _ _ hr => hr) fun before answer hb hmay => ?_
    have hanswer : answer = decision driver candidate.binding.host candidate.binding.vnic
        candidate.binding.profile candidate.network.segments := congrArg Prod.fst hmay
    have hlater : site.Guards decision other tag (fun found later state => site.Shows row state ∧
        Move.Tells false past later ∧
        found.binding = candidate.binding.decided decision candidate.network rest ∧
        found.network = candidate.network)
        (past ++ [.call tag (.bind driver candidate) before answer before]) before
        (candidate.tryDrivers rest) := by
      refine (ih hb).mono ?_
      rintro _ later state ⟨hs, htells, hfound⟩
      exact ⟨hs, (Move.Tells.snoc rfl).trans htells, hfound⟩
    simp only [Binding.decided, ← hanswer]
    cases answer with
    | none => exact hlater
    | some result =>
      dsimp only
      by_cases hc : candidate.accepts result = true
      · have hsegment : (candidate.network.segment? result.segment).isSome = true := hc
        rw [if_pos hc, if_pos hsegment]
        exact ⟨hb, .snoc rfl, rfl, rfl⟩
      · have hsegment : ¬ (candidate.network.segment? result.segment).isSome = true := hc
        rw [if_neg hc, if_neg hsegment]
        exact hlater

theorem Shows.guards_announce (h : site.Shows row state) (hne : site.host ≠ other) :
    site.Guards decision other tag (fun _ later state => site.Shows row state ∧
      Move.Tells false past later) past state
      (context.announce drivers) := by
  induction drivers generalizing past state with
  | nil => exact ⟨h, .refl past⟩
  | cons driver rest ih =>
    refine h.guards_outside hne (fun _ _ _ hr => hr) fun before answer hb hmay => ?_
    refine (ih hb).mono ?_
    rintro _ later state ⟨hs, htells⟩
    exact ⟨hs, (Move.Tells.snoc rfl).trans htells⟩

theorem Shows.guards_finish (h : site.Shows row state) (hne : site.host ≠ other) (tell : Bool) :
    site.Guards decision other tag (fun _ later state => site.Shows row state ∧
      Move.Tells tell past later) past state (context.finish tell).run := by
  unfold PortContext.finish
  split
  · refine h.guards_outside hne (fun _ _ _ hr => hr) fun before answer hb _ => ⟨hb, [context], ?_⟩
    rw [List.filterMap_append, if_pos ‹_›]
    exact ⟨rfl, rfl⟩
  · rename_i htell
    rw [Bool.not_eq_true] at htell
    exact ⟨h, htell ▸ .refl past⟩

theorem Shows.guards_readPorts (h : site.Shows row state) (hne : site.host ≠ other) (f : Ports → α) :
    site.Guards decision other tag (fun result later state => site.Shows row state ∧
      Move.Tells false past later ∧ result = .ok (f state.ports))
      past state (Operation.readPorts f).run := by
  rintro before answer after hrely ⟨_, hr⟩ hmay
  cases hr
  exact ⟨.refl _ _ _, h.stable hne hrely, .snoc rfl, rfl⟩

theorem Shows.guards_readIpam (h : site.Shows row state) (hne : site.host ≠ other) (f : Ipam → α) :
    site.Guards decision other tag (fun result later state => site.Shows row state ∧
      Move.Tells false past later ∧ result = .ok (f site.ipam))
      past state (Operation.readIpam f).run := by
  intro before answer after hrely hr hmay
  cases hr
  have hb := h.stable hne hrely
  exact ⟨.refl _ _ _, hb, Move.Tells.snoc rfl, hb.ipam ▸ rfl⟩

theorem Shows.guards_fetch (h : site.Shows row state) (hne : site.host ≠ other) :
    site.Guards decision other tag (fun result later state => site.Shows row state ∧
      Move.Tells false past later ∧
      ((∃ network, site.ipam.networks.find? site.network = some network ∧ result = .ok network) ∨
        site.ipam.networks.find? site.network = none ∧ ∃ error, result = .error error))
      past state (Network.fetch site.network).run := by
  refine (h.guards_readIpam hne _).bind ?_
  rintro _ later state ⟨hs, hevents, rfl⟩
  cases hfound : site.ipam.networks.find? site.network with
  | some network => exact ⟨hs, hevents, .inl ⟨network, rfl, rfl⟩⟩
  | none => exact ⟨hs, hevents, .inr ⟨rfl, _, rfl⟩⟩

end Site

end ControlPlane
