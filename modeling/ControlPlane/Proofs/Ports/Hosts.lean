import ControlPlane.Proofs.Ports.HostBinding
import ControlPlane.Proofs.Ports.Reachable

/-! Bindings of a distributed port on its hosts. Commands that bind it on different hosts share the
port and its primary row, and each writes the row of its own host only. -/

namespace ControlPlane

namespace Site

variable {site : Site} {decision : Decision} {row : Option Binding}

/-- What becomes of a state in which a port is bound on two hosts, whatever turns the commands take. -/
theorem Shows.interleaves {setup : Setup} {first last : State} {host : String}
    {row' : Option Binding} {x y : Except Error (Option PortContext)} {moves : List Move}
    (hleft : site.Shows row first) (hright : Site.Shows { site with host } row' first)
    (hne : site.host ≠ host)
    (hfollows : ∀ live, row = some live → live.follows site.primary = true)
    (hfollows' : ∀ live, row' = some live → live.follows site.primary = true)
    (hname : site.host ≠ "") (hname' : host ≠ "")
    (h : Program.Interleaves 0 1 (Port.bindOnHost setup site.id site.host).run
      (Port.bindOnHost setup site.id host).run first moves x y last)
    (hmoves : ∀ move ∈ moves, move.Obliged decision) :
    (∀ key, last.ports.row? key =
      if key = .host site.id site.host then site.settle setup decision row
      else if key = .host site.id host then Site.settle { site with host } setup decision row'
      else first.ports.row? key) ∧
    (∀ move ∈ moves, move.tag = 0 ∧ move.Within (State.Spares site.id site.host) ∨
      move.tag = 1 ∧ move.Within (State.Spares site.id host)) ∧
    Move.Tells (Binding.newlyBound row (site.settle setup decision row)) []
      (moves.filter (·.tag = 0)) ∧
    Move.Tells (Binding.newlyBound row' (Site.settle { site with host } setup decision row')) []
      (moves.filter (·.tag = 1)) := by
  have hl : site.Guards decision host 0 _ [] first (Port.bindOnHost setup site.id site.host).run :=
    hleft.guards_bindOnHost setup hne hfollows hname
  have hr : Site.Guards { site with host } decision site.host 1 _ [] first
      (Port.bindOnHost setup site.id host).run :=
    hright.guards_bindOnHost setup hne.symm hfollows' hname'
  obtain ⟨⟨own, ⟨hown, htells⟩, hspares⟩, ⟨own', ⟨hown', htells'⟩, hspares'⟩, hall⟩ :=
    h.guards (by decide) (.refl _ _) (.refl _ _) .trans .trans hl (.refl _ _ _) hr (.refl _ _ _) hmoves
  -- Neither command writes a row that is not of one of the two hosts.
  let keep : State → State → Prop := fun before after => ∀ key, key ≠ .host site.id site.host →
    key ≠ .host site.id host → after.ports.row? key = before.ports.row? key
  have hothers : keep first last := by
    refine h.within (fun _ _ _ _ => rfl) ?_ fun move hmove => ?_
    · exact fun h h' key hl hr => (h' key hl hr).trans (h key hl hr)
    · rcases hall move hmove with ⟨_, hw⟩ | ⟨_, hw⟩
      · exact hw.mono fun _ _ hs key hl _ => hs.rows key hl
      · exact hw.mono fun _ _ hs key _ hr => hs.rows key hr
  refine ⟨fun key => ?_, hall, htells, htells'⟩
  split
  · rename_i heq
    exact heq ▸ (hown.stable hne hspares).row
  · split
    · rename_i heq
      exact heq ▸ (hown'.stable hne.symm hspares').row
    · exact hothers key ‹_› ‹_›

end Site

theorem Ports.Shaped.filed {store : Ports} (hs : store.Shaped) : store.Filed := by
  have honHost {id : PortId} {host : String} {row : Binding}
      (hrow : store.row? (.host id host) = some row) :
      row.port = id ∧ row.host = some host ∧ host ≠ "" := by
    have h := hs id
    have hhost : (store.entry id).hosts host = some row := hrow
    generalize store.entry id = entry at h hhost
    cases h with
    | absent => cases hhost
    | present hid rows =>
      have hon := rows.onHost hhost
      exact ⟨hon.port.trans hid, hon.host, hon.named⟩
  refine ⟨fun id port hp => ?_, fun key row hrow => ?_, fun id host row hrow => (honHost hrow).2⟩
  · obtain ⟨primary, hb⟩ := hs.exists_primary hp
    obtain ⟨_, _, hid, _⟩ := hs.rows hp hb
    exact hid
  · cases key with
    | primary id =>
      have h := hs id
      have hprimary : (store.entry id).primary = some row := hrow
      generalize store.entry id = entry at h hprimary
      cases h with
      | absent => cases hprimary
      | present hid rows =>
        cases hprimary
        exact rows.own.trans hid
    | host id host => exact (honHost hrow).1

/-- A site of a distributed port in a store that has its shape, with the row there. -/
theorem Ports.Shaped.site {state : State} {id : PortId} {port : Port} (hs : state.ports.Shaped)
    (hp : state.ports.ports.find? id = some port) (hd : port.isDistributed = true) :
    ∃ primary, ∀ host,
      Site.Shows ⟨id, host, state.ipam, port.network, primary⟩ (state.ports.row? (.host id host)) state ∧
        ∀ live, state.ports.row? (.host id host) = some live → live.follows primary = true := by
  obtain ⟨primary, hb⟩ := hs.exists_primary hp
  obtain ⟨hosts, hentry, _, hrows⟩ := hs.rows hp hb
  refine ⟨primary, fun host => ⟨⟨rfl, ⟨port, hp, rfl, hd⟩, hb, rfl, hs.filed⟩, fun live hlive => ?_⟩⟩
  have hhost : hosts host = some live := by
    rw [← hlive]
    exact (congrFun (congrArg Entry.hosts hentry) host).symm
  exact (hrows.onHost hhost).follows

/-- Binds a port on two hosts, on one after the other. -/
def Port.bindInTurn (setup : Setup) (decision : Decision) (id : PortId) (one other : String)
    (state : State) : State :=
  ((bindOnHost setup id other).run.oblige decision
    ((bindOnHost setup id one).run.oblige decision state).2).2

theorem Port.exists_turns (setup : Setup) (decision : Decision) (id : PortId) (one other : String)
    (state : State) (a b : Nat) : ∃ moves x y,
    Program.Interleaves a b (bindOnHost setup id one).run (bindOnHost setup id other).run state moves
      x y (bindInTurn setup decision id one other state) ∧ ∀ move ∈ moves, move.Obliged decision := by
  obtain ⟨front, hfront, hmoves⟩ := (bindOnHost setup id one).run.oblige_plays decision a state
  obtain ⟨back, hback, hlater⟩ := (bindOnHost setup id other).run.oblige_plays decision b
    ((bindOnHost setup id one).run.oblige decision state).2
  exact ⟨_, _, _, .of_plays hfront hback, List.forall_mem_append.2 ⟨hmoves, hlater⟩⟩

namespace Scene

variable {allowed : Setup → Command → Prop} {first mid : Scene} {moves later : List Move}

/-- Whenever a distributed port is bound on two hosts at once, by drivers that decide by the host and by
what is asked for there, each of the two commands writes the row of its own host alone. In the end all
rows are as if one command had run after the other, in either order; and each has told listeners of one
update if its own row was not bound before and is bound now, and of nothing otherwise. -/
theorem Run.hosts_independent (run : Run allowed first moves mid) (hfirst : first.Initial)
    (hfresh : ∀ move ∈ moves, move.Fresh)
    (hmanaged : ∀ setup command, allowed setup command → ¬ command.ByHand) {id : PortId} {port : Port}
    (hport : mid.state.ports.ports.find? id = some port) (hdistributed : port.isDistributed = true)
    {left right : String} (hleft : left ≠ "") (hright : right ≠ "") (hne : left ≠ right)
    (setup : Setup) (decision : Decision) {x y : Except Error (Option PortContext)} {last : State}
    (turns : Program.Interleaves 0 1 (Port.bindOnHost setup id left).run
      (Port.bindOnHost setup id right).run mid.state later x y last)
    (hobliged : ∀ move ∈ later, move.Obliged decision) :
    (∀ key, last.ports.row? key =
        (Port.bindInTurn setup decision id left right mid.state).ports.row? key ∧
      last.ports.row? key =
        (Port.bindInTurn setup decision id right left mid.state).ports.row? key) ∧
    (∀ move ∈ later, ∃ host, (move.tag = 0 ∧ host = left ∨ move.tag = 1 ∧ host = right) ∧
      move.Within fun before after => ∀ key, key ≠ .host id host →
        after.ports.row? key = before.ports.row? key) ∧
    Move.Tells (Binding.newlyBound (mid.state.ports.row? (.host id left))
      (last.ports.row? (.host id left))) [] (later.filter (·.tag = 0)) ∧
    Move.Tells (Binding.newlyBound (mid.state.ports.row? (.host id right))
      (last.ports.row? (.host id right))) [] (later.filter (·.tag = 1)) := by
  obtain ⟨_, hlasting⟩ := run.lasting hfirst hfresh hmanaged
  obtain ⟨primary, hsite⟩ := hlasting.shaped.site hport hdistributed
  obtain ⟨hl, hfollows⟩ := hsite left
  obtain ⟨hr, hfollows'⟩ := hsite right
  obtain ⟨hrows, hall, htells, htells'⟩ :=
    hl.interleaves hr hne hfollows hfollows' hleft hright turns hobliged
  have hserial {last' : State} {moves' : List Move} {x' y' : Except Error (Option PortContext)}
      (h : Program.Interleaves 0 1 (Port.bindOnHost setup id left).run
        (Port.bindOnHost setup id right).run mid.state moves' x' y' last')
      (hmoves : ∀ move ∈ moves', move.Obliged decision) (key : BindingKey) :
      last.ports.row? key = last'.ports.row? key := by
    have hrows' := (hl.interleaves hr hne hfollows hfollows' hleft hright h hmoves).1
    rw [hrows, hrows']
  refine ⟨fun key => ⟨?_, ?_⟩, fun move hmove => ?_, ?_, ?_⟩
  · obtain ⟨_, _, _, h, hmoves⟩ := Port.exists_turns setup decision id left right mid.state 0 1
    exact hserial h hmoves key
  · obtain ⟨_, _, _, h, hmoves⟩ := Port.exists_turns setup decision id right left mid.state 1 0
    exact hserial h.symm hmoves key
  · rcases hall move hmove with ⟨htag, hw⟩ | ⟨htag, hw⟩
    · exact ⟨left, .inl ⟨htag, rfl⟩, hw.mono fun _ _ hs => hs.rows⟩
    · exact ⟨right, .inr ⟨htag, rfl⟩, hw.mono fun _ _ hs => hs.rows⟩
  · rw [hrows, if_pos rfl]
    exact htells
  · rw [hrows, if_neg (by simp [hne.symm]), if_pos rfl]
    exact htells'

end Scene

namespace Scene

/-- A port is bound on two hosts at the same time, on one of which the driver binds nothing. -/
def spreadOut : List Move × State × Program (Except Error (Option PortContext)) ×
    Program (Except Error (Option PortContext)) :=
  Program.takeTurns leftOnly 0 1 (List.replicate 9 [true, false]).flatten
    (Port.bindOnHost setup ⟨0⟩ "left").run (Port.bindOnHost setup ⟨0⟩ "right").run spread.2.state
where
  setup : Setup := { drivers := ["agent"], config := { binding := { maxBindTries := 2 } } }
  leftOnly : Decision := fun _ host _ _ _ =>
    if host = some "left" then some { segment := ⟨8⟩, vifType := "ovs" } else none

theorem spreadOut_interleaves : ∃ x y,
    Program.Interleaves 0 1 (Port.bindOnHost spreadOut.setup ⟨0⟩ "left").run
      (Port.bindOnHost spreadOut.setup ⟨0⟩ "right").run spread.2.state spreadOut.1 x y spreadOut.2.1 ∧
    ∀ move ∈ spreadOut.1, move.Obliged spreadOut.leftOnly :=
  Program.takeTurns_interleaves (by decide +kernel)

theorem spreadOut_independent :
    (∀ key, spreadOut.2.1.ports.row? key = (Port.bindInTurn spreadOut.setup spreadOut.leftOnly ⟨0⟩
      "right" "left" spread.2.state).ports.row? key) ∧
    Move.Tells true [] (spreadOut.1.filter (·.tag = 0)) ∧
    Move.Tells false [] (spreadOut.1.filter (·.tag = 1)) := by
  have hfresh : ∀ move ∈ spread.1, move.Fresh := by decide +kernel
  have hport : ∃ port ∈ spread.2.state.ports.ports.find? ⟨0⟩, port.isDistributed = true := by
    decide +kernel
  obtain ⟨port, hport, hd⟩ := hport
  obtain ⟨x, y, hturns, hmoves⟩ := spreadOut_interleaves
  obtain ⟨hrows, _, hleft, hright⟩ := spread_run.hosts_independent sample_initial hfresh
    (fun _ _ h => h) hport hd (by decide) (by decide) (by decide) spreadOut.setup spreadOut.leftOnly
    hturns hmoves
  have hnew : Binding.newlyBound (spread.2.state.ports.row? (.host ⟨0⟩ "left"))
      (spreadOut.2.1.ports.row? (.host ⟨0⟩ "left")) = true := by decide +kernel
  have hnone : Binding.newlyBound (spread.2.state.ports.row? (.host ⟨0⟩ "right"))
      (spreadOut.2.1.ports.row? (.host ⟨0⟩ "right")) = false := by decide +kernel
  rw [hnew] at hleft
  rw [hnone] at hright
  exact ⟨fun key => (hrows key).2, hleft, hright⟩

end Scene

end ControlPlane
