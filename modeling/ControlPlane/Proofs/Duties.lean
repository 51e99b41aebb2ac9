import ControlPlane.Proofs.Ranges.Exchange
import ControlPlane.Proofs.Releases
import ControlPlane.Proofs.Traces

/-! What commands have to see to. A command that gives an address to a port, or that removes a port,
is charged with the addresses of the port until it sees that they are released, or that they may
stay. -/

namespace ControlPlane

open Ip (Address)
open Operation

/-- An error that has nothing to do with hardware addresses running out. -/
def Error.Plain (error : Error) : Prop := ∀ network, error ≠ .macsExhausted network

theorem Error.IsInput.plain {error : Error} (h : error.IsInput) : error.Plain := by
  obtain ⟨text, rfl⟩ := h
  exact fun _ => nofun

theorem Error.ofFaults_plain {faults : List Fault} {error : Error}
    (h : Error.ofFaults faults = .error error) : error.Plain := by
  obtain ⟨_, rfl⟩ := Error.ofFaults_eq_error h
  exact fun _ => nofun

theorem Allocation.Refused.plain {subnet : Subnet} {address : Address} {error : Error}
    (h : Allocation.Refused subnet address error) : error.Plain := by
  rcases h with ⟨_, rfl⟩ | rfl
  · exact fun _ => nofun
  · exact fun _ => nofun

/-- A port is stored before a move and not after it. -/
def Move.Loses (id : PortId) : Move → Prop
  | call _ _ before _ after =>
    before.ports.ports.contains id = true ∧ after.ports.ports.contains id = false
  | _ => False

/-- A licence for all but to allocate addresses and to remove ports. -/
def Licence.quiet : Licence where
  draw := True
  insert _ _ := True
  remove _ := False
  drop _ := True
  save _ _ := True
  report _ _ := True
  host _ := True
  commit _ _ _ := True
  take _ _ := False
  release _ := True

/-- What charges a command with an address of a port, and what excuses it beside that the port has
the address no more. `removes` says whether the command may remove the port. -/
structure Duty where
  port : PortId
  charges : AllocatedIp → Move → Prop
  excuses : State → Prop
  removes : Prop
  narrow : ∀ ⦃ip move⦄, charges ip move → move.Gives ip port ∨ removes ∧ move.Loses port

namespace Duty

/-- A command is charged with an address by one of its moves, and no move of it since has led to a
state that discharges it. -/
def Owes (duty : Duty) (moves : List Move) (tag : Nat) (ip : AllocatedIp) : Prop :=
  ∃ past move rest, moves = past ++ move :: rest ∧ move.tag = tag ∧ duty.charges ip move ∧
    ∀ state, Passed (move :: rest) tag state →
      state.ipam.holder? ip = some duty.port ∧ ¬ duty.excuses state

/-- A command owes at most some addresses, and has removed the port only if it may. -/
structure Accounts (duty : Duty) (tag : Nat) (ips : List AllocatedIp) (moves : List Move) : Prop where
  owes : ∀ ip, duty.Owes moves tag ip → ip ∈ ips
  loses : ∀ move ∈ moves, move.tag = tag → move.Loses duty.port → duty.removes

variable {duty : Duty} {setup : Setup} {moves past later others : List Move} {move : Move}
  {tag : Nat} {ip : AllocatedIp} {ips ips' : List AllocatedIp} {α : Type} {c : Call α}
  {before after : State} {answer : α}

theorem charges_call (h : duty.charges ip move) : ∃ state, move.after? = some state := by
  rcases duty.narrow h with h | ⟨_, h⟩
  all_goals
    cases move with
    | call _ _ _ _ after => exact ⟨after, rfl⟩
    | _ => exact h.elim

theorem owes_snoc (h : duty.Owes (moves ++ [move]) tag ip) :
    (∀ state, move.tag = tag → move.after? = some state →
      state.ipam.holder? ip = some duty.port ∧ ¬ duty.excuses state) ∧
    (move.tag = tag ∧ duty.charges ip move ∨ duty.Owes moves tag ip) := by
  obtain ⟨past, first, rest, hmoves, htag, hcharges, hsaw⟩ := h
  -- It is charged by the last move, or by one before that which nothing has discharged.
  rcases snoc_eq_append_cons hmoves with ⟨rfl, rfl, rfl⟩ | ⟨front, rfl, hfront⟩
  · exact ⟨fun state _ hs => hsaw state ⟨_, List.mem_singleton_self _, htag, hs⟩,
      .inl ⟨htag, hcharges⟩⟩
  · refine ⟨fun state htag hs => hsaw state ⟨move, by simp, htag, hs⟩, .inr ?_⟩
    refine ⟨past, first, front, hfront, htag, hcharges, fun state hs => hsaw state ?_⟩
    exact hs.mono ⟨[move], by simp⟩

theorem Owes.of_append (h : duty.Owes (past ++ others) tag ip)
    (hothers : ∀ move ∈ others, move.tag = tag → move.after? = none) : duty.Owes past tag ip := by
  induction others generalizing past with
  | nil => simpa using h
  | cons first rest ih =>
    obtain ⟨hfirst, hrest⟩ := List.forall_mem_cons.1 hothers
    rw [List.append_cons] at h
    rcases (owes_snoc (ih h hrest)).2 with ⟨htag, hcharges⟩ | h
    · obtain ⟨state, hs⟩ := charges_call hcharges
      rw [hfirst htag] at hs
      cases hs
    · exact h

namespace Accounts

theorem append (h : duty.Accounts tag ips past)
    (hothers : ∀ move ∈ others, move.tag = tag → move.after? = none) :
    duty.Accounts tag ips (past ++ others) := by
  refine ⟨fun ip ho => h.owes ip (ho.of_append hothers), fun move hmove htag hloses => ?_⟩
  rcases List.mem_append.1 hmove with hmove | hmove
  · exact h.loses move hmove htag hloses
  · have hafter := hothers move hmove htag
    cases move with
    | call => cases hafter
    | _ => exact hloses.elim

theorem append_others (h : duty.Accounts tag ips past) (hothers : ∀ move ∈ others, move.tag ≠ tag) :
    duty.Accounts tag ips (past ++ others) :=
  h.append fun move hmove htag => absurd htag (hothers move hmove)

/-- After a call, a command owes what the call charges it with and what it owed before, if that is
not discharged. -/
theorem call (h : duty.Accounts tag ips moves)
    (hloses : (Move.call tag c before answer after).Loses duty.port → duty.removes)
    (hips : ∀ ip, duty.charges ip (.call tag c before answer after) ∨ ip ∈ ips →
      after.ipam.holder? ip = some duty.port → ¬ duty.excuses after → ip ∈ ips') :
    duty.Accounts tag ips' (moves ++ [.call tag c before answer after]) := by
  refine ⟨fun ip ho => ?_, fun move hmove htag hl => ?_⟩
  · obtain ⟨hafter, hcases⟩ := owes_snoc ho
    obtain ⟨hholder, hexcuses⟩ := hafter after rfl rfl
    rcases hcases with ⟨_, hcharges⟩ | ho
    · exact hips ip (.inl hcharges) hholder hexcuses
    · exact hips ip (.inr (h.owes ip ho)) hholder hexcuses
  · rcases List.mem_append.1 hmove with hmove | hmove
    · exact h.loses move hmove htag hl
    · cases List.mem_singleton.1 hmove
      exact hloses hl

end Accounts

end Duty

theorem Call.Made.not_gives {setup : Setup} {moves : List Move} {tag : Nat} {α : Type} {c : Call α}
    {before after : State} {answer : α} (hm : c.Made setup .quiet)
    (hf : Faithful False moves before) (hr : c.Result before answer after)
    (hd : after.supply.Distinct) (ip : AllocatedIp) (port : PortId) :
    ¬ (Move.call tag c before answer after).Gives ip port := by
  rintro ⟨hbefore, hafter⟩
  have hchange := (hm.abides False.elim).holders hr hd hf.orderly.labelled ip
  rw [hbefore, hafter] at hchange
  cases hchange with
  | allocated h => exact h.elim fun _ ht => ht

theorem Licence.Changes.contains {licence : Licence} {store last : Ports} {id : PortId}
    (h : licence.Changes store last) (hc : store.ports.contains id = true) :
    last.ports.contains id = true ∨ licence.remove id := by
  cases h with
  | evolves _ hkept => exact hkept id hc
  | inserted _ _ _ _ _ hsave =>
    exact .inl (Ports.contains_saveBinding hsave (Ports.contains_savePort hc))

theorem Call.Made.not_loses {setup : Setup} {moves : List Move} {tag : Nat} {α : Type} {c : Call α}
    {before after : State} {answer : α} (hm : c.Made setup .quiet)
    (hf : Faithful False moves before) (hr : c.Result before answer after)
    (hd : after.supply.Distinct) (id : PortId) :
    ¬ (Move.call tag c before answer after).Loses id := by
  rintro ⟨hbefore, hafter⟩
  rcases ((hm.abides False.elim).ports hr hd hf.keyed).contains hbefore with hkept | hremove
  · rw [hafter] at hkept
    cases hkept
  · exact hremove

namespace Duty

variable {duty : Duty} {setup : Setup} {past later others : List Move} {tag : Nat}
  {ips ips' : List AllocatedIp} {α β : Type} {c : Call α} {before after : State} {answer : α}

theorem Accounts.quiet (h : duty.Accounts tag ips past)
    (hothers : ∀ move ∈ others, move.tag ≠ tag) (hm : c.Made setup .quiet)
    (hf : Faithful False (past ++ others) before) (hr : c.Result before answer after)
    (hd : after.supply.Distinct) :
    duty.Accounts tag ips (past ++ others ++ [.call tag c before answer after]) := by
  refine (h.append_others hothers).call (fun hl => absurd hl (hm.not_loses hf hr hd _)) ?_
  intro ip hcases _ _
  rcases hcases with hcharges | hip
  · rcases duty.narrow hcharges with hgives | ⟨_, hl⟩
    · exact absurd hgives (hm.not_gives hf hr hd ip _)
    · exact absurd hl (hm.not_loses hf hr hd _)
  · exact hip

theorem leaves_program {p : Program α} (hp : p.All (Call.Made setup .quiet))
    (h : duty.Accounts tag ips past) : p.Leaves tag (fun _ => duty.Accounts tag ips) past :=
  hp.leaves h fun hm _ _ _ _ _ hpast hothers hf hr hd => hpast.quiet hothers hm hf hr hd

/-- A transaction of the port store that allocates and removes nothing. -/
theorem leaves_ports {tx : Tx Ports (Closing α)} {fails : Error → Prop}
    (hm : (Call.ports tx).Made setup .quiet)
    (hfails : ∀ (before : State) error after refuser, before.ports.Keyed →
      (.error error, after) = before.runReviewed refuser tx → after.supply.Distinct → fails error)
    (h : duty.Accounts tag ips past) :
    (Operation.ports tx).Leaves tag (fun _ => duty.Accounts tag ips)
      (fun error later => duty.Accounts tag ips later ∧ fails error) past := by
  refine Operation.leaves_ports fun others before answer after refuser hothers hf hr hd => ?_
  have hlater := h.quiet hothers hm hf ⟨refuser, hr⟩ hd
  cases answer with
  | ok a => exact hlater
  | error error => exact ⟨hlater, hfails before error after refuser hf.keyed hr hd⟩

theorem leaves_readIpam_of (f : Ipam → α) (about : α → Prop) {fails : Error → List Move → Prop}
    (habout : ∀ moves state, Faithful False moves state → about (f state.ipam))
    (h : duty.Accounts tag ips past) :
    (Operation.readIpam f).Leaves tag (fun a later => about a ∧ duty.Accounts tag ips later) fails
      past := by
  refine Operation.leaves_readIpam fun _ before hothers hf hd => ⟨habout _ before hf, ?_⟩
  have hm : (Call.ipam do return .commit (f (← get))).Made {} .quiet := .readIpam f
  exact h.quiet hothers hm hf rfl hd

theorem leaves_readIpam (f : Ipam → α) {fails : Error → List Move → Prop}
    (h : duty.Accounts tag ips past) :
    (Operation.readIpam f).Leaves tag (fun _ => duty.Accounts tag ips) fails past :=
  (leaves_readIpam_of f (fun _ => True) (fun _ _ _ => trivial) h).mono (fun _ _ _ hp => hp.2)
    fun _ _ _ hf => hf

theorem leaves_readPorts (f : Ports → α) (about : α → Prop) {fails : Error → List Move → Prop}
    (habout : ∀ moves state, Faithful False moves state → about (f state.ports))
    (h : duty.Accounts tag ips past) :
    (Operation.readPorts f).Leaves tag (fun a later => about a ∧ duty.Accounts tag ips later) fails
      past := by
  refine Operation.leaves_readPorts fun _ before hothers hf hd => ⟨habout _ before hf, ?_⟩
  have hm : (Call.ports do return .commit (f (← get))).Made {} .quiet := .readPorts f
  exact h.quiet hothers hm hf ⟨none, rfl⟩ hd

end Duty

end ControlPlane
