import ControlPlane.Proofs.History

/-! What a reply tells of the states that its command saw. -/

namespace ControlPlane

/-- A port that is not distributed, and that is to be bound on a host. -/
def Ports.Sits (store : Ports) (id : PortId) (host : Option String) : Prop :=
  ∃ port row, store.ports.find? id = some port ∧ port.isDistributed = false ∧
    store.bindings.find? id = some row ∧ row.host = host

/-- A port whose binding, as seen from a host, is for that host. -/
def Ports.Asks (store : Ports) (id : PortId) (host : String) : Prop :=
  ∃ port row, store.ports.find? id = some port ∧ port.id = id ∧
    store.bindingAt port (some host) = some row ∧ row.host = some host

section

variable (past moves : List Move) (tag : Nat)

/-- After some of the moves, a command saw a store of a state. -/
def SawSince (store : StoreKind) (state : State) : Prop :=
  ∃ rest, moves = past ++ rest ∧ Saw rest tag store state

/-- Since some of the moves, a command has not seen a port go from one host to another, or it has. -/
def Went (id : PortId) (host other : Option String) : Prop :=
  other = host ∨ ∃ state, SawSince past moves tag .ports state ∧ state.ports.Sits id other

/-- What a command saw that shows a port to the agent of a host: its binding was for that host, but
the port may have been moved before the command was done. -/
def Shown (id : PortId) (host : String) (context : PortContext) : Prop :=
  context.port.id = id ∧ ∃ past state, past <+: moves ∧ Saw past tag .ports state ∧
    state.ports.Asks id host ∧ Went past moves tag id (some host) context.binding.host

end

/-- What a command saw before it gave a reply. -/
def Command.Backed (moves : List Move) (tag : Nat) : Command → Reply → Prop
  | .createSubnet _, .subnetDetails details => ∃ state, Saw moves tag .ipam state ∧
    state.ipam.subnets.find? details.subnet.id = some details.subnet
  | .boundContext id host, .context (some context) => Shown moves tag id host context
  | _, _ => True

/-- A command ends with a reply that tells what it saw, if it does not fail. -/
def Ends (moves : List Move) (tag : Nat) (answer : Except Error Reply) : Prop :=
  ∃ command, .start tag command ∈ moves ∧
    ∀ reply, answer = .ok reply → command.Backed moves tag reply

/-- All commands that have ended did so. -/
def Told (moves : List Move) : Prop :=
  ∀ tag answer, .finish tag answer ∈ moves → Ends moves tag answer

variable {past mid later last : List Move} {tag : Nat} {id : PortId} {host other third : Option String}

theorem SawSince.mono {store : StoreKind} {state : State} (h : SawSince mid later tag store state)
    (hp : past <+: mid) (hl : later <+: last) : SawSince past last tag store state := by
  obtain ⟨rest, rfl, hs⟩ := h
  obtain ⟨before, rfl⟩ := hp
  obtain ⟨after, rfl⟩ := hl
  refine ⟨before ++ rest ++ after, by simp only [List.append_assoc], ?_⟩
  obtain ⟨move, hmove, hm⟩ := hs
  exact ⟨move, List.mem_append_left _ (List.mem_append_right _ hmove), hm⟩

theorem sawSince_snoc {α : Type} {others : List Move} {c : Call α} {before after : State}
    {answer : α} {store : StoreKind} (hc : c.sees? answer = some store) :
    SawSince past (past ++ others ++ [.call tag c before answer after]) tag store after :=
  ⟨_, List.append_assoc _ _ _, saw_snoc hc⟩

theorem Went.mono (h : Went mid later tag id host other) (hp : past <+: mid) (hl : later <+: last) :
    Went past last tag id host other := by
  rcases h with h | ⟨state, hs, h⟩
  · exact .inl h
  · exact .inr ⟨state, hs.mono hp hl, h⟩

theorem Went.trans (h : Went past mid tag id host other) (h' : Went mid later tag id other third)
    (hp : past <+: mid) (hl : mid <+: later) : Went past later tag id host third := by
  rcases h' with rfl | h'
  · exact h.mono (List.prefix_refl past) hl
  · exact .mono (.inr h') hp (List.prefix_refl later)

theorem Command.Backed.mono {command : Command} {reply : Reply} (h : command.Backed past tag reply)
    (hp : past <+: later) : command.Backed later tag reply := by
  cases command with
  | createSubnet request =>
    cases reply with
    | subnetDetails details =>
      obtain ⟨state, hs, h⟩ := h
      exact ⟨state, hs.mono hp, h⟩
    | _ => trivial
  | boundContext id host =>
    cases reply with
    | context context =>
      cases context with
      | none => trivial
      | some context =>
        obtain ⟨hid, early, state, hearly, hs, hasks, hwent⟩ := h
        exact ⟨hid, early, state, hearly.trans hp, hs, hasks,
          hwent.mono (List.prefix_refl early) hp⟩
    | _ => trivial
  | _ => trivial

theorem Ends.mono {answer : Except Error Reply} (h : Ends past tag answer) (hp : past <+: later) :
    Ends later tag answer := by
  obtain ⟨command, hs, hbacked⟩ := h
  exact ⟨command, hp.subset hs, fun reply hr => (hbacked reply hr).mono hp⟩

theorem Told.snoc {move : Move} (h : Told past)
    (hm : ∀ tag answer, move = .finish tag answer → Ends past tag answer) :
    Told (past ++ [move]) := by
  intro tag answer hmem
  refine Ends.mono ?_ (List.prefix_append past [move])
  rcases List.mem_append.1 hmem with hmem | hmem
  · exact h tag answer hmem
  · exact hm tag answer (List.mem_singleton.1 hmem).symm

end ControlPlane
