import ControlPlane.Proofs.Ports.Rows
import ControlPlane.Proofs.Ranges.Allocations

/-! What the moves of a run tell: the identifiers that commands drew, the ports and allocations they
saw, and what they may ask for after that. -/

namespace ControlPlane

def Call.drawn? : {α : Type} → Call α → α → Option PortId
  | _, .ident .port, id => some id
  | _, _, _ => none

/-- The store that a call has seen: that of a transaction that did not fail. -/
def Call.sees? : {α : Type} → Call α → α → Option StoreKind
  | _, .ipam _, .ok _ => some .ipam
  | _, .ports _, .ok _ => some .ports
  | _, _, _ => none

namespace Move

def drawn? : Move → Option PortId
  | call _ c _ answer _ => c.drawn? answer
  | _ => none

def sees? : Move → Option StoreKind
  | call _ c _ answer _ => c.sees? answer
  | _ => none

def after? : Move → Option State
  | call _ _ _ _ after => some after
  | _ => none

def KeepsPorts : Move → Prop
  | call _ _ before _ after => after.ports = before.ports
  | _ => True

end Move

/-- Something is there after a move and not before it. -/
def Move.Begins (there : State → Bool) : Move → Prop
  | call _ _ before _ after => there before = false ∧ there after = true
  | _ => False

/-- Something is there before a move and not after it. -/
def Move.Ends (there : State → Bool) : Move → Prop
  | call _ _ before _ after => there before = true ∧ there after = false
  | _ => False

/-- A part of the state has had a value since a move. -/
structure Since {β : Type} (part : State → β) (value : β) (moves early : List Move) (cause : Move)
    (late : List Move) : Prop where
  split : moves = early ++ cause :: late
  holds : ∀ move ∈ cause :: late, ∀ state, move.after? = some state → part state = value

/-- What was there after a move and is not there now was ended since, by a command with the right to
do so. -/
def Tracks (there : State → Bool) (right : List Move → Nat → Prop) (moves : List Move)
    (state : State) : Prop :=
  ∀ ⦃early move late seen⦄, moves = early ++ move :: late → move.after? = some seen →
    there seen = true → there state = false →
    ∃ mid removal rest, late = mid ++ removal :: rest ∧ removal.Ends there ∧
      right (early ++ move :: mid) removal.tag

def Command.ByHand : Command → Prop
  | .commit .. | .bind .. => True
  | _ => False

/-- Whether a command works for a port. One that creates a port works for that which it drew. -/
def Command.Serves (drew : PortId → Prop) (port : PortId) : Command → Prop
  | .createPort _ => drew port
  | .allocateForPort id _ _ | .releasePort id | .updatePort id _ | .deletePort id => id = port
  | _ => False

/-- Whether a command allocates addresses to a port that it works for. -/
def Command.Supplies (drew : PortId → Prop) (port : PortId) : Command → Prop
  | .createPort _ => drew port
  | .allocateForPort id _ _ | .updatePort id _ => id = port
  | _ => False

/-- The subnets that a caller names to allocate from. -/
def Command.candidates : Command → List Subnet
  | .generate _ candidates | .allocate _ candidates _ => candidates
  | .allocateAddress _ offered _ => [offered]
  | _ => []

section

variable (moves : List Move) (tag : Nat)

def Drew (id : PortId) : Prop := ∃ move ∈ moves, move.tag = tag ∧ move.drawn? = some id

/-- A move of a command led to a state, whether the command looked at that or not. -/
def Passed (state : State) : Prop := ∃ move ∈ moves, move.tag = tag ∧ move.after? = some state

/-- A command saw a store of a state: a transaction of the command in that store, which did not fail,
led to the state. -/
def Saw (store : StoreKind) (state : State) : Prop :=
  ∃ move ∈ moves, move.tag = tag ∧ move.sees? = some store ∧ move.after? = some state

/-- A port was stored after a move of some command. -/
def Seen (id : PortId) (port : Port) : Prop :=
  ∃ tag state, Passed moves tag state ∧ state.ports.ports.find? id = some port

def Known (id : PortId) (network : NetworkId) : Prop :=
  ∃ tag state port, Passed moves tag state ∧ state.ports.ports.find? id = some port ∧
    port.network = network

def Stored (network : Network) : Prop :=
  ∃ tag state, Passed moves tag state ∧ state.ipam.networks.find? network.id = some network

/-- A subnet was stored after a move of some command. -/
def Met (subnet : Subnet) : Prop :=
  ∃ tag state, Passed moves tag state ∧ state.ipam.subnets.find? subnet.id = some subnet

/-- A transaction of a command saw an address with a port. -/
def Learned (port : PortId) (ip : AllocatedIp) : Prop :=
  ∃ state, Saw moves tag .ipam state ∧ state.ipam.holder? ip = some port

/-- A transaction of a command saw that a network was stored. -/
def Entered (id : NetworkId) : Prop :=
  ∃ state, Saw moves tag .ipam state ∧ state.ipam.networks.contains id = true

/-- A transaction of a command saw that a network had no ports. -/
def Portless (id : NetworkId) : Prop :=
  ∃ state, Saw moves tag .ports state ∧ state.ports.portsOf id = []

/-- A transaction of a command saw the subnets of a network, and later ones saw that each of those
was gone. -/
def Cleared (id : NetworkId) (past : List Move) (look : Move) : Prop :=
  ∃ rest listed, moves = past ++ look :: rest ∧ look.tag = tag ∧ look.sees? = some .ipam ∧
    look.after? = some listed ∧ ∀ subnet ∈ listed.ipam.subnetsOf id,
      ∃ state, Saw rest tag .ipam state ∧ state.ipam.subnets.find? subnet.id = none

def Idle : Prop := ∀ move ∈ moves, move.tag = tag → move.KeepsPorts

def Undrawn : Prop := ∀ move ∈ moves, move.tag = tag → move.drawn? = none

def Serves (port : PortId) : Prop :=
  ∃ command, .start tag command ∈ moves ∧ command.Serves (Drew moves tag) port

def Supplies (port : PortId) : Prop :=
  ∃ command, .start tag command ∈ moves ∧ command.Supplies (Drew moves tag) port

/-- A command has a subnet to allocate from: its caller names it, or it supplies the port and the
subnet was seen. -/
def Takes (port : PortId) (subnet : Subnet) : Prop :=
  (∃ command, .start tag command ∈ moves ∧ subnet ∈ command.candidates) ∨
    Supplies moves tag port ∧ Met moves subnet

/-- A candidate is what drivers made of the inputs of a context: the result of one of them, or
none. -/
def Negotiated (context candidate : PortContext) : Prop :=
  candidate = context.candidate.failed ∨ ∃ tag driver result before after,
    .call tag (.bind driver context.candidate) before (some result) after ∈ moves ∧
      context.candidate.accepts result = true ∧ candidate = context.candidate.bind driver result

/-- A new port and its binding are as a request asks for them. -/
structure PortRequest.Describes (request : PortRequest) (port : Port) (binding : Binding) : Prop where
  adminStateUp : port.adminStateUp = request.adminStateUp
  deviceOwner : port.deviceOwner = request.deviceOwner
  deviceId : port.deviceId = request.deviceId
  status : port.status = .down
  binding : Port.initialBinding port request = .ok binding

/-- The rights that a command has earned: its first identifier is the port that it may store, once,
as it was asked to, in a network that it saw, and remove, as it may a port that it was asked to
delete; it removes a network that it was asked to delete, saw without ports, and cleared; it saves
the update that it was asked for and found to suit the port, and the status that it was asked to
report, and binds on hosts what it found to be distributed; it commits what was negotiated for a port
that it knows; it allocates from subnets that callers name or that were seen, to the port that it
supplies, and releases what it saw the port have that it works for. -/
def licence : Licence where
  draw := ∀ id, ¬ Drew moves tag id
  insert port binding :=
    Drew moves tag port.id ∧ Idle moves tag ∧
      ∃ request, request.Describes port binding ∧ .start tag (.createPort request) ∈ moves ∧
        Entered moves tag port.network
  drop id :=
    .start tag (.deleteNetwork id) ∈ moves ∧ Portless moves tag id ∧
      ∃ past look, Cleared moves tag id past look
  remove id := Drew moves tag id ∨ .start tag (.deletePort id) ∈ moves
  save id update :=
    .start tag (.updatePort id update) ∈ moves ∧
      ∃ port, Seen moves id port ∧ update.checkOwner port = .ok ()
  report id status := .start tag (.report id status) ∈ moves
  host id := ∃ port, Seen moves id port ∧ port.isDistributed = true
  commit id asked candidate :=
    (∃ command, .start tag command ∈ moves ∧ command.ByHand) ∨
      ∃ context, context.port.id = id ∧ context.binding = asked ∧ asked.hasHost = true ∧
        Known moves id context.network.id ∧ Stored moves context.network ∧
        Negotiated moves context candidate
  take := Takes moves tag
  release ip := ∀ port, Serves moves tag port → Learned moves tag port ip

end

/-- What a command may rely on whenever it makes a call. -/
structure Orderly (moves : List Move) (state : State) : Prop where
  keyed : state.ports.Keyed
  network : ∀ ⦃id network⦄, state.ipam.networks.find? id = some network → network.id = id
  subnet : ∀ ⦃id subnet⦄, state.ipam.subnets.find? id = some subnet → subnet.id = id
  labelled : state.ipam.Labelled
  starts : ∀ ⦃tag command command'⦄, .start tag command ∈ moves → .start tag command' ∈ moves →
    command = command'
  drew : ∀ ⦃tag id id'⦄, Drew moves tag id → Drew moves tag id' → id = id'

variable {past later : List Move} {tag : Nat} {id port : PortId} {network : NetworkId}
  {ip : AllocatedIp} {subnet : Subnet} {context candidate : PortContext}

theorem Drew.mono (h : Drew past tag id) (hp : past <+: later) : Drew later tag id := by
  obtain ⟨move, hmove, hm⟩ := h
  exact ⟨move, hp.subset hmove, hm⟩

theorem Passed.mono {state : State} (h : Passed past tag state) (hp : past <+: later) :
    Passed later tag state := by
  obtain ⟨move, hmove, hm⟩ := h
  exact ⟨move, hp.subset hmove, hm⟩

theorem Saw.mono {store : StoreKind} {state : State} (h : Saw past tag store state)
    (hp : past <+: later) : Saw later tag store state := by
  obtain ⟨move, hmove, hm⟩ := h
  exact ⟨move, hp.subset hmove, hm⟩

theorem Saw.passed {store : StoreKind} {state : State} (h : Saw past tag store state) :
    Passed past tag state := by
  obtain ⟨move, hmove, htag, _, hafter⟩ := h
  exact ⟨move, hmove, htag, hafter⟩

theorem Seen.mono {port : Port} (h : Seen past id port) (hp : past <+: later) :
    Seen later id port := by
  obtain ⟨tag, state, hs, h⟩ := h
  exact ⟨tag, state, hs.mono hp, h⟩

theorem Seen.known {port : Port} (h : Seen past id port) : Known past id port.network := by
  obtain ⟨tag, state, hs, h⟩ := h
  exact ⟨tag, state, port, hs, h, rfl⟩

theorem Known.seen (h : Known past id network) :
    ∃ port, Seen past id port ∧ port.network = network := by
  obtain ⟨tag, state, port, hs, h, hn⟩ := h
  exact ⟨port, ⟨tag, state, hs, h⟩, hn⟩

theorem Known.mono (h : Known past id network) (hp : past <+: later) : Known later id network := by
  obtain ⟨tag, state, port, hs, h⟩ := h
  exact ⟨tag, state, port, hs.mono hp, h⟩

theorem Stored.mono {network : Network} (h : Stored past network) (hp : past <+: later) :
    Stored later network := by
  obtain ⟨tag, state, hs, h⟩ := h
  exact ⟨tag, state, hs.mono hp, h⟩

theorem Met.mono (h : Met past subnet) (hp : past <+: later) : Met later subnet := by
  obtain ⟨tag, state, hs, h⟩ := h
  exact ⟨tag, state, hs.mono hp, h⟩

theorem Supplies.mono (h : Supplies past tag port) (hp : past <+: later) :
    Supplies later tag port := by
  obtain ⟨command, hs, h⟩ := h
  refine ⟨command, hp.subset hs, ?_⟩
  cases command with
  | createPort request => exact Drew.mono h hp
  | _ => exact h

theorem Takes.mono (h : Takes past tag port subnet) (hp : past <+: later) :
    Takes later tag port subnet := by
  rcases h with ⟨command, hs, h⟩ | ⟨hs, hm⟩
  · exact .inl ⟨command, hp.subset hs, h⟩
  · exact .inr ⟨hs.mono hp, hm.mono hp⟩

theorem Learned.mono (h : Learned past tag port ip) (hp : past <+: later) :
    Learned later tag port ip := by
  obtain ⟨state, hs, h⟩ := h
  exact ⟨state, hs.mono hp, h⟩

theorem Entered.mono (h : Entered past tag network) (hp : past <+: later) :
    Entered later tag network := by
  obtain ⟨state, hs, h⟩ := h
  exact ⟨state, hs.mono hp, h⟩

theorem Portless.mono (h : Portless past tag network) (hp : past <+: later) :
    Portless later tag network := by
  obtain ⟨state, hs, h⟩ := h
  exact ⟨state, hs.mono hp, h⟩

theorem Cleared.mono {front : List Move} {look : Move} (h : Cleared past tag network front look)
    (hp : past <+: later) : Cleared later tag network front look := by
  obtain ⟨rest, listed, rfl, hown, hsees, hlooked, hgone⟩ := h
  obtain ⟨others, rfl⟩ := hp
  refine ⟨rest ++ others, listed, by simp, hown, hsees, hlooked, fun subnet hs => ?_⟩
  obtain ⟨state, hsaw, hnone⟩ := hgone subnet hs
  exact ⟨state, hsaw.mono (List.prefix_append rest others), hnone⟩

theorem Negotiated.mono (h : Negotiated past context candidate) (hp : past <+: later) :
    Negotiated later context candidate := by
  rcases h with h | ⟨tag, driver, result, before, after, hmove, hm⟩
  · exact .inl h
  · exact .inr ⟨tag, driver, result, before, after, hp.subset hmove, hm⟩

theorem passed_snoc {α : Type} {c : Call α} {before after : State} {answer : α} :
    Passed (past ++ [.call tag c before answer after]) tag after :=
  ⟨_, List.mem_append_right _ (List.mem_singleton_self _), rfl, rfl⟩

theorem saw_snoc {α : Type} {c : Call α} {before after : State} {answer : α} {store : StoreKind}
    (hc : c.sees? answer = some store) :
    Saw (past ++ [.call tag c before answer after]) tag store after :=
  ⟨_, List.mem_append_right _ (List.mem_singleton_self _), rfl, hc, rfl⟩

theorem forall_own {P : Move → Prop} {others : List Move} {move : Move}
    (h : ∀ move ∈ past, move.tag = tag → P move) (hothers : ∀ move ∈ others, move.tag ≠ tag)
    (hm : P move) : ∀ own ∈ past ++ others ++ [move], own.tag = tag → P own := by
  intro own hown htag
  rcases List.mem_append.1 hown with hown | hown
  · rcases List.mem_append.1 hown with hown | hown
    · exact h own hown htag
    · exact absurd htag (hothers own hown)
  · rw [List.mem_singleton.1 hown]
    exact hm

theorem Idle.others {others : List Move} (h : Idle past tag)
    (hothers : ∀ move ∈ others, move.tag ≠ tag) : Idle (past ++ others) tag := by
  intro own hown htag
  rcases List.mem_append.1 hown with hown | hown
  · exact h own hown htag
  · exact absurd htag (hothers own hown)

namespace Since

variable {β : Type} {part : State → β} {value : β} {moves early : List Move} {cause move : Move}

theorem snoc (h : Since part value moves early cause later)
    (hmove : ∀ state, move.after? = some state → part state = value) :
    Since part value (moves ++ [move]) early cause (later ++ [move]) := by
  constructor
  · simp [h.split]
  · rw [← List.cons_append]
    exact List.forall_mem_append.2 ⟨h.holds, List.forall_mem_singleton.2 hmove⟩

theorem idle (h : Since part value moves early cause later) (hafter : move.after? = none) :
    Since part value (moves ++ [move]) early cause (later ++ [move]) := by
  apply h.snoc
  simp [hafter]

theorem of_call {α : Type} {c : Call α} {before after : State} {answer : α}
    (h : part after = value) : Since part value (moves ++ [.call tag c before answer after]) moves
      (.call tag c before answer after) [] := by
  constructor
  · rfl
  · rw [List.forall_mem_singleton]
    rintro _ ⟨⟩
    exact h

end Since

namespace Tracks

variable {there : State → Bool} {right : List Move → Nat → Prop} {moves : List Move} {move : Move}
  {state : State}

theorem nil : Tracks there right [] state := by
  intro early move late seen hmoves
  cases early <;> cases hmoves

theorem idle (h : Tracks there right moves state) (hafter : move.after? = none) :
    Tracks there right (moves ++ [move]) state := by
  intro early other late seen hmoves hother hthere hnot
  rcases snoc_eq_append_cons hmoves with ⟨_, rfl, _⟩ | ⟨front, rfl, hfront⟩
  · rw [hafter] at hother
    cases hother
  · obtain ⟨mid, removal, rest, rfl, hends⟩ := h hfront hother hthere hnot
    exact ⟨mid, removal, rest ++ [move], by simp, hends⟩

theorem call {α : Type} {c : Call α} {before after : State} {answer : α}
    (h : Tracks there right moves before)
    (hright : there before = true → there after = true ∨ right moves tag) :
    Tracks there right (moves ++ [.call tag c before answer after]) after := by
  intro early other late seen hmoves hother hthere hnot
  rcases snoc_eq_append_cons hmoves with ⟨_, rfl, _⟩ | ⟨front, rfl, rfl⟩
  · cases hother
    rw [hnot] at hthere
    cases hthere
  · cases hbefore : there before with
    | false =>
      obtain ⟨mid, removal, rest, rfl, hends⟩ := h rfl hother hthere hbefore
      exact ⟨mid, removal, rest ++ [.call tag c before answer after], by simp, hends⟩
    | true =>
      have hright := (hright hbefore).resolve_left (by simp [hnot])
      exact ⟨front, .call tag c before answer after, [], rfl, ⟨hbefore, hnot⟩, hright⟩

end Tracks

end ControlPlane
