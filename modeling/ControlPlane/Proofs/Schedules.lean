import ControlPlane.Proofs.Ranges.Known

/-! Schedules that can be played: each turn starts a command or lets a running one make its next
move, with a given answer if it asks a driver. What is said of moves can be decided, so that it can
be told of a run by playing it. -/

namespace ControlPlane

inductive Turn
  | start (setup : Setup) (command : Command)
  | next (tag : Nat) (bound : Option BindResult)

namespace Turn

def Permitted (allowed : Setup → Command → Prop) : Turn → Prop
  | start setup command => allowed setup command
  | next .. => True

/-- A command takes so many turns, and drivers have no answer for it. -/
def moves (tag count : Nat) : List Turn := List.replicate count (.next tag none)

instance decidablePermitted (allowed : Setup → Command → Prop)
    [∀ setup command, Decidable (allowed setup command)] :
    (turn : Turn) → Decidable (turn.Permitted allowed)
  | start setup command => inferInstanceAs (Decidable (allowed setup command))
  | next .. => .isTrue trivial

end Turn

def Call.settle : {α : Type} → Call α → State → Option BindResult → α × State
  | _, .ipam tx, state, _ => state.runIpam tx
  | _, .ports tx, state, _ => state.runReviewed none tx
  | _, .bind _ _, state, bound => (bound, state)
  | _, .postcommit _ _, state, _ => ((), state)
  | _, .notify _, state, _ => ((), state)
  | _, .ident kind, state, _ => state.drawIdent kind
  | _, .time, state, _ => state.drawTime

theorem Call.settle_result {α : Type} (c : Call α) (state : State) (bound : Option BindResult) :
    c.Result state (c.settle state bound).1 (c.settle state bound).2 := by
  cases c with
  | ports tx => exact ⟨none, rfl⟩
  | _ => rfl

namespace Scene

/-- The next move of a command among those that run after `front`. -/
def advance (tag : Nat) (bound : Option BindResult) (state : State) (started : Nat)
    (front : List Running) : List Running → Option (Move × Scene)
  | [] => none
  | running :: rest =>
    if running.tag = tag then
      match running.program with
      | .done answer => some (.finish running.tag answer, ⟨state, front ++ rest, started⟩)
      | .call c next =>
        let settled := c.settle state bound
        some (.call running.tag c state settled.1 settled.2,
          ⟨settled.2, front ++ ⟨running.tag, next settled.1⟩ :: rest, started⟩)
    else advance tag bound state started (front ++ [running]) rest

def take (scene : Scene) : Turn → Option (Move × Scene)
  | .start setup command => some (.start scene.started command, { scene with
      running := ⟨scene.started, (setup.operation command).run⟩ :: scene.running
      started := scene.started + 1 })
  | .next tag bound => advance tag bound scene.state scene.started [] scene.running

/-- Takes a turn after some moves. A turn that nobody can take is passed over. -/
def turn (played : List Move × Scene) (turn : Turn) : List Move × Scene :=
  match played.2.take turn with
  | none => played
  | some (move, next) => (played.1 ++ [move], next)

def play (scene : Scene) (turns : List Turn) : List Move × Scene := turns.foldl turn ([], scene)

variable {allowed : Setup → Command → Prop} {first scene next : Scene} {move : Move}
  {moves : List Move} {turns : List Turn}

theorem advance_step {tag started : Nat} {bound : Option BindResult} {state : State}
    {front rest : List Running} (h : advance tag bound state started front rest = some (move, next)) :
    Step allowed ⟨state, front ++ rest, started⟩ move next := by
  induction rest generalizing front with
  | nil => cases h
  | cons running rest ih =>
    unfold advance at h
    split at h
    · obtain ⟨own, program⟩ := running
      cases program with
      | done answer =>
        cases h
        exact .finish state front rest started own answer
      | call c resume =>
        cases h
        exact .call state _ front rest started own c resume _ (c.settle_result state bound)
    · have hstep := ih h
      rw [List.append_assoc] at hstep
      exact hstep

theorem take_step {turn : Turn} (h : scene.take turn = some (move, next))
    (hallowed : turn.Permitted allowed) : Step allowed scene move next := by
  cases turn with
  | start setup command =>
    cases h
    exact .start scene setup command hallowed
  | next tag bound => exact advance_step h

theorem play_run (hallowed : ∀ turn ∈ turns, turn.Permitted allowed) :
    Run allowed first (first.play turns).1 (first.play turns).2 := by
  have hfold (turns : List Turn) (played : List Move × Scene)
      (hrun : Run allowed first played.1 played.2)
      (hallowed : ∀ turn ∈ turns, turn.Permitted allowed) :
      Run allowed first (turns.foldl turn played).1 (turns.foldl turn played).2 := by
    induction turns generalizing played with
    | nil => exact hrun
    | cons head rest ih =>
      obtain ⟨hhead, hrest⟩ := List.forall_mem_cons.1 hallowed
      refine ih (turn played head) ?_ hrest
      unfold turn
      split
      · exact hrun
      · rename_i move next htake
        exact .snoc hrun (take_step htake hhead)
  exact hfold turns ([], first) .nil hallowed

theorem prefix_foldl_turn (turns : List Turn) (played : List Move × Scene) :
    played.1 <+: (turns.foldl turn played).1 := by
  induction turns generalizing played with
  | nil => exact List.prefix_refl _
  | cons head rest ih =>
    refine List.IsPrefix.trans ?_ (ih (turn played head))
    unfold turn
    split
    · exact List.prefix_refl _
    · exact List.prefix_append _ _

theorem prefix_play (front rest : List Turn) :
    (first.play front).1 <+: (first.play (front ++ rest)).1 := by
  unfold play
  rw [List.foldl_append]
  exact prefix_foldl_turn rest _

/-- A command that is to start does so, after what was played before. -/
theorem start_mem_play (front rest : List Turn) (setup : Setup) (command : Command) :
    Move.start (first.play front).2.started command ∈
      (first.play (front ++ .start setup command :: rest)).1 := by
  unfold play
  rw [List.foldl_append]
  refine (prefix_foldl_turn rest _).subset ?_
  exact List.mem_append_right _ (List.mem_singleton_self _)

theorem start_mem_played {front rest : List Turn} {setup : Setup} {command : Command} {tag : Nat}
    (hstarted : (first.play front).2.started = tag) :
    Move.start tag command ∈ (first.play (front ++ .start setup command :: rest)).1 := by
  subst hstarted
  exact start_mem_play front rest setup command

end Scene

def Reply.subnet? : Reply → Option Subnet
  | .subnetDetails details => some details.subnet
  | _ => none

def Reply.context? : Reply → Option PortContext
  | .context found => found
  | _ => none

/-- The subnets that the command of a move names to allocate from. -/
def Move.offered : Move → List Subnet
  | start _ command => command.candidates
  | _ => []

def Move.reply? (tag : Nat) : Move → Option Reply
  | finish own (.ok reply) => if own = tag then some reply else none
  | _ => none

def Move.failure? (tag : Nat) : Move → Option Error
  | finish own (.error error) => if own = tag then some error else none
  | _ => none

theorem finish_mem {moves : List Move} {move : Move} {tag : Nat} {reply : Reply}
    (hmove : move ∈ moves) (h : move.reply? tag = some reply) :
    .finish tag (.ok reply) ∈ moves := by
  unfold Move.reply? at h
  split at h
  · split at h
    · cases h
      rename_i heq
      exact heq ▸ hmove
    · cases h
  · cases h

theorem failure_mem {moves : List Move} {move : Move} {tag : Nat} {error : Error}
    (hmove : move ∈ moves) (h : move.failure? tag = some error) :
    .finish tag (.error error) ∈ moves := by
  unfold Move.failure? at h
  split at h
  · split at h
    · cases h
      rename_i heq
      exact heq ▸ hmove
    · cases h
  · cases h

theorem created_of_reply {moves : List Move} {tag : Nat} {request : SubnetRequest} {subnet : Subnet}
    (hs : .start tag (.createSubnet request) ∈ moves)
    (h : ∃ move ∈ moves, ∃ reply ∈ move.reply? tag, reply.subnet? = some subnet) :
    Created moves subnet := by
  obtain ⟨move, hmove, reply, hreply, hsubnet⟩ := h
  cases reply with
  | subnetDetails details =>
    exact ⟨tag, request, details, hs, finish_mem hmove hreply, Option.some.inj hsubnet⟩
  | _ => cases hsubnet

/-- What is said to a call: the answer of the driver that is asked to bind, and who refuses a
change. -/
structure Saying where
  bound : Option BindResult := none
  refuser : Option (String × Error) := none

def Call.hear : {α : Type} → Call α → State → Saying → α × State
  | _, .ports tx, state, saying => state.runReviewed saying.refuser tx
  | _, c, state, saying => c.settle state saying.bound

theorem Call.hear_result {α : Type} (c : Call α) (state : State) (saying : Saying) :
    c.Result state (c.hear state saying).1 (c.hear state saying).2 := by
  cases c with
  | ports tx => exact ⟨saying.refuser, rfl⟩
  | _ => exact settle_result _ state saying.bound

/-- Runs a program alone. Its calls are told what there is to say, one after the other. -/
def Program.perform {α : Type} : Program α → List Saying → State → α × State
  | .done a, _, state => (a, state)
  | .call c next, sayings, state =>
    let heard := c.hear state (sayings.headD {})
    (next heard.1).perform sayings.tail heard.2

theorem Program.perform_alone {α : Type} (p : Program α) (sayings : List Saying) (state : State) :
    p.Alone state (p.perform sayings state).1 (p.perform sayings state).2 := by
  induction p generalizing sayings state with
  | done a => exact .done a state
  | call c next ih => exact .call (c.hear_result state _) (ih _ _ _)

theorem Operation.performs_ok {α : Type} (operation : Operation α) (sayings : List Saying)
    (state : State) {P : α → State → Prop}
    (h : ∃ a ∈ (operation.run.perform sayings state).1.toOption,
      P a (operation.run.perform sayings state).2) :
    ∃ a last, operation.run.Alone state (.ok a) last ∧ P a last := by
  have halone := operation.run.perform_alone sayings state
  generalize operation.run.perform sayings state = performed at halone h
  obtain ⟨error | a, last⟩ := performed
  · obtain ⟨_, h, _⟩ := h
    cases h
  · obtain ⟨_, ⟨⟩, h⟩ := h
    exact ⟨a, last, halone, h⟩

theorem Operation.performs_error {α : Type} (operation : Operation α) (sayings : List Saying)
    (state : State) {P : State → Prop}
    (h : (operation.run.perform sayings state).1.toOption.isNone = true ∧
      P (operation.run.perform sayings state).2) :
    ∃ error last, operation.run.Alone state (.error error) last ∧ P last := by
  have halone := operation.run.perform_alone sayings state
  generalize operation.run.perform sayings state = performed at halone h
  obtain ⟨error | a, last⟩ := performed
  · exact ⟨error, last, halone, h.2⟩
  · cases h.1

/-- A supply whose identifiers are the numbers from zero on. -/
def Supply.counting : Supply where
  identAt n := BitVec.ofNat 128 n
  octetAt n := UInt8.ofNat n
  timeAt _ := ⟨0, 0⟩

def Network.sample : Network where
  id := ⟨7⟩
  name := "net"
  adminStateUp := true
  shared := false
  segments := [{ id := ⟨8⟩, networkType := "flat" }]

def SubnetRequest.sample : SubnetRequest where
  network := ⟨7⟩
  cidr := "10.0.0.0/29"
  family := .v4

/-- The subnet that the sample request comes to, if it is the first. -/
def Subnet.sample : Subnet where
  id := ⟨0⟩
  network := ⟨7⟩
  cidr := ⟨⟨.v4, 0x0a000000, by decide⟩, 29, by decide⟩
  family := .v4
  gateway := some ⟨.v4, 0x0a000001, by decide⟩
  dhcp := true

/-- An address of the sample subnet. -/
def Ip.Address.sample (n : Nat) : Ip.Address where
  family := .v4
  value := 0x0a000000 + n % 8
  value_lt := Nat.lt_trans (Nat.add_lt_add_left (Nat.mod_lt n (by decide)) _) (by decide)

def AllocatedIp.sample : AllocatedIp where
  address := ⟨.v4, 0x0a000004, by decide⟩
  subnet := ⟨0⟩

/-- A control plane that knows of one network and was not asked for anything yet. -/
def Scene.sample : Scene where
  state := { ipam := Ipam.saveNetwork {} .sample, supply := .counting }

theorem Scene.sample_initial : sample.Initial := ⟨rfl, rfl, [.sample], rfl⟩

instance Supply.decidableDistinct (supply : Supply) : Decidable supply.Distinct :=
  decidable_of_iff
    (∀ i < supply.idents, ∀ j < supply.idents, supply.identAt i = supply.identAt j → i = j)
    ⟨fun h i j hi hj => h i hi j hj, fun h i hi j hj => h i j hi hj⟩

instance Move.decidableFresh : (move : Move) → Decidable move.Fresh
  | .start _ _ => .isTrue trivial
  | .call _ _ _ _ after => inferInstanceAs (Decidable after.supply.Distinct)
  | .finish _ _ => .isTrue trivial

instance Command.decidableByHand (command : Command) : Decidable command.ByHand :=
  decidable_of_iff ((match command with | .commit .. | .bind .. => true | _ => false) = true)
    (by cases command <;> simp [ByHand])

instance Drew.decidable (moves : List Move) (tag : Nat) : DecidablePred (Drew moves tag) :=
  fun id => inferInstanceAs (Decidable (∃ move ∈ moves, move.tag = tag ∧ move.drawn? = some id))

instance Command.decidableServes (drew : PortId → Prop) [DecidablePred drew] (port : PortId)
    (command : Command) : Decidable (command.Serves drew port) :=
  decidable_of_iff
    ((match command with
      | .createPort _ => decide (drew port)
      | .allocateForPort id _ _ | .releasePort id | .updatePort id _ | .deletePort id =>
        decide (id = port)
      | _ => false) = true)
    (by cases command <;> simp [Serves])

def Move.startsFor (moves : List Move) (tag : Nat) (port : PortId) : Move → Bool
  | start own command => decide (own = tag ∧ command.Serves (Drew moves tag) port)
  | _ => false

theorem serves_iff {moves : List Move} {tag : Nat} {port : PortId} :
    Serves moves tag port ↔ ∃ move ∈ moves, move.startsFor moves tag port = true := by
  constructor
  · rintro ⟨command, hmove, h⟩
    exact ⟨_, hmove, decide_eq_true ⟨rfl, h⟩⟩
  · rintro ⟨move, hmove, h⟩
    cases move with
    | start own command =>
      obtain ⟨rfl, h⟩ := of_decide_eq_true h
      exact ⟨command, hmove, h⟩
    | _ => cases h

instance Serves.decidable (moves : List Move) (tag : Nat) (port : PortId) :
    Decidable (Serves moves tag port) :=
  decidable_of_iff _ serves_iff.symm

end ControlPlane
