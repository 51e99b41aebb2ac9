import ControlPlane.Command
import ControlPlane.Environment

/-! Interleavings: commands that run at the same time take turns, one call at a time. Drivers answer
as they like, and nothing is assumed of them. -/

namespace ControlPlane

/-- What reviewers say when one of them, if anyone, refuses every change. -/
def verdict (refuser : Option (String × Error)) (drivers : List String) : Except Error Unit :=
  match refuser with
  | none => .ok ()
  | some (driver, error) =>
    if drivers.contains driver then .error (Environment.refusal driver error) else .ok ()

/-- Runs a transaction of the port store under given reviewers. -/
def State.runReviewed {α : Type} (state : State) (refuser : Option (String × Error))
    (tx : Tx Ports (Closing α)) : Except Error α × State :=
  ((state.runPorts (fun drivers _ => return verdict refuser drivers) tx).run ()).1

/-- What can become of a call: an answer and the state after it. Drivers and listeners may answer
anything, and any change of a port may be refused. -/
def Call.Result : {α : Type} → Call α → State → α → State → Prop
  | _, .ipam tx, before, answer, after => (answer, after) = before.runIpam tx
  | _, .ports tx, before, answer, after => ∃ refuser, (answer, after) = before.runReviewed refuser tx
  | _, .bind _ _, before, _, after => after = before
  | _, .postcommit _ _, before, _, after => after = before
  | _, .notify _, before, _, after => after = before
  | _, .ident kind, before, answer, after => (answer, after) = before.drawIdent kind
  | _, .time, before, answer, after => (answer, after) = before.drawTime

/-- A command that was started, by its number, and what is left of its program. -/
structure Running where
  tag : Nat
  program : Program (Except Error Reply)

/-- The state, the commands that run on it, and how many were started. -/
structure Scene where
  state : State
  running : List Running := []
  started : Nat := 0

/-- What happens in one step: a command is started, it makes a call that leads from one state to
another, or it ends. -/
inductive Move : Type 1
  | start (tag : Nat) (command : Command)
  | call (tag : Nat) {α : Type} (call : Call α) (before : State) (answer : α) (after : State)
  | finish (tag : Nat) (answer : Except Error Reply)

/-- The command that a move belongs to. -/
def Move.tag : Move → Nat
  | start tag _ => tag
  | call tag .. => tag
  | finish tag _ => tag

/-- A command starts, makes a call, or ends. Control planes of several setups may work on the same
stores; `allowed` says which of them may be asked for what. -/
inductive Scene.Step (allowed : Setup → Command → Prop) : Scene → Move → Scene → Prop
  | start (scene : Scene) (setup : Setup) (command : Command) (may : allowed setup command) :
    Scene.Step allowed scene (.start scene.started command) { scene with
      running := ⟨scene.started, (setup.operation command).run⟩ :: scene.running
      started := scene.started + 1 }
  | call {α : Type} (state after : State) (front rest : List Running) (started tag : Nat)
    (c : Call α) (next : α → Program (Except Error Reply)) (answer : α)
    (result : c.Result state answer after) :
    Scene.Step allowed ⟨state, front ++ ⟨tag, .call c next⟩ :: rest, started⟩
      (.call tag c state answer after) ⟨after, front ++ ⟨tag, next answer⟩ :: rest, started⟩
  | finish (state : State) (front rest : List Running) (started tag : Nat)
    (answer : Except Error Reply) :
    Scene.Step allowed ⟨state, front ++ ⟨tag, .done answer⟩ :: rest, started⟩
      (.finish tag answer) ⟨state, front ++ rest, started⟩

/-- The moves that lead from one scene to another, in their order. -/
inductive Scene.Run (allowed : Setup → Command → Prop) (first : Scene) : List Move → Scene → Prop
  | nil : Scene.Run allowed first [] first
  | snoc {moves : List Move} {scene next : Scene} {move : Move}
    (run : Scene.Run allowed first moves scene) (step : Scene.Step allowed scene move next) :
    Scene.Run allowed first (moves ++ [move]) next

end ControlPlane
