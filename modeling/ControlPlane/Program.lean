import ControlPlane.Store.Ipam
import ControlPlane.Store.Ports
import ControlPlane.Store.Transaction

/-! Programs: what an operation asks of the stores and of the outside, call by call. A transaction
is one call, so that other operations run between two calls and never within one. -/

namespace ControlPlane

/-- How a transaction of the port store ends when it does not fail. -/
inductive Closing (α : Type)
  | commit (answer : α)
  | rollback (answer : α)
  /-- Commits if all drivers, asked in turn about the change, accept it. -/
  | review (drivers : List String) (context : PortContext) (answer : α)

inductive Call : Type → Type 1
  | ipam {α : Type} (tx : Tx Ipam (Ending α)) : Call (Except Error α)
  | ports {α : Type} (tx : Tx Ports (Closing α)) : Call (Except Error α)
  /-- Asks a driver to bind a port. A driver that fails has declined. -/
  | bind (driver : String) (context : PortContext) : Call (Option BindResult)
  | postcommit (driver : String) (context : PortContext) : Call Unit
  | notify (event : PortEvent) : Call Unit
  | ident (kind : Kind) : Call (Ident kind)
  | time : Call Timestamp

inductive Program (α : Type) : Type 1
  | done (answer : α)
  | call {β : Type} (call : Call β) (next : β → Program α)

namespace Program

variable {α β : Type}

def bind : Program α → (α → Program β) → Program β
  | done a, f => f a
  | call c next, f => call c fun b => (next b).bind f

instance : Monad Program where
  pure := done
  bind := bind

theorem bind_assoc {γ : Type} (p : Program α) (f : α → Program β) (g : β → Program γ) :
    (p.bind f).bind g = p.bind fun a => (f a).bind g := by
  induction p with
  | done a => rfl
  | call c next ih => simp only [bind, ih]

end Program

/-- A program that may fail. -/
abbrev Operation := ExceptT Error Program

namespace Operation

variable {α : Type}

def ipam (tx : Tx Ipam (Ending α)) : Operation α := ExceptT.mk (.call (.ipam tx) .done)

def ports (tx : Tx Ports (Closing α)) : Operation α := ExceptT.mk (.call (.ports tx) .done)

/-- A transaction that only reads. -/
def readIpam (f : Ipam → α) : Operation α := ipam do return .commit (f (← get))

def readPorts (f : Ports → α) : Operation α := ports do return .commit (f (← get))

def ask (c : Call α) : Operation α := ExceptT.lift (.call c .done)

/-- Goes on with `recover` after an error. -/
def orElse (operation : Operation α) (recover : Error → Operation α) : Operation α :=
  ExceptT.tryCatch operation recover

end Operation

end ControlPlane
