import ControlPlane.Error

/-! Sessions: one transaction at a time, opened, used and closed by hand. -/

namespace ControlPlane

inductive Handle (T : Type)
  | opened (tables : T)
  | closed

/-- Committed tables, and the transaction of the session if there is one. A transaction that is
given up leaves the committed tables as they were. -/
structure Session (T : Type) where
  tables : T
  handle : Option (Handle T) := none

namespace Session

variable {T α : Type}

def closedText : String := "transaction is already closed"

/-- Opens a transaction, unless one is open. Tells whether it did. -/
def begin? (session : Session T) : Option (Session T) :=
  match session.handle with
  | some (.opened _) => none
  | _ => some { session with handle := some (.opened session.tables) }

/-- Gives the transaction up. Tells whether there was one. -/
def drop (session : Session T) : Bool × Session T :=
  (session.handle.isSome, { session with handle := none })

/-- Applies an operation to the open tables. Without a transaction there is no answer. -/
def apply (session : Session T) (f : StateT T (Except Error) α) :
    Option (Except Error α × Session T) :=
  session.handle.map fun
    | .closed => (.error (.store closedText), session)
    | .opened tables =>
      match f.run tables with
      | .error error => (.error error, session)
      | .ok (answer, tables) => (.ok answer, { session with handle := some (.opened tables) })

def commit (session : Session T) : Option (Except Error Unit × Session T) :=
  session.handle.map fun
    | .closed => (.error (.store closedText), session)
    | .opened tables => (.ok (), { tables := tables, handle := some .closed })

def rollback (session : Session T) : Option (Except Error Unit × Session T) :=
  session.handle.map fun
    | .closed => (.error (.store closedText), session)
    | .opened _ => (.ok (), { session with handle := some .closed })

end Session

end ControlPlane
