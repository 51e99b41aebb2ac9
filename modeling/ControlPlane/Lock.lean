import ControlPlane.Ident

/-! Locks by name: a registry of asynchronous mutexes, one for each name. Mutexes that nobody but the
registry refers to are forgotten when the next lock is asked for. -/

namespace ControlPlane

def NetworkId.lockName (id : NetworkId) : String := s!"ipam:{id}"

def PortId.lockName (id : PortId) : String := s!"port:{id}"

/-- Every request for a lock has a number of its own. -/
abbrev Ticket := Nat

/-- A mutex as those see it who want it. -/
structure Mutex (μ : Type) where
  idle : μ
  /-- Takes the mutex, or starts to wait for it. -/
  enter : Ticket → μ → μ
  /-- Gives the mutex back, or ceases to wait for it. -/
  leave : Ticket → μ → μ
  /-- Who has the mutex, whether or not it knows. -/
  owner? : μ → Option Ticket

/-- A mutex that goes at once to whoever has waited longest. -/
def Mutex.queue : Mutex (List Ticket) where
  idle := []
  enter ticket line := line ++ [ticket]
  leave ticket line := line.erase ticket
  owner? := List.head?

/-- A guard, or a request that waits. -/
structure LockRequest where
  ticket : Ticket
  name : String
  /-- Which mutex it refers to. -/
  mutex : Nat
  deriving DecidableEq

structure Locks (μ : Type) where
  /-- The mutexes that the registry refers to, by name. -/
  entries : List (String × Nat) := []
  mutexes : List μ := []
  requests : List LockRequest := []
  /-- How many tickets were issued, which is the number of the next one. -/
  issued : Nat := 0

namespace Locks

variable {μ : Type}

/-- How many references there are to a mutex. -/
def references (locks : Locks μ) (mutex : Nat) : Nat :=
  locks.entries.countP (·.2 = mutex) + locks.requests.countP (·.mutex = mutex)

def isActive (locks : Locks μ) (entry : String × Nat) : Bool := 1 < locks.references entry.2

/-- How many locks are held or waited for. -/
def active (locks : Locks μ) : Nat := locks.entries.countP locks.isActive

/-- Forgets what only the registry refers to. -/
def prune (locks : Locks μ) : Locks μ :=
  { locks with entries := locks.entries.filter locks.isActive }

/-- The mutex of a name, which is made if the registry has none. -/
def enroll (mutex : Mutex μ) (name : String) (locks : Locks μ) : Nat × Locks μ :=
  match locks.entries.lookup name with
  | some known => (known, locks)
  | none => (locks.mutexes.length, { locks with
      entries := (name, locks.mutexes.length) :: locks.entries
      mutexes := locks.mutexes ++ [mutex.idle] })

def join (mutex : Mutex μ) (request : LockRequest) (locks : Locks μ) : Locks μ :=
  { locks with
    mutexes := locks.mutexes.modify request.mutex (mutex.enter request.ticket)
    requests := locks.requests ++ [request]
    issued := request.ticket + 1 }

def acquire (mutex : Mutex μ) (name : String) (locks : Locks μ) : LockRequest × Locks μ :=
  let (own, locks) := locks.prune.enroll mutex name
  let request : LockRequest := ⟨locks.issued, name, own⟩
  (request, locks.join mutex request)

/-- Gives up a request, whether or not it was served. -/
def drop (mutex : Mutex μ) (request : LockRequest) (locks : Locks μ) : Locks μ :=
  { locks with
    mutexes := locks.mutexes.modify request.mutex (mutex.leave request.ticket)
    requests := locks.requests.filter (·.ticket ≠ request.ticket) }

/-- Whether a request has its lock. It finds out when it is polled. -/
def holds (mutex : Mutex μ) (request : LockRequest) (locks : Locks μ) : Bool :=
  locks.mutexes[request.mutex]?.bind mutex.owner? = some request.ticket

end Locks

/-- Callers of a registry, each with its last request. -/
structure LockUsers where
  table : Locks (List Ticket) := {}
  requests : List (String × LockRequest) := []

namespace LockUsers

def others (users : LockUsers) (user : String) : List (String × LockRequest) :=
  users.requests.filter (·.1 ≠ user)

def poll (request : LockRequest) (table : Locks (List Ticket)) : Option String :=
  if table.holds .queue request then some request.name else none

/-- A caller asks for a lock, and then gives up what it asked for before. -/
def acquire (users : LockUsers) (user name : String) : Option String × LockUsers :=
  let (request, table) := users.table.acquire .queue name
  let settled := ((users.requests.lookup user).map fun former => table.drop .queue former).getD table
  (poll request table, { table := settled, requests := (user, request) :: users.others user })

/-- The lock that a caller holds, if it asked for one and was served. -/
def held? (users : LockUsers) (user : String) : Option (Option String) :=
  (users.requests.lookup user).map fun request => poll request users.table

/-- A caller gives up its request. Tells whether there was one. -/
def drop (users : LockUsers) (user : String) : Bool × LockUsers :=
  match users.requests.lookup user with
  | none => (false, users)
  | some request => (true, { table := users.table.drop .queue request, requests := users.others user })

end LockUsers

end ControlPlane
