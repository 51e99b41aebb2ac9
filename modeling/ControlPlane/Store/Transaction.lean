import ControlPlane.Error
import ControlPlane.Mac
import ControlPlane.Timestamp

/-! Transactions: changes of a table set that are kept together or not at all. An error undoes
every change, but what was drawn from the supply stays drawn. -/

namespace ControlPlane

/-- New identifiers, random octets and readings of the clock: an endless row of each, and how many
were drawn. -/
structure Supply where
  identAt : Nat → BitVec 128
  octetAt : Nat → UInt8
  timeAt : Nat → Timestamp
  idents : Nat := 0
  octets : Nat := 0
  times : Nat := 0

namespace Supply

def ident (supply : Supply) (kind : Kind) : Ident kind × Supply :=
  (⟨supply.identAt supply.idents⟩, { supply with idents := supply.idents + 1 })

def time (supply : Supply) : Timestamp × Supply :=
  (supply.timeAt supply.times, { supply with times := supply.times + 1 })

/-- Passes over some octets and tells where they start. -/
def skipOctets (supply : Supply) (count : Nat) : Nat × Supply :=
  (supply.octets, { supply with octets := supply.octets + count })

end Supply

abbrev Tx (T : Type) := StateT T (ExceptT Error (StateM Supply))

inductive Ending (α : Type)
  | commit (answer : α)
  | rollback (answer : α)

namespace Tx

variable {T α : Type}

def ident (kind : Kind) : Tx T (Ident kind) := fun tables supply =>
  let (id, supply) := supply.ident kind
  (.ok (id, tables), supply)

def time : Tx T Timestamp := fun tables supply =>
  let (time, supply) := supply.time
  (.ok (time, tables), supply)

def mac (base : Mac) : Tx T Mac := fun tables supply =>
  let (start, supply) := supply.skipOctets base.holes
  (.ok (base.complete supply.octetAt start, tables), supply)

/-- Applies a change that may be refused. -/
def change (f : T → Except Error T) : Tx T Unit := do set (← f (← get))

/-- Runs a transaction: the answer or error, the tables if they are kept, and the supply. -/
def attempt (tx : Tx T α) (tables : T) (supply : Supply) : Except Error (α × T) × Supply :=
  tx tables supply

end Tx

end ControlPlane
