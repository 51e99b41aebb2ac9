import ControlPlane.Json.Document

/-! Reading typed data out of documents. Structures are objects with their fields as members, or
arrays with their fields in order; fields of other names are passed over. -/

namespace ControlPlane.Document

variable {α : Type}

def text? : Document → Option String
  | string s => some s
  | _ => none

def flag? : Document → Option Bool
  | bool b => some b
  | _ => none

/-- A whole number below `bound`. -/
def natBelow? (bound : Nat) : Document → Option Nat
  | number (.whole n) => if 0 ≤ n ∧ n < bound then some n.toNat else none
  | _ => none

def list? (f : Document → Option α) : Document → Option (List α)
  | array items => items.mapM f
  | _ => none

def nullable? (f : Document → Option α) : Document → Option (Option α)
  | null => some none
  | d => (f d).map some

/-- The members of an object, in the order of their names. -/
def details? (d : Document) : Option (List (String × Json)) :=
  match d.value? with
  | some (.object members) => some members
  | _ => none

/-- The alternative that a document names, by its name alone or as the only member of an object,
and what the object says about it. -/
def alternative? : Document → Option (String × Option Document)
  | string name => some (name, none)
  | object [(name, d)] => some (name, some d)
  | _ => none

/-- An alternative without data says nothing, or null. -/
def plainAlternative? (choose : String → Option α) (d : Document) : Option α :=
  match d.alternative? with
  | some (name, none) | some (name, some null) => choose name
  | _ => none

/-- The only member of a name, if there is one; a repeated name is refused. -/
def memberOnce? (members : List (String × Document)) (name : String) : Option (Option Document) :=
  match members.filter (·.1 == name) with
  | [] => some none
  | [(_, d)] => some (some d)
  | _ => none

/-- The fields of a structure, in the order of `names`, each where it is present. -/
def fields? (names : List String) : Document → Option (List (Option Document))
  | object members => names.mapM (memberOnce? members)
  | array items =>
    if items.length ≤ names.length then
      some (items.map some ++ List.replicate (names.length - items.length) none)
    else none
  | _ => none

def required (f : Document → Option α) : Option Document → Option α
  | some d => f d
  | none => none

def defaulted (f : Document → Option α) (default : α) : Option Document → Option α
  | some d => f d
  | none => some default

def optional (f : Document → Option α) : Option Document → Option (Option α) :=
  defaulted (nullable? f) none

end ControlPlane.Document
