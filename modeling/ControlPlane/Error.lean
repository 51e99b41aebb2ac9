import ControlPlane.Ident
import ControlPlane.Ip.Notation
import ControlPlane.Ip.Cidr

/-! Why an operation can fail. -/

namespace ControlPlane

inductive Bound
  | length | range
  deriving DecidableEq

def Bound.code : Bound → String
  | length => "length"
  | range => "range"

/-- A field outside its bounds, by its path with points between. -/
structure Fault where
  path : String
  bound : Bound
  deriving DecidableEq

inductive Error
  | invalidInput (text : String)
  | addressesExhausted (network : NetworkId)
  | addressInUse (network : NetworkId) (address : Ip.Address)
  | macInUse (network : NetworkId) (mac : String)
  | macsExhausted (network : NetworkId)
  | notFound (text : String)
  | inUse (text : String)
  | driverFailed (driver method text : String)
  | invalidIdent (text : String)
  | configuration (text : String)
  | validation (text : String) (faults : List Fault)
  | store (text : String)
  | internal (text : String)
  deriving DecidableEq

namespace Error

def code : Error → String
  | invalidInput _ => "INVALID_INPUT"
  | addressesExhausted _ => "IP_ADDRESS_GENERATION_FAILURE"
  | addressInUse .. => "IP_ADDRESS_IN_USE"
  | macInUse .. => "MAC_ADDRESS_IN_USE"
  | macsExhausted _ => "MAC_ADDRESS_GENERATION_FAILURE"
  | notFound _ => "NOT_FOUND"
  | inUse _ => "IN_USE"
  | driverFailed .. => "MECHANISM_DRIVER_ERROR"
  | invalidIdent _ => "INVALID_UUID"
  | configuration _ => "CONFIG_ERROR"
  | validation .. => "VALIDATION_ERROR"
  | store _ => "STORE_ERROR"
  | internal _ => "INTERNAL_ERROR"

def message : Error → String
  | invalidInput text => "Invalid input: " ++ text
  | addressesExhausted network => s!"No more IP addresses available on network {network}"
  | addressInUse network address => s!"IP address {address} already allocated on network {network}"
  | macInUse network mac => s!"MAC address {mac} already in use on network {network}"
  | macsExhausted network => s!"Unable to generate a unique MAC address on network {network}"
  | notFound text => "Not found: " ++ text
  | inUse text => "In use: " ++ text
  | driverFailed driver method text => s!"Mechanism driver {driver} failed in {method}: {text}"
  | invalidIdent text => "Invalid UUID: " ++ text
  | configuration text => "Configuration error: " ++ text
  | validation text _ => "Validation error: " ++ text
  | store text => "Store error: " ++ text
  | internal text => "Internal error: " ++ text

/-- Errors of the installation rather than of a request. -/
def isSerious : Error → Bool
  | internal _ | configuration _ | store _ | driverFailed .. => true
  | _ => false

/-- Errors that the same request will meet again. -/
def isCallerError : Error → Bool
  | invalidInput _ | addressInUse .. | macInUse .. | invalidIdent _ | validation .. => true
  | _ => false

def ofFaults : List Fault → Except Error Unit
  | [] => .ok ()
  | faults =>
    let text := ", ".intercalate (faults.map fun fault => fault.path ++ ": " ++ fault.bound.code)
    .error (.validation text faults)

theorem ofFaults_eq_ok_iff {faults : List Fault} : ofFaults faults = .ok () ↔ faults = [] := by
  cases faults <;> simp [ofFaults]

theorem bind_eq_ok_iff {α β : Type} {r : Except Error α} {f : α → Except Error β} {b : β} :
    r >>= f = .ok b ↔ ∃ a, r = .ok a ∧ f a = .ok b := by
  cases r with
  | ok a => exact ⟨fun h => ⟨a, rfl, h⟩, fun ⟨_, ha, h⟩ => Except.ok.inj ha ▸ h⟩
  | error error => exact ⟨nofun, nofun⟩

/-- A chain of checks succeeds when none of them fails. -/
theorem guard_eq_ok_iff {α β : Type} {c : Prop} [Decidable c] {error : Error}
    {f : α → Except Error β} {r : Except Error β} {b : β} :
    (if c then throw error >>= f else r) = .ok b ↔ ¬ c ∧ r = .ok b := by
  by_cases hc : c
  · simp only [hc, if_true, not_true, false_and, iff_false]
    exact nofun
  · simp only [hc, if_false, not_false_eq_true, true_and]

theorem bind_eq_error_iff {α β : Type} {r : Except Error α} {f : α → Except Error β}
    {error : Error} :
    r >>= f = .error error ↔ r = .error error ∨ ∃ a, r = .ok a ∧ f a = .error error := by
  cases r with
  | ok a =>
    change f a = .error error ↔ _
    simp
  | error other =>
    change Except.error other = Except.error error ↔ _
    simp

theorem guard_eq_error_iff {α β : Type} {c : Prop} [Decidable c] {error other : Error}
    {f : α → Except Error β} {r : Except Error β} :
    (if c then throw error >>= f else r) = .error other ↔
      c ∧ error = other ∨ ¬ c ∧ r = .error other := by
  by_cases hc : c
  · simp only [hc, if_true, true_and, not_true, false_and, or_false]
    exact ⟨Except.error.inj, congrArg _⟩
  · simp only [hc, if_false, false_and, not_false_eq_true, true_and, false_or]

end Error

namespace Fault

/-- The fault of a field whose measure is outside its bounds. -/
def check (path : String) (bound : Bound) (inside : Bool) : List Fault :=
  if inside then [] else [⟨path, bound⟩]

/-- Texts are measured in characters. -/
def textLength (path : String) (low high : Nat) (s : String) : List Fault :=
  check path .length (low ≤ s.length && s.length ≤ high)

def optionalTextLength (path : String) (low high : Nat) (s : Option String) : List Fault :=
  s.elim [] (textLength path low high)

def within (path : String) (low high n : Nat) : List Fault :=
  check path .range (low ≤ n && n ≤ high)

end Fault

def Ident.parse {kind : Kind} (s : String) : Except Error (Ident kind) :=
  (Ident.ofString? s).elim (.error (.invalidIdent s)) .ok

def Ip.Address.badText : String := "invalid IP address syntax"

def Ip.Address.parse (s : String) : Except Error Ip.Address :=
  (Ip.Address.ofString? s).elim (.error (.invalidInput badText)) .ok

def Ip.Cidr.badText (s : String) : String := "invalid address: " ++ s

def Ip.Cidr.parse (s : String) : Except Error Ip.Cidr :=
  (Ip.Cidr.ofString? s).elim (.error (.invalidInput (badText s))) .ok

def Ip.Family.parse (number : Nat) : Except Error Ip.Family :=
  (Ip.Family.ofNumber? number).elim
    (.error (.invalidInput ("Unknown IP version: " ++ Text.decimal number))) .ok

end ControlPlane
