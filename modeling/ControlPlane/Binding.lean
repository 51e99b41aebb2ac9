import ControlPlane.Json.Value
import ControlPlane.Network
import ControlPlane.Port

/-! Bindings: what a port asks of the infrastructure, and how a mechanism driver attached it. -/

namespace ControlPlane

/-- The kind of virtual interface that a port asks for. -/
inductive VnicType
  | normal | direct | macvtap | baremetal
  deriving DecidableEq

namespace VnicType

def name : VnicType → String
  | normal => "normal"
  | direct => "direct"
  | macvtap => "macvtap"
  | baremetal => "baremetal"

def all : List VnicType := [normal, direct, macvtap, baremetal]

def ofName? (s : String) : Option VnicType := all.find? fun vnic => vnic.name == s

theorem ofName?_name (vnic : VnicType) : ofName? vnic.name = some vnic := by cases vnic <;> decide

end VnicType

/-- How a port is attached. -/
inductive VifType
  | unbound
  | bindingFailed
  | distributed
  | bound (kind : String)
  deriving DecidableEq

namespace VifType

def name : VifType → String
  | unbound => "unbound"
  | bindingFailed => "binding_failed"
  | distributed => "distributed"
  | bound kind => kind

/-- Every name that is not one of the three states is the kind of a bound port. -/
def ofName (s : String) : VifType :=
  if s = "unbound" then unbound
  else if s = "binding_failed" then bindingFailed
  else if s = "distributed" then distributed
  else bound s

/-- Whether an attempt to bind may replace this state. -/
def needsBinding : VifType → Bool
  | unbound | bindingFailed => true
  | _ => false

end VifType

/-- The binding of a port, or of one host of a distributed port: host, kind of interface and
profile are the inputs, the rest is the result. -/
structure Binding where
  port : PortId
  host : Option String := none
  vnic : VnicType := .normal
  profile : Json := Json.empty
  vif : VifType := .unbound
  details : List (String × Json) := []
  driver : Option String := none
  segment : Option SegmentId := none

namespace Binding

/-- Two bindings agree when all their parts do. -/
def agrees (a b : Binding) : Bool :=
  a.port = b.port && a.host = b.host && a.vnic = b.vnic && a.profile.agrees b.profile &&
    a.vif = b.vif && Json.agreesMembers a.details b.details && a.driver = b.driver &&
    a.segment = b.segment

/-- Whether two bindings ask for the same. -/
def sameInputs (a b : Binding) : Bool :=
  a.host = b.host && a.vnic = b.vnic && a.profile.agrees b.profile

def hasHost (binding : Binding) : Bool := binding.host.any fun host => host ≠ ""

/-- Forgets the result and keeps the inputs. -/
def reset (binding : Binding) : Binding :=
  { binding with vif := .unbound, details := [], driver := none, segment := none }

/-- Takes over the result of another binding. -/
def copyResult (binding other : Binding) : Binding :=
  { binding with
    vif := other.vif, details := other.details, driver := other.driver, segment := other.segment }

theorem sameInputs_refl (binding : Binding) : binding.sameInputs binding = true := by
  simp [sameInputs, Json.agrees_refl]

end Binding

/-- What a driver decided for a port. -/
structure BindResult where
  segment : SegmentId
  vifType : String
  details : List (String × Json) := []
  status : Option PortStatus := none

/-- A port with its network and binding, as drivers and listeners see it, and what port and
binding were before the change at hand. -/
structure PortContext where
  port : Port
  network : Network
  binding : Binding
  formerPort : Option Port := none
  formerBinding : Option Binding := none
  newStatus : Option PortStatus := none

namespace PortContext

def boundSegment? (context : PortContext) : Option Segment := do
  context.network.segment? (← context.binding.segment)

/-- Takes a driver's decision into the binding. -/
def bind (context : PortContext) (driver : String) (result : BindResult) : PortContext :=
  { context with
    binding := { context.binding with
      vif := .bound result.vifType
      details := result.details
      driver := some driver
      segment := some result.segment }
    newStatus := result.status }

/-- A fresh candidate: the inputs of the binding, its result forgotten, and port and binding
remembered as they are. -/
def candidate (context : PortContext) : PortContext :=
  { context with
    binding := context.binding.reset
    newStatus := none
    formerPort := some context.port
    formerBinding := some context.binding }

end PortContext

/-- What listeners are told. -/
inductive PortEvent
  | updated (context : PortContext)
  | deleted (port : PortId)

end ControlPlane
