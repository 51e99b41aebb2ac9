import ControlPlane.Error
import ControlPlane.Text.Capital
import ControlPlane.Timestamp

/-! Ports of a network. -/

namespace ControlPlane

inductive PortStatus
  | active | down | build | error
  deriving DecidableEq

namespace PortStatus

def name : PortStatus → String
  | active => "ACTIVE"
  | down => "DOWN"
  | build => "BUILD"
  | error => "ERROR"

instance : ToString PortStatus := ⟨name⟩

def all : List PortStatus := [active, down, build, error]

def ofName? (s : String) : Option PortStatus := all.find? fun status => status.name == s

theorem ofName?_name (status : PortStatus) : ofName? status.name = some status := by
  cases status <;> decide

/-- Reads a status given by a caller, in any case. -/
def parse (s : String) : Except Error PortStatus :=
  (all.find? fun status => Text.spells s status.name).elim
    (.error (.invalidInput ("Unknown port status: " ++ s))) .ok

end PortStatus

structure Port where
  id : PortId
  network : NetworkId
  mac : String
  deviceOwner : String
  deviceId : String
  adminStateUp : Bool
  status : PortStatus
  createdAt : Timestamp
  updatedAt : Timestamp
  deriving DecidableEq

/-- The owner of router interfaces that live on many hosts at once. -/
def distributedOwner : String := "network:router_interface_distributed"

/-- Whether a port is bound on each of its hosts separately. -/
def Port.isDistributed (port : Port) : Bool := port.deviceOwner == distributedOwner

end ControlPlane
