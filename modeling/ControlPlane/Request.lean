import ControlPlane.Binding
import ControlPlane.Subnet

/-! What callers ask for, and the bounds of what they may ask. -/

namespace ControlPlane

structure SubnetRequest where
  network : NetworkId
  cidr : String
  family : Ip.Family
  gateway : GatewayChoice := .automatic
  /-- Pools to create; without them they are derived around the gateway. -/
  pools : Option (List PoolSpec) := none
  dhcp : Bool := true
  deriving DecidableEq

def SubnetRequest.faults (request : SubnetRequest) : List Fault :=
  Fault.check "allocation_pools" .length (request.pools != some []) ++
  Fault.textLength "cidr" 1 64 request.cidr

structure NetworkRequest where
  name : String
  adminStateUp : Bool := true
  shared : Bool := false
  segments : List Segment := []
  deriving DecidableEq

def NetworkRequest.faults (request : NetworkRequest) : List Fault :=
  Fault.textLength "name" 1 255 request.name

structure PortRequest where
  network : NetworkId
  /-- The hardware address; without one it is generated. -/
  mac : Option String := none
  deviceOwner : String := ""
  deviceId : String := ""
  adminStateUp : Bool := true
  /-- The addresses wanted; without a list, one of each family that the network has. -/
  fixedIps : Option (List FixedIpRequest) := none
  host : Option String := none
  vnic : VnicType := .normal
  profile : Json := Json.empty

def PortRequest.faults (request : PortRequest) : List Fault :=
  Fault.textLength "device_id" 0 255 request.deviceId ++
  Fault.textLength "device_owner" 0 255 request.deviceOwner ++
  Fault.optionalTextLength "host" 0 255 request.host

/-- A change of a port. What is absent stays as it is. -/
structure PortUpdate where
  adminStateUp : Option Bool := none
  deviceOwner : Option String := none
  deviceId : Option String := none
  /-- The addresses that shall replace the present ones. -/
  fixedIps : Option (List FixedIpRequest) := none
  host : Option String := none
  vnic : Option VnicType := none
  profile : Option Json := none

namespace PortUpdate

def faults (update : PortUpdate) : List Fault :=
  Fault.optionalTextLength "device_id" 0 255 update.deviceId ++
  Fault.optionalTextLength "device_owner" 0 255 update.deviceOwner ++
  Fault.optionalTextLength "host" 0 255 update.host

/-- Whether an update names an input of the binding. -/
def changesBinding (update : PortUpdate) : Bool :=
  update.host.isSome || update.vnic.isSome || update.profile.isSome

end PortUpdate

/-- A port with its binding and its addresses. -/
structure PortDetails where
  port : Port
  binding : Binding
  fixedIps : List AllocatedIp

end ControlPlane
