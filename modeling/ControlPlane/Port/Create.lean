import ControlPlane.Allocation.ForPort
import ControlPlane.Binding.Completion
import ControlPlane.Network.Lifecycle
import ControlPlane.Setup

/-! Creating ports. A port that cannot get its addresses or whose drivers refuse it is removed
again. -/

namespace ControlPlane.Port

def hostNotGiven : Error :=
  .invalidInput "Distributed ports are bound per host, not through the host attribute"

def initialBinding (port : Port) (request : PortRequest) : Except Error Binding :=
  let binding : Binding := { port := port.id, vnic := request.vnic, profile := request.profile }
  if port.isDistributed then
    if request.host.isSome then .error hostNotGiven else .ok { binding with vif := .distributed }
  else .ok { binding with host := request.host.filter (· ≠ "") }

/-- An address from the base that no port of the network has, drawn at most so many times. -/
def drawMac (base : Mac) (network : NetworkId) : (tries : Nat) → Tx Ports String
  | 0 => throw (.macsExhausted network)
  | tries + 1 => do
    let mac := (← Tx.mac base).toString
    match (← get).findMac network mac with
    | none => return mac
    | some _ => drawMac base network tries

/-- The address asked for, if no port of the network has it, or a drawn one. -/
def chooseMac (config : Config) (network : NetworkId) : Option String → Tx Ports String
  | none => do drawMac (← config.base) network config.macRetries
  | some text => do
    let mac ← Mac.normalize text
    match (← get).findMac network mac with
    | none => return mac
    | some _ => throw (.macInUse network mac)

def insertTx (config : Config) (port : Port) (binding : Binding) (mac : Option String) :
    Tx Ports (Closing Port) := do
  let mac ← chooseMac config port.network mac
  let port := { port with mac }
  modify fun store => store.savePort port
  Tx.change fun store => store.saveBinding binding
  return .commit port

def insert (config : Config) (port : Port) (binding : Binding) (mac : Option String) :
    Operation Port :=
  Operation.ports (insertTx config port binding mac)

def removeTx (id : PortId) : Tx Ports (Closing Bool) := do
  if !(← get).ports.contains id then return .rollback false
  modify fun store => store.erasePort id
  return .commit true

/-- Removes a port and its bindings from the store. Tells whether it was there. -/
def remove (id : PortId) : Operation Bool := Operation.ports (removeTx id)

def abandon {α : Type} (id : PortId) (ips : List AllocatedIp) (error : Error) : Operation α := do
  let _ ← remove id
  Allocation.giveBack ips
  throw error

/-- The addresses of a new port. An empty list asks for none, no list for one of each family. -/
def initialIps (config : Config) (port : Port) : Option (List FixedIpRequest) →
    Operation (List AllocatedIp)
  | some [] => return []
  | requests => Allocation.forPort config port.id port.network (requests.getD [])

def create (setup : Setup) (request : PortRequest) : Operation PortDetails := do
  Error.ofFaults request.faults
  let network ← Network.fetch request.network
  let now ← Operation.ask .time
  let port : Port := {
    id := ← Operation.ask (.ident .port)
    network := network.id
    mac := ""
    deviceOwner := request.deviceOwner
    deviceId := request.deviceId
    adminStateUp := request.adminStateUp
    status := .down
    createdAt := now
    updatedAt := now }
  let binding ← initialBinding port request
  let port ← insert setup.config port binding request.mac
  let ips ← (initialIps setup.config port request.fixedIps).orElse (abandon port.id [])
  let context : PortContext := { port, network, binding }
  let context ← (context.bindWithin setup.drivers false setup.config.binding.maxBindTries false).orElse
    (abandon port.id ips)
  return { port := context.port, binding := context.binding, fixedIps := ips }

end ControlPlane.Port
