import ControlPlane.Subnet.Lifecycle

/-! Creating, reading and deleting networks. -/

namespace ControlPlane

namespace Network

def missing (id : NetworkId) : Error := .notFound s!"Network {id}"

def createTx (network : Network) : Tx Ipam (Ending Network) := do
  modify fun ipam => ipam.saveNetwork network
  return .commit network

def create (request : NetworkRequest) : Operation Network := do
  Error.ofFaults request.faults
  let network : Network := {
    id := ← Operation.ask (.ident .network)
    name := request.name
    adminStateUp := request.adminStateUp
    shared := request.shared
    segments := request.segments }
  Operation.ipam (createTx network)

def fetch (id : NetworkId) : Operation Network := do
  match ← Operation.readIpam fun ipam => ipam.networks.find? id with
  | some network => return network
  | none => throw (missing id)

end Network

def Port.list (network : NetworkId) : Operation (List Port) :=
  Operation.readPorts fun store => store.portsOf network

def Network.deleteTx (id : NetworkId) : Tx Ipam (Ending Unit) := do
  if !(← get).networks.contains id then throw (missing id)
  modify fun ipam => ipam.eraseNetwork id
  return .commit ()

/-- Deletes a network without ports, and its subnets before it. -/
def Network.delete (id : NetworkId) : Operation Unit := do
  let _ ← fetch id
  let count := (← Port.list id).length
  if count ≠ 0 then throw (.inUse s!"Network {id} has {Text.decimal count} ports")
  let subnets ← Operation.readIpam fun ipam => ipam.subnetsOf id
  subnets.forM fun subnet => Subnet.delete subnet.id
  Operation.ipam (deleteTx id)

end ControlPlane
