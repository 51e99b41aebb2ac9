import ControlPlane.Allocation.Single

/-! The addresses of one port: requests are resolved before anything is allocated, and what was
allocated is given back when a later one fails. -/

namespace ControlPlane.Allocation

open Ip (Address Family)

structure Target where
  subnet : Subnet
  address : Option Address
  deriving DecidableEq

def requestedSubnet (network : NetworkId) (subnets : List Subnet) (request : FixedIpRequest) :
    Except Error Subnet :=
  match request.subnet, request.address with
  | some id, _ => (subnets.find? fun subnet => subnet.id = id).elim
      (.error (.invalidInput s!"Subnet {id} does not belong to network {network}")) .ok
  | none, some address => (subnets.find? fun subnet => subnet.contains address).elim
      (.error (.invalidInput
        s!"IP address {address} does not belong to any subnet of network {network}")) .ok
  | none, none => .error (.invalidInput "A fixed IP request needs a subnet, an address or both")

/-- Resolves requests in turn. The addresses `seen` were asked for before. -/
def resolve (network : NetworkId) (subnets : List Subnet) (seen : List Address) :
    List FixedIpRequest → Except Error (List Target)
  | [] => .ok []
  | request :: rest => do
    let subnet ← requestedSubnet network subnets request
    match request.address with
    | none => return ⟨subnet, none⟩ :: (← resolve network subnets seen rest)
    | some address => do
      if !subnet.isHostAddress address then throw (notHost subnet address)
      if seen.contains address then
        throw (.invalidInput s!"Duplicate fixed IP {address} in request")
      return ⟨subnet, some address⟩ :: (← resolve network subnets (address :: seen) rest)

def allocateTarget (port : PortId) (target : Target) : Operation AllocatedIp :=
  match target.address with
  | some address => allocateAddress port target.subnet address
  | none => generate port [target.subnet]

/-- One address of each family that has subnets. -/
def dualStack (port : PortId) (subnets : List Subnet) : List (Operation AllocatedIp) :=
  [Family.v4, Family.v6].filterMap fun family =>
    let candidates := subnets.filter fun subnet => subnet.family = family
    if candidates.isEmpty then none else some (generate port candidates)

/-- Runs operations up to the first that fails: the answers so far, and the error. -/
def gather {α : Type} : List (Operation α) → Program (List α × Option Error)
  | [] => return ([], none)
  | operation :: rest => do
    match ← operation.run with
    | .error error => return ([], some error)
    | .ok answer =>
      let (answers, error) ← gather rest
      return (answer :: answers, error)

def tooMany (config : Config) : Error :=
  .invalidInput s!"Exceeded maximum of {Text.decimal config.maxFixedIps} fixed IPs per port"

/-- Allocates all addresses that a port asks for, or one of each family if it asks for none. -/
def forPort (config : Config) (port : PortId) (network : NetworkId)
    (requests : List FixedIpRequest) : Operation (List AllocatedIp) := do
  if config.maxFixedIps < requests.length then throw (tooMany config)
  let subnets ← Operation.readIpam fun ipam => ipam.subnetsOf network
  let targets ← resolve network subnets [] requests
  let operations :=
    if requests.isEmpty then dualStack port subnets else targets.map (allocateTarget port)
  let (ips, error) ← ExceptT.lift (gather operations)
  match error with
  | none => return ips
  | some error => do
    giveBack ips
    throw error

end ControlPlane.Allocation
