import ControlPlane.Allocation.Ranges
import ControlPlane.Config
import ControlPlane.Program

/-! Allocating, releasing and rebuilding, one address or one subnet in each transaction. -/

namespace ControlPlane

open Ip (Address)

namespace Allocation

/-- Allocates the lowest start of a range in the first candidate that still exists and has one. -/
def takeLowest (port : PortId) : List Subnet → Tx Ipam (Option AllocatedIp)
  | [] => return none
  | subnet :: rest => do
    let ipam ← get
    match ipam.subnets.find? subnet.id, ipam.rangesOf subnet.id with
    | some _, range :: _ => do
      let address := range.span.first
      range.take address
      Tx.change fun ipam => ipam.insertAllocation ⟨subnet.network, subnet.id, address, port⟩
      return some ⟨address, subnet.id⟩
    | _, _ => takeLowest port rest

def generateTx (port : PortId) (network : NetworkId) (candidates : List Subnet) :
    Tx Ipam (Ending AllocatedIp) := do
  match ← takeLowest port candidates with
  | some ip => return .commit ip
  | none => throw (.addressesExhausted network)

def generateOnce (port : PortId) (candidates : List Subnet) : Operation AllocatedIp :=
  match candidates with
  | [] => throw (.invalidInput "No candidate subnets to allocate from")
  | first :: _ => Operation.ipam (generateTx port first.network candidates)

def rebuildTx (id : SubnetId) : Tx Ipam (Ending Unit) := do
  if !(← get).subnets.contains id then return .rollback ()
  Ipam.rebuild id
  return .commit ()

/-- Recomputes the ranges of subnets from their pools and allocations. Subnets that do not exist
are passed over. -/
def rebuild (subnets : List SubnetId) : Operation Unit :=
  subnets.forM fun id => do
    if (← Operation.readIpam fun ipam => ipam.subnets.contains id) then
      Operation.ipam (rebuildTx id)

/-- Allocates any address of the candidates. When their ranges are exhausted they are rebuilt, once. -/
def generate (port : PortId) (candidates : List Subnet) : Operation AllocatedIp :=
  (generateOnce port candidates).orElse fun
    | .addressesExhausted _ => do
      rebuild (candidates.map Subnet.id)
      generateOnce port candidates
    | error => throw error

def notHost (subnet : Subnet) (address : Address) : Error :=
  .invalidInput s!"IP address {address} is not a valid host address of subnet {subnet.cidr}"

def allocateTx (port : PortId) (subnet : Subnet) (address : Address) :
    Tx Ipam (Ending AllocatedIp) := do
  let ipam ← get
  if !ipam.subnets.contains subnet.id then throw (.notFound s!"Subnet {subnet.id}")
  if ipam.allocations.contains (subnet.id, address) then
    throw (.addressInUse subnet.network address)
  match (ipam.rangesOf subnet.id).find? fun range => range.span.contains address with
  | some range => range.take address
  | none => pure ()
  Tx.change fun ipam => ipam.insertAllocation ⟨subnet.network, subnet.id, address, port⟩
  return .commit ⟨address, subnet.id⟩

/-- Allocates an address that was asked for. It need not be in a pool. -/
def allocateAddress (port : PortId) (subnet : Subnet) (address : Address) :
    Operation AllocatedIp := do
  if !subnet.isHostAddress address then throw (notHost subnet address)
  Operation.ipam (allocateTx port subnet address)

/-- Allocates one address from the candidates, a given one if there is one. -/
def allocate (port : PortId) (candidates : List Subnet) (address : Option Address) :
    Operation AllocatedIp :=
  match address with
  | none => generate port candidates
  | some address =>
    match candidates.find? fun subnet => subnet.contains address with
    | some subnet => allocateAddress port subnet address
    | none =>
      throw (.invalidInput s!"IP address {address} does not belong to any candidate subnet")

def releaseTx (reclaim : Bool) (ip : AllocatedIp) : Tx Ipam (Ending Unit) := do
  if !(← get).allocations.contains (ip.subnet, ip.address) then return .rollback ()
  modify fun ipam => ipam.eraseAllocation ip.subnet ip.address
  if reclaim then Ipam.reclaim ip.subnet ip.address
  return .commit ()

/-- Releases an address; one that is not allocated stays so. With `reclaim` it becomes available at
once, and otherwise when the ranges are rebuilt. -/
def release (reclaim : Bool) (ip : AllocatedIp) : Operation Unit :=
  Operation.ipam (releaseTx reclaim ip)

/-- Releases the addresses of an operation that is given up. They become available at once. -/
def giveBack (ips : List AllocatedIp) : Operation Unit := ips.forM (release true)

def ofPort (port : PortId) : Operation (List AllocatedIp) :=
  Operation.readIpam fun ipam => (ipam.portAllocations port).map Allocation.allocated

/-- Releases all addresses of a port, and tells which. -/
def releasePort (config : IpamConfig) (port : PortId) : Operation (List AllocatedIp) := do
  let ips ← ofPort port
  ips.forM (release config.reclaimOnRelease)
  return ips

end Allocation

end ControlPlane
