import ControlPlane.Program
import ControlPlane.Request
import ControlPlane.Subnet.Layout

/-! Creating, reading and deleting subnets. -/

namespace ControlPlane.Subnet

open Ip (Cidr Span)

def missing (id : SubnetId) : Error := .notFound s!"Subnet {id}"

def overlaps (a b : Cidr) : Bool := a.contains b.network || b.contains a.network

/-- The pools of a new subnet: those asked for, or the host range around the gateway. -/
def poolBounds (cidr : Cidr) (gateway : Option Ip.Address) :
    Option (List PoolSpec) → Except Error (List Span)
  | some specs => validatePools cidr gateway specs
  | none => .ok (derivePools cidr gateway)

/-- Adds a pool, all of it free. -/
def addPool (subnet : SubnetId) (span : Span) : Tx Ipam Pool := do
  let pool : Pool := ⟨← Tx.ident .pool, subnet, span⟩
  modify fun ipam => ipam.savePool pool
  let range : FreeRange := ⟨← Tx.ident .range, pool.id, span⟩
  Tx.change fun ipam => ipam.insertRange range
  return pool

def createTx (request : SubnetRequest) (cidr : Cidr) (gateway : Option Ip.Address)
    (bounds : List Span) : Tx Ipam (Ending SubnetDetails) := do
  let ipam ← get
  if !ipam.networks.contains request.network then
    throw (.notFound s!"Network {request.network}")
  match (ipam.subnetsOf request.network).find? fun other => overlaps other.cidr cidr with
  | some other => throw (.invalidInput s!"CIDR {cidr} overlaps subnet {other.id} ({other.cidr})")
  | none => pure ()
  let subnet : Subnet := {
    id := ← Tx.ident .subnet
    network := request.network
    cidr
    family := request.family
    gateway
    dhcp := request.dhcp }
  Tx.change fun ipam => ipam.insertSubnet subnet
  let pools ← bounds.mapM (addPool subnet.id)
  return .commit { subnet, pools }

/-- Creates a subnet with its pools in a network whose other subnets share no address with it. -/
def create (request : SubnetRequest) : Operation SubnetDetails := do
  Error.ofFaults request.faults
  let cidr ← parseCidr request.cidr request.family
  let gateway ← resolveGateway cidr request.gateway
  let bounds ← poolBounds cidr gateway request.pools
  Operation.ipam (createTx request cidr gateway bounds)

def fetch (id : SubnetId) : Operation Subnet := do
  match ← Operation.readIpam fun ipam => ipam.subnets.find? id with
  | some subnet => return subnet
  | none => throw (missing id)

def deleteTx (id : SubnetId) : Tx Ipam (Ending Unit) := do
  let ipam ← get
  if !ipam.subnets.contains id then throw (missing id)
  let count := (ipam.allocationsOf id).length
  if count ≠ 0 then
    throw (.inUse s!"Subnet {id} has {Text.decimal count} allocated addresses")
  modify fun ipam => ipam.eraseSubnet id
  return .commit ()

/-- Deletes a subnet in which no address is allocated. -/
def delete (id : SubnetId) : Operation Unit := do
  let _ ← fetch id
  Operation.ipam (deleteTx id)

end ControlPlane.Subnet
