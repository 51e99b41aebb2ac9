import ControlPlane.Error
import ControlPlane.Network
import ControlPlane.Sort
import ControlPlane.Subnet
import ControlPlane.Table

/-! The address store: networks, subnets, pools, ranges of free addresses, and allocations. -/

namespace ControlPlane

open Ip (Address)

instance : Ord (SubnetId × Address) := lexOrd

instance : Std.TransOrd (SubnetId × Address) := inferInstance

structure Ipam where
  networks : Table NetworkId Network := .empty
  subnets : Table SubnetId Subnet := .empty
  pools : Table PoolId Pool := .empty
  ranges : Table RangeId FreeRange := .empty
  /-- At most one allocation for each address of a subnet. -/
  allocations : Table (SubnetId × Address) Allocation := .empty

instance : Inhabited Ipam := ⟨{}⟩

namespace Ipam

def saveNetwork (ipam : Ipam) (network : Network) : Ipam :=
  { ipam with networks := ipam.networks.insert network.id network }

def eraseNetwork (ipam : Ipam) (id : NetworkId) : Ipam :=
  { ipam with networks := ipam.networks.erase id }

/-- Subnets are listed by family, first address and length of their blocks; the length takes less
than eight bits and the address at most 128. -/
def listKey (subnet : Subnet) : Nat :=
  (subnet.family.number * Ip.Family.v6.size + subnet.cidr.networkValue) * 256 + subnet.cidr.length

def subnetsOf (ipam : Ipam) (network : NetworkId) : List Subnet :=
  sortOn listKey (ipam.subnets.values.filter fun subnet => subnet.network = network)

def insertSubnet (ipam : Ipam) (subnet : Subnet) : Except Error Ipam :=
  if ipam.subnets.contains subnet.id then .error (.store s!"subnet {subnet.id} already exists")
  else .ok { ipam with subnets := ipam.subnets.insert subnet.id subnet }

/-- Whether a pool is one of a subnet. -/
def holdsPool (ipam : Ipam) (subnet : SubnetId) (pool : PoolId) : Bool :=
  ipam.pools.values.any fun row => row.subnet = subnet && row.id = pool

/-- Removes a subnet with its pools, their ranges and its allocations. -/
def eraseSubnet (ipam : Ipam) (id : SubnetId) : Ipam :=
  { ipam with
    subnets := ipam.subnets.erase id
    pools := ipam.pools.filter fun _ pool => pool.subnet ≠ id
    ranges := ipam.ranges.filter fun _ range => !ipam.holdsPool id range.pool
    allocations := ipam.allocations.filter fun key _ => key.1 ≠ id }

def poolsOf (ipam : Ipam) (subnet : SubnetId) : List Pool :=
  sortOn (·.span.first.value) (ipam.pools.values.filter fun pool => pool.subnet = subnet)

def savePool (ipam : Ipam) (pool : Pool) : Ipam :=
  { ipam with pools := ipam.pools.insert pool.id pool }

/-- The ranges of all pools of a subnet, ascending. -/
def rangesOf (ipam : Ipam) (subnet : SubnetId) : List FreeRange :=
  sortOn (·.span.first.value)
    (ipam.ranges.values.filter fun range => ipam.holdsPool subnet range.pool)

def poolRanges (ipam : Ipam) (pool : PoolId) : List FreeRange :=
  sortOn (·.span.first.value) (ipam.ranges.values.filter fun range => range.pool = pool)

def insertRange (ipam : Ipam) (range : FreeRange) : Except Error Ipam :=
  if ipam.pools.contains range.pool then
    .ok { ipam with ranges := ipam.ranges.insert range.id range }
  else .error (.store s!"range {range.id} references missing pool {range.pool}")

def saveRange (ipam : Ipam) (range : FreeRange) : Except Error Ipam :=
  if ipam.ranges.contains range.id then
    .ok { ipam with ranges := ipam.ranges.insert range.id range }
  else .error (.store s!"range {range.id} does not exist")

def eraseRange (ipam : Ipam) (id : RangeId) : Ipam :=
  { ipam with ranges := ipam.ranges.erase id }

def allocationsOf (ipam : Ipam) (subnet : SubnetId) : List Allocation :=
  ipam.allocations.values.filter fun allocation => allocation.subnet = subnet

/-- The allocations of a port by subnet and address. -/
def portAllocations (ipam : Ipam) (port : PortId) : List Allocation :=
  ipam.allocations.values.filter fun allocation => allocation.port = port

def insertAllocation (ipam : Ipam) (allocation : Allocation) : Except Error Ipam :=
  let key := (allocation.subnet, allocation.address)
  if ipam.allocations.contains key then
    .error (.addressInUse allocation.network allocation.address)
  else .ok { ipam with allocations := ipam.allocations.insert key allocation }

def eraseAllocation (ipam : Ipam) (subnet : SubnetId) (address : Address) : Ipam :=
  { ipam with allocations := ipam.allocations.erase (subnet, address) }

end Ipam

end ControlPlane
