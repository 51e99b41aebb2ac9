import ControlPlane.Ident
import ControlPlane.Ip.HostRange

/-! Subnets, the pools that addresses are allocated from, the ranges of free addresses, and the
allocations. -/

namespace ControlPlane

open Ip (Address Cidr Family Span)

structure Subnet where
  id : SubnetId
  network : NetworkId
  cidr : Cidr
  family : Family
  gateway : Option Address
  dhcp : Bool
  deriving DecidableEq

namespace Subnet

def contains (subnet : Subnet) (address : Address) : Bool := subnet.cidr.contains address

def isHostAddress (subnet : Subnet) (address : Address) : Bool :=
  Ip.isHostAddress subnet.cidr address

end Subnet

/-- Addresses of a subnet that may be allocated without being asked for. -/
structure Pool where
  id : PoolId
  subnet : SubnetId
  span : Span
  deriving DecidableEq

/-- A run of free addresses of a pool. -/
structure FreeRange where
  id : RangeId
  pool : PoolId
  span : Span
  deriving DecidableEq

structure Allocation where
  network : NetworkId
  subnet : SubnetId
  address : Address
  port : PortId
  deriving DecidableEq

structure AllocatedIp where
  address : Address
  subnet : SubnetId
  deriving DecidableEq

def Allocation.allocated (allocation : Allocation) : AllocatedIp :=
  ⟨allocation.address, allocation.subnet⟩

/-- What a port asks for: any address of a subnet, an address, or both. -/
structure FixedIpRequest where
  subnet : Option SubnetId := none
  address : Option Address := none
  deriving DecidableEq

inductive GatewayChoice
  | automatic
  | disabled
  | address (address : Address)
  deriving DecidableEq

/-- The bounds of a pool as an operator writes them. -/
structure PoolSpec where
  start : String
  stop : String
  deriving DecidableEq

structure SubnetDetails where
  subnet : Subnet
  pools : List Pool
  deriving DecidableEq

/-- How a range changes when one of its addresses is taken. -/
inductive Carve
  | remove
  | shrink (range : FreeRange)
  | split (head tail : FreeRange)
  deriving DecidableEq

namespace FreeRange

def isSingleton (range : FreeRange) : Bool := range.span.first = range.span.last

/-- Takes an address out of a range. The range keeps its row, as the part below the address if it
is cut in two; the part above becomes the row `fresh`. -/
def carve (range : FreeRange) (address : Address) (fresh : RangeId) : Option Carve :=
  if !range.span.contains address then none
  else if range.isSingleton then some .remove
  else if address = range.span.first then do
    return .shrink { range with span := ⟨← address.next?, range.span.last⟩ }
  else if address = range.span.last then do
    return .shrink { range with span := ⟨range.span.first, ← address.previous?⟩ }
  else do
    return .split { range with span := ⟨range.span.first, ← address.previous?⟩ }
      ⟨fresh, range.pool, ⟨← address.next?, range.span.last⟩⟩

end FreeRange

end ControlPlane
