import ControlPlane.Store.Ipam
import ControlPlane.Store.Ports

/-! The operations of both stores, one row or one list at a time, as they are used within a
transaction by hand. -/

namespace ControlPlane

open Ip (Address)

inductive IpamOperation : Type → Type
  | network (id : NetworkId) : IpamOperation (Option Network)
  | saveNetwork (network : Network) : IpamOperation Unit
  | eraseNetwork (id : NetworkId) : IpamOperation Bool
  | subnet (id : SubnetId) : IpamOperation (Option Subnet)
  | subnets (network : NetworkId) : IpamOperation (List Subnet)
  | insertSubnet (subnet : Subnet) : IpamOperation Unit
  | eraseSubnet (id : SubnetId) : IpamOperation Bool
  | pools (subnet : SubnetId) : IpamOperation (List Pool)
  | savePool (pool : Pool) : IpamOperation Unit
  | ranges (subnet : SubnetId) : IpamOperation (List FreeRange)
  | poolRanges (pool : PoolId) : IpamOperation (List FreeRange)
  | insertRange (range : FreeRange) : IpamOperation Unit
  | saveRange (range : FreeRange) : IpamOperation Unit
  | eraseRange (id : RangeId) : IpamOperation Unit
  | allocations (subnet : SubnetId) : IpamOperation (List Allocation)
  | allocation (subnet : SubnetId) (address : Address) : IpamOperation (Option Allocation)
  | portAllocations (port : PortId) : IpamOperation (List Allocation)
  | insertAllocation (allocation : Allocation) : IpamOperation Unit
  | eraseAllocation (subnet : SubnetId) (address : Address) : IpamOperation Bool

def IpamOperation.run {α : Type} : IpamOperation α → StateT Ipam (Except Error) α
  | .network id => fun s => .ok (s.networks.find? id, s)
  | .saveNetwork row => fun s => .ok ((), s.saveNetwork row)
  | .eraseNetwork id => fun s => .ok (s.networks.contains id, s.eraseNetwork id)
  | .subnet id => fun s => .ok (s.subnets.find? id, s)
  | .subnets id => fun s => .ok (s.subnetsOf id, s)
  | .insertSubnet row => fun s => do return ((), ← s.insertSubnet row)
  | .eraseSubnet id => fun s => .ok (s.subnets.contains id, s.eraseSubnet id)
  | .pools id => fun s => .ok (s.poolsOf id, s)
  | .savePool row => fun s => .ok ((), s.savePool row)
  | .ranges id => fun s => .ok (s.rangesOf id, s)
  | .poolRanges id => fun s => .ok (s.poolRanges id, s)
  | .insertRange row => fun s => do return ((), ← s.insertRange row)
  | .saveRange row => fun s => do return ((), ← s.saveRange row)
  | .eraseRange id => fun s => .ok ((), s.eraseRange id)
  | .allocations id => fun s => .ok (s.allocationsOf id, s)
  | .allocation id address => fun s => .ok (s.allocations.find? (id, address), s)
  | .portAllocations id => fun s => .ok (s.portAllocations id, s)
  | .insertAllocation row => fun s => do return ((), ← s.insertAllocation row)
  | .eraseAllocation id address => fun s =>
    .ok (s.allocations.contains (id, address), s.eraseAllocation id address)

inductive PortOperation : Type → Type
  | port (id : PortId) : PortOperation (Option Port)
  | findMac (network : NetworkId) (mac : String) : PortOperation (Option Port)
  | ports (network : NetworkId) : PortOperation (List Port)
  | savePort (port : Port) : PortOperation Unit
  | erasePort (id : PortId) : PortOperation Bool
  | binding (id : PortId) : PortOperation (Option Binding)
  | saveBinding (binding : Binding) : PortOperation Unit
  | hostBinding (id : PortId) (host : String) : PortOperation (Option Binding)
  | saveHostBinding (binding : Binding) : PortOperation Unit
  | hostBindings (id : PortId) : PortOperation (List Binding)

def PortOperation.run {α : Type} : PortOperation α → StateT Ports (Except Error) α
  | .port id => fun s => .ok (s.ports.find? id, s)
  | .findMac id mac => fun s => .ok (s.findMac id mac, s)
  | .ports id => fun s => .ok (s.portsOf id, s)
  | .savePort row => fun s => .ok ((), s.savePort row)
  | .erasePort id => fun s => .ok (s.ports.contains id, s.erasePort id)
  | .binding id => fun s => .ok (s.bindings.find? id, s)
  | .saveBinding row => fun s => do return ((), ← s.saveBinding row)
  | .hostBinding id host => fun s => .ok (s.hostBindings.find? (id, host), s)
  | .saveHostBinding row => fun s => do return ((), ← s.saveHostBinding row)
  | .hostBindings id => fun s => .ok (s.hostBindingsOf id, s)

end ControlPlane
