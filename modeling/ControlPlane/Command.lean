import ControlPlane.Port.Agent

/-! Commands: everything that the control plane can be asked to do, and its replies. -/

namespace ControlPlane

open Ip (Address)

inductive Command
  | createNetwork (request : NetworkRequest)
  | network (id : NetworkId)
  | deleteNetwork (id : NetworkId)
  | createSubnet (request : SubnetRequest)
  | subnet (id : SubnetId)
  | deleteSubnet (id : SubnetId)
  | subnets (network : NetworkId)
  | pools (subnet : SubnetId)
  | ranges (subnet : SubnetId)
  | allocations (subnet : SubnetId)
  | portIps (port : PortId)
  | generate (port : PortId) (candidates : List Subnet)
  | allocate (port : PortId) (candidates : List Subnet) (address : Option Address)
  | allocateAddress (port : PortId) (subnet : Subnet) (address : Address)
  | allocateForPort (port : PortId) (network : NetworkId) (requests : List FixedIpRequest)
  | release (ip : AllocatedIp)
  | giveBack (ips : List AllocatedIp)
  | releasePort (port : PortId)
  | rebuild (subnets : List SubnetId)
  | createPort (request : PortRequest)
  | port (id : PortId)
  | ports (network : NetworkId)
  | updatePort (id : PortId) (update : PortUpdate)
  | deletePort (id : PortId)
  | boundContext (id : PortId) (host : String)
  | bindOnHost (id : PortId) (host : String)
  | report (id : PortId) (status : PortStatus)
  | load (network : Network) (id : PortId) (host : Option String)
  | negotiate (context : PortContext)
  | commit (id : PortId) (asked : Binding) (candidate : PortContext)
  | bind (context : PortContext) (mayTell news : Bool)

inductive Reply
  | done
  | flag (b : Bool)
  | network (network : Network)
  | subnet (subnet : Subnet)
  | subnetDetails (details : SubnetDetails)
  | subnets (subnets : List Subnet)
  | pools (pools : List Pool)
  | ranges (ranges : List FreeRange)
  | allocations (allocations : List Allocation)
  | ip (ip : AllocatedIp)
  | ips (ips : List AllocatedIp)
  | portDetails (details : PortDetails)
  | ports (ports : List Port)
  | context (context : Option PortContext)
  | outcome (outcome : CommitOutcome)

def Setup.operation (setup : Setup) : Command → Operation Reply
  | .createNetwork request => return .network (← Network.create request)
  | .network id => return .network (← Network.fetch id)
  | .deleteNetwork id => do Network.delete id; return .done
  | .createSubnet request => return .subnetDetails (← Subnet.create request)
  | .subnet id => return .subnet (← Subnet.fetch id)
  | .deleteSubnet id => do Subnet.delete id; return .done
  | .subnets network => return .subnets (← Operation.readIpam fun ipam => ipam.subnetsOf network)
  | .pools subnet => return .pools (← Operation.readIpam fun ipam => ipam.poolsOf subnet)
  | .ranges subnet => return .ranges (← Operation.readIpam fun ipam => ipam.rangesOf subnet)
  | .allocations subnet =>
    return .allocations (← Operation.readIpam fun ipam => ipam.allocationsOf subnet)
  | .portIps port => return .ips (← Allocation.ofPort port)
  | .generate port candidates => return .ip (← Allocation.generate port candidates)
  | .allocate port candidates address => return .ip (← Allocation.allocate port candidates address)
  | .allocateAddress port subnet address =>
    return .ip (← Allocation.allocateAddress port subnet address)
  | .allocateForPort port network requests =>
    return .ips (← Allocation.forPort setup.config port network requests)
  | .release ip => do Allocation.release setup.config.ipam.reclaimOnRelease ip; return .done
  | .giveBack ips => do Allocation.giveBack ips; return .done
  | .releasePort port => return .ips (← Allocation.releasePort setup.config.ipam port)
  | .rebuild subnets => do Allocation.rebuild subnets; return .done
  | .createPort request => return .portDetails (← Port.create setup request)
  | .port id => return .portDetails (← Port.fetch id)
  | .ports network => return .ports (← Port.list network)
  | .updatePort id update => return .portDetails (← Port.update setup id update)
  | .deletePort id => do Port.delete setup id; return .done
  | .boundContext id host => return .context (← Port.boundContext setup id host)
  | .bindOnHost id host => return .context (← Port.bindOnHost setup id host)
  | .report id status => return .flag (← Port.report setup id status)
  | .load network id host => return .context (← PortContext.load network id host)
  | .negotiate context => do
    let candidate ← ExceptT.lift (context.negotiate setup.drivers)
    return .context (some candidate)
  | .commit id asked candidate =>
    return .outcome (← Binding.commit setup.drivers id asked candidate)
  | .bind context mayTell news => do
    let tries := setup.config.binding.maxBindTries
    return .context (some (← context.bindWithin setup.drivers mayTell tries news))

end ControlPlane
