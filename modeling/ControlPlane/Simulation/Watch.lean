import ControlPlane.Simulation.Names
import ControlPlane.Simulation.Script
import ControlPlane.Wire.Context
import ControlPlane.Wire.Subnet

/-! What a simulation reports of its stores: the networks, subnets and ports that its steps made. -/

namespace ControlPlane.Simulation

/-- How often a port was seen to be touched. -/
structure Revision where
  port : PortId
  seen : Timestamp
  count : Nat

structure Watch where
  networks : List NetworkId := []
  subnets : List SubnetId := []
  ports : List PortId := []
  /-- Ranges in the order in which they were first seen. -/
  ranges : List RangeId := []
  revisions : List Revision := []
  reported : Json

namespace Watch

def note {α : Type} [BEq α] (xs : List α) (x : α) : List α := if xs.contains x then xs else xs ++ [x]

def noteNetwork (watch : Watch) (id : NetworkId) : Watch :=
  { watch with networks := note watch.networks id }

def noteSubnet (watch : Watch) (id : SubnetId) : Watch :=
  { watch with subnets := note watch.subnets id }

def notePort (watch : Watch) (port : Port) : Watch :=
  { watch.noteNetwork port.network with ports := note watch.ports port.id }

def nothing : Json :=
  Json.ofMembers [("subnets", Json.empty), ("ports", Json.empty), ("port_count", Json.empty)]

instance : Inhabited Watch := ⟨{ reported := nothing }⟩

def liveSubnets (watch : Watch) (ipam : Ipam) : List SubnetId :=
  watch.subnets.filter ipam.subnets.contains

def livePorts (watch : Watch) (store : Ports) : List Port :=
  watch.ports.filterMap store.ports.find?

def seeRanges (watch : Watch) (ipam : Ipam) : Watch :=
  { watch with
    ranges := ((watch.liveSubnets ipam).flatMap ipam.rangesOf).foldl
      (fun ranges range => note ranges range.id) watch.ranges }

/-- Counts a touch. A port that was touched before it was first seen has one already. -/
def revise (port : Port) : List Revision → List Revision
  | [] => [⟨port.id, port.updatedAt, if port.updatedAt = port.createdAt then 0 else 1⟩]
  | revision :: rest =>
    if revision.port = port.id then
      if revision.seen = port.updatedAt then revision :: rest
      else ⟨port.id, port.updatedAt, revision.count + 1⟩ :: rest
    else revision :: revise port rest

def seePorts (watch : Watch) (store : Ports) : Watch :=
  { watch with
    revisions := (watch.livePorts store).foldl (fun revisions port => revise port revisions)
      watch.revisions }

def revision (watch : Watch) (id : PortId) : Nat :=
  ((watch.revisions.find? fun revision => revision.port = id).map Revision.count).getD 0

def rangeJson (watch : Watch) (range : FreeRange) : Json :=
  .array [.string ("r" ++ Text.decimal (watch.ranges.idxOf range.id + 1)), range.pool.toJson,
    range.span.first.toJson, range.span.last.toJson]

def subnetJson (watch : Watch) (ipam : Ipam) (id : SubnetId) : Json :=
  Json.ofMembers [
    ("ranges", Json.ofList watch.rangeJson (ipam.rangesOf id)),
    ("allocs", Json.ofList
      (fun allocation : Allocation => .array [allocation.address.toJson, allocation.port.toJson])
      (ipam.allocationsOf id))]

def portJson (watch : Watch) (store : Ports) (port : Port) : Json :=
  Json.ofMembers [
    ("mac", .string port.mac),
    ("owner", .string port.deviceOwner),
    ("device", .string port.deviceId),
    ("admin", .bool port.adminStateUp),
    ("status", port.status.toJson),
    ("rev", Json.nat (watch.revision port.id)),
    ("binding", Json.orNull ((store.bindings.find? port.id).map Binding.summary)),
    ("hosts", Json.ofList Binding.summary (store.hostBindingsOf port.id))]

def countJson (store : Ports) (id : NetworkId) : Option (String × Json) :=
  match (store.portsOf id).length with
  | 0 => none
  | count => some (id.toString, Json.nat count)

def stateJson (watch : Watch) (state : State) : Json :=
  Json.ofMembers [
    ("subnets", Json.ofMembers ((watch.liveSubnets state.ipam).map fun id =>
      (id.toString, watch.subnetJson state.ipam id))),
    ("ports", Json.ofMembers ((watch.livePorts state.ports).map fun port =>
      (port.id.toString, watch.portJson state.ports port))),
    ("port_count", Json.ofMembers (watch.networks.filterMap (countJson state.ports)))]

/-- The state, if it is not what was reported last. -/
def report? (watch : Watch) (state : State) : Option Json × Watch :=
  let watch := (watch.seeRanges state.ipam).seePorts state.ports
  let now := watch.stateJson state
  if now.agrees watch.reported then (none, watch) else (some now, { watch with reported := now })

end Watch

end ControlPlane.Simulation
