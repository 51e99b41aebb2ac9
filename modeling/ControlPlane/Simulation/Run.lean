import ControlPlane.Command
import ControlPlane.Simulation.Watch
import ControlPlane.Wire.Request

/-! Simulations: steps on one control plane with scripted surroundings, each with a report of its
answer, of what drivers and listeners were told, and of the stores if they changed. -/

namespace ControlPlane.Simulation

open Ip (Address)

/-- A step. Commands that create something, or whose answer is a context, may name it. -/
inductive Step
  | command (command : Command) (name : Option String)
  | putNetwork (network : Network)
  | putPort (port : Port)
  | putBinding (binding : Binding)
  | putHostBinding (binding : Binding)
  | interfere (actions : List Action)
  | setScript (driver : String) (script : Script)
  | stopListening
  | keepContext (name : Option String) (context : PortContext)

end Simulation

structure Simulation where
  setup : Setup
  world : World Simulation.Outside
  names : Simulation.Names := {}
  watch : Simulation.Watch := default
  /-- Subnets as they were created. -/
  subnets : List Subnet := []
  contexts : List (String × PortContext) := []

namespace Simulation

/-- A supply for simulations: identifiers of the random kind that no input is likely to hold, and a
clock that moves with each reading. -/
def supply : Supply where
  identAt n := BitVec.ofNat 128 (0xf0f1f2f300004000800000000000 * Nat.pow 2 16 + n)
  octetAt n := UInt8.ofNat (0x9b + n)
  timeAt n := ⟨1748736000 + n, 0⟩

def start (setup : Setup) (scripts : List (String × Script)) : Simulation where
  setup
  world := { state := { supply }, outside := { scripts } }

def createdSubnet? (sim : Simulation) (id : String) : Option Subnet :=
  sim.subnets.find? fun subnet => subnet.id.toString = id

def context? (sim : Simulation) (name : String) : Option PortContext := sim.contexts.lookup name

def keep (sim : Simulation) (name : Option String) (context : Option PortContext) : Simulation :=
  match name, context with
  | some name, some context =>
    { sim with contexts := (name, context) :: sim.contexts.filter (·.1 ≠ name) }
  | _, _ => sim

/-- The address that the hardware address of a new port was drawn from, if it was drawn. -/
def drawnFrom (sim : Simulation) (request : PortRequest) : Option Mac :=
  if request.mac.isNone then Mac.ofString? sim.setup.config.baseMac else none

/-- Names and notes what a command made. -/
def notice (sim : Simulation) (command : Command) (name : Option String) (reply : Reply) :
    Simulation :=
  match command, reply with
  | .createNetwork _, .network network =>
    { sim with
      names := name.elim sim.names fun name => sim.names.add name network.id.toString
      watch := sim.watch.noteNetwork network.id }
  | .createSubnet _, .subnetDetails details =>
    { sim with
      names := name.elim sim.names fun name => sim.names.addSubnet name details
      watch := sim.watch.noteSubnet details.subnet.id
      subnets := sim.subnets ++ [details.subnet] }
  | .createPort request, .portDetails details =>
    { sim with
      names := name.elim sim.names fun name =>
        sim.names.addPort name details.port (sim.drawnFrom request)
      watch := sim.watch.notePort details.port }
  | _, .context context => sim.keep name context
  | _, .outcome outcome => sim.keep name outcome.context?
  | _, _ => sim

/-- Addresses in the order of their families and numbers. -/
def sortIps (ips : List AllocatedIp) : List AllocatedIp :=
  sortBy (fun a b => (compare a.address b.address).isLE) ips

/-- Puts lists whose order depends on identifiers into an order that does not. -/
def settle (sim : Simulation) : Command → Reply → Reply
  | .port _, .portDetails details | .updatePort .., .portDetails details =>
    .portDetails { details with fixedIps := sortIps details.fixedIps }
  | .releasePort _, .ips ips | .portIps _, .ips ips => .ips (sortIps ips)
  | _, .ports ports => .ports (sortOn (fun port => sim.watch.ports.idxOf port.id) ports)
  | _, reply => reply

def replyJson : Reply → Json
  | .done => .null
  | .flag b => .bool b
  | .network network => network.toJson
  | .subnet subnet => subnet.toJson
  | .subnetDetails details => details.toJson
  | .subnets subnets => Json.ofList Subnet.toJson subnets
  | .pools pools => Json.ofList Pool.toJson pools
  | .ranges ranges => Json.ofList FreeRange.toJson ranges
  | .allocations allocations => Json.ofList Allocation.toJson allocations
  | .ip ip => ip.toJson
  | .ips ips => Json.ofList AllocatedIp.toJson ips
  | .portDetails details => Json.ofMembers [
      ("port", details.port.summary),
      ("binding", details.binding.summary),
      ("fixed_ips", Json.ofList AllocatedIp.toJson details.fixedIps)]
  | .ports ports => Json.ofList Port.summary ports
  | .context context => Json.orNull (context.map PortContext.summary)
  | .outcome outcome => Json.ofMembers [
      ("outcome", .string outcome.name),
      ("committed", .bool (outcome.name == "committed")),
      ("context", Json.orNull (outcome.context?.map PortContext.summary))]

def runCommand (sim : Simulation) (command : Command) (name : Option String) :
    Except Error Json × Simulation :=
  let (result, world) := (environment.run (sim.setup.operation command).run).run sim.world
  let sim := { sim with world }
  match result with
  | .error error => (.error error, sim)
  | .ok reply =>
    let sim := sim.notice command name reply
    (.ok (replyJson (sim.settle command reply)), sim)

def setState (sim : Simulation) (state : State) : Simulation :=
  { sim with world := { sim.world with state } }

def setPorts (sim : Simulation) (ports : Ports) : Simulation :=
  sim.setState { sim.world.state with ports }

def runStep (sim : Simulation) : Step → Except Error Json × Simulation
  | .command command name => sim.runCommand command name
  | .putNetwork network =>
    let state := sim.world.state
    (.ok .null, { sim.setState { state with ipam := state.ipam.saveNetwork network } with
      watch := sim.watch.noteNetwork network.id })
  | .putPort port =>
    (.ok .null, { sim.setPorts (sim.world.state.ports.savePort port) with
      watch := sim.watch.notePort port })
  | .putBinding binding =>
    match sim.world.state.ports.saveBinding binding with
    | .ok ports => (.ok .null, sim.setPorts ports)
    | .error error => (.error error, sim)
  | .putHostBinding binding =>
    match sim.world.state.ports.saveHostBinding binding with
    | .ok ports => (.ok .null, sim.setPorts ports)
    | .error error => (.error error, sim)
  | .interfere actions =>
    let (result, state) := Action.performAll none actions sim.world.state
    (result.map fun () => .null, sim.setState state)
  | .setScript driver script =>
    let outside := sim.world.outside.setScript driver script
    (.ok (Json.ofList .string (outside.scripts.map (·.1))),
      { sim with world := { sim.world with outside } })
  | .stopListening =>
    let outside := { sim.world.outside with listening := false }
    (.ok .null, { sim with world := { sim.world with outside } })
  | .keepContext name context => (.ok context.summary, sim.keep name (some context))

def Watch.calledJson (watch : Watch) (called : Called) : Json :=
  let context := called.context
  let former (f : Binding → Json) : Json := Json.orNull (context.formerBinding.map f)
  Json.ofMembers [
    ("driver", .string called.driver),
    ("method", .string called.method.name),
    ("port", if watch.ports.contains context.port.id then context.port.id.toJson
      else .string "new"),
    ("status", context.port.status.toJson),
    ("binding", context.binding.summary),
    ("original_status", Json.orNull (context.formerPort.map fun port => port.status.toJson)),
    ("original_vif", former fun binding => binding.vif.toJson),
    ("original_host", former fun binding => Json.orNull (binding.host.map .string)),
    ("new_status", Json.orNull (context.newStatus.map PortStatus.toJson))]

def eventJson : PortEvent → Json
  | .updated context => Json.ofMembers [
      ("updated", context.port.id.toJson),
      ("host", Json.orNull (context.binding.host.map .string)),
      ("status", context.port.status.toJson),
      ("binding", context.binding.summary)]
  | .deleted port => Json.ofMembers [("deleted", port.toJson)]

/-- A member with a list, unless that is empty. -/
def unlessEmpty (name : String) : List Json → List (String × Json)
  | [] => []
  | items => [(name, .array items)]

/-- Names with those of the ranges that were seen. -/
def allNames (sim : Simulation) : Names :=
  sim.watch.ranges.zipIdx.foldl
    (fun names (id, i) => names.display id.toString ("r" ++ Text.decimal (i + 1))) sim.names

/-- Runs a step under hooks, and reports on it. -/
def run (sim : Simulation) (hooks : List Hook) (step : Step) : Json × Simulation :=
  let outside := { sim.world.outside with hooks, opened := [], trace := [], events := [] }
  let (answer, sim) := ({ sim with world := { sim.world with outside } } : Simulation).runStep step
  let (changed, watch) := sim.watch.report? sim.world.state
  let sim := { sim with watch }
  let members := match answer with
    | .ok v => [("ok", v)]
    | .error error => error.members
  let trace := sim.world.outside.trace.reverse.map watch.calledJson
  let events := sim.world.outside.events.reverse.map eventJson
  let report := Json.ofMembers (members ++ unlessEmpty "trace" trace ++
    unlessEmpty "events" events ++ (changed.toList.map fun state => ("state", state)))
  (sim.allNames.render report, sim)

end Simulation

end ControlPlane
