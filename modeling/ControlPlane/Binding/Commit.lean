import ControlPlane.Program

/-! Negotiating a binding with the drivers and committing it. A negotiated binding is only a
proposal: it is written if the port still asks for what was negotiated. -/

namespace ControlPlane

/-- The binding of a port as seen from a host: a distributed port has one for each host. -/
def Ports.bindingAt (store : Ports) (port : Port) (host : Option String) : Option Binding :=
  if port.isDistributed then host.bind fun host => store.hostBindings.find? (port.id, host)
  else store.bindings.find? port.id

def Ports.saveBindingOf (store : Ports) (port : Port) (binding : Binding) : Except Error Ports :=
  if port.isDistributed then store.saveHostBinding binding else store.saveBinding binding

namespace PortContext

/-- A result counts if it is on a segment of the network. -/
def accepts (context : PortContext) (result : BindResult) : Bool :=
  (context.network.segment? result.segment).isSome

def failed (context : PortContext) : PortContext :=
  { context with binding := { context.binding with vif := .bindingFailed } }

/-- Asks drivers in turn, up to the first with a result that counts. -/
def tryDrivers (candidate : PortContext) : List String → Program PortContext
  | [] => return candidate.failed
  | driver :: rest => .call (.bind driver candidate) fun
    | some result =>
      if candidate.accepts result then return candidate.bind driver result
      else candidate.tryDrivers rest
    | none => candidate.tryDrivers rest

def negotiate (drivers : List String) (context : PortContext) : Program PortContext :=
  context.candidate.tryDrivers drivers

def announce (context : PortContext) : List String → Program Unit
  | [] => return
  | driver :: rest => .call (.postcommit driver context) fun () => context.announce rest

end PortContext

inductive CommitOutcome
  | committed (context : PortContext)
  /-- The port or its binding changed meanwhile, to what the context shows. -/
  | retry (context : PortContext)
  | gone

namespace CommitOutcome

def context? : CommitOutcome → Option PortContext
  | committed context | retry context => some context
  | gone => none

def name : CommitOutcome → String
  | committed _ => "committed"
  | retry _ => "retry"
  | gone => "gone"

end CommitOutcome

namespace Binding

def isCurrent (live asked : Binding) : Bool := live.vif.needsBinding && live.sameInputs asked

/-- The port with the status that its driver asks for. Only a bound candidate asks for one. -/
def withStatus (port : Port) (candidate : PortContext) : Tx Ports Port := do
  match candidate.binding.segment, candidate.newStatus with
  | some _, some status => do
    let port := { port with status, updatedAt := ← Tx.time }
    modify fun store => store.savePort port
    return port
  | _, _ => return port

def commitTx (drivers : List String) (id : PortId) (asked : Binding) (candidate : PortContext) :
    Tx Ports (Closing CommitOutcome) := do
  let store ← get
  match store.ports.find? id with
  | none => return .rollback .gone
  | some port =>
    match store.bindingAt port asked.host with
    | none => return .rollback .gone
    | some live =>
      if !live.isCurrent asked then
        return .rollback (.retry { port, network := candidate.network, binding := live })
      let binding := live.copyResult candidate.binding
      let changed ← withStatus port candidate
      Tx.change fun store => store.saveBindingOf port binding
      let context : PortContext := {
        port := changed
        network := candidate.network
        binding
        formerPort := some port
        formerBinding := some live
        newStatus := candidate.newStatus }
      return .review drivers context (.committed context)

/-- Writes the result of a candidate if the binding of the port is still what was asked for. -/
def commit (drivers : List String) (id : PortId) (asked : Binding) (candidate : PortContext) :
    Operation CommitOutcome := do
  let outcome ← Operation.ports (commitTx drivers id asked candidate)
  match outcome with
  | .committed context => ExceptT.lift (context.announce drivers)
  | _ => pure ()
  return outcome

end Binding

/-- A port as it is stored, with its binding as seen from a host. -/
def PortContext.load (network : Network) (id : PortId) (host : Option String) :
    Operation (Option PortContext) :=
  Operation.readPorts fun store => do
    let port ← store.ports.find? id
    let binding ← store.bindingAt port host
    return { port, network, binding }

end ControlPlane
