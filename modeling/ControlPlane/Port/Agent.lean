import ControlPlane.Port.Update

/-! What the agents on hosts ask for and report. -/

namespace ControlPlane.Port

/-- The context of a port for the agent of a host, bound first if need be. A port that is bound
elsewhere has none. -/
def boundContext (setup : Setup) (id : PortId) (host : String) :
    Operation (Option PortContext) := do
  let some port ← find id | return none
  let network ← Network.fetch port.network
  let some context ← PortContext.load network id (some host) | return none
  if context.binding.host ≠ some host then return none
  return some (← context.bindWithin setup.drivers true setup.config.binding.maxBindTries false)

/-- The binding of a distributed port on a host, as its primary binding asks for it. -/
def hostBinding (id : PortId) (host : String) : Tx Ports (Closing (Option (Port × Binding))) := do
  let store ← get
  match store.ports.find? id, store.bindings.find? id with
  | some port, some primary =>
    match store.hostBindings.find? (id, host) with
    | none => do
      let binding : Binding := {
        port := id, host := some host, vnic := primary.vnic, profile := primary.profile }
      Tx.change fun store => store.saveHostBinding binding
      return .commit (some (port, binding))
    | some binding =>
      if binding.follows primary then return .commit (some (port, binding))
      let binding := binding.follow primary
      Tx.change fun store => store.saveHostBinding binding
      return .commit (some (port, binding))
  | _, _ => return .rollback none

def bindOnHost (setup : Setup) (id : PortId) (host : String) : Operation (Option PortContext) := do
  if host = "" then throw (.invalidInput Ports.hostlessText)
  let some port ← find id | return none
  if !port.isDistributed then throw (.invalidInput s!"Port {id} is not a distributed port")
  let network ← Network.fetch port.network
  let some (port, binding) ← Operation.ports (hostBinding id host) | return none
  let context : PortContext := { port, network, binding }
  return some (← context.bindWithin setup.drivers true setup.config.binding.maxBindTries false)

/-- Saves a new status of a port, if the port is still there and the drivers accept it. -/
def statusTx (drivers : List String) (id : PortId) (network : Network) (status : PortStatus) :
    Tx Ports (Closing (Option PortContext)) := do
  let store ← get
  match store.ports.find? id with
  | none => return .rollback none
  | some former =>
    if former.status = status then return .rollback none
    let binding := primaryBinding store id
    let port := { former with status, updatedAt := ← Tx.time }
    modify fun store => store.savePort port
    let context : PortContext := {
      port, network, binding, formerPort := some former, formerBinding := some binding }
    return .review drivers context (some context)

/-- Takes the status that an agent reports. Tells whether it was news. -/
def report (setup : Setup) (id : PortId) (status : PortStatus) : Operation Bool := do
  let some port ← find id | return false
  let network ← Network.fetch port.network
  let some context ← Operation.ports (statusTx setup.drivers id network status) | return false
  ExceptT.lift (context.announce setup.drivers)
  return true

end ControlPlane.Port
