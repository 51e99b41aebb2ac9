import ControlPlane.Port.Access

/-! Updating ports. New addresses are allocated before the port is saved, and old ones are released
after, so that a port whose update fails keeps what it had. -/

namespace ControlPlane

namespace PortUpdate

/-- A port stays distributed or not, and a distributed one has no host of its own. -/
def checkOwner (update : PortUpdate) (port : Port) : Except Error Unit := do
  let distributed := update.deviceOwner.getD port.deviceOwner == distributedOwner
  if distributed ≠ port.isDistributed then
    throw (.invalidInput
      s!"Port {port.id} cannot change device owner to or from {distributedOwner}")
  if distributed && update.host.isSome then throw Port.hostNotGiven

def applyTo (update : PortUpdate) (port : Port) : Port :=
  { port with
    adminStateUp := update.adminStateUp.getD port.adminStateUp
    deviceOwner := update.deviceOwner.getD port.deviceOwner
    deviceId := update.deviceId.getD port.deviceId }

/-- The binding with the new inputs. If they disagree with the old ones its result is forgotten;
the binding of a distributed port has none of its own. -/
def applyToBinding (update : PortUpdate) (binding : Binding) : Binding :=
  let changed : Binding := { binding with
    host := match update.host with
      | some host => (some host).filter (· ≠ "")
      | none => binding.host
    vnic := update.vnic.getD binding.vnic
    profile := update.profile.getD binding.profile }
  if changed.sameInputs binding || changed.vif = .distributed then changed else changed.reset

end PortUpdate

namespace Binding

/-- Whether a binding of a distributed port asks for what its primary binding asks for. -/
def follows (binding primary : Binding) : Bool :=
  binding.vnic = primary.vnic && binding.profile.agrees primary.profile

/-- A binding of a distributed port that asks for what the primary binding asks for. -/
def follow (binding primary : Binding) : Binding :=
  { binding with vnic := primary.vnic, profile := primary.profile }.reset

end Binding

namespace Port

/-- Brings all bindings of a distributed port in line with its primary binding. -/
def alignHosts (primary : Binding) : Tx Ports Unit := do
  ((← get).hostBindingsOf primary.port).forM fun binding => do
    if !binding.follows primary then
      Tx.change fun store => store.saveHostBinding (binding.follow primary)

/-- What a port update did: the port and binding as saved, and whether anything changed. -/
structure Saved where
  context : PortContext
  changed : Bool

/-- Saves an update of a port, if the port is still there and the drivers accept it. -/
def saveTx (drivers : List String) (id : PortId) (network : Network) (update : PortUpdate) :
    Tx Ports (Closing (Option Saved)) := do
  let store ← get
  match store.ports.find? id with
  | none => return .rollback none
  | some former =>
    match store.bindings.find? id with
    | none => throw (.store s!"Port {id} has no binding")
    | some formerBinding =>
      let port := update.applyTo former
      let binding := update.applyToBinding formerBinding
      let bindingChanged := !binding.sameInputs formerBinding
      let portChanged : Bool := port ≠ former
      if bindingChanged && port.isDistributed then alignHosts binding
      let port ← if portChanged then do
          let port := { port with updatedAt := ← Tx.time }
          modify fun store => store.savePort port
          pure port
        else pure port
      if bindingChanged then Tx.change fun store => store.saveBinding binding
      let context : PortContext := {
        port, network, binding
        formerPort := some former
        formerBinding := some formerBinding }
      return .review drivers context (some ⟨context, portChanged || bindingChanged⟩)

def save (drivers : List String) (id : PortId) (network : Network) (update : PortUpdate) :
    Operation (Option Saved) := do
  let saved ← Operation.ports (saveTx drivers id network update)
  match saved with
  | some saved => ExceptT.lift (saved.context.announce drivers)
  | none => pure ()
  return saved

structure IpChanges where
  added : List AllocatedIp := []
  removed : List AllocatedIp := []

def matchesRequest (request : FixedIpRequest) (ip : AllocatedIp) : Bool :=
  request.address = some ip.address && request.subnet.all fun id => id = ip.subnet

/-- Sorts requests into those for an address that the port has, which is kept, and the others,
which are wanted. -/
def keepAndWant (current : List AllocatedIp) (kept : List AllocatedIp) :
    List FixedIpRequest → Except Error (List AllocatedIp × List FixedIpRequest)
  | [] => .ok (kept, [])
  | request :: rest =>
    match current.find? (matchesRequest request) with
    | none => do
      let (kept, wanted) ← keepAndWant current kept rest
      return (kept, request :: wanted)
    | some ip =>
      if kept.contains ip then .error (.invalidInput s!"Duplicate fixed IP {ip.address}")
      else keepAndWant current (ip :: kept) rest

/-- Allocates the addresses that a port is to have and has not, and finds those that it has and is
not to have. -/
def stageIps (config : Config) (port : Port) (requests : List FixedIpRequest) :
    Operation IpChanges := do
  if config.maxFixedIps < requests.length then throw (Allocation.tooMany config)
  let current ← Allocation.ofPort port.id
  let (kept, wanted) ← keepAndWant current [] requests
  let added ← if wanted.isEmpty then pure []
    else Allocation.forPort config port.id port.network wanted
  return { added, removed := current.filter fun ip => !kept.contains ip }

def stage (config : Config) (port : Port) : Option (List FixedIpRequest) → Operation IpChanges
  | some requests => stageIps config port requests
  | none => return {}

def undo {α : Type} (changes : IpChanges) (error : Error) : Operation α := do
  Allocation.giveBack changes.added
  throw error

def update (setup : Setup) (id : PortId) (update : PortUpdate) : Operation PortDetails := do
  Error.ofFaults update.faults
  let some port ← find id | throw (missing id)
  update.checkOwner port
  let network ← Network.fetch port.network
  let changes ← stage setup.config port update.fixedIps
  let some saved ← (save setup.drivers id network update).orElse (undo changes) | do
    let _ ← Allocation.releasePort setup.config.ipam id
    throw (missing id)
  changes.removed.forM (Allocation.release setup.config.ipam.reclaimOnRelease)
  let news := saved.changed || !changes.added.isEmpty || !changes.removed.isEmpty
  let context ←
    saved.context.bindWithin setup.drivers true setup.config.binding.maxBindTries news
  return {
    port := context.port
    binding := context.binding
    fixedIps := ← Allocation.ofPort id }

end Port

end ControlPlane
