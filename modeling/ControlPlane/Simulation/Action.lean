import ControlPlane.Environment

/-! Interfering actions: changes that somebody else makes to the stores, each in a transaction of
its own. A change of a row that is missing does nothing. -/

namespace ControlPlane.Simulation

inductive BindingChange
  | profile (value : Json)
  | host (value : Option String)
  | vnic (value : VnicType)
  | vif (value : VifType)

def BindingChange.applyTo (binding : Binding) : BindingChange → Binding
  | profile value => { binding with profile := value }
  | host value => { binding with host := value }
  | vnic value => { binding with vnic := value }
  | vif value => { binding with vif := value }

/-- Without a port the action is about the port at hand; without a host, about its primary
binding. -/
inductive Action
  | deletePort (port : Option PortId)
  | setStatus (port : Option PortId) (status : PortStatus)
  | setBinding (port : Option PortId) (on : Option String) (change : BindingChange)
  | deleteSubnet (id : SubnetId)
  | deleteNetwork (id : NetworkId)
  | insertRange (range : FreeRange)
  | insertAllocation (allocation : Allocation)

namespace Action

def setStatusOf (store : Ports) (id : PortId) (status : PortStatus) : Ports :=
  match store.ports.find? id with
  | some port => store.savePort { port with status }
  | none => store

def setBindingOf (store : Ports) (id : PortId) (on : Option String) (change : BindingChange) :
    Except Error Ports :=
  match on with
  | none => match store.bindings.find? id with
    | some binding => store.saveBinding (change.applyTo binding)
    | none => .ok store
  | some host => match store.hostBindings.find? (id, host) with
    | some binding => store.saveHostBinding (change.applyTo binding)
    | none => .ok store

def perform (atHand : Option PortId) (state : State) : Action → Except Error State
  | deletePort port => match port <|> atHand with
    | some id => .ok { state with ports := state.ports.erasePort id }
    | none => .ok state
  | setStatus port status => match port <|> atHand with
    | some id => .ok { state with ports := setStatusOf state.ports id status }
    | none => .ok state
  | setBinding port on change => match port <|> atHand with
    | some id => do return { state with ports := ← setBindingOf state.ports id on change }
    | none => .ok state
  | deleteSubnet id => .ok { state with ipam := state.ipam.eraseSubnet id }
  | deleteNetwork id => .ok { state with ipam := state.ipam.eraseNetwork id }
  | insertRange range => do return { state with ipam := ← state.ipam.insertRange range }
  | insertAllocation allocation => do
    return { state with ipam := ← state.ipam.insertAllocation allocation }

/-- Performs actions up to the first that fails. -/
def performAll (atHand : Option PortId) : List Action → State → Except Error Unit × State
  | [], state => (.ok (), state)
  | action :: rest, state =>
    match action.perform atHand state with
    | .ok state => performAll atHand rest state
    | .error error => (.error error, state)

end Action

end ControlPlane.Simulation
