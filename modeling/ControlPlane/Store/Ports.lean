import ControlPlane.Binding
import ControlPlane.Table
import ControlPlane.Text.Capital

/-! The port store: ports, their bindings, and the bindings of distributed ports on each host. -/

namespace ControlPlane

instance : Ord (PortId × String) := lexOrd

instance : Std.TransOrd (PortId × String) := inferInstance

structure Ports where
  ports : Table PortId Port := .empty
  bindings : Table PortId Binding := .empty
  hostBindings : Table (PortId × String) Binding := .empty

instance : Inhabited Ports := ⟨{}⟩

namespace Ports

/-- A port of a network with a hardware address, spelled in any case. -/
def findMac (store : Ports) (network : NetworkId) (mac : String) : Option Port :=
  store.ports.values.find? fun port =>
    port.network = network && Text.sameIgnoringCase port.mac mac

def portsOf (store : Ports) (network : NetworkId) : List Port :=
  store.ports.values.filter fun port => port.network = network

def savePort (store : Ports) (port : Port) : Ports :=
  { store with ports := store.ports.insert port.id port }

def erasePort (store : Ports) (id : PortId) : Ports where
  ports := store.ports.erase id
  bindings := store.bindings.erase id
  hostBindings := store.hostBindings.filter fun key _ => key.1 ≠ id

def requirePort (store : Ports) (id : PortId) : Except Error Unit :=
  if store.ports.contains id then .ok ()
  else .error (.store s!"binding references missing port {id}")

def saveBinding (store : Ports) (binding : Binding) : Except Error Ports := do
  store.requirePort binding.port
  return { store with bindings := store.bindings.insert binding.port binding }

def hostlessText : String := "Distributed binding requires a host"

def saveHostBinding (store : Ports) (binding : Binding) : Except Error Ports := do
  store.requirePort binding.port
  match binding.host.filter (· ≠ "") with
  | none => throw (.invalidInput hostlessText)
  | some host =>
    return { store with hostBindings := store.hostBindings.insert (binding.port, host) binding }

def hostBindingsOf (store : Ports) (id : PortId) : List Binding :=
  (store.hostBindings.filter fun key _ => key.1 = id).values

end Ports

end ControlPlane
