import ControlPlane.Port.Create

/-! Reading and deleting ports. -/

namespace ControlPlane.Port

def missing (id : PortId) : Error := .notFound s!"Port {id}"

def find (id : PortId) : Operation (Option Port) :=
  Operation.readPorts fun store => store.ports.find? id

/-- The primary binding of a port. A port without one counts as unbound. -/
def primaryBinding (store : Ports) (id : PortId) : Binding :=
  (store.bindings.find? id).getD { port := id }

def fetchTx (id : PortId) : Tx Ports (Closing (Port × Binding)) := do
  let store ← get
  match store.ports.find? id with
  | none => throw (missing id)
  | some port => return .commit (port, primaryBinding store id)

def fetch (id : PortId) : Operation PortDetails := do
  let (port, binding) ← Operation.ports (fetchTx id)
  return { port, binding, fixedIps := ← Allocation.ofPort id }

def delete (setup : Setup) (id : PortId) : Operation Unit := do
  if !(← remove id) then throw (missing id)
  let _ ← Allocation.releasePort setup.config.ipam id
  Operation.ask (.notify (.deleted id))

end ControlPlane.Port
