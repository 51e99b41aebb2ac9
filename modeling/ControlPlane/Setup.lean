import ControlPlane.Config

/-! A control plane as it is set up: its settings and the names of its drivers, in the order in
which they are asked. -/

namespace ControlPlane

structure Setup where
  config : Config := {}
  drivers : List String := []

namespace Setup

/-- Registers drivers in turn; each name may be used once. -/
def register (setup : Setup) (name : String) : Except Error Setup :=
  if setup.drivers.contains name then
    .error (.configuration s!"Mechanism driver {name} is registered twice")
  else .ok { setup with drivers := setup.drivers ++ [name] }

/-- A control plane with a configuration that was checked. -/
def create (config : Config) (drivers : List String) : Except Error Setup := do
  let setup ← drivers.foldlM register { config := config }
  return { setup with config := ← config.validated }

end Setup

end ControlPlane
