import ControlPlane.Error
import ControlPlane.Mac

/-! Settings of the control plane and their bounds. -/

namespace ControlPlane

structure IpamConfig where
  /-- Whether a released address becomes available at once, or with the next rebuild. -/
  reclaimOnRelease : Bool := false
  deriving DecidableEq, Inhabited

structure BindingConfig where
  /-- How often a port is negotiated and committed before it is left as it is. -/
  maxBindTries : Nat := 10
  deriving DecidableEq, Inhabited

structure Config where
  /-- The address whose zero octets are drawn for each port. -/
  baseMac : String := "fa:16:3e:00:00:00"
  macRetries : Nat := 16
  maxFixedIps : Nat := 5
  ipam : IpamConfig := {}
  binding : BindingConfig := {}
  deriving DecidableEq, Inhabited

namespace Config

def faults (config : Config) : List Fault :=
  Fault.textLength "base_mac" 17 17 config.baseMac ++
  Fault.within "binding.max_bind_tries" 1 100 config.binding.maxBindTries ++
  Fault.within "mac_generation_retries" 1 64 config.macRetries ++
  Fault.within "max_fixed_ips_per_port" 1 64 config.maxFixedIps

def base (config : Config) : Except Error Mac :=
  (Mac.ofString? config.baseMac).elim
    (.error (.configuration ("Invalid base MAC: " ++ config.baseMac))) .ok

/-- A configuration is accepted when its fields are within bounds and its base address is one. -/
def validated (config : Config) : Except Error Config := do
  Error.ofFaults config.faults
  let _ ← config.base
  return config

end Config

/-- The canonical text of an address that a caller gives to a port. Group addresses are refused. -/
def Mac.normalize (s : String) : Except Error String :=
  match Mac.ofString? s with
  | none => .error (.invalidInput ("Invalid MAC address: " ++ s))
  | some mac =>
    if mac.isMulticast then .error (.invalidInput s!"MAC address {s} is a multicast address")
    else .ok mac.toString

end ControlPlane
