import ControlPlane.Binding
import ControlPlane.Wire.Network

/-! The JSON forms of ports and bindings. -/

namespace ControlPlane

open Document

namespace PortStatus

def toJson (status : PortStatus) : Json := .string status.name

def ofDocument? : Document → Option PortStatus := plainAlternative? ofName?

end PortStatus

namespace Port

def members (port : Port) : List (String × Option Json) := [
  ("id", some port.id.toJson),
  ("network_id", some port.network.toJson),
  ("mac_address", some (.string port.mac)),
  ("device_owner", some (.string port.deviceOwner)),
  ("device_id", some (.string port.deviceId)),
  ("admin_state_up", some (.bool port.adminStateUp)),
  ("status", some port.status.toJson)]

def toJson (port : Port) : Json :=
  Json.record (port.members ++ [
    ("created_at", some port.createdAt.toJson),
    ("updated_at", some port.updatedAt.toJson)])

def ofDocument? (d : Document) : Option Port := do
  match ← d.fields? ["id", "network_id", "mac_address", "device_owner", "device_id",
      "admin_state_up", "status", "created_at", "updated_at"] with
  | [id, network, mac, deviceOwner, deviceId, adminStateUp, status, createdAt, updatedAt] =>
    return {
      id := ← required Ident.ofDocument? id
      network := ← required Ident.ofDocument? network
      mac := ← required text? mac
      deviceOwner := ← required text? deviceOwner
      deviceId := ← required text? deviceId
      adminStateUp := ← required flag? adminStateUp
      status := ← required PortStatus.ofDocument? status
      createdAt := ← required Timestamp.ofDocument? createdAt
      updatedAt := ← required Timestamp.ofDocument? updatedAt }
  | _ => none

end Port

namespace VnicType

def toJson (vnic : VnicType) : Json := .string vnic.name

def ofDocument? : Document → Option VnicType := plainAlternative? ofName?

end VnicType

namespace VifType

def toJson (vif : VifType) : Json := .string vif.name

def ofDocument? (d : Document) : Option VifType := do return ofName (← d.text?)

end VifType

namespace Binding

def members (binding : Binding) : List (String × Option Json) := [
  ("host", binding.host.map .string),
  ("vnic_type", some binding.vnic.toJson),
  ("profile", some binding.profile),
  ("vif_type", some binding.vif.toJson),
  ("vif_details", some (.object binding.details)),
  ("driver", binding.driver.map .string),
  ("segment", binding.segment.map Ident.toJson)]

def toJson (binding : Binding) : Json :=
  Json.record (("port_id", some binding.port.toJson) :: binding.members)

def ofDocument? (d : Document) : Option Binding := do
  match ← d.fields? ["port_id", "host", "vnic_type", "profile", "vif_type", "vif_details", "driver",
      "segment"] with
  | [port, host, vnic, profile, vif, details, driver, segment] =>
    return {
      port := ← required Ident.ofDocument? port
      host := ← optional text? host
      vnic := ← defaulted VnicType.ofDocument? .normal vnic
      profile := ← defaulted value? .null profile
      vif := ← defaulted VifType.ofDocument? .unbound vif
      details := ← defaulted details? [] details
      driver := ← optional text? driver
      segment := ← optional Ident.ofDocument? segment }
  | _ => none

end Binding

namespace BindResult

def toJson (result : BindResult) : Json :=
  Json.record [
    ("segment", some result.segment.toJson),
    ("vif_type", some (.string result.vifType)),
    ("vif_details", some (.object result.details)),
    ("status", result.status.map PortStatus.toJson)]

def ofDocument? (d : Document) : Option BindResult := do
  match ← d.fields? ["segment", "vif_type", "vif_details", "status"] with
  | [segment, vifType, details, status] =>
    return {
      segment := ← required Ident.ofDocument? segment
      vifType := ← required text? vifType
      details := ← defaulted details? [] details
      status := ← optional PortStatus.ofDocument? status }
  | _ => none

end BindResult

end ControlPlane
