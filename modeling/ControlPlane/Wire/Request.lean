import ControlPlane.Config
import ControlPlane.Json.Reader
import ControlPlane.Request
import ControlPlane.Wire.Port
import ControlPlane.Wire.Subnet

/-! The JSON forms of requests, settings and error answers. -/

namespace ControlPlane

open Document

namespace SubnetRequest

def toJson (request : SubnetRequest) : Json :=
  Json.record [
    ("network_id", some request.network.toJson),
    ("cidr", some (.string request.cidr)),
    ("ip_version", some request.family.toJson),
    ("gateway_ip", some request.gateway.toJson),
    ("allocation_pools", request.pools.map (Json.ofList PoolSpec.toJson)),
    ("enable_dhcp", some (.bool request.dhcp))]

def ofDocument? (d : Document) : Option SubnetRequest := do
  match ← d.fields? ["network_id", "cidr", "ip_version", "gateway_ip", "allocation_pools",
      "enable_dhcp"] with
  | [network, cidr, family, gateway, pools, dhcp] =>
    return {
      network := ← required Ident.ofDocument? network
      cidr := ← required text? cidr
      family := ← required Ip.Family.ofDocument? family
      gateway := ← defaulted GatewayChoice.ofDocument? .automatic gateway
      pools := ← optional (list? PoolSpec.ofDocument?) pools
      dhcp := ← defaulted flag? true dhcp }
  | _ => none

end SubnetRequest

namespace NetworkRequest

def toJson (request : NetworkRequest) : Json :=
  Json.record [
    ("name", some (.string request.name)),
    ("admin_state_up", some (.bool request.adminStateUp)),
    ("shared", some (.bool request.shared)),
    ("segments", some (Json.ofList Segment.toJson request.segments))]

def ofDocument? (d : Document) : Option NetworkRequest := do
  match ← d.fields? ["name", "admin_state_up", "shared", "segments"] with
  | [name, adminStateUp, shared, segments] =>
    return {
      name := ← required text? name
      adminStateUp := ← defaulted flag? true adminStateUp
      shared := ← defaulted flag? false shared
      segments := ← defaulted (list? Segment.ofDocument?) [] segments }
  | _ => none

end NetworkRequest

namespace PortRequest

def toJson (request : PortRequest) : Json :=
  Json.record [
    ("network_id", some request.network.toJson),
    ("mac_address", request.mac.map .string),
    ("device_owner", some (.string request.deviceOwner)),
    ("device_id", some (.string request.deviceId)),
    ("admin_state_up", some (.bool request.adminStateUp)),
    ("fixed_ips", request.fixedIps.map (Json.ofList FixedIpRequest.toJson)),
    ("host", request.host.map .string),
    ("vnic_type", some request.vnic.toJson),
    ("profile", some request.profile)]

def ofDocument? (d : Document) : Option PortRequest := do
  match ← d.fields? ["network_id", "mac_address", "device_owner", "device_id", "admin_state_up",
      "fixed_ips", "host", "vnic_type", "profile"] with
  | [network, mac, deviceOwner, deviceId, adminStateUp, fixedIps, host, vnic, profile] =>
    return {
      network := ← required Ident.ofDocument? network
      mac := ← optional text? mac
      deviceOwner := ← defaulted text? "" deviceOwner
      deviceId := ← defaulted text? "" deviceId
      adminStateUp := ← defaulted flag? true adminStateUp
      fixedIps := ← optional (list? FixedIpRequest.ofDocument?) fixedIps
      host := ← optional text? host
      vnic := ← defaulted VnicType.ofDocument? .normal vnic
      profile := ← defaulted value? Json.empty profile }
  | _ => none

end PortRequest

namespace PortUpdate

def toJson (update : PortUpdate) : Json :=
  Json.record [
    ("admin_state_up", update.adminStateUp.map .bool),
    ("device_owner", update.deviceOwner.map .string),
    ("device_id", update.deviceId.map .string),
    ("fixed_ips", update.fixedIps.map (Json.ofList FixedIpRequest.toJson)),
    ("host", update.host.map .string),
    ("vnic_type", update.vnic.map VnicType.toJson),
    ("profile", update.profile)]

def ofDocument? (d : Document) : Option PortUpdate := do
  match ← d.fields? ["admin_state_up", "device_owner", "device_id", "fixed_ips", "host",
      "vnic_type", "profile"] with
  | [adminStateUp, deviceOwner, deviceId, fixedIps, host, vnic, profile] =>
    return {
      adminStateUp := ← optional flag? adminStateUp
      deviceOwner := ← optional text? deviceOwner
      deviceId := ← optional text? deviceId
      fixedIps := ← optional (list? FixedIpRequest.ofDocument?) fixedIps
      host := ← optional text? host
      vnic := ← optional VnicType.ofDocument? vnic
      profile := ← optional value? profile }
  | _ => none

end PortUpdate

namespace PortDetails

def toJson (details : PortDetails) : Json :=
  Json.record [
    ("port", some details.port.toJson),
    ("binding", some details.binding.toJson),
    ("fixed_ips", some (Json.ofList AllocatedIp.toJson details.fixedIps))]

def ofDocument? (d : Document) : Option PortDetails := do
  match ← d.fields? ["port", "binding", "fixed_ips"] with
  | [port, binding, fixedIps] =>
    return {
      port := ← required Port.ofDocument? port
      binding := ← required Binding.ofDocument? binding
      fixedIps := ← required (list? AllocatedIp.ofDocument?) fixedIps }
  | _ => none

end PortDetails

namespace IpamConfig

def toJson (config : IpamConfig) : Json :=
  Json.record [("reclaim_on_release", some (.bool config.reclaimOnRelease))]

def ofDocument? (d : Document) : Option IpamConfig := do
  match ← d.fields? ["reclaim_on_release"] with
  | [reclaim] => return { reclaimOnRelease := ← defaulted flag? false reclaim }
  | _ => none

end IpamConfig

namespace BindingConfig

def toJson (config : BindingConfig) : Json :=
  Json.record [("max_bind_tries", some (Json.nat config.maxBindTries))]

def ofDocument? (d : Document) : Option BindingConfig := do
  match ← d.fields? ["max_bind_tries"] with
  | [tries] =>
    return { maxBindTries := ← defaulted (natBelow? (Nat.pow 2 32)) ({} : BindingConfig).maxBindTries tries }
  | _ => none

end BindingConfig

namespace Config

def toJson (config : Config) : Json :=
  Json.record [
    ("base_mac", some (.string config.baseMac)),
    ("mac_generation_retries", some (Json.nat config.macRetries)),
    ("max_fixed_ips_per_port", some (Json.nat config.maxFixedIps)),
    ("ipam", some config.ipam.toJson),
    ("binding", some config.binding.toJson)]

def ofDocument? (d : Document) : Option Config := do
  let usual : Config := {}
  match ← d.fields? ["base_mac", "mac_generation_retries", "max_fixed_ips_per_port", "ipam",
      "binding"] with
  | [baseMac, macRetries, maxFixedIps, ipam, binding] =>
    return {
      baseMac := ← defaulted text? usual.baseMac baseMac
      macRetries := ← defaulted (natBelow? (Nat.pow 2 32)) usual.macRetries macRetries
      maxFixedIps := ← defaulted (natBelow? (Nat.pow 2 64)) usual.maxFixedIps maxFixedIps
      ipam := ← defaulted IpamConfig.ofDocument? usual.ipam ipam
      binding := ← defaulted BindingConfig.ofDocument? usual.binding binding }
  | _ => none

def parse (text : String) : Except Error Config := do
  match (Document.ofString? text).bind ofDocument? with
  | some config => config.validated
  | none => throw (.configuration "Invalid configuration")

end Config

namespace Fault

def toJson (fault : Fault) : Json := .array [.string fault.path, .string fault.bound.code]

end Fault

namespace Error

def members : Error → List (String × Json)
  | validation text faults => [
    ("error", .string (validation text faults).code),
    ("fields", Json.ofList Fault.toJson faults)]
  | e => [("error", .string e.code), ("message", .string e.message)]

/-- What an answer tells beside code and message. -/
def details? : Error → Option Json
  | addressInUse _ address => some (Json.record [("ip_address", some address.toJson)])
  | macInUse _ mac => some (Json.record [("mac_address", some (.string mac))])
  | _ => none

def response (error : Error) (request : Option String) : Json :=
  Json.record [
    ("error", some (Json.record [
      ("code", some (.string error.code)),
      ("message", some (.string error.message)),
      ("details", error.details?)])),
    ("request_id", request.map .string)]

end Error

end ControlPlane
