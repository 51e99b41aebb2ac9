import ControlPlane.Subnet
import ControlPlane.Wire.Basic

/-! The JSON forms of subnets, pools, ranges and allocations. -/

namespace ControlPlane

open Document
open Ip (Address Cidr Family)

namespace Subnet

def toJson (subnet : Subnet) : Json :=
  Json.record [
    ("id", some subnet.id.toJson),
    ("network_id", some subnet.network.toJson),
    ("cidr", some subnet.cidr.toJson),
    ("ip_version", some subnet.family.toJson),
    ("gateway_ip", subnet.gateway.map Address.toJson),
    ("enable_dhcp", some (.bool subnet.dhcp))]

def ofDocument? (d : Document) : Option Subnet := do
  match ← d.fields? ["id", "network_id", "cidr", "ip_version", "gateway_ip", "enable_dhcp"] with
  | [id, network, cidr, family, gateway, dhcp] =>
    return {
      id := ← required Ident.ofDocument? id
      network := ← required Ident.ofDocument? network
      cidr := ← required Cidr.ofDocument? cidr
      family := ← required Family.ofDocument? family
      gateway := ← optional Address.ofDocument? gateway
      dhcp := ← required flag? dhcp }
  | _ => none

end Subnet

namespace Pool

def toJson (pool : Pool) : Json :=
  Json.record [
    ("id", some pool.id.toJson),
    ("subnet_id", some pool.subnet.toJson),
    ("first_ip", some pool.span.first.toJson),
    ("last_ip", some pool.span.last.toJson)]

def ofDocument? (d : Document) : Option Pool := do
  match ← d.fields? ["id", "subnet_id", "first_ip", "last_ip"] with
  | [id, subnet, first, last] =>
    return {
      id := ← required Ident.ofDocument? id
      subnet := ← required Ident.ofDocument? subnet
      span := ⟨← required Address.ofDocument? first, ← required Address.ofDocument? last⟩ }
  | _ => none

end Pool

namespace FreeRange

def toJson (range : FreeRange) : Json :=
  Json.record [
    ("id", some range.id.toJson),
    ("pool_id", some range.pool.toJson),
    ("first_ip", some range.span.first.toJson),
    ("last_ip", some range.span.last.toJson)]

def ofDocument? (d : Document) : Option FreeRange := do
  match ← d.fields? ["id", "pool_id", "first_ip", "last_ip"] with
  | [id, pool, first, last] =>
    return {
      id := ← required Ident.ofDocument? id
      pool := ← required Ident.ofDocument? pool
      span := ⟨← required Address.ofDocument? first, ← required Address.ofDocument? last⟩ }
  | _ => none

end FreeRange

namespace Allocation

def toJson (allocation : Allocation) : Json :=
  Json.record [
    ("network_id", some allocation.network.toJson),
    ("subnet_id", some allocation.subnet.toJson),
    ("ip_address", some allocation.address.toJson),
    ("port_id", some allocation.port.toJson)]

def ofDocument? (d : Document) : Option Allocation := do
  match ← d.fields? ["network_id", "subnet_id", "ip_address", "port_id"] with
  | [network, subnet, address, port] =>
    return {
      network := ← required Ident.ofDocument? network
      subnet := ← required Ident.ofDocument? subnet
      address := ← required Address.ofDocument? address
      port := ← required Ident.ofDocument? port }
  | _ => none

end Allocation

namespace AllocatedIp

def toJson (ip : AllocatedIp) : Json :=
  Json.record [("ip_address", some ip.address.toJson), ("subnet_id", some ip.subnet.toJson)]

def ofDocument? (d : Document) : Option AllocatedIp := do
  match ← d.fields? ["ip_address", "subnet_id"] with
  | [address, subnet] =>
    return {
      address := ← required Address.ofDocument? address
      subnet := ← required Ident.ofDocument? subnet }
  | _ => none

end AllocatedIp

namespace FixedIpRequest

def toJson (request : FixedIpRequest) : Json :=
  Json.record [
    ("subnet_id", request.subnet.map Ident.toJson),
    ("ip_address", request.address.map Address.toJson)]

def ofDocument? (d : Document) : Option FixedIpRequest := do
  match ← d.fields? ["subnet_id", "ip_address"] with
  | [subnet, address] =>
    return {
      subnet := ← optional Ident.ofDocument? subnet
      address := ← optional Address.ofDocument? address }
  | _ => none

end FixedIpRequest

namespace GatewayChoice

def toJson : GatewayChoice → Json
  | automatic => .string "auto"
  | disabled => .string "disabled"
  | address a => Json.record [("address", some a.toJson)]

def ofDocument? (d : Document) : Option GatewayChoice := do
  match ← d.alternative? with
  | ("auto", none) | ("auto", some .null) => some automatic
  | ("disabled", none) | ("disabled", some .null) => some disabled
  | ("address", some a) => (Address.ofDocument? a).map address
  | _ => none

end GatewayChoice

namespace PoolSpec

def toJson (spec : PoolSpec) : Json :=
  Json.record [("start", some (.string spec.start)), ("end", some (.string spec.stop))]

def ofDocument? (d : Document) : Option PoolSpec := do
  match ← d.fields? ["start", "end"] with
  | [start, stop] => return { start := ← required text? start, stop := ← required text? stop }
  | _ => none

end PoolSpec

namespace SubnetDetails

def toJson (details : SubnetDetails) : Json :=
  Json.record [
    ("subnet", some details.subnet.toJson),
    ("pools", some (Json.ofList Pool.toJson details.pools))]

def ofDocument? (d : Document) : Option SubnetDetails := do
  match ← d.fields? ["subnet", "pools"] with
  | [subnet, pools] =>
    return {
      subnet := ← required Subnet.ofDocument? subnet
      pools := ← required (list? Pool.ofDocument?) pools }
  | _ => none

end SubnetDetails

end ControlPlane
