import ControlPlane.Network
import ControlPlane.Wire.Basic

/-! The JSON forms of networks and segments. -/

namespace ControlPlane

open Document

namespace Segment

def members (segment : Segment) : List (String × Option Json) :=
  [("network_type", some (.string segment.networkType)),
   ("physical_network", segment.physicalNetwork.map .string),
   ("segmentation_id", segment.segmentationId.map Json.nat)]

def toJson (segment : Segment) : Json :=
  Json.record (("id", some segment.id.toJson) :: segment.members)

def ofDocument? (d : Document) : Option Segment := do
  match ← d.fields? ["id", "network_type", "physical_network", "segmentation_id"] with
  | [id, networkType, physicalNetwork, segmentationId] =>
    return {
      id := ← required Ident.ofDocument? id
      networkType := ← required text? networkType
      physicalNetwork := ← optional text? physicalNetwork
      segmentationId := ← optional (natBelow? (Nat.pow 2 32)) segmentationId }
  | _ => none

end Segment

namespace Network

def toJson (network : Network) : Json :=
  Json.record [
    ("id", some network.id.toJson),
    ("name", some (.string network.name)),
    ("admin_state_up", some (.bool network.adminStateUp)),
    ("shared", some (.bool network.shared)),
    ("segments", some (Json.ofList Segment.toJson network.segments))]

def ofDocument? (d : Document) : Option Network := do
  match ← d.fields? ["id", "name", "admin_state_up", "shared", "segments"] with
  | [id, name, adminStateUp, shared, segments] =>
    return {
      id := ← required Ident.ofDocument? id
      name := ← required text? name
      adminStateUp := ← required flag? adminStateUp
      shared := ← required flag? shared
      segments := ← defaulted (list? Segment.ofDocument?) [] segments }
  | _ => none

end Network

end ControlPlane
