import ControlPlane.Proofs.Ip.Notation
import ControlPlane.Proofs.Json.Members
import ControlPlane.Wire.Port
import ControlPlane.Wire.Subnet

/-! Parts of records that are read back as they were: identifiers, addresses, kinds of interfaces and
what a port asks for at an address. -/

namespace ControlPlane

open Document

variable {kind : Kind}

theorem Ident.ofDocument?_toJson (id : Ident kind) : ofDocument? (.ofJson id.toJson) = some id := by
  simp only [ofDocument?, toJson, ofJson, text?, Option.bind_eq_bind, Option.bind_some,
    ofString?_toString]

theorem Ip.Address.ofDocument?_toJson (a : Ip.Address) : ofDocument? (.ofJson a.toJson) = some a := by
  simp only [ofDocument?, toJson, ofJson, text?, Option.bind_eq_bind, Option.bind_some,
    ofString?_toString]

theorem VnicType.ofDocument?_toJson (vnic : VnicType) :
    ofDocument? (.ofJson vnic.toJson) = some vnic :=
  ofName?_name vnic

theorem optional_text (text : Option String) :
    optional text? ((text.map .string).map ofJson) = some text :=
  optional_map (fun _ => rfl) (fun _ => nofun)

theorem optional_flag (flag : Option Bool) :
    optional flag? ((flag.map .bool).map ofJson) = some flag :=
  optional_map (fun _ => rfl) (fun _ => nofun)

theorem optional_ident (id : Option (Ident kind)) :
    optional Ident.ofDocument? ((id.map Ident.toJson).map ofJson) = some id :=
  optional_map Ident.ofDocument?_toJson (fun _ => nofun)

theorem optional_address (a : Option Ip.Address) :
    optional Ip.Address.ofDocument? ((a.map Ip.Address.toJson).map ofJson) = some a :=
  optional_map Ip.Address.ofDocument?_toJson (fun _ => nofun)

theorem optional_vnic (vnic : Option VnicType) :
    optional VnicType.ofDocument? ((vnic.map VnicType.toJson).map ofJson) = some vnic :=
  optional_map VnicType.ofDocument?_toJson (fun _ => nofun)

theorem FixedIpRequest.ofDocument?_toJson (request : FixedIpRequest) :
    ofDocument? (.ofJson request.toJson) = some request := by
  rw [ofDocument?, toJson, fields?_record]
  · simp only [Option.bind_eq_bind, Option.bind_some, List.map_cons, List.map_nil, optional_ident,
      optional_address]
    rfl
  · rfl
  · decide

theorem optional_fixedIps (requests : Option (List FixedIpRequest)) :
    optional (list? FixedIpRequest.ofDocument?)
      ((requests.map (Json.ofList FixedIpRequest.toJson)).map ofJson) = some requests :=
  optional_map (fun _ => list?_ofList fun request _ => request.ofDocument?_toJson) (fun _ => nofun)

end ControlPlane
