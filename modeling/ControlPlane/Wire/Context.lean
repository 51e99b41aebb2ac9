import ControlPlane.Wire.Port

/-! What reports tell of ports, bindings and contexts: everything but times and what is clear from
where it stands. -/

namespace ControlPlane

def Port.summary (port : Port) : Json := Json.record port.members

def Binding.summary (binding : Binding) : Json := Json.record binding.members

def PortContext.summary (context : PortContext) : Json :=
  Json.record [
    ("port", some context.port.summary),
    ("network", some context.network.id.toJson),
    ("host", some (Json.orNull (context.binding.host.map .string))),
    ("binding", some context.binding.summary),
    ("bound_segment", some (Json.orNull (context.boundSegment?.map fun s => s.id.toJson))),
    ("segments", some (Json.nat context.network.segments.length)),
    ("original_status",
      some (Json.orNull (context.formerPort.map fun p => p.status.toJson))),
    ("original_binding", some (Json.orNull (context.formerBinding.map Binding.summary))),
    ("new_status", some (Json.orNull (context.newStatus.map PortStatus.toJson)))]

end ControlPlane
