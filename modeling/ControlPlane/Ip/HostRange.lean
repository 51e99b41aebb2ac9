import ControlPlane.Ip.Cidr

/-! The addresses of a block that may be given to a host: all but the network address and, for
IPv4, the broadcast address. -/

namespace ControlPlane.Ip

/-- The first and the last host address of a block, if it has any. -/
def hostBounds (c : Cidr) : Option Span :=
  let first := c.networkValue + 1
  let last := match c.family with
    | .v4 => c.lastValue - 1
    | .v6 => c.lastValue
  if first ≤ last then do
    return ⟨← Address.ofValue? c.family first, ← Address.ofValue? c.family last⟩
  else none

/-- Whether an address lies in the block and between its host bounds. -/
def isHostAddress (c : Cidr) (a : Address) : Bool :=
  c.contains a && match hostBounds c with
    | some bounds => bounds.first.value ≤ a.value && a.value ≤ bounds.last.value
    | none => false

end ControlPlane.Ip
