import ControlPlane.Error
import ControlPlane.Sort
import ControlPlane.Subnet
import ControlPlane.Text.Blank

/-! The layout of a new subnet: its block, its gateway, and its pools, given or derived. -/

namespace ControlPlane.Subnet

open Ip (Address Cidr Family Span hostBounds)

/-- Reads the block of a subnet, which must be of the expected family and have no host bits. -/
def parseCidr (text : String) (family : Family) : Except Error Cidr :=
  match Cidr.ofString? text with
  | none => .error (.invalidInput s!"Invalid CIDR `{text}`: {Cidr.badText text}")
  | some cidr =>
    if cidr.family ≠ family then .error (.invalidInput s!"CIDR {text} is not an {family} network")
    else if !cidr.isCanonical then
      .error (.invalidInput
        s!"CIDR {text} has host bits set; {cidr.network}/{cidr.length} is recommended")
    else .ok cidr

/-- The gateway of a new subnet: the first host address unless another is asked for. -/
def resolveGateway (cidr : Cidr) : GatewayChoice → Except Error (Option Address)
  | .disabled => .ok none
  | .automatic => .ok ((hostBounds cidr).map Span.first)
  | .address address =>
    if Ip.isHostAddress cidr address then .ok (some address)
    else .error (.invalidInput s!"Gateway {address} is not a valid host address of {cidr}")

/-- The host range with the gateway cut out. -/
def derivePools (cidr : Cidr) (gateway : Option Address) : List Span :=
  match hostBounds cidr with
  | none => []
  | some host =>
    match gateway.filter host.contains with
    | none => [host]
    | some gateway =>
      let below := if host.first.value < gateway.value then
          gateway.previous?.toList.map fun last => (⟨host.first, last⟩ : Span)
        else []
      let above := if gateway.value < host.last.value then
          gateway.next?.toList.map fun first => (⟨first, host.last⟩ : Span)
        else []
      below ++ above

/-- Reads a bound of a pool; blanks around it are allowed. -/
def parseBound (text : String) : Except Error Address :=
  (Address.ofChars? (Text.trim text.toList)).elim
    (.error (.invalidInput s!"Invalid allocation pool bound `{text}`: {Address.badText}")) .ok

def checkPool (cidr : Cidr) (host : Span) (gateway : Option Address) (spec : PoolSpec) :
    Except Error Span := do
  let first ← parseBound spec.start
  let last ← parseBound spec.stop
  let family := host.first.family
  if first.family ≠ family ∨ last.family ≠ family then
    throw (.invalidInput
      s!"Allocation pool {spec.start}-{spec.stop} does not match the subnet IP version")
  if last.value < first.value then
    throw (.invalidInput s!"Allocation pool start {first} is greater than end {last}")
  if first.value < host.first.value ∨ host.last.value < last.value then
    throw (.invalidInput s!"Allocation pool {first}-{last} is outside the host range of {cidr}")
  match gateway with
  | some gateway =>
    if first.value ≤ gateway.value ∧ gateway.value ≤ last.value then
      throw (.invalidInput s!"Gateway {gateway} conflicts with allocation pool {first}-{last}")
  | none => pure ()
  return ⟨first, last⟩

/-- Refuses the first two neighbours that share an address. -/
def checkDisjoint : List Span → Except Error Unit
  | a :: b :: rest =>
    if b.first.value ≤ a.last.value then
      .error (.invalidInput
        s!"Allocation pools {a.first}-{a.last} and {b.first}-{b.last} overlap")
    else checkDisjoint (b :: rest)
  | _ => .ok ()

/-- Reads the pools of an operator and puts them in ascending order. -/
def validatePools (cidr : Cidr) (gateway : Option Address) (specs : List PoolSpec) :
    Except Error (List Span) := do
  match hostBounds cidr with
  | none =>
    throw (.invalidInput s!"Subnet {cidr} has no assignable addresses for allocation pools")
  | some host =>
    let pools ← specs.mapM (checkPool cidr host gateway)
    let pools := sortOn (fun pool => pool.first.value) pools
    checkDisjoint pools
    return pools

end ControlPlane.Subnet
