import ControlPlane.Config
import ControlPlane.Json.Value
import ControlPlane.Port
import ControlPlane.Subnet
import ControlPlane.Text.Rename

/-! Names for what a simulation creates: texts that stand for an identifier in what is asked, and
names that stand for identifiers in what is reported. -/

namespace ControlPlane.Simulation

structure Names where
  references : List (String × String) := []
  shown : List (List Char × List Char) := []

namespace Names

def display (names : Names) (text shown : String) : Names :=
  { names with shown := (text.toList, shown.toList) :: names.shown }

def refer (names : Names) (name text : String) : Names :=
  { names with references := (name, text) :: names.references }

def add (names : Names) (name text : String) : Names := (names.refer name text).display text name

def addSubnet (names : Names) (name : String) (details : SubnetDetails) : Names :=
  (details.pools.zipIdx).foldl
    (fun names (pool, i) => names.add (name ++ "/" ++ Text.decimal i) pool.id.toString)
    (names.add name details.subnet.id.toString)

/-- The drawn octets of an address shown as stars. -/
def maskedMac (base mac : Mac) : String :=
  let octet (i : Nat) (o : UInt8) : List Char :=
    if 3 ≤ i ∧ base.octets[i]? = some 0 then ['*', '*'] else Mac.octetChars o
  String.ofList (List.intercalate [':'] (mac.octets.zipIdx.map fun (o, i) => octet i o))

/-- A created port by its name, and its hardware address by the name with a suffix. -/
def addPort (names : Names) (name : String) (port : Port) (base : Option Mac) : Names :=
  let names := names.add name port.id.toString
    |>.refer (name ++ ".mac") (String.ofList (port.mac.toList.map Char.toLower))
    |>.refer (name ++ ".MAC") (String.ofList (port.mac.toList.map Char.toUpper))
  match base, Mac.ofString? port.mac with
  | some base, some mac => names.display port.mac (maskedMac base mac)
  | _, _ => names

/-- What a text stands for: a name after an at sign for what it refers to, and any other text for
itself. -/
def resolveText (names : Names) (s : String) : String :=
  match s.toList with
  | '@' :: name => (names.references.lookup (String.ofList name)).getD s
  | _ => s

def resolve (names : Names) (v : Json) : Json := v.mapTexts names.resolveText id

def render (names : Names) (v : Json) : Json :=
  v.mapTexts (Text.rename names.shown) (Text.rename names.shown)

end Names

end ControlPlane.Simulation
