import ControlPlane.Error
import ControlPlane.Json.Decode
import ControlPlane.Timestamp

/-! The JSON forms of identifiers, addresses, blocks and times: the texts that name them. -/

namespace ControlPlane

open Document

namespace Ident

variable {kind : Kind}

def toJson (id : Ident kind) : Json := .string id.toString

def ofDocument? (d : Document) : Option (Ident kind) := do ofString? (← d.text?)

end Ident

namespace Ip

namespace Family

def name : Family → String
  | v4 => "ipv4"
  | v6 => "ipv6"

def ofName? (s : String) : Option Family := [v4, v6].find? fun family => family.name == s

def toJson (family : Family) : Json := .string family.name

def ofDocument? : Document → Option Family := plainAlternative? ofName?

end Family

namespace Address

def toJson (a : Address) : Json := .string a.toString

def ofDocument? (d : Document) : Option Address := do ofString? (← d.text?)

end Address

namespace Cidr

def toJson (c : Cidr) : Json := .string c.toString

def ofDocument? (d : Document) : Option Cidr := do ofString? (← d.text?)

end Cidr

def Span.toJson (s : Span) : Json := .array [s.first.toJson, s.last.toJson]

end Ip

namespace Timestamp

def toJson (t : Timestamp) : Json := .string t.toString

def ofDocument? (d : Document) : Option Timestamp := do ofString? (← d.text?)

end Timestamp

end ControlPlane
