import Wiring.Client.Host
import Wiring.Service.Key

namespace Wiring

inductive ParameterKind where
  /-- As a reference, which may be absent. -/
  | reference
  /-- By value, which always exists. -/
  | value
deriving DecidableEq, Inhabited

def ParameterKind.inspect : ParameterKind → String
  | .reference => "Reference"
  | .value => "Value"

inductive Parameter (H : Host) where
  | service (type : TypeTag) (name : Option String)
  | interface (type : TypeTag) (name : Option String)
  /-- A copy of a concrete service; a type that is not registered has a default of its own. -/
  | value (type : TypeTag) (standard : Client H H.Payload)

namespace Parameter

variable {H : Host}

def key : Parameter H → Key
  | .service type name => .ofType type name
  | .interface type name => .ofInterface type name
  | .value type _ => .ofType type

def kind : Parameter H → ParameterKind
  | .service _ _ => .reference
  | .interface _ _ => .reference
  | .value _ _ => .value

/-- The runtime type of what is delivered. -/
def delivers : Parameter H → TypeTag
  | .service type _ => type
  | .interface type _ => type.handle
  | .value type _ => type

def inspect (p : Parameter H) : String :=
  Text.inspectRecord "Parameter"
    [("key", p.key.inspect), ("kind", p.kind.inspect),
     ("default", match p.kind with | .reference => "None" | .value => "Some(_)")]

end Parameter

end Wiring
