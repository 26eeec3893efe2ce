import Wiring.Text.Inspect

namespace Wiring

/-- Why a container operation failed. Services, types and constructors appear by their printed
names. -/
inductive Failure where
  | notFound (service : String)
  /-- Services depend on each other in a circle; the path ends with the service it meets again. -/
  | circular (path : List String)
  | noConstructor (implementation : String)
  | alreadyRegistered (service : String)
  | missingDependency (service dependency : String)
  | typeMismatch (type : String)
  /-- A constructor read past its last argument. -/
  | argumentMismatch (label : String) (index : Nat)
  | depthExceeded (depth : Nat)
  | slotUninitialized (service : String)
  | construction (service message : String)
  | config (message : String)
deriving DecidableEq, Inhabited

namespace Failure

def message : Failure → String
  | .notFound service => s!"Service not found: {service}"
  | .circular path => "Circular dependency: " ++ " -> ".intercalate path
  | .noConstructor implementation => s!"No usable constructor for: {implementation}"
  | .alreadyRegistered service => s!"Service already registered: {service}"
  | .missingDependency service dependency =>
    s!"Missing dependency {dependency} required by {service}"
  | .typeMismatch type => s!"Type mismatch for: {type}"
  | .argumentMismatch label index => s!"Constructor {label} has no argument at position {index}"
  | .depthExceeded depth => s!"Max depth {depth} exceeded"
  | .slotUninitialized service => s!"Singleton slot not initialized: {service}"
  | .construction service message => s!"Construction of {service} failed: {message}"
  | .config message => s!"Configuration error: {message}"

def inspect : Failure → String
  | .notFound service => Text.inspectTuple "NotFound" [Text.quote service]
  | .circular path => Text.inspectTuple "Circular" [Text.inspectList (path.map Text.quote)]
  | .noConstructor implementation =>
    Text.inspectTuple "NoConstructor" [Text.quote implementation]
  | .alreadyRegistered service => Text.inspectTuple "AlreadyRegistered" [Text.quote service]
  | .missingDependency service dependency =>
    Text.inspectRecord "MissingDependency"
      [("service", Text.quote service), ("dependency", Text.quote dependency)]
  | .typeMismatch type => Text.inspectTuple "TypeMismatch" [Text.quote type]
  | .argumentMismatch label index =>
    Text.inspectRecord "ArgumentMismatch"
      [("constructor", Text.quote label), ("index", toString index)]
  | .depthExceeded depth => Text.inspectTuple "DepthExceeded" [toString depth]
  | .slotUninitialized service => Text.inspectTuple "SlotUninitialized" [Text.quote service]
  | .construction service message =>
    Text.inspectRecord "Construction"
      [("service", Text.quote service), ("message", Text.quote message)]
  | .config message => Text.inspectTuple "Config" [Text.quote message]

end Failure

end Wiring
