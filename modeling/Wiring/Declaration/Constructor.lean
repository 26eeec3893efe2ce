import Wiring.Client.Arguments
import Wiring.Declaration.Parameter

namespace Wiring

/-- How a constructor comes by its instance. -/
inductive Recipe (H : Host) where
  | assemble (code : Arguments H → Client H (Except Failure H.Payload))
  | handOut (object : Instance H)

structure Constructor (H : Host) where
  label : String
  implementation : TypeTag
  parameters : List (Parameter H)
  recipe : Recipe H

namespace Constructor

variable {H : Host}

/-- A constructor of `implementation`, labelled with the type's name. -/
def declare (implementation : TypeTag) (parameters : List (Parameter H))
    (code : Arguments H → Client H (Except Failure H.Payload)) : Constructor H :=
  ⟨implementation.name, implementation, parameters, .assemble code⟩

def labelled (c : Constructor H) (label : String) : Constructor H :=
  { c with label }

def ofInstance (object : Instance H) : Constructor H :=
  ⟨object.type.name, object.type, [], .handOut object⟩

def arity (c : Constructor H) : Nat :=
  c.parameters.length

def inspect (c : Constructor H) : String :=
  Text.inspectRecord "Constructor"
    [("label", Text.quote c.label), ("implementation", Text.quote c.implementation.name),
     ("params", Text.inspectList (c.parameters.map Parameter.inspect))]

end Constructor

/-- An implementation type together with the constructors it declares. -/
structure Implementation (H : Host) where
  type : TypeTag
  constructors : List (Constructor H)

end Wiring
