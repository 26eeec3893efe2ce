import Wiring.Container

namespace Wiring

variable {H : Host}

/-- The failure of a resolution that must not fail. -/
structure Abort where
  message : String
deriving DecidableEq

namespace Container

/-- The instance under another view, if it allows the view. -/
def viewed (view : Instance H → Except Failure (Instance H)) (object : Instance H) :
    Run H (Instance H) :=
  match view object with
  | .ok object => return object
  | .error e => throw e

def get (c : Container H) (type : TypeTag) (name : Option String := none) :
    Run H (Instance H) := do
  viewed (·.expect type) (← c.resolve (.ofType type name))

def getInterface (c : Container H) (interface : TypeTag) (name : Option String := none) :
    Run H (Instance H) := do
  viewed (·.expectInterface interface) (← c.resolve (.ofInterface interface name))

def getAll (c : Container H) (type : TypeTag) : Run H (List (Instance H)) := do
  (← c.resolveAll (.ofType type)).mapM (viewed (·.expect type))

def getAllInterface (c : Container H) (interface : TypeTag) : Run H (List (Instance H)) := do
  (← c.resolveAll (.ofInterface interface)).mapM (viewed (·.expectInterface interface))

/-- Lets a failure end the program that asked; `what` is what it asked for. -/
def orAbort {α : Type} (what : String) (run : Run H α) :
    EStateM Abort (ContainerState H) α := fun s =>
  match run s with
  | .ok a s => .ok a s
  | .error e s => .error ⟨"Failed to resolve " ++ what ++ ": " ++ e.inspect⟩ s

def require (c : Container H) (type : TypeTag) :
    EStateM Abort (ContainerState H) (Instance H) :=
  orAbort type.name (c.get type)

def requireInterface (c : Container H) (interface : TypeTag) :
    EStateM Abort (ContainerState H) (Instance H) :=
  orAbort ("trait " ++ interface.name) (c.getInterface interface)

end Container

end Wiring
