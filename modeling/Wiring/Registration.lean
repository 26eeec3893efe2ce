import Wiring.Declaration.Adapter
import Wiring.Declaration.Constructor
import Wiring.Service.Lifetime

namespace Wiring

inductive Provision (H : Host) where
  /-- By a constructor of the implementation type, presented as the service by an adapter if the
  two types differ. -/
  | construct (implementation : Implementation H) (lifetime : Lifetime)
      (adapter : Option (Adapter H))
  | given (object : Instance H)

namespace Provision

variable {H : Host}

/-- A ready-made instance lives as long as a singleton. -/
def lifetime : Provision H → Lifetime
  | .construct _ lifetime _ => lifetime
  | .given _ => .singleton

def implementation : Provision H → TypeTag
  | .construct implementation _ _ => implementation.type
  | .given object => object.type

def constructors : Provision H → List (Constructor H)
  | .construct implementation _ _ => implementation.constructors
  | .given object => [.ofInstance object]

def adapter : Provision H → Option (Adapter H)
  | .construct _ _ adapter => adapter
  | .given _ => none

def givenInstance : Provision H → Option (Instance H)
  | .construct _ _ _ => none
  | .given object => some object

end Provision

structure Registration (H : Host) where
  key : Key
  provision : Provision H
  /-- Position in the order of registration; no two registrations of a container share one. -/
  sequence : Nat

namespace Registration

variable {H : Host}

def lifetime (r : Registration H) : Lifetime :=
  r.provision.lifetime

def implementation (r : Registration H) : TypeTag :=
  r.provision.implementation

def constructors (r : Registration H) : List (Constructor H) :=
  r.provision.constructors

def adapter (r : Registration H) : Option (Adapter H) :=
  r.provision.adapter

def givenInstance (r : Registration H) : Option (Instance H) :=
  r.provision.givenInstance

def isInstance (r : Registration H) : Bool :=
  r.givenInstance.isSome

/-- The cell that holds the one instance of a singleton. -/
def cell? (r : Registration H) : Option Nat :=
  match r.lifetime with
  | .singleton => some r.sequence
  | .transient => none

end Registration

end Wiring
