import Wiring.Client.Host
import Wiring.Failure
import Wiring.Service.TypeTag

namespace Wiring

inductive Origin where
  /-- Handed to the container ready-made, with its registration. -/
  | given (sequence : Nat)
  /-- Built by the container: the serial number of the call that made it. -/
  | built (serial : Nat)
deriving DecidableEq, Inhabited

structure Instance (H : Host) where
  type : TypeTag
  payload : H.Payload
  origin : Origin

namespace Instance

variable {H : Host}

def expect (type : TypeTag) (object : Instance H) : Except Failure (Instance H) :=
  if object.type.id = type.id then .ok object else .error (.typeMismatch type.name)

/-- The instance as a shared handle to `interface`, if it is one. Complaints name the interface, not
the handle. -/
def expectInterface (interface : TypeTag) (object : Instance H) : Except Failure (Instance H) :=
  if object.type.id = interface.handle.id then .ok object
  else .error (.typeMismatch interface.name)

theorem expect_eq_ok_iff {type : TypeTag} {object found : Instance H} :
    object.expect type = .ok found ↔ object.type.id = type.id ∧ found = object := by
  unfold expect
  split <;> simp_all [eq_comm]

theorem expectInterface_eq_ok_iff {interface : TypeTag} {object found : Instance H} :
    object.expectInterface interface = .ok found ↔
      object.type.id = interface.handle.id ∧ found = object := by
  unfold expectInterface
  split <;> simp_all [eq_comm]

end Instance

end Wiring
