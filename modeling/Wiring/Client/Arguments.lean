import Wiring.Client.Instance

namespace Wiring

/-- The arguments of one constructor call. An argument may be absent. -/
structure Arguments (H : Host) where
  label : String
  values : List (Option (Instance H))
  cursor : Nat

abbrev Reader (H : Host) := EStateM Failure (Arguments H)

namespace Arguments

variable {H : Host}

def ofValues (label : String) (values : List (Option (Instance H))) : Arguments H :=
  ⟨label, values, 0⟩

/-- The next argument. Past the last one the cursor stays where it is. -/
def advance : Reader H (Option (Instance H)) := fun args =>
  match args.values[args.cursor]? with
  | some value => .ok value { args with cursor := args.cursor + 1 }
  | none => .error (.argumentMismatch args.label args.cursor) args

/-- The next argument as whatever `view` makes of it, if it is present. -/
def advanceAs (view : Instance H → Except Failure (Instance H)) :
    Reader H (Option (Instance H)) := do
  match ← advance with
  | none => return none
  | some object =>
    match view object with
    | .ok object => return some object
    | .error e => throw e

/-- What was read, which must be present; `type` is what to call it if it is not. -/
def present (type : TypeTag) (read : Reader H (Option (Instance H))) : Reader H (Instance H) := do
  match ← read with
  | some object => return object
  | none => throw (.missingDependency (← get).label type.name)

def optional (type : TypeTag) : Reader H (Option (Instance H)) :=
  advanceAs (·.expect type)

def required (type : TypeTag) : Reader H (Instance H) :=
  present type (optional type)

def optionalInterface (interface : TypeTag) : Reader H (Option (Instance H)) :=
  advanceAs (·.expectInterface interface)

def requiredInterface (interface : TypeTag) : Reader H (Instance H) :=
  present interface (optionalInterface interface)

def contents (type : TypeTag) : Reader H H.Payload := do
  return (← required type).payload

def unread (args : Arguments H) : Nat :=
  args.values.length - args.cursor

theorem advance_of_lt {args : Arguments H} (h : args.cursor < args.values.length) :
    advance args = .ok args.values[args.cursor] { args with cursor := args.cursor + 1 } := by
  simp [advance, h]

theorem advance_of_le {args : Arguments H} (h : args.values.length ≤ args.cursor) :
    advance args = .error (.argumentMismatch args.label args.cursor) args := by
  simp [advance, h]

end Arguments

end Wiring
