import Wiring.Program.Instruction
import Wiring.Store

namespace Wiring

variable {H : Host}

/-- Executable code for an expression, given the cell of each slot. It yields nothing only for an
absent reference. -/
abbrev Code (H : Host) := Array Nat → Eval H (Option (Instance H))

namespace Code

def call (callee : Constructor H) (args : List (Code H)) : Code H := fun cells => do
  let values ← args.mapM fun arg => arg cells
  return some (← callee.invoke values)

def load (slot : SlotId) (service : Key) : Code H := fun cells => do
  match cells[slot.index]?.bind (← get).cells.get? with
  | some object => return some object
  | none => throw (.slotUninitialized service.displayName)

/-- Fills a slot with the value, which is evaluated only if the slot is empty. -/
def fill (slot : SlotId) (service : Key) (value : Code H) : Code H := fun cells => do
  match cells[slot.index]? with
  | none => throw (.slotUninitialized service.displayName)
  | some cell =>
    match (← get).cells.get? cell with
    | some object => return some object
    | none =>
      match ← value cells with
      | none => throw (.slotUninitialized service.displayName)
      | some object =>
        modify (·.fill cell object)
        return some object

def adapt (adapter : Adapter H) (value : Code H) : Code H := fun cells => do
  match ← value cells with
  | some object => return some (← adapter.apply object)
  | none => return none

def emission : Interpretation H (Code H) where
  call := call
  load := load
  fill := fill
  default parameter _ := parameter.substitute
  adapt := adapt

end Code

end Wiring
