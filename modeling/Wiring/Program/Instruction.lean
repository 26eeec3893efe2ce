import Wiring.Plan

namespace Wiring

/-- One instruction. Instructions nest; the inner ones are carried out first. -/
inductive Instruction (H : Host) where
  /-- Evaluate the arguments in order and call the constructor with them. -/
  | call (callee : Constructor H) (args : List (Instruction H))
  | load (slot : SlotId) (service : Key)
  /-- Fill a slot with the value unless it holds an instance already. -/
  | fill (slot : SlotId) (service : Key) (value : Instruction H)
  | default (parameter : Parameter H)
  | adapt (adapter : Adapter H) (value : Instruction H)

/-- A meaning for each instruction, given the meanings of the instructions inside it. -/
structure Interpretation (H : Host) (Meaning : Type) where
  call : Constructor H → List Meaning → Meaning
  load : SlotId → Key → Meaning
  fill : SlotId → Key → Meaning → Meaning
  default : Parameter H → Meaning
  adapt : Adapter H → Meaning → Meaning

namespace Instruction

variable {H : Host} {Meaning : Type}

mutual

def interpret (m : Interpretation H Meaning) : Instruction H → Meaning
  | .call callee args => m.call callee (interpretAll m args)
  | .load slot service => m.load slot service
  | .fill slot service value => m.fill slot service (interpret m value)
  | .default parameter => m.default parameter
  | .adapt adapter value => m.adapt adapter (interpret m value)

def interpretAll (m : Interpretation H Meaning) : List (Instruction H) → List Meaning
  | [] => []
  | instruction :: rest => interpret m instruction :: interpretAll m rest

end

theorem interpretAll_eq_map (m : Interpretation H Meaning) (instructions : List (Instruction H)) :
    interpretAll m instructions = instructions.map (interpret m) := by
  induction instructions with
  | nil => rfl
  | cons instruction rest ih => simp [interpretAll, ih]

end Instruction

end Wiring
