import Wiring.Proofs.Program

namespace Wiring

variable {H : Host}

/-- One step of an instruction, without the instructions inside it. -/
inductive Operation (H : Host) where
  | call (callee : Constructor H)
  | load (slot : SlotId) (service : Key)
  | fill (slot : SlotId) (service : Key)
  | default (parameter : Parameter H)
  | adapt (adapter : Adapter H)

def Operation.callee? : Operation H → Option (Constructor H)
  | .call callee => some callee
  | _ => none

namespace Instruction

/-- Every operation after those inside it, arguments from left to right. -/
def sequencing : Interpretation H (List (Operation H)) where
  call callee args := args.flatten ++ [.call callee]
  load slot service := [.load slot service]
  fill slot service value := value ++ [.fill slot service]
  default parameter := [.default parameter]
  adapt adapter value := value ++ [.adapt adapter]

def operations (i : Instruction H) : List (Operation H) :=
  i.interpret sequencing

def callees (i : Instruction H) : List (Constructor H) :=
  i.operations.filterMap Operation.callee?

@[simp] theorem operations_call (callee : Constructor H) (args : List (Instruction H)) :
    (call callee args).operations = args.flatMap operations ++ [.call callee] := by
  rw [operations, interpret, interpretAll_eq_map]
  rfl

@[simp] theorem operations_load (slot : SlotId) (service : Key) :
    (load slot service : Instruction H).operations = [.load slot service] := rfl

@[simp] theorem operations_fill (slot : SlotId) (service : Key) (value : Instruction H) :
    (fill slot service value).operations = value.operations ++ [.fill slot service] := rfl

@[simp] theorem operations_default (parameter : Parameter H) :
    (default parameter).operations = [.default parameter] := rfl

@[simp] theorem operations_adapt (adapter : Adapter H) (value : Instruction H) :
    (adapt adapter value).operations = value.operations ++ [.adapt adapter] := rfl

@[simp] theorem callees_call (callee : Constructor H) (args : List (Instruction H)) :
    (call callee args).callees = args.flatMap callees ++ [callee] := by
  rw [callees, operations_call, List.filterMap_append, List.filterMap_flatMap]
  rfl

@[simp] theorem callees_fill (slot : SlotId) (service : Key) (value : Instruction H) :
    (fill slot service value).callees = value.callees := by
  simp [callees, Operation.callee?]

@[simp] theorem callees_adapt (adapter : Adapter H) (value : Instruction H) :
    (adapt adapter value).callees = value.callees := by
  simp [callees, Operation.callee?]

end Instruction

/-- The operations of a node, given those of its arguments. -/
def Node.operations (n : Node H) (args : List (Operation H)) : List (Operation H) :=
  match n.provenance with
  | .defaulted parameter => [.default parameter]
  | .constructed registration chosen =>
    args ++ .call chosen :: (registration.adapter.map .adapt).toList

namespace Plan

variable {p : Plan H} {i : Nat} {n : Node H}

/-- The operations that build the node at a position, which need not exist. -/
def building (p : Plan H) (i : Nat) : List (Operation H) :=
  (p.expressions[i]?.map fun expression => expression.build.operations).getD []

def reference (p : Plan H) (i : Nat) : List (Operation H) :=
  (p.expressions[i]?.map fun expression => expression.refer.operations).getD []

theorem operations_build (hn : p.nodes[i]? = some n) (hargs : ∀ arg ∈ n.args, arg.index < i) :
    (n.express p.expressions).build.operations = p.building i := by
  rw [building, getElem?_expressions hn hargs]
  rfl

theorem operations_refer (hn : p.nodes[i]? = some n) (hargs : ∀ arg ∈ n.args, arg.index < i) :
    (n.express p.expressions).refer.operations = p.reference i := by
  rw [reference, getElem?_expressions hn hargs]
  rfl

theorem building_eq (hn : p.nodes[i]? = some n) (hargs : ∀ arg ∈ n.args, arg.index < i) :
    p.building i = n.operations (n.args.flatMap fun arg => p.reference arg.index) := by
  have hrefers : ((n.args.filterMap fun arg => p.expressions[arg.index]?.map (·.refer)).flatMap
      Instruction.operations) = n.args.flatMap fun arg => p.reference arg.index := by
    rw [List.filterMap_eq_flatMap_toList, List.flatMap_assoc]
    apply List.flatMap_congr
    intro arg _
    unfold reference
    cases p.expressions[arg.index]? <;> simp
  rw [← operations_build hn hargs]
  unfold Node.express Node.operations
  cases n.provenance with
  | defaulted parameter => cases n.slot <;> simp
  | constructed registration chosen =>
      cases hadapter : registration.adapter <;> cases n.slot <;> simp [hadapter, hrefers]

theorem reference_of_slot (hn : p.nodes[i]? = some n) (hargs : ∀ arg ∈ n.args, arg.index < i)
    {slot : SlotId} (hslot : n.slot = some slot) : p.reference i = [.load slot n.service] := by
  rw [← operations_refer hn hargs]
  simp [Node.express, hslot]

theorem reference_of_inline (hn : p.nodes[i]? = some n) (hargs : ∀ arg ∈ n.args, arg.index < i)
    (hslot : n.slot = none) : p.reference i = p.building i := by
  rw [← operations_refer hn hargs, ← operations_build hn hargs]
  simp [Node.express, hslot]

end Plan

end Wiring
