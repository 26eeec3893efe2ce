import Wiring.Plan.Traversal
import Wiring.Program.Instruction

/-!
Programs: plans as instructions. The initializer fills the slots, dependencies first; the entry
produces the root. Outside the step that fills its slot, a singleton is only ever loaded.
-/

namespace Wiring

variable {H : Host}

structure Binding where
  service : Key
  cell : Nat

structure Program (H : Host) where
  root : Key
  lifetime : Lifetime
  slots : Array Binding
  initializer : List (Instruction H)
  entry : Instruction H

structure Expression (H : Host) where
  build : Instruction H
  /-- What stands for the node where it is an argument or the root. -/
  refer : Instruction H

namespace Node

/-- The instructions of a node, given those of all earlier nodes. A singleton is referred to by its
slot, everything else is built where it is referred to. -/
def express (n : Node H) (earlier : Array (Expression H)) : Expression H :=
  let build : Instruction H :=
    match n.provenance with
    | .defaulted parameter => .default parameter
    | .constructed registration chosen =>
      let args := n.args.filterMap fun arg => (earlier[arg.index]?).map (·.refer)
      match registration.adapter with
      | some adapter => .adapt adapter (.call chosen args)
      | none => .call chosen args
  match n.slot with
  | some slot => ⟨build, .load slot n.service⟩
  | none => ⟨build, build⟩

def binding (n : Node H) : Except Failure Binding :=
  let cell? :=
    match n.provenance with
    | .constructed registration _ => registration.cell?
    | .defaulted _ => none
  match cell? with
  | some cell => .ok ⟨n.service, cell⟩
  | none => .error (.slotUninitialized n.service.displayName)

end Node

namespace Plan

def expressions (p : Plan H) : Array (Expression H) :=
  p.nodes.foldl (fun earlier node => earlier.push (node.express earlier)) #[]

theorem size_expressions (p : Plan H) : p.expressions.size = p.nodes.size := by
  unfold expressions
  refine Array.foldl_induction (fun i (earlier : Array (Expression H)) => earlier.size = i) rfl ?_
  intro i earlier h
  simp [h]

def rootExpression (p : Plan H) : Expression H :=
  have : p.root.index < p.expressions.size := p.size_expressions ▸ p.root_lt
  p.expressions[p.root.index]

def fillStep? (p : Plan H) (expressions : Array (Expression H)) (id : NodeId) :
    Option (Instruction H) := do
  let node ← p.node? id
  let slot ← node.slot
  let expression ← expressions[id.index]?
  return .fill slot node.service expression.build

def program (p : Plan H) : Except Failure (Program H) := do
  let slots ← (p.slots.toList.filterMap p.node?).mapM Node.binding
  return {
    root := p.rootNode.service
    lifetime := p.rootNode.lifetime
    slots := slots.toArray
    initializer := p.buildOrder.filterMap (p.fillStep? p.expressions)
    entry := p.rootExpression.refer }

end Plan

end Wiring
