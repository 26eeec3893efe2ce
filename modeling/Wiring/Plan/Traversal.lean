import Wiring.Plan

namespace Wiring.Plan

variable {H : Host}

abbrev Marks := Array Bool

def unmarked (p : Plan H) : Marks :=
  Array.replicate p.nodes.size false

def Marks.has (marks : Marks) (id : NodeId) : Bool :=
  marks.getD id.index false

def Marks.add (marks : Marks) (id : NodeId) : Marks :=
  marks.setIfInBounds id.index true

/-- Visits a node after its arguments and notes it if it has a slot; `visited` are the nodes that
need no second visit. Arguments stand earlier in the arena, so a node is never entered below itself,
and its position bounds the depth. -/
def postOrder (p : Plan H) : Nat → NodeId → Marks × Array NodeId → Marks × Array NodeId
  | 0, _, progress => progress
  | depth + 1, id, (visited, order) =>
    match p.node? id with
    | none => (visited, order)
    | some node =>
      if visited.has id then (visited, order)
      else
        let (visited, order) :=
          node.args.foldl (fun progress arg => p.postOrder depth arg progress)
            (visited.add id, order)
        (visited, if node.slot.isSome then order.push id else order)

/-- The singletons of the plan, each after everything it depends on. -/
def buildOrder (p : Plan H) : List NodeId :=
  (p.postOrder (p.root.index + 1) p.root (p.unmarked, #[])).2.toList

/-- Counts the constructor calls below a node; `counted` are the singletons that need no second
call. -/
def countFrom (p : Plan H) : Nat → NodeId → Marks → Nat × Marks
  | 0, _, counted => (0, counted)
  | depth + 1, id, counted =>
    match p.node? id with
    | none => (0, counted)
    | some node =>
      if node.slot.isSome && counted.has id then (0, counted)
      else
        let counted := if node.slot.isSome then counted.add id else counted
        let own := if node.isDefaulted then 0 else 1
        node.args.foldl
          (fun (calls, counted) arg =>
            let (more, counted) := p.countFrom depth arg counted
            (calls + more, counted))
          (own, counted)

/-- How many constructor calls one evaluation of the root makes when nothing has been built. -/
def callCount (p : Plan H) : Nat :=
  (p.countFrom (p.root.index + 1) p.root p.unmarked).1

end Wiring.Plan
