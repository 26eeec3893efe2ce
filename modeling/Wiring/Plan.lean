import Wiring.Registration

/-!
Construction plans: how a root service is built. A plan is an arena of nodes in which every node
stands after its arguments. A singleton has one node however many parents ask for it, and a slot; a
transient has a node at every place where it is asked for.
-/

namespace Wiring

/-- Number of a node in its plan, a 32-bit word. -/
structure NodeId where
  val : UInt32
deriving DecidableEq, Inhabited

namespace NodeId

def index (id : NodeId) : Nat :=
  id.val.toNat

def ofIndex (index : Nat) : NodeId :=
  ⟨UInt32.ofNat index⟩

theorem index_ofIndex {n : Nat} (h : n < UInt32.size) : (ofIndex n).index = n :=
  UInt32.toNat_ofNat_of_lt h

theorem index_ofIndex_le (n : Nat) : (ofIndex n).index ≤ n := by
  simp only [index, ofIndex, UInt32.toNat_ofNat']
  omega

end NodeId

structure SlotId where
  val : UInt32
deriving DecidableEq, Inhabited

namespace SlotId

def index (id : SlotId) : Nat :=
  id.val.toNat

def ofIndex (index : Nat) : SlotId :=
  ⟨UInt32.ofNat index⟩

def label (id : SlotId) : String :=
  "slot[" ++ toString id.val.toNat ++ "]"

theorem index_ofIndex {n : Nat} (h : n < UInt32.size) : (ofIndex n).index = n :=
  UInt32.toNat_ofNat_of_lt h

end SlotId

/-- Where the value of a node comes from. -/
inductive Provenance (H : Host) where
  | constructed (registration : Registration H) (chosen : Constructor H)
  | defaulted (parameter : Parameter H)

structure Node (H : Host) where
  provenance : Provenance H
  args : List NodeId
  slot : Option SlotId

namespace Node

variable {H : Host}

def service (n : Node H) : Key :=
  match n.provenance with
  | .constructed registration _ => registration.key
  | .defaulted parameter => parameter.key

/-- A default is made anew for every use. -/
def lifetime (n : Node H) : Lifetime :=
  match n.provenance with
  | .constructed registration _ => registration.lifetime
  | .defaulted _ => .transient

def isDefaulted (n : Node H) : Bool :=
  match n.provenance with
  | .constructed _ _ => false
  | .defaulted _ => true

end Node

structure Plan (H : Host) where
  nodes : Array (Node H)
  root : NodeId
  slots : Array NodeId
  root_lt : root.index < nodes.size

namespace Plan

variable {H : Host}

def node? (p : Plan H) (id : NodeId) : Option (Node H) :=
  p.nodes[id.index]?

def rootNode (p : Plan H) : Node H :=
  have := p.root_lt
  p.nodes[p.root.index]

theorem node?_root (p : Plan H) : p.node? p.root = some p.rootNode :=
  Array.getElem?_eq_getElem p.root_lt

end Plan

end Wiring
