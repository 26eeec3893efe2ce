import Wiring.Service.TypeTag
import Wiring.Text.Inspect

/-!
Service keys. A key names a service, either a concrete type or an interface, and may carry a service
name that tells several registrations of one service apart. Display names of concrete types are
diagnostic: equality, order and digest all ignore them, and `Key.cmp_eq_iff` ties the order to the
equality.
-/

namespace Wiring

/-- What is asked for: a concrete type, known by its identity, or an interface, known by its name. -/
inductive Service where
  | concrete (id : TypeIdentity) (display : String)
  | interface (name : String)
deriving Inhabited

namespace Service

def display : Service → String
  | .concrete _ display => display
  | .interface name => name

def isInterface : Service → Bool
  | .concrete _ _ => false
  | .interface _ => true

/-- Concrete types are the same when their identities are; interfaces when their names are. -/
protected def beq : Service → Service → Bool
  | .concrete a _, .concrete b _ => a == b
  | .interface a, .interface b => a == b
  | _, _ => false

instance : BEq Service := ⟨Service.beq⟩

section Order

variable {order : TypeIdentity → TypeIdentity → Ordering}

/-- The order of services that an order of type identities leads to. Concrete types come before
interfaces. -/
def cmpBy (order : TypeIdentity → TypeIdentity → Ordering) : Service → Service → Ordering
  | .concrete a _, .concrete b _ => order a b
  | .concrete _ _, .interface _ => .lt
  | .interface _, .concrete _ _ => .gt
  | .interface a, .interface b => compare a b

theorem cmpBy_eq_iff (hagree : ∀ s t, order s t = .eq ↔ s = t) {a b : Service} :
    a.cmpBy order b = .eq ↔ (a == b) = true := by
  cases a <;> cases b <;> simp [cmpBy, BEq.beq, Service.beq, hagree]

instance [Std.TransCmp order] : Std.TransCmp (cmpBy order) where
  eq_swap {a b} := by
    cases a <;> cases b <;> simp only [cmpBy]
    case concrete.concrete => exact Std.OrientedCmp.eq_swap
    case interface.interface => exact Std.OrientedCmp.eq_swap
    all_goals rfl
  isLE_trans {a b c} hab hbc := by
    cases a <;> cases b <;> cases c <;> simp only [cmpBy] at hab hbc ⊢
    case concrete.concrete.concrete => exact Std.TransCmp.isLE_trans hab hbc
    case interface.interface.interface => exact Std.TransCmp.isLE_trans hab hbc
    all_goals simp_all [Ordering.isLE]

end Order

theorem isInterface_eq_of_beq {a b : Service} (h : (a == b) = true) :
    a.isInterface = b.isInterface := by
  cases a <;> cases b <;> simp_all [BEq.beq, Service.beq, isInterface]

end Service

/-- Identity of a registration within a container. -/
structure Key where
  service : Service
  name : Option String
deriving Inhabited

inductive Datum where
  | tag (number : UInt8)
  | type (id : TypeIdentity)
  | text (value : String)
deriving DecidableEq

namespace Key

def ofType (t : TypeTag) (name : Option String := none) : Key :=
  ⟨.concrete t.id t.name, name⟩

/-- The key of an interface. Interfaces are told apart by their names alone. -/
def ofInterface (t : TypeTag) (name : Option String := none) : Key :=
  ⟨.interface t.name, name⟩

def displayName (k : Key) : String :=
  k.service.display

def unnamed (k : Key) : Key :=
  { k with name := none }

def named (k : Key) (name : String) : Key :=
  { k with name := some name }

def isInterface (k : Key) : Bool :=
  k.service.isInterface

protected def beq (a b : Key) : Bool :=
  a.service == b.service && a.name == b.name

instance : BEq Key := ⟨Key.beq⟩

/-- Whether both keys ask for the same service, under whatever names. -/
def sameService (a b : Key) : Bool :=
  a.unnamed == b.unnamed

/-- The key as people read it: `app::Server["http"]`. -/
def label (k : Key) : String :=
  match k.name with
  | some name => s!"{k.displayName}[\"{name}\"]"
  | none => k.displayName

instance : ToString Key := ⟨label⟩

def inspect (k : Key) : String :=
  match k.service, k.name with
  | .concrete _ display, none => Text.inspectTuple "Type" ["TypeId(_)", Text.quote display]
  | .concrete _ display, some name =>
    Text.inspectTuple "TypeNamed" ["TypeId(_)", Text.quote display, Text.quote name]
  | .interface interface, none => Text.inspectTuple "Trait" [Text.quote interface]
  | .interface interface, some name =>
    Text.inspectTuple "TraitNamed" [Text.quote interface, Text.quote name]

/-- Position of a key's kind: unnamed before named, concrete types before interfaces. -/
def rank (k : Key) : Nat :=
  (if k.service.isInterface then 2 else 0) + (if k.name.isSome then 1 else 0)

/-- The order of keys that an order of type identities leads to: by kind, then by service, then by
service name. -/
def cmpBy (order : TypeIdentity → TypeIdentity → Ordering) : Key → Key → Ordering :=
  compareLex (compareOn rank)
    (compareLex (fun a b => a.service.cmpBy order b.service) (compareOn Key.name))

def cmp : Key → Key → Ordering :=
  cmpBy TypeIdentity.cmp

/-- What a hash function is fed: the kind, the identity of the service and the service name. -/
def digest (k : Key) : List Datum :=
  let identity : Datum :=
    match k.service with
    | .concrete id _ => .type id
    | .interface name => .text name
  .tag (UInt8.ofNat k.rank) :: identity :: k.name.toList.map .text

theorem beq_iff {a b : Key} :
    (a == b) = true ↔ (a.service == b.service) = true ∧ a.name = b.name := by
  rw [show (a == b) = (a.service == b.service && a.name == b.name) from rfl]
  simp

section Order

variable {order : TypeIdentity → TypeIdentity → Ordering} {a b : Key}

instance [Std.TransCmp order] : Std.TransCmp fun a b : Key => a.service.cmpBy order b.service where
  eq_swap := Std.OrientedCmp.eq_swap
  isLE_trans := Std.TransCmp.isLE_trans

instance [Std.TransCmp order] : Std.TransCmp (cmpBy order) :=
  inferInstanceAs (Std.TransCmp (compareLex _ _))

instance : Std.TransCmp cmp := inferInstanceAs (Std.TransCmp (cmpBy _))

theorem cmpBy_eq_iff (hagree : ∀ s t, order s t = .eq ↔ s = t) :
    cmpBy order a b = .eq ↔ (a == b) = true := by
  rw [beq_iff, cmpBy, compareLex_eq_eq, compareLex_eq_eq, Service.cmpBy_eq_iff hagree]
  constructor
  · rintro ⟨-, hservice, hname⟩
    exact ⟨hservice, by simpa [compareOn] using hname⟩
  · rintro ⟨hservice, hname⟩
    refine ⟨?_, hservice, by simp [compareOn, hname]⟩
    simp [compareOn, rank, hname, Service.isInterface_eq_of_beq hservice]

theorem cmp_eq_iff : cmp a b = .eq ↔ (a == b) = true :=
  cmpBy_eq_iff fun _ _ => TypeIdentity.cmp_eq_iff

end Order

end Key

end Wiring
