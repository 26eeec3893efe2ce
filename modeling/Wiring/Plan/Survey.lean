import Wiring.Journal.LogRecord
import Wiring.Plan
import Wiring.Registry

/-!
From a registry to a plan: a depth-first survey from the root along the parameters of the chosen
constructors. The survey remembers the path of services it is inside of, so that it notices circles
and excessive depth, and the singletons it has planned, so that each gets one node.
-/

namespace Wiring

variable {H : Host}

/-- The constructor that the policy chooses, if any is declared. -/
def ConstructorPolicy.choose? (policy : ConstructorPolicy) (candidates : List (Constructor H)) :
    Option (Constructor H) :=
  match policy with
  | .firstDeclared => candidates.head?
  | .mostParameters =>
    candidates.foldl
      (fun best candidate =>
        match best with
        | none => some candidate
        | some current => if candidate.arity ≤ current.arity then some current else some candidate)
      none

structure Survey (H : Host) where
  nodes : Array (Node H)
  slots : Array NodeId
  planned : Std.TreeMap Key NodeId Key.cmp
  /-- The services being planned, innermost first. -/
  path : List Key
  log : Array LogRecord

namespace Survey

def start : Survey H :=
  { nodes := #[], slots := #[], planned := ∅, path := [], log := #[] }

def descend (s : Survey H) (key : Key) : Survey H :=
  { s with path := key :: s.path }

def ascend (s : Survey H) : Survey H :=
  { s with path := s.path.tail }

/-- Appends a node to the arena; a singleton gets the next slot. -/
def append (s : Survey H) (provenance : Provenance H) (args : List NodeId)
    (lifetime : Lifetime) : NodeId × Survey H :=
  let id := NodeId.ofIndex s.nodes.size
  match lifetime with
  | .singleton =>
    let slot := SlotId.ofIndex s.slots.size
    (id, { s with
      nodes := s.nodes.push ⟨provenance, args, some slot⟩
      slots := s.slots.push id })
  | .transient => (id, { s with nodes := s.nodes.push ⟨provenance, args, none⟩ })

def known? (s : Survey H) (registration : Registration H) : Option NodeId :=
  match registration.lifetime with
  | .singleton => s.planned[registration.key]?
  | .transient => none

/-- Remembers the node of a registration if it needs no second one. -/
def remember (s : Survey H) (registration : Registration H) (id : NodeId) : Survey H :=
  match registration.lifetime with
  | .singleton => { s with planned := s.planned.insert registration.key id }
  | .transient => s

def isInside (s : Survey H) (key : Key) : Bool :=
  s.path.any (· == key)

def pathTo (s : Survey H) (key : Key) : List String :=
  (key :: s.path).reverse.map Key.displayName

end Survey

/-- A step of a survey. A failing step still keeps what it logged. -/
abbrev Planner (H : Host) := EStateM Failure (Survey H)

namespace Planner

/-- Does something inside a service and comes out again, also after a failure. -/
def inside {α : Type} (key : Key) (body : Planner H α) : Planner H α := fun s =>
  match body (s.descend key) with
  | .ok a s => .ok a s.ascend
  | .error e s => .error e s.ascend

def append (provenance : Provenance H) (args : List NodeId) (lifetime : Lifetime) :
    Planner H NodeId := fun s =>
  let (id, s) := s.append provenance args lifetime
  .ok id s

def planMissing (policy : MissingDependencyPolicy) (parent : Registration H)
    (parameter : Parameter H) : Planner H NodeId := do
  match policy with
  | .refuse => throw (.missingDependency parent.key.displayName parameter.key.displayName)
  | .substitute =>
    modify fun s =>
      { s with log :=
          s.log.push (.defaulting parent.key.label parameter.key.label s.path.length) }
    append (.defaulted parameter) [] .transient

/-- Plans a parameter of `parent`; `plan` plans registrations. -/
def planParameter (registry : Registry H) (options : Options)
    (plan : Registration H → Planner H NodeId) (parent : Registration H)
    (parameter : Parameter H) : Planner H NodeId :=
  match registry.find? parameter.key with
  | some dependency => plan dependency
  | none => planMissing options.missingDependency parent parameter

/-- Plans what a registration is built from, in declared order, and then the registration itself. -/
def planParts (registry : Registry H) (options : Options)
    (plan : Registration H → Planner H NodeId) (registration : Registration H) :
    Planner H NodeId := do
  match options.constructorPolicy.choose? registration.constructors with
  | none => throw (.noConstructor registration.implementation.name)
  | some chosen =>
    let args ← chosen.parameters.mapM (planParameter registry options plan registration)
    append (.constructed registration chosen) args registration.lifetime

/-- Plans a registration and everything below it; `budget` is how many services deeper the survey
may go. A singleton that has been planned is not planned again, wherever it is met. -/
def planRegistration (registry : Registry H) (options : Options) :
    Nat → Registration H → Planner H NodeId
  | budget, registration => do
    let s ← get
    match s.known? registration with
    | some id => return id
    | none =>
      if s.isInside registration.key then
        throw (.circular (s.pathTo registration.key))
      match budget with
      | 0 => throw (.depthExceeded s.path.length)
      | budget + 1 =>
        let id ← inside registration.key
          (planParts registry options (planRegistration registry options budget) registration)
        modify (·.remember registration id)
        return id

end Planner

structure Planning (H : Host) where
  result : Except Failure (Plan H)
  log : Array LogRecord

def Registry.plan (registry : Registry H) (options : Options) (root : Key) : Planning H :=
  match registry.find? root with
  | none => ⟨.error (.notFound root.displayName), #[]⟩
  | some registration =>
    match Planner.planRegistration registry options options.maxDepth.toNat registration
        Survey.start with
    | .error e s => ⟨.error e, s.log⟩
    | .ok id s =>
      let log := s.log.push (.planned root.label s.nodes.size s.slots.size)
      -- The survey ends with the number of a node that it has appended.
      if h : id.index < s.nodes.size then ⟨.ok ⟨s.nodes, id, s.slots, h⟩, log⟩
      else ⟨.error (.notFound root.displayName), log⟩

end Wiring
