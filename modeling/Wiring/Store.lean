import Wiring.Journal

/-!
The state that factories work on: the cells of the singletons, the world of the client code and the
journal. Constructors, adapters and defaults are called here; every call is entered into the journal.
-/

namespace Wiring

/-- The instances of singletons by cell, in the order in which the cells were filled. -/
structure Cells (H : Host) where
  filled : List (Nat × Instance H)

namespace Cells

variable {H : Host}

def get? (c : Cells H) (cell : Nat) : Option (Instance H) :=
  c.filled.lookup cell

/-- Fills a cell. A cell that holds an instance keeps it. -/
def fill (c : Cells H) (cell : Nat) (object : Instance H) : Cells H :=
  ⟨c.filled ++ [(cell, object)]⟩

theorem get?_fill (c : Cells H) (cell other : Nat) (object : Instance H) :
    (c.fill cell object).get? other =
      (c.get? other).or (if other = cell then some object else none) := by
  simp only [get?, fill, List.lookup_append]
  congr 1
  by_cases h : other = cell
  · rw [if_pos h, h, List.lookup_cons, beq_self_eq_true]
  · have hne : (other == cell) = false := by simpa using h
    rw [if_neg h, List.lookup_cons, hne, List.lookup_nil]

def ofRegistrations (registrations : List (Registration H)) : Cells H :=
  ⟨registrations.filterMap fun r => r.givenInstance.map fun object => (r.sequence, object)⟩

end Cells

def Registration.isInitialized {H : Host} (r : Registration H) (c : Cells H) : Bool :=
  (r.cell?.bind c.get?).isSome

structure Store (H : Host) where
  world : H.World
  cells : Cells H
  nextSerial : Nat
  nextFactory : Nat
  /-- The factories whose initializers have been completed. -/
  initialized : List Nat
  journal : Journal H

/-- Something evaluated on the store. A failure keeps what was done before it. -/
abbrev Eval (H : Host) := EStateM Failure (Store H)

namespace Store

variable {H : Host}

def start (world : H.World) (cells : Cells H) (journal : Journal H) : Store H :=
  { world, cells, nextSerial := 0, nextFactory := 0, initialized := [], journal }

def enter (s : Store H) (entry : Entry H) : Store H :=
  { s with journal := s.journal.push entry }

def log (s : Store H) (record : LogRecord) : Store H :=
  s.enter (.remark (.log record))

/-- Takes over what client code has left behind. -/
def absorb {α : Type} (s : Store H) (reply : Reply H α) : Store H :=
  { s with
    world := reply.world
    journal := reply.events.foldl (fun journal event => journal.push (.remark (.event event)))
      s.journal }

def create (s : Store H) (type : TypeTag) (payload : H.Payload) : Instance H × Store H :=
  (⟨type, payload, .built s.nextSerial⟩, { s with nextSerial := s.nextSerial + 1 })

def fill (s : Store H) (cell : Nat) (object : Instance H) : Store H :=
  { s with cells := s.cells.fill cell object }

end Store

variable {H : Host}

def Constructor.invoke (c : Constructor H) (args : List (Option (Instance H))) :
    Eval H (Instance H) := fun s =>
  match c.recipe with
  | .handOut object => .ok object (s.enter (.call (.construct c args (.ok object))))
  | .assemble code =>
    let reply := code (.ofValues c.label args) s.world
    let s := s.absorb reply
    match reply.result with
    | .ok payload =>
      let (object, s) := s.create c.implementation payload
      .ok object (s.enter (.call (.construct c args (.ok object))))
    | .error e => .error e (s.enter (.call (.construct c args (.error e))))

/-- Presents an instance as a handle to the adapter's interface. It stays the same object. -/
def Adapter.apply (a : Adapter H) (object : Instance H) : Eval H (Instance H) := fun s =>
  match object.expect a.source with
  | .error e => .error e (s.enter (.call (.adapt a object (.error e))))
  | .ok object =>
    let reply := a.convert object.payload s.world
    let s := s.absorb reply
    match reply.result with
    | .ok payload =>
      let handle : Instance H := ⟨a.target.handle, payload, object.origin⟩
      .ok handle (s.enter (.call (.adapt a object (.ok handle))))
    | .error e => .error e (s.enter (.call (.adapt a object (.error e))))

/-- What a parameter gets when its service is not registered: references nothing, values a new
default. -/
def Parameter.substitute (p : Parameter H) : Eval H (Option (Instance H)) := fun s =>
  match p with
  | .service _ _ => .ok none s
  | .interface _ _ => .ok none s
  | .value type standard =>
    let reply := standard s.world
    let (object, s) := (s.absorb reply).create type reply.result
    .ok (some object) (s.enter (.call (.default p object)))

end Wiring
