import Wiring.Container.Observer
import Wiring.Factory
import Wiring.Factory.Cache
import Wiring.Plan.Survey
import Wiring.Registry.Descriptor

namespace Wiring

variable {H : Host}

/-- The part of a container that never changes. -/
structure Container (H : Host) where
  registry : Registry H
  options : Options
  observers : List (Observer H)

/-- The part of a container that changes. -/
structure ContainerState (H : Host) where
  store : Store H
  cache : FactoryCache (Factory H)

/-- An operation of a container. A failure keeps what was done before it. -/
abbrev Run (H : Host) := EStateM Failure (ContainerState H)

namespace Run

def eval {α : Type} (action : Eval H α) : Run H α := fun s =>
  match action s.store with
  | .ok a store => .ok a { s with store }
  | .error e store => .error e { s with store }

def onStore (f : Store H → Store H) : Run H Unit :=
  modify fun s => { s with store := f s.store }

end Run

namespace Container

def start (c : Container H) (world : H.World) (journal : Journal H)
    (hash : List Datum → UInt64) : ContainerState H :=
  ⟨.start world (.ofRegistrations c.registry.ordered) journal, .empty hash⟩

def contains (c : Container H) (key : Key) : Bool :=
  c.registry.contains key

def descriptors (c : Container H) : List Descriptor :=
  c.registry.descriptors

def plan (c : Container H) (key : Key) : Run H (Plan H) := fun s =>
  let planning := c.registry.plan c.options key
  let s := { s with store := planning.log.foldl Store.log s.store }
  match planning.result with
  | .ok plan => .ok plan s
  | .error e => .error e s

/-- Compiles a key, whether or not it has a factory, and tells no one. -/
def compileQuietly (c : Container H) (key : Key) : Run H (Factory H) := do
  let plan ← c.plan key
  Run.eval (Factory.compile plan)

def reportReady (c : Container H) (key : Key) (factory : Factory H) (s : Store H) : Store H :=
  let s := s.log (.factoryReady key.label factory.nodeCount factory.cells.size)
  s.announce c.observers (.compiled key (factory.summary s))

def reportFailed (c : Container H) (key : Key) (failure : Failure) (s : Store H) : Store H :=
  (s.log (.compilationFailed key.label failure)).announce c.observers
    (.compileFailed key failure)

/-- Compiles a key, whether or not it has a factory, and tells the observers what came of it. -/
def compile (c : Container H) (key : Key) : Run H (Factory H) := fun s =>
  match c.compileQuietly key s with
  | .ok factory s => .ok factory { s with store := c.reportReady key factory s.store }
  | .error e s => .error e { s with store := c.reportFailed key e s.store }

/-- The factory of a key, compiled when it is first asked for. Keys that are not registered never
reach the cache. -/
def factory (c : Container H) (key : Key) : Run H (Factory H) := do
  if c.contains key then
    FactoryCache.obtain ContainerState.cache (fun s cache => { s with cache }) key (c.compile key)
  else
    throw (.notFound key.displayName)

def resolve (c : Container H) (key : Key) : Run H (Instance H) := do
  if c.observers.isEmpty then
    let factory ← c.factory key
    Run.eval factory.produce
  else
    let factory ← c.factory key
    let object ← Run.eval factory.produce
    Run.onStore (·.announce c.observers (.resolved key))
    return object

/-- Resolves every registration of the key's service, named or not, in the order of registration. -/
def resolveAll (c : Container H) (key : Key) : Run H (List (Instance H)) :=
  (c.registry.ofService key).mapM fun registration => c.resolve registration.key

def prewarmOne (c : Container H) (registration : Registration H) : Run H Unit := do
  let factory ← c.factory registration.key
  if registration.lifetime = .singleton then
    discard (Run.eval factory.produce)

/-- Compiles every registration and builds every singleton, in the order of registration, and says
how many factories had to be compiled. -/
def prewarm (c : Container H) : Run H Nat := do
  let before := (← get).cache.compilations
  c.registry.ordered.forM c.prewarmOne
  let count := (← get).cache.compilations - before
  Run.onStore (·.log (.prewarmed count))
  return count

def inspect (c : Container H) (s : ContainerState H) : String :=
  Text.inspectRecord "ServiceProvider"
    [("services", toString c.registry.size), ("compiled", toString s.cache.size),
     ("options", c.options.inspect)]

end Container

end Wiring
