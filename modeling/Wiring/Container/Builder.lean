import Wiring.Container
import Wiring.Plan.Report

namespace Wiring

structure Builder (H : Host) where
  registry : Registry H
  options : Options
  observers : List (Observer H)
  log : Array LogRecord

abbrev Building (H : Host) := EStateM Failure (Builder H)

namespace Builder

variable {H : Host}

def withOptions (options : Options) : Builder H :=
  { registry := .empty, options, observers := [], log := #[] }

/-- Stores a registration, as the registration mode allows. -/
def register (key : Key) (provision : Provision H) : Building H Unit := fun b =>
  let record :=
    LogRecord.registering key.label provision.implementation.name provision.lifetime
  let b := { b with log := b.log.push record }
  match b.registry.insert b.options.registrationMode key provision with
  | .ok registry => .ok () { b with registry }
  | .error e => .error e b

def add (i : Implementation H) (lifetime : Lifetime) (name : Option String := none) :
    Building H Unit :=
  register (.ofType i.type name) (.construct i lifetime none)

/-- Refuses constructors of other types. -/
def checkConstructors (i : Implementation H) : Building H Unit :=
  if i.constructors.all (·.implementation.id == i.type.id) then pure ()
  else throw (.typeMismatch i.type.name)

/-- Registers a type with constructors that are listed by hand, and are therefore checked. -/
def addListed (i : Implementation H) (lifetime : Lifetime) (name : Option String := none) :
    Building H Unit := do
  checkConstructors i
  add i lifetime name

def addInterface (interface : TypeTag) (convert : Conversion H) (i : Implementation H)
    (lifetime : Lifetime) (name : Option String := none) : Building H Unit :=
  register (.ofInterface interface name)
    (.construct i lifetime (some ⟨interface, i.type, convert⟩))

def addGiven (key : Key) (type : TypeTag) (payload : H.Payload) : Building H Unit := do
  register key (.given ⟨type, payload, .given (← get).registry.nextSequence⟩)

def addInstance (type : TypeTag) (payload : H.Payload) (name : Option String := none) :
    Building H Unit :=
  addGiven (.ofType type name) type payload

def addInterfaceInstance (interface : TypeTag) (payload : H.Payload)
    (name : Option String := none) : Building H Unit :=
  addGiven (.ofInterface interface name) interface.handle payload

def addObserver (observer : Observer H) : Building H Unit :=
  modify fun b => { b with observers := b.observers ++ [observer] }

def contains (b : Builder H) (key : Key) : Bool :=
  b.registry.contains key

def size (b : Builder H) : Nat :=
  b.registry.size

def isEmpty (b : Builder H) : Bool :=
  b.size == 0

def descriptors (b : Builder H) : List Descriptor :=
  b.registry.descriptors

def validate : Building H Report := fun b =>
  let (report, log) := b.registry.validate b.options
  .ok report { b with log := b.log ++ log }

def container (b : Builder H) : Container H :=
  { registry := b.registry.freeze, options := b.options, observers := b.observers }

/-- The container that the builder describes, and its first state. The journal goes on from the
builder's log. -/
def build (b : Builder H) (world : H.World) (hash : List Datum → UInt64 := hashDigest) :
    Container H × ContainerState H :=
  let journal := Journal.ofLog (b.log.push (.containerBuilt b.registry.size))
  (b.container, b.container.start world journal hash)

end Builder

end Wiring
