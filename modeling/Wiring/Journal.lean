import Wiring.Journal.LogRecord
import Wiring.Registration

/-!
The journal: everything that happens while services are built and resolved, in order. It holds what
the container logs, what client code and observers report, every call that the container makes with
its outcome, and everything that observers are told.
-/

namespace Wiring

inductive Call (H : Host) where
  | construct (callee : Constructor H) (args : List (Option (Instance H)))
      (result : Except Failure (Instance H))
  | adapt (adapter : Adapter H) (object : Instance H) (result : Except Failure (Instance H))
  | default (parameter : Parameter H) (result : Instance H)

/-- A remark for whoever watches the container. -/
inductive Remark (H : Host) where
  | log (record : LogRecord)
  | event (event : H.Event)

structure FactorySummary where
  root : Key
  lifetime : Lifetime
  slotCount : Nat
  nodeCount : Nat
  isInitialized : Bool
  listing : String

inductive Notice where
  | compiled (key : Key) (factory : FactorySummary)
  | resolved (key : Key)
  /-- Planning or compiling a key has failed. -/
  | compileFailed (key : Key) (failure : Failure)

inductive Entry (H : Host) where
  | remark (remark : Remark H)
  | call (call : Call H)
  /-- An observer, by its position, is told something. -/
  | notice (observer : Nat) (notice : Notice)

def Entry.notice? {H : Host} : Entry H → Option (Nat × Notice)
  | .notice observer told => some (observer, told)
  | _ => none

abbrev Journal (H : Host) := Array (Entry H)

namespace Journal

variable {H : Host}

def ofLog (log : Array LogRecord) : Journal H :=
  log.map fun record => .remark (.log record)

/-- What observers have been told, in order. -/
def heard (j : Journal H) : List (Nat × Notice) :=
  j.toList.filterMap Entry.notice?

/-- What one observer has been told, in order. -/
def heardBy (j : Journal H) (observer : Nat) : List Notice :=
  j.heard.filterMap fun told => if told.1 = observer then some told.2 else none

end Journal

end Wiring
