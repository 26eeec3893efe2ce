/-!
The program that uses a container. Its constructors, adapters and defaults are code that the
container calls but cannot look into: they may remember things from call to call, and they may
report events.
-/

namespace Wiring

/-- What the container leaves abstract about the program around it. -/
structure Host where
  /-- What client code remembers from one call to the next. -/
  World : Type
  /-- What client code and observers report. -/
  Event : Type
  /-- What instances are made of. -/
  Payload : Type

structure Reply (H : Host) (α : Type) where
  result : α
  world : H.World
  events : List H.Event

/-- A piece of client code: it sees the world and leaves it changed. -/
abbrev Client (H : Host) (α : Type) :=
  H.World → Reply H α

end Wiring
