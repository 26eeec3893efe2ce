import Wiring.Store

/-!
Observers, who are told what a container does. They are code of the program around it: an observer
may go by all that it has been told, see the world and change it. Of a factory it is told the
summary only, so it cannot call the factory.
-/

namespace Wiring

variable {H : Host}

/-- What an observer leaves behind when it has been told something. -/
structure Reaction (H : Host) where
  world : H.World
  remarks : List (Remark H)

structure Observer (H : Host) where
  /-- The reaction to a notice, given the notices before it. -/
  react : List Notice → Notice → H.World → Reaction H

namespace Observer

/-- The observer only watches: it leaves the world as it finds it. -/
def Passive (o : Observer H) : Prop :=
  ∀ told notice world, (o.react told notice world).world = world

/-- The observer that turns each notice into remarks and does nothing else. -/
def ofRemarks (remarks : Notice → List (Remark H)) : Observer H where
  react _ notice world := ⟨world, remarks notice⟩

theorem passive_ofRemarks (remarks : Notice → List (Remark H)) : (ofRemarks remarks).Passive :=
  fun _ _ _ => rfl

/-- Writes everything it is told to the log, under a name of its own. -/
def logging (name : String) : Observer H :=
  ofRemarks fun
    | .compiled key factory =>
      [.log (.observedCompiled name key.label factory.slotCount factory.nodeCount)]
    | .resolved key => [.log (.observedResolved name key.label)]
    | .compileFailed key failure => [.log (.observedFailure name key.label failure)]

def loggingName : String :=
  "ferrous-factory"

end Observer

namespace Store

/-- Tells one observer something, takes over the world it leaves and enters its remarks. -/
def tell (s : Store H) (position : Nat) (observer : Observer H) (notice : Notice) : Store H :=
  let reaction := observer.react (s.journal.heardBy position) notice s.world
  reaction.remarks.foldl (fun s remark => s.enter (.remark remark))
    { s.enter (.notice position notice) with world := reaction.world }

/-- Tells all observers something, in the order in which they were added. -/
def announce (s : Store H) (observers : List (Observer H)) (notice : Notice) : Store H :=
  observers.zipIdx.foldl (fun s (observer, position) => s.tell position observer notice) s

end Store

end Wiring
