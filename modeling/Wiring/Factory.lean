import Wiring.Factory.Code
import Wiring.Program.Listing

namespace Wiring

variable {H : Host}

structure Factory (H : Host) where
  /-- Tells factories apart, also those for the same root. -/
  number : Nat
  root : Key
  lifetime : Lifetime
  cells : Array Nat
  initializer : List (Code H)
  entry : Code H
  nodeCount : Nat
  listing : String

namespace Factory

def compile (p : Plan H) : Eval H (Factory H) := do
  match p.program with
  | .error e => throw e
  | .ok program =>
    let number := (← get).nextFactory
    modify fun s => { s with nextFactory := number + 1 }
    modify (·.log
      (.compiled program.root.label program.lifetime p.nodes.size program.slots.size))
    return {
      number
      root := program.root
      lifetime := program.lifetime
      cells := program.slots.map Binding.cell
      initializer := program.initializer.map (Instruction.interpret Code.emission)
      entry := program.entry.interpret Code.emission
      nodeCount := p.nodes.size
      listing := program.listing }

def isInitialized (f : Factory H) (s : Store H) : Bool :=
  s.initialized.contains f.number

/-- Carries out the steps of the initializer, unless they have been completed before. After a
failure they are carried out again the next time; what has been filled stays filled. -/
def prepare (f : Factory H) : Eval H Unit := do
  if f.isInitialized (← get) then return
  f.initializer.forM fun step => discard (step f.cells)
  modify fun s => { s with initialized := f.number :: s.initialized }

def produce (f : Factory H) : Eval H (Instance H) := do
  f.prepare
  match ← f.entry f.cells with
  | some object => return object
  | none => throw (.notFound f.root.displayName)

def summary (f : Factory H) (s : Store H) : FactorySummary where
  root := f.root
  lifetime := f.lifetime
  slotCount := f.cells.size
  nodeCount := f.nodeCount
  isInitialized := f.isInitialized s
  listing := f.listing

def inspect (f : Factory H) (s : Store H) : String :=
  Text.inspectRecord "CompiledFactory"
    [("root", f.root.inspect), ("lifetime", f.lifetime.inspect),
     ("slots", toString f.cells.size), ("initializer", toString f.initializer.length),
     ("initialized", if f.isInitialized s then "true" else "false")]

end Factory

end Wiring
