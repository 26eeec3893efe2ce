import Wiring.Factory
import Wiring.Proofs.Action

namespace Wiring

variable {H : Host}

/-- A branch of emitted code that ends in an internal failure. -/
inductive Fault where
  | unboundSlot (slot : SlotId) (service : Key)
  | emptySlot (slot : SlotId) (service : Key)
  | absentFill (slot : SlotId) (service : Key)
  | absentAdapt
  | absentRoot (root : Key)

/-- What is done in place of an internal failure. -/
abbrev Handler (H : Host) := Fault → Eval H (Option (Instance H))

namespace Handler

def ownFailures : Handler H
  | .unboundSlot _ service => throw (.slotUninitialized service.displayName)
  | .emptySlot _ service => throw (.slotUninitialized service.displayName)
  | .absentFill _ service => throw (.slotUninitialized service.displayName)
  | .absentAdapt => return none
  | .absentRoot root => throw (.notFound root.displayName)

end Handler

namespace Code

def handledLoad (handle : Handler H) (slot : SlotId) (service : Key) : Code H := fun cells => do
  match cells[slot.index]? with
  | none => handle (.unboundSlot slot service)
  | some cell =>
    match (← get).cells.get? cell with
    | some object => return some object
    | none => handle (.emptySlot slot service)

def handledFill (handle : Handler H) (slot : SlotId) (service : Key) (value : Code H) : Code H :=
  fun cells => do
    match cells[slot.index]? with
    | none => handle (.unboundSlot slot service)
    | some cell =>
      match (← get).cells.get? cell with
      | some object => return some object
      | none =>
        match ← value cells with
        | none => handle (.absentFill slot service)
        | some object =>
          modify (·.fill cell object)
          return some object

def handledAdapt (handle : Handler H) (adapter : Adapter H) (value : Code H) : Code H :=
  fun cells => do
    match ← value cells with
    | some object => return some (← adapter.apply object)
    | none => handle .absentAdapt

/-- Instructions as executable code, with a handler in place of every internal failure. -/
def handling (handle : Handler H) : Interpretation H (Code H) where
  call := call
  load := handledLoad handle
  fill := handledFill handle
  default parameter _ := parameter.substitute
  adapt := handledAdapt handle

theorem handling_ownFailures : handling Handler.ownFailures = emission (H := H) := by
  have hload : handledLoad (H := H) Handler.ownFailures = load := by
    funext slot service cells s
    unfold handledLoad load
    cases hcell : cells[slot.index]? with
    | none => rfl
    | some cell =>
        simp only [Action.get_bind, Option.bind_some]
        cases s.cells.get? cell <;> rfl
  have hfill : handledFill (H := H) Handler.ownFailures = fill := by
    funext slot service value cells s
    unfold handledFill fill
    cases hcell : cells[slot.index]? with
    | none => rfl
    | some cell =>
        simp only [Action.get_bind]
        cases s.cells.get? cell with
        | some object => rfl
        | none => rfl
  have hadapt : handledAdapt (H := H) Handler.ownFailures = adapt := by
    funext adapter value cells
    rfl
  rw [handling, emission, hload, hfill, hadapt]

end Code

namespace Program

def table (program : Program H) : Array Nat :=
  program.slots.map Binding.cell

def fillSlots (program : Program H) (handle : Handler H) : Eval H Unit :=
  program.initializer.forM fun step =>
    discard (step.interpret (Code.handling handle) program.table)

/-- The initializer, unless the factory of this number has completed it before. -/
def prepare (program : Program H) (handle : Handler H) (number : Nat) : Eval H Unit := do
  if (← get).initialized.contains number then return
  program.fillSlots handle
  modify fun s => { s with initialized := number :: s.initialized }

/-- Produces the root as the factory of this number does, with a handler in place of every internal
failure. -/
def produce (program : Program H) (handle : Handler H) (number : Nat) :
    Eval H (Option (Instance H)) := do
  program.prepare handle number
  match ← program.entry.interpret (Code.handling handle) program.table with
  | some object => return some object
  | none => handle (.absentRoot program.root)

def factory (program : Program H) (number nodeCount : Nat) : Factory H where
  number
  root := program.root
  lifetime := program.lifetime
  cells := program.table
  initializer := program.initializer.map (Instruction.interpret Code.emission)
  entry := program.entry.interpret Code.emission
  nodeCount
  listing := program.listing

@[simp] theorem factory_cells (program : Program H) (number nodeCount : Nat) :
    (program.factory number nodeCount).cells = program.table := rfl

theorem produce_ownFailures (program : Program H) (number nodeCount : Nat) :
    program.produce Handler.ownFailures number =
      some <$> (program.factory number nodeCount).produce := by
  unfold produce Factory.produce
  have hprepare : program.prepare Handler.ownFailures number =
      (program.factory number nodeCount).prepare := by
    unfold prepare Factory.prepare fillSlots
    rw [Code.handling_ownFailures]
    simp only [factory, Factory.isInitialized, List.forM_eq_forM, List.forM_map]
  rw [hprepare, Code.handling_ownFailures, map_bind]
  congr 1
  funext _
  rw [map_bind]
  congr 1
  funext value
  cases value <;> rfl

end Program

theorem Factory.compile_eq {p : Plan H} {program : Program H} (hprogram : p.program = .ok program)
    (s : Store H) :
    Factory.compile p s = .ok (program.factory s.nextFactory p.nodes.size)
      (({ s with nextFactory := s.nextFactory + 1 } : Store H).log
        (.compiled program.root.label program.lifetime p.nodes.size program.slots.size)) := by
  unfold compile
  rw [hprogram]
  rfl

theorem Factory.of_compile_eq_ok {p : Plan H} {factory : Factory H} {s t : Store H}
    (h : Factory.compile p s = .ok factory t) :
    ∃ program, p.program = .ok program ∧ factory = program.factory s.nextFactory p.nodes.size ∧
      t = ({ s with nextFactory := s.nextFactory + 1 } : Store H).log
        (.compiled program.root.label program.lifetime p.nodes.size program.slots.size) := by
  cases hprogram : p.program with
  | error e =>
      unfold compile at h
      rw [hprogram] at h
      cases h
  | ok program =>
      rw [compile_eq hprogram] at h
      cases h
      exact ⟨program, rfl, rfl, rfl⟩

end Wiring
