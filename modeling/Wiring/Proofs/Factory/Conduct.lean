import Wiring.Proofs.Factory.Handling

/-!
What all emitted code has in common. A property of evaluations that each step of emitted code has,
and that is kept where steps are put together, is a property of every instruction and of every
factory.
-/

namespace Wiring

variable {H : Host}

/-- The property is one of the steps of emitted code, and it is kept where they are put together.
Code looks at the cells and at the memories of factories, and at nothing else. -/
structure Conduct (Φ : ∀ {α : Type}, Eval H α → Prop) : Prop where
  pure {α : Type} (a : α) : Φ (pure a : Eval H α)
  throw {α : Type} (e : Failure) : Φ (throw e : Eval H α)
  bind {α β : Type} {m : Eval H α} {f : α → Eval H β} (hm : Φ m) (hf : ∀ a, Φ (f a)) : Φ (m >>= f)
  look {α : Type} {f : Store H → Eval H α} (hf : ∀ s, Φ (f s))
    (hsame : ∀ s t : Store H, s.cells = t.cells → s.initialized = t.initialized → f s = f t) :
    Φ (get >>= f)
  fill (cell : Nat) (object : Instance H) : Φ (modify (·.fill cell object) : Eval H PUnit)
  invoke (c : Constructor H) (args : List (Option (Instance H))) : Φ (c.invoke args)
  apply (a : Adapter H) (object : Instance H) : Φ (a.apply object)
  substitute (p : Parameter H) : Φ p.substitute

namespace Conduct

variable {Φ : ∀ {α : Type}, Eval H α → Prop} {α β : Type}

theorem mapM (h : Conduct Φ) {f : α → Eval H β} {elements : List α}
    (hf : ∀ a ∈ elements, Φ (f a)) : Φ (elements.mapM f) := by
  induction elements with
  | nil => exact h.pure []
  | cons a rest ih =>
      rw [List.mapM_cons]
      refine h.bind (hf a (by simp)) fun b => ?_
      exact h.bind (ih fun other hother => hf other (by simp [hother])) fun others => h.pure _

theorem forM (h : Conduct Φ) {f : α → Eval H PUnit} {elements : List α}
    (hf : ∀ a ∈ elements, Φ (f a)) : Φ (elements.forM f) := by
  induction elements with
  | nil => exact h.pure _
  | cons a rest ih =>
      rw [List.forM_eq_forM, List.forM_cons]
      exact h.bind (hf a (by simp)) fun _ => ih fun other hother => hf other (by simp [hother])

end Conduct

mutual

theorem Conduct.interpret {Φ : ∀ {α : Type}, Eval H α → Prop} (h : Conduct Φ) :
    ∀ (instruction : Instruction H) (table : Array Nat),
      Φ (instruction.interpret Code.emission table)
  | .call callee args, table =>
      h.bind (h.mapM fun code hcode => h.interpretAll args code hcode table) fun values =>
        h.bind (h.invoke callee values) fun object => h.pure _
  | .load slot service, table => by
      refine h.look (fun s => ?_) fun s t hcells _ => ?_
      · split
        · exact h.pure _
        · exact h.throw _
      · rw [hcells]
  | .fill slot service value, table => by
      simp only [Instruction.interpret]
      change Φ (Code.fill slot service _ table)
      unfold Code.fill
      split
      · exact h.throw _
      · refine h.look (fun s => ?_) fun s t hcells _ => ?_
        · split
          · exact h.pure _
          · refine h.bind (h.interpret value table) fun result => ?_
            cases result with
            | none => exact h.throw _
            | some object => exact h.bind (h.fill _ object) fun _ => h.pure _
        · rw [hcells]
  | .default parameter, table => h.substitute parameter
  | .adapt adapter value, table => by
      simp only [Instruction.interpret]
      change Φ (Code.adapt adapter _ table)
      refine h.bind (h.interpret value table) fun result => ?_
      cases result with
      | none => exact h.pure _
      | some object => exact h.bind (h.apply adapter object) fun _ => h.pure _

theorem Conduct.interpretAll {Φ : ∀ {α : Type}, Eval H α → Prop} (h : Conduct Φ) :
    ∀ (instructions : List (Instruction H)),
      ∀ code ∈ Instruction.interpretAll Code.emission instructions, ∀ table : Array Nat,
        Φ (code table)
  | [], code, hcode, _ => by simp [Instruction.interpretAll] at hcode
  | instruction :: rest, code, hcode, table => by
      rcases List.mem_cons.mp hcode with rfl | hrest
      · exact h.interpret instruction table
      · exact h.interpretAll rest code hrest table

end

/-- The factory was made by compiling. -/
def Factory.Emitted (f : Factory H) : Prop :=
  ∃ (program : Program H) (number nodeCount : Nat), f = program.factory number nodeCount

theorem Factory.emitted_of_compile_eq_ok {p : Plan H} {f : Factory H} {s t : Store H}
    (h : Factory.compile p s = .ok f t) : f.Emitted := by
  obtain ⟨program, -, rfl, -⟩ := Factory.of_compile_eq_ok h
  exact ⟨program, _, _, rfl⟩

namespace Conduct

variable {Φ : ∀ {α : Type}, Eval H α → Prop} {f : Factory H}

theorem initializer (h : Conduct Φ) (hf : f.Emitted) :
    Φ (f.initializer.forM fun step => discard (step f.cells)) := by
  obtain ⟨program, number, nodeCount, rfl⟩ := hf
  refine h.forM fun code hcode => ?_
  obtain ⟨instruction, -, rfl⟩ := List.mem_map.mp hcode
  exact h.bind (h.interpret instruction _) fun _ => h.pure _

theorem entry (h : Conduct Φ) (hf : f.Emitted) : Φ (f.entry f.cells) := by
  obtain ⟨program, number, nodeCount, rfl⟩ := hf
  exact h.interpret program.entry _

theorem produce (h : Conduct Φ) (hf : f.Emitted)
    (hcomplete : ∀ number, Φ (modify fun s => { s with initialized := number :: s.initialized } :
      Eval H PUnit)) : Φ f.produce := by
  have hprepare : Φ f.prepare := by
    refine h.look (fun s => ?_) fun s t _ hmemory => ?_
    · split
      · exact h.pure _
      · exact h.bind (h.initializer hf) fun _ => hcomplete _
    · simp only [Factory.isInitialized, hmemory]
      rfl
  refine h.bind hprepare fun _ => h.bind (h.entry hf) fun value => ?_
  cases value with
  | some object => exact h.pure object
  | none => exact h.throw _

end Conduct

end Wiring
