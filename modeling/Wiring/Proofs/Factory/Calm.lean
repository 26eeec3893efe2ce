import Wiring.Proofs.Factory.Conduct
import Wiring.Proofs.Factory.Simulation

namespace Wiring

variable {H : Host}

namespace Store

/-- From `s` to `t` filled cells keep their instances, and no factory was compiled or prepared. -/
structure Later (s t : Store H) : Prop where
  keeps : s.cells.Keeps t.cells
  initialized : t.initialized = s.initialized
  nextFactory : t.nextFactory = s.nextFactory

theorem Later.refl (s : Store H) : s.Later s := ⟨.refl _, rfl, rfl⟩

theorem Later.trans {s t u : Store H} (hst : s.Later t) (htu : t.Later u) : s.Later u :=
  ⟨hst.keeps.trans htu.keeps, htu.initialized.trans hst.initialized,
    htu.nextFactory.trans hst.nextFactory⟩

theorem Chatter.later {s t : Store H} (h : s.Chatter t) : s.Later t :=
  ⟨h.cells ▸ .refl _, h.initialized, h.nextFactory⟩

theorem later_fill (s : Store H) (cell : Nat) (object : Instance H) :
    s.Later (s.fill cell object) :=
  ⟨Cells.keeps_fill _ _ _, rfl, rfl⟩

theorem later_enter (s : Store H) (entry : Entry H) : s.Later (s.enter entry) :=
  ⟨.refl _, rfl, rfl⟩

end Store

instance : Std.Refl (Store.Later (H := H)) := ⟨Store.Later.refl⟩

instance : IsTrans (Store H) Store.Later := ⟨fun _ _ _ => Store.Later.trans⟩

abbrev Calm {α : Type} (m : Eval H α) : Prop :=
  Action.Leads Store.Later m

namespace Calm

theorem fill (cell : Nat) (object : Instance H) :
    Calm (modify (·.fill cell object) : Eval H PUnit) :=
  fun s => s.later_fill cell object

theorem invoke (c : Constructor H) (args : List (Option (Instance H))) :
    Calm (c.invoke args) := by
  intro s
  obtain ⟨mid, result, hmid, -, hinvoke⟩ := c.invoke_eq args s
  rw [hinvoke]
  cases result <;> exact hmid.later.trans (mid.later_enter _)

theorem apply (a : Adapter H) (object : Instance H) : Calm (a.apply object) := by
  intro s
  obtain ⟨mid, result, hmid, -, happly⟩ := a.apply_eq object s
  rw [happly]
  cases result <;> exact hmid.later.trans (mid.later_enter _)

theorem substitute (p : Parameter H) : Calm p.substitute := by
  intro s
  rcases p.substitute_eq s with hnone | ⟨mid, object, hmid, -, hsome⟩
  · rw [hnone]
    exact .refl s
  · rw [hsome]
    exact hmid.later.trans (mid.later_enter _)

theorem conduct : Conduct (H := H) Calm where
  pure a := .pure a
  throw e := .throw e
  bind hm hf := hm.bind hf
  look hf _ := .ofState hf
  fill := fill
  invoke := invoke
  apply := apply
  substitute := substitute

end Calm

/-- From `s` to `t` filled cells keep their instances, no factory was compiled, and at most the
factory of this number was prepared. -/
structure Store.LaterBy (number : Nat) (s t : Store H) : Prop where
  keeps : s.cells.Keeps t.cells
  initialized : ∀ k ∈ t.initialized, k ∈ s.initialized ∨ k = number
  nextFactory : t.nextFactory = s.nextFactory

theorem Store.Later.laterBy {s t : Store H} (h : s.Later t) (number : Nat) :
    s.LaterBy number t :=
  ⟨h.keeps, fun _ hk => Or.inl (h.initialized ▸ hk), h.nextFactory⟩

theorem Store.LaterBy.trans {number : Nat} {s t u : Store H} (hst : s.LaterBy number t)
    (htu : t.Later u) : s.LaterBy number u :=
  ⟨hst.keeps.trans htu.keeps, fun k hk => hst.initialized k (htu.initialized ▸ hk),
    htu.nextFactory.trans hst.nextFactory⟩

namespace Program

variable (program : Program H) (number nodeCount : Nat) (s : Store H)

theorem calm_initializer : ∀ code ∈ (program.factory number nodeCount).initializer,
    ∀ table : Array Nat, Calm (code table) := by
  intro code hcode table
  obtain ⟨instruction, -, rfl⟩ := List.mem_map.mp hcode
  exact Calm.conduct.interpret instruction table

theorem prepare_laterBy :
    s.LaterBy number (Action.finalState ((program.factory number nodeCount).prepare s)) := by
  unfold Factory.prepare
  rw [Action.get_bind]
  split
  · exact (Store.Later.refl s).laterBy number
  · have hsteps := Calm.conduct.initializer ⟨program, number, nodeCount, rfl⟩ s
    cases hresult : (program.factory number nodeCount).initializer.forM
        (fun step => discard (step (program.factory number nodeCount).cells)) s with
    | error e t =>
        rw [hresult] at hsteps
        rw [Action.bind_of_error _ hresult]
        exact hsteps.laterBy number
    | ok _ t =>
        rw [hresult] at hsteps
        rw [Action.bind_of_ok _ hresult]
        refine ⟨hsteps.keeps, ?_, hsteps.nextFactory⟩
        intro k hk
        rcases List.mem_cons.mp hk with rfl | hold
        · exact Or.inr rfl
        · exact Or.inl (hsteps.initialized ▸ hold)

theorem produce_laterBy :
    s.LaterBy number (Action.finalState ((program.factory number nodeCount).produce s)) := by
  have hprepare := program.prepare_laterBy number nodeCount s
  unfold Factory.produce
  cases hresult : (program.factory number nodeCount).prepare s with
  | error e t =>
      rw [hresult] at hprepare
      rw [Action.bind_of_error _ hresult]
      exact hprepare
  | ok _ t =>
      rw [hresult] at hprepare
      rw [Action.bind_of_ok _ hresult]
      refine hprepare.trans
        (Action.Leads.bind (Calm.conduct.interpret program.entry _) (fun value => ?_) t)
      cases value with
      | none => exact .throw _
      | some object => exact .pure object

end Program

end Wiring
