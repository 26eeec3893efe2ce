import Wiring.Proofs.Container.Preparation
import Wiring.Proofs.Factory.Constructions
import Wiring.Proofs.Program.Callees

namespace Wiring

variable {H : Host} {registry : Registry H} {policy : ConstructorPolicy} {p : Plan H}
  {r : Registration H} {program : Program H}

/-- What the constructor calls of a plan's program add up to. -/
structure Program.Accounts (p : Plan H) (program : Program H) : Prop where
  planned : p.callCount = constructed p.nodes
  lowered : program.callees.length = p.callCount
  fresh : ∀ cells : Cells H, (∀ binding ∈ program.slots, cells.get? binding.cell = none) →
    program.outstanding cells = program.callees
  settled : ∀ cells : Cells H,
    (∀ binding ∈ program.slots, (cells.get? binding.cell).isSome = true) →
      (p.rootNode.lifetime = .singleton → program.outstanding cells = []) ∧
      (p.rootNode.lifetime = .transient → (program.outstanding cells).length =
        {i | p.Inlined i ∧ ∃ d, p.Stands i d}.ncard)

namespace Program

variable {cells : Cells H}

theorem mem_table {cell : Nat} (h : cell ∈ program.table.toList) :
    ∃ binding ∈ program.slots, binding.cell = cell := by
  rw [Array.mem_toList_iff] at h
  exact Array.mem_map.mp h

theorem InSlotOrder.pending_of_empty (h : program.InSlotOrder)
    (hempty : ∀ binding ∈ program.slots, cells.get? binding.cell = none) :
    program.pending cells = program.initializer := by
  rw [pending, List.filter_eq_self.mpr, List.map_fst_zip (Nat.le_of_eq h.length_table)]
  intro step hstep
  obtain ⟨binding, hbinding, hcell⟩ := mem_table (List.of_mem_zip hstep).2
  rw [← hcell, hempty binding hbinding]
  rfl

theorem pending_of_filled
    (hfilled : ∀ binding ∈ program.slots, (cells.get? binding.cell).isSome = true) :
    program.pending cells = [] := by
  rw [pending, List.map_eq_nil_iff, List.filter_eq_nil_iff]
  intro step hstep
  obtain ⟨binding, hbinding, hcell⟩ := mem_table (List.of_mem_zip hstep).2
  rw [← hcell, Option.isNone_iff_eq_none]
  exact Option.isSome_iff_ne_none.mp (hfilled binding hbinding)

end Program

/-- Planned, lowered and carried out, a registration is built by the same number of constructor
calls: one for each registered node, less those for the cells that are filled already. -/
theorem Registry.constructions_accounted {options : Options} (hr : registry.Assembled) {root : Key}
    (hplan : (registry.plan options root).result = .ok p) (hfits : p.nodes.size ≤ UInt32.size) :
    ∃ program, p.program = .ok program ∧ program.Accounts p ∧
      ∀ (c : Container H) (q : Session H), c.registry = registry → c.options = options →
        q.Reachable c → ∀ factory, (root, factory) ∈ q.factories → ∀ object t,
          factory.produce q.store = .ok object t →
            t.journal.constructed =
              q.store.journal.constructed ++ program.outstanding q.store.cells := by
  obtain ⟨r, program, hroot, hprogram, himplements⟩ := registry.implements_of_plan hr hplan hfits
  have hplanned := registry.callCount_of_plan hr hplan hfits
  refine ⟨program, hprogram, ⟨hplanned, himplements.length_callees.trans hplanned.symm, ?_, ?_⟩, ?_⟩
  · intro cells hempty
    rw [Program.outstanding, (himplements.inSlotOrder hprogram).pending_of_empty hempty,
      Program.callees]
  · intro cells hfilled
    rw [Program.outstanding, Program.pending_of_filled hfilled, List.flatMap_nil, List.nil_append,
      himplements.length_callees_entry]
    exact ⟨himplements.callees_entry_of_singleton, fun _ => himplements.compact.useCalls_root⟩
  · rintro c q rfl rfl hq factory hfactory object t hproduce
    obtain ⟨d, other, hd, -, hother, hmade, hprepared⟩ := hq.factory_spec hfactory hplan hfits
    rw [hroot, Option.some.injEq] at hd
    subst hd
    rw [hprogram, Except.ok.injEq] at hother
    subst hother
    rw [hmade] at hproduce
    exact himplements.produce_constructs hprogram hprepared hproduce

namespace Sample

/-- The vehicle has been built, so that only the car and the lamp are made anew. -/
theorem vehicle_constructions_accounted :
    ∃ key plan, (container.registry.plan container.options key).result = .ok plan ∧
      plan.nodes.size ≤ UInt32.size ∧
      ∃ program, plan.program = .ok program ∧ program.Accounts plan ∧
        session.Reachable container ∧
        ∃ factory object t, (key, factory) ∈ session.factories ∧
          factory.produce session.store = .ok object t ∧
          t.journal.constructed =
            session.store.journal.constructed ++ program.outstanding session.store.cells ∧
          (program.outstanding session.store.cells).length = 2 := by
  have hany : (session.factories.any fun entry => (root == entry.1) &&
      match entry.2.produce session.store with
      | .ok _ t => decide (t.journal.constructed.length =
          session.store.journal.constructed.length + 2)
      | .error _ _ => false) = true := by decide +kernel
  obtain ⟨⟨key, factory⟩, hfactory, hfacts⟩ := List.any_eq_true.mp hany
  obtain ⟨hkey, hbuilt⟩ := Bool.and_eq_true_iff.mp hfacts
  obtain ⟨plan, hplan, hfits⟩ := exists_plan
  have hplan := Registry.plan_congr hkey hplan
  obtain ⟨program, hprogram, haccounts, hcalls⟩ :=
    Registry.constructions_accounted reachable.assembled hplan hfits
  cases hproduce : factory.produce session.store with
  | error e t =>
      rw [hproduce] at hbuilt
      cases hbuilt
  | ok object t =>
      rw [hproduce] at hbuilt
      have hconstructed := hcalls container session rfl rfl reachable factory hfactory object t
        hproduce
      have hlength := congrArg List.length hconstructed
      rw [of_decide_eq_true hbuilt, List.length_append] at hlength
      exact ⟨key, plan, hplan, hfits, program, hprogram, haccounts, reachable, factory, object, t,
        hfactory, hproduce, hconstructed, by omega⟩

end Sample

end Wiring
