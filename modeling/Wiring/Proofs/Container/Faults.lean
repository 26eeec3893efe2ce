import Wiring.Proofs.Container.Preparation

namespace Wiring

variable {H : Host}

namespace Session.Reachable

variable {c : Container H} {q : Session H}

/-- Every plan has a program and can be compiled. A factory of it, in whatever state it is called,
reads no empty slot and no slot outside its table, fills no slot with nothing, adapts nothing absent
and never evaluates to nothing: no handler of such faults is ever asked. It fails only as a
constructor or an adapter has failed in that very call. -/
theorem internal_failures_unreachable (h : q.Reachable c) (key : Key) (plan : Plan H)
    (hplan : (c.registry.plan c.options key).result = .ok plan)
    (hfits : plan.nodes.size ≤ UInt32.size) :
    ∃ program, plan.program = .ok program ∧
      (∃ t, Factory.compile plan q.store =
        .ok (program.factory q.store.nextFactory plan.nodes.size) t) ∧
      ∀ factory, (key, factory) ∈ q.factories →
        factory = program.factory factory.number plan.nodes.size ∧
        (∀ handle : Handler H, program.produce handle factory.number q.store =
          (some <$> factory.produce) q.store) ∧
        ∀ e t, factory.produce q.store = .error e t → Blamed q.store e t := by
  obtain ⟨r, program, -, t, -, -, hprogram, -, -, -⟩ := h.compile_spec hplan hfits
  refine ⟨program, hprogram, ⟨_, Factory.compile_eq hprogram q.store⟩, ?_⟩
  intro factory hfactory
  obtain ⟨r, other, hroot, hbuildable, hother, hmade, hprepared⟩ :=
    h.factory_spec hfactory hplan hfits
  rw [hprogram, Except.ok.injEq] at hother
  subst hother
  obtain ⟨hproduce, hhandled⟩ := Registry.produce_simulated h.assembled hplan hfits hprogram hroot
    factory.number plan.nodes.size hprepared
  rw [← hmade] at hproduce hhandled
  refine ⟨hmade, hhandled, ?_⟩
  intro e t herror
  have hends := Registry.produce_ends hbuildable hprepared
  rw [← hproduce, herror] at hends
  exact hends.2

end Session.Reachable

namespace Sample

theorem root_unfailing : ∃ plan program,
    (container.registry.plan container.options root).result = .ok plan ∧
      plan.nodes.size ≤ UInt32.size ∧ session.Reachable container ∧ plan.program = .ok program ∧
      ∀ factory, (root, factory) ∈ session.factories → ∀ handle : Handler host,
        program.produce handle factory.number session.store =
          (some <$> factory.produce) session.store := by
  obtain ⟨plan, hplan, hfits⟩ := exists_plan
  obtain ⟨program, hprogram, -, hfactories⟩ :=
    reachable.internal_failures_unreachable root plan hplan hfits
  exact ⟨plan, program, hplan, hfits, reachable, hprogram,
    fun factory hfactory => (hfactories factory hfactory).2.1⟩

end Sample

end Wiring
