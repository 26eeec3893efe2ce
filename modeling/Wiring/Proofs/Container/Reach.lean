import Wiring.Proofs.Container.Prewarming
import Wiring.Proofs.Container.Resolution
import Wiring.Proofs.Container.Resumption

namespace Wiring

variable {H : Host}

/-- From `s` to `t` client code is called for what the key reaches, and the only cells to change are
those of singletons that it reaches. -/
structure Container.Confined (c : Container H) (key : Key) (s t : Store H) : Prop where
  builds : Store.BuildsOnly c.registry c.options.constructorPolicy
    (c.registry.ReachedFrom c.options.constructorPolicy key) s t
  cells : ∀ cell, t.cells.get? cell ≠ s.cells.get? cell →
    ∃ d, c.registry.ReachedFrom c.options.constructorPolicy key d ∧ d.cell? = some cell

/-- Of two caches every entry is the same but that of the key. -/
def FactoryCache.SameAside {φ : Type} (key : Key) (before after : FactoryCache φ) : Prop :=
  ∀ other, (key == other) = false → after.cell? other = before.cell? other

/-- The operation has failed in this way, and nothing has been called, filled or stored. -/
def ContainerState.Refuses {α : Type} (s : ContainerState H) (e : Failure)
    (result : EStateM.Result Failure (ContainerState H) α) : Prop :=
  ∃ t, result = .error e t ∧ s.store.Idle t.store ∧
    ∀ other, t.cache.get? other = s.cache.get? other

namespace Container.Confined

variable {c : Container H} {key : Key} {s t u : Store H}

theorem trans (hst : c.Confined key s t) (htu : c.Confined key t u) : c.Confined key s u where
  builds := trans_of _ hst.builds htu.builds
  cells := by
    intro cell hchanged
    by_cases hsame : t.cells.get? cell = s.cells.get? cell
    · exact htu.cells cell (hsame ▸ hchanged)
    · exact hst.cells cell hsame

theorem of_idle (h : s.Idle t) : c.Confined key s t where
  builds := .of_silent h.journal
  cells cell hchanged := absurd (congrArg (·.get? cell) h.cells) hchanged

end Container.Confined

namespace Program.Implements

variable {registry : Registry H} {policy : ConstructorPolicy} {p : Plan H} {r : Registration H}
  {program : Program H} {number nodeCount cell : Nat} {s : Store H}

theorem exists_cell (h : program.Implements registry policy p r) {k : Nat}
    (hcell : program.table[k]? = some cell) :
    ∃ d, registry.Reaches policy r d ∧ d.cell? = some cell := by
  have hk : k < p.slots.size := h.size_table ▸ (Array.getElem?_eq_some_iff.mp hcell).1
  obtain ⟨id, d, chosen, args, -, hn, -, hsequence⟩ := h.exists_step hk
  rw [hcell, Option.some.injEq] at hsequence
  have hlifetime := h.compact.mirrors.arena.lifetime_of_slot hn
  exact ⟨d, h.compact.reaches ⟨_, _, _, hn⟩,
    Registration.cell?_eq_some_iff.mpr ⟨hlifetime, hsequence.symm⟩⟩

theorem produce_cells (h : program.Implements registry policy p r)
    (hprepared : s.Prepared registry policy number r)
    (hchanged : (Action.finalState ((program.factory number nodeCount).produce s)).cells.get? cell ≠
      s.cells.get? cell) :
    ∃ d, registry.Reaches policy r d ∧ d.cell? = some cell := by
  obtain ⟨count, hadvanced⟩ : ∃ count, (program.factory number nodeCount).Advanced count s
      (Action.finalState ((program.factory number nodeCount).produce s)) :=
    h.produce_advances hprepared
  cases hbefore : s.cells.get? cell with
  | some object => exact absurd ((hadvanced.keeps cell object hbefore).trans hbefore.symm) hchanged
  | none =>
      rw [hbefore, ← Option.isSome_iff_ne_none, hadvanced.filled_iff, hbefore] at hchanged
      rcases hchanged with hfilled | ⟨k, -, hcell⟩
      · cases hfilled
      · exact h.exists_cell hcell

end Program.Implements

namespace Container

variable (c : Container H) (key : Key) (s : ContainerState H)

theorem plan_idle : s.store.Idle (Action.finalState (c.plan key s)).store ∧
    (Action.finalState (c.plan key s)).cache = s.cache := by
  have hlog := s.store.chatter_foldl_log (c.registry.plan c.options key).log
  rw [c.plan_eq]
  cases (c.registry.plan c.options key).result <;> exact ⟨hlog.idle, rfl⟩

theorem factory_sameAside :
    FactoryCache.SameAside key s.cache (Action.finalState (c.factory key s)).cache := by
  intro other hother
  have hobtains := c.factory_obtains key s
  generalize c.factory key s = result at hobtains ⊢
  cases hobtains with
  | unknown => rfl
  | stored => rfl
  | compiled => simp [Action.finalState, FactoryCache.cell?_fill, FactoryCache.cell?_reserve, hother]
  | failed => simp [Action.finalState, FactoryCache.cell?_reserve, hother]

end Container

namespace Session.Reachable

variable {c : Container H} {q : Session H}

theorem produce_confined (h : q.Reachable c) (hfits : c.PlansFit) {key : Key} {factory : Factory H}
    (hfactory : (key, factory) ∈ q.factories) :
    c.Confined key q.store (Action.finalState (factory.produce q.store)) := by
  obtain ⟨r, plan, program, hroot, -, -, hmade, himplements, hprepared⟩ :=
    h.implements hfits hfactory
  constructor
  · obtain ⟨l, haccounts, hsound⟩ := h.exists_ledger
    obtain ⟨issue, hissue, hkey, rfl⟩ := haccounts.factories _ hfactory
    obtain ⟨d, hd, hbuilds⟩ := hsound.builds h.assembled hfits hissue
    rw [haccounts.state.store] at hbuilds
    exact hbuilds.mono fun e he => ⟨d, c.registry.find?_congr hkey ▸ hd, he⟩
  · intro cell hchanged
    rw [hmade] at hchanged
    obtain ⟨d, hd, hcell⟩ := himplements.produce_cells hprepared hchanged
    exact ⟨d, ⟨r, hroot, hd⟩, hcell⟩

theorem resolve_confined (h : q.Reachable c) (hfits : c.PlansFit) (key : Key) :
    c.Confined key q.store (Action.finalState (c.resolve key q.state)).store ∧
      FactoryCache.SameAside key q.state.cache
        (Action.finalState (c.resolve key q.state)).cache := by
  have hidle := c.factory_idle key q.state
  have haside := c.factory_sameAside key q.state
  have hserved := h.serve (.factory key)
  cases hfactory : c.factory key q.state with
  | error e t =>
      rw [hfactory] at hidle haside
      rw [Container.resolve_of_factory_eq_error hfactory]
      exact ⟨.of_idle hidle, haside⟩
  | ok factory t =>
      rw [hfactory] at hidle haside
      rw [Session.serve, hfactory] at hserved
      have hproduce := hserved.produce_confined hfits
        (List.mem_append_right _ (List.mem_singleton_self (key, factory)))
      change c.Confined key t.store (Action.finalState (factory.produce t.store)) at hproduce
      have hconfined := (Container.Confined.of_idle hidle).trans hproduce
      rw [Container.resolve_of_factory_eq_ok hfactory]
      cases hresult : factory.produce t.store with
      | error e u =>
          rw [hresult] at hconfined
          exact ⟨hconfined, haside⟩
      | ok object u =>
          rw [hresult] at hconfined
          have hannounce := u.chatter_announce c.observers (.resolved key)
          exact ⟨hconfined.trans (.of_idle hannounce.idle), haside⟩

theorem refused (h : q.Reachable c) {key : Key} {e : Failure}
    (hplan : (c.registry.plan c.options key).result = .error e) :
    q.state.Refuses e (c.plan key q.state) ∧ q.state.Refuses e (c.factory key q.state) ∧
      q.state.Refuses e (c.resolve key q.state) := by
  have hplanned := c.plan_idle key q.state
  rw [c.plan_eq, hplan] at hplanned ⊢
  obtain ⟨t, hfactory⟩ := h.factory_of_plan_eq_error hplan
  have hidle := c.factory_idle key q.state
  have hends := c.factory_ends key q.state
  rw [hfactory] at hidle hends
  exact ⟨⟨_, rfl, hplanned.1, fun _ => rfl⟩, ⟨t, hfactory, hidle, hends⟩,
    t, Container.resolve_of_factory_eq_error hfactory, hidle, hends⟩

/-- In every reachable state, planning and compiling a key calls and fills nothing; resolving it and
calling a factory for it reaches no further than the key, and of the cache only the key's entry can
change. If planning fails, nothing is filled or stored at all. -/
theorem resolution_confined (h : q.Reachable c) (hfits : c.PlansFit) (key : Key) :
    (q.store.Idle (Action.finalState (c.plan key q.state)).store ∧
      (Action.finalState (c.plan key q.state)).cache = q.state.cache) ∧
    (q.store.Idle (Action.finalState (c.factory key q.state)).store ∧
      FactoryCache.SameAside key q.state.cache (Action.finalState (c.factory key q.state)).cache) ∧
    (c.Confined key q.store (Action.finalState (c.resolve key q.state)).store ∧
      FactoryCache.SameAside key q.state.cache
        (Action.finalState (c.resolve key q.state)).cache) ∧
    (∀ factory, (key, factory) ∈ q.factories →
      c.Confined key q.store (Action.finalState (Run.eval factory.produce q.state)).store ∧
      (Action.finalState (Run.eval factory.produce q.state)).cache = q.state.cache) ∧
    ∀ e, (c.registry.plan c.options key).result = .error e →
      q.state.Refuses e (c.plan key q.state) ∧ q.state.Refuses e (c.factory key q.state) ∧
        q.state.Refuses e (c.resolve key q.state) := by
  refine ⟨c.plan_idle key q.state, ⟨c.factory_idle key q.state, c.factory_sameAside key q.state⟩,
    h.resolve_confined hfits key, fun factory hfactory => ?_, fun e => h.refused⟩
  have hproduce := h.produce_confined hfits hfactory
  unfold Run.eval
  cases hresult : factory.produce q.state.store with
  | ok object t =>
      rw [Session.store, hresult] at hproduce
      exact ⟨hproduce, rfl⟩
  | error e t =>
      rw [Session.store, hresult] at hproduce
      exact ⟨hproduce, rfl⟩

end Session.Reachable

namespace Sample

/-- The battery fails the first time. Resolving the lamp after that builds the battery and the lamp,
and leaves the cell of the motor empty. -/
theorem lamp_confined :
    let failed := started.serve container (.resolve (.ofType battery))
    failed.Reachable container ∧ container.PlansFit ∧
      ∃ object t, container.resolve (.ofType lamp) failed.state = .ok object t ∧
        container.Confined (.ofType lamp) failed.store t.store ∧
        FactoryCache.SameAside (.ofType lamp) failed.state.cache t.cache ∧
        (t.store.cells.get? 0).isSome = true ∧ t.store.cells.get? 2 = none := by
  intro failed
  have hfailed : failed.Reachable container := started_reachable.serve _
  have hbuilt : (match container.resolve (.ofType lamp) failed.state with
      | .ok _ t => (t.store.cells.get? 0).isSome && (t.store.cells.get? 2).isNone
      | .error _ _ => false) = true := by
    decide +kernel
  obtain ⟨-, -, hconfined, -, -⟩ := hfailed.resolution_confined plansFit (.ofType lamp)
  cases hresult : container.resolve (.ofType lamp) failed.state with
  | error e t =>
      rw [hresult] at hbuilt
      cases hbuilt
  | ok object t =>
      rw [hresult] at hbuilt hconfined
      obtain ⟨hbattery, hmotor⟩ := Bool.and_eq_true_iff.mp hbuilt
      exact ⟨hfailed, plansFit, object, t, rfl, hconfined.1, hconfined.2, hbattery,
        Option.isNone_iff_eq_none.mp hmotor⟩

end Sample

end Wiring
