import Wiring.Proofs.Container.Singletons

namespace Wiring

variable {H : Host}

namespace Container

variable {c : Container H} {key : Key}

theorem compile_of_plan_eq_error {e : Failure}
    (hplan : (c.registry.plan c.options key).result = .error e) (s : ContainerState H) :
    ∃ t, c.compile key s = .error e t := by
  have hrun := c.plan_eq key s
  rw [hplan] at hrun
  unfold compile compileQuietly
  rw [Action.bind_of_error _ hrun]
  exact ⟨_, rfl⟩

theorem compile_of_plan_eq_ok {plan : Plan H} {program : Program H}
    (hplan : (c.registry.plan c.options key).result = .ok plan)
    (hprogram : plan.program = .ok program) (s : ContainerState H) :
    ∃ factory t, c.compile key s = .ok factory t := by
  have hrun := c.plan_eq key s
  rw [hplan] at hrun
  unfold compile compileQuietly
  rw [Action.bind_of_ok _ hrun]
  unfold Run.eval
  rw [Factory.compile_eq hprogram]
  exact ⟨_, _, rfl⟩

theorem contains_of_plan_eq_ok {plan : Plan H}
    (hplan : (c.registry.plan c.options key).result = .ok plan) : c.contains key = true := by
  cases hfind : c.registry.find? key with
  | none =>
      rw [Registry.plan_of_find?_eq_none hfind] at hplan
      cases hplan
  | some r => simp [contains, Registry.contains, hfind]

end Container

namespace Session.Reachable

variable {c : Container H} {q : Session H} {key : Key}

theorem plan_of_cached (h : q.Reachable c) {factory : Factory H}
    (hcached : q.state.cache.get? key = some factory) :
    ∃ plan, (c.registry.plan c.options key).result = .ok plan := by
  obtain ⟨l, haccounts, hsound⟩ := h.exists_ledger
  obtain ⟨issue, hissue, hkey, -⟩ := haccounts.state.cached key factory hcached
  exact ⟨issue.plan, Registry.plan_congr hkey (hsound.compiled issue hissue).1⟩

theorem factory_of_plan_eq_error (h : q.Reachable c) {e : Failure}
    (hplan : (c.registry.plan c.options key).result = .error e) :
    ∃ t, c.factory key q.state = .error e t := by
  unfold Container.factory
  by_cases hcontains : c.contains key = true
  · -- Only what has been planned is ever cached.
    have hmissing : q.state.cache.get? key = none := by
      rw [Option.eq_none_iff_forall_not_mem]
      intro factory hcached
      obtain ⟨plan, hok⟩ := h.plan_of_cached hcached
      rw [hplan] at hok
      cases hok
    obtain ⟨t, hcompile⟩ :=
      Container.compile_of_plan_eq_error hplan { q.state with cache := q.state.cache.reserve key }
    rw [if_pos hcontains, FactoryCache.obtain_of_missing (fun _ _ => rfl) hmissing, hcompile]
    exact ⟨t, rfl⟩
  · have hfind : c.registry.find? key = none := by
      simpa [Container.contains, Registry.contains] using hcontains
    rw [Registry.plan_of_find?_eq_none hfind, Except.error.injEq] at hplan
    rw [if_neg hcontains, hplan]
    exact ⟨q.state, rfl⟩

theorem factory_of_plan_eq_ok (h : q.Reachable c) {plan : Plan H}
    (hplan : (c.registry.plan c.options key).result = .ok plan)
    (hfits : plan.nodes.size ≤ UInt32.size) :
    ∃ factory t, c.factory key q.state = .ok factory t := by
  unfold Container.factory
  rw [if_pos (Container.contains_of_plan_eq_ok hplan)]
  cases hcached : q.state.cache.get? key with
  | some factory =>
      rw [FactoryCache.obtain_of_stored (fun _ => rfl) hcached]
      exact ⟨factory, q.state, rfl⟩
  | none =>
      obtain ⟨-, program, -, -, -, -, hprogram, -⟩ := h.compile_spec hplan hfits
      obtain ⟨factory, t, hcompile⟩ := Container.compile_of_plan_eq_ok hplan hprogram
        { q.state with cache := q.state.cache.reserve key }
      rw [FactoryCache.obtain_of_missing (fun _ _ => rfl) hcached, hcompile]
      exact ⟨factory, _, rfl⟩

/-- Without a plan resolving fails as planning does. With a plan it succeeds, or it ends in a call of
client code that has failed. -/
theorem resolve_ends (h : q.Reachable c) (hfits : c.PlansFit) (key : Key) :
    match (c.registry.plan c.options key).result with
    | .error e => ∃ s, c.resolve key q.state = .error e s
    | .ok _ => (∃ object s, c.resolve key q.state = .ok object s) ∨
        ∃ e s call, c.resolve key q.state = .error e s ∧ Call.failure? call = some e ∧
          Entry.call call ∈ s.store.journal.toList := by
  cases hplan : (c.registry.plan c.options key).result with
  | error e =>
      obtain ⟨t, hfactory⟩ := h.factory_of_plan_eq_error hplan
      exact ⟨t, Container.resolve_of_factory_eq_error hfactory⟩
  | ok plan =>
      obtain ⟨factory, t, hfactory⟩ := h.factory_of_plan_eq_ok hplan (hfits key plan hplan)
      obtain ⟨l, haccounts, hsound⟩ := h.exists_ledger
      have hends := c.factory_accounted key q.state l haccounts.state trivial
      rw [hfactory] at hends
      obtain ⟨m, hsteps, htracks, issue, hissue, -, rfl⟩ := hends
      have hm := hsound.steps h.assembled hsteps
      obtain ⟨r, -, hproduced⟩ :=
        hm.produce_ends h.assembled hissue (hfits _ _ (hm.compiled issue hissue).1)
      rw [htracks.store] at hproduced
      rw [Container.resolve_of_factory_eq_ok hfactory]
      cases hresult : issue.factory.produce t.store with
      | ok object u => exact Or.inl ⟨object, _, rfl⟩
      | error e u =>
          rw [hresult] at hproduced
          obtain ⟨-, call, hcall, entries, hentries⟩ := hproduced
          refine Or.inr ⟨e, _, call, rfl, hcall, ?_⟩
          rw [hentries]
          simp

end Session.Reachable

end Wiring
