import Wiring.Proofs.Container.Caching
import Wiring.Proofs.Container.Occasions

namespace Wiring

variable {H : Host}

def Registry.Built (registry : Registry H) (cells : Cells H) : Prop :=
  ∀ r ∈ registry.toList, ∀ cell, r.cell? = some cell → (cells.get? cell).isSome = true

/-- Every registered key has a factory, and every singleton has been built. -/
structure Container.Warm (c : Container H) (s : ContainerState H) : Prop where
  compiled : ∀ key, c.contains key = true → (s.cache.get? key).isSome = true
  built : c.registry.Built s.store.cells

/-- From `s` to `t` no cell has been filled, and calls have only been made to build transients. -/
structure Store.Rests (registry : Registry H) (policy : ConstructorPolicy) (s t : Store H) :
    Prop where
  cells : t.cells = s.cells
  builds : Store.BuildsOnly registry policy (fun r => r.lifetime = .transient) s t

variable {registry : Registry H} {policy : ConstructorPolicy} {r : Registration H} {s : Store H}

instance : Std.Refl (Store.Rests registry policy) := ⟨fun s => ⟨rfl, refl_of _ s⟩⟩

instance : IsTrans (Store H) (Store.Rests registry policy) :=
  ⟨fun _ _ _ hst htu => ⟨htu.cells.trans hst.cells, trans_of _ hst.builds htu.builds⟩⟩

namespace Registry

theorem Built.filled (h : registry.Built s.cells) (hmem : r ∈ registry.toList) :
    registry.Filled policy s.cells r :=
  fun d hd => h d (hd.mem_toList hmem)

theorem produce_eq_evaluate (hbuildable : registry.Buildable policy registry.size r)
    (hfilled : registry.Filled policy s.cells r) (number : Nat) :
    ∃ memory, registry.produce policy number r s =
      registry.evaluate policy registry.size r { s with initialized := memory } := by
  unfold produce
  by_cases hmem : number ∈ s.initialized
  · rw [Action.bind_of_ok _ (prepare_of_mem hmem)]
    exact ⟨s.initialized, rfl⟩
  · have hprepare : registry.prepare policy number r s =
        .ok () { s with initialized := number :: s.initialized } := by
      rw [prepare_of_not_mem hmem, Action.bind_of_ok _ (fillAll_of_filled hbuildable hfilled)]
      rfl
    rw [Action.bind_of_ok _ hprepare]
    exact ⟨number :: s.initialized, rfl⟩

theorem rests_evaluate (hbuildable : registry.Buildable policy registry.size r)
    (hfilled : registry.Filled policy s.cells r) :
    s.Rests registry policy
      (Action.finalState (registry.evaluate policy registry.size r s)) where
  cells := by
    have hends := evaluate_ends hbuildable hfilled
    cases hresult : registry.evaluate policy registry.size r s with
    | ok object t =>
        rw [hresult] at hends
        exact hends.1.2
    | error e t =>
        rw [hresult] at hends
        exact hends.1.2
  builds := evaluate_builds hbuildable.mem (fun _ _ hlifetime => hlifetime) s

end Registry

namespace Ledger

variable {c : Container H} {l m : Ledger H}

theorem Sound.rests_produce (h : l.Sound c) (hr : c.registry.Assembled) (hfits : c.PlansFit)
    (hbuilt : c.registry.Built l.store.cells) {issue : Issue H} (hissue : issue ∈ l.issued) :
    l.store.Rests c.registry c.options.constructorPolicy
      (Action.finalState (issue.factory.produce l.store)) := by
  obtain ⟨r, hroot, hbuildable, -, hproduce⟩ :=
    h.produce_eq hr hissue (hfits _ _ (h.compiled issue hissue).1)
  have hfilled : c.registry.Filled c.options.constructorPolicy l.store.cells r :=
    hbuilt.filled (Registry.Coherent.mem_of_find? hroot)
  obtain ⟨memory, hevaluate⟩ :=
    Registry.produce_eq_evaluate hbuildable hfilled issue.factory.number
  have hrests := Registry.rests_evaluate (s := { l.store with initialized := memory })
    hbuildable hfilled
  rw [hproduce, hevaluate]
  exact ⟨hrests.cells, hrests.builds⟩

theorem Step.rests (hl : l.Sound c) (hr : c.registry.Assembled) (hfits : c.PlansFit)
    (hbuilt : c.registry.Built l.store.cells) (h : Step c l m) :
    l.store.Rests c.registry c.options.constructorPolicy m.store := by
  cases h with
  | chatter hchatter => exact ⟨hchatter.cells, .of_silent hchatter.journal⟩
  | issue _ hcompile =>
      obtain ⟨program, -, -, rfl⟩ := Factory.of_compile_eq_ok hcompile
      refine ⟨rfl, .of_silent ⟨[.remark _], ?_, Store.journal_enter _ _⟩⟩
      exact List.forall_mem_singleton.mpr rfl
  | produce hissue hproduce =>
      have hrests := hl.rests_produce hr hfits hbuilt hissue
      rw [hproduce] at hrests
      exact hrests
  | fail hissue hproduce =>
      have hrests := hl.rests_produce hr hfits hbuilt hissue
      rw [hproduce] at hrests
      exact hrests

theorem Steps.rests (hl : l.Sound c) (hr : c.registry.Assembled) (hfits : c.PlansFit)
    (hbuilt : c.registry.Built l.store.cells) (h : Steps c l m) :
    l.store.Rests c.registry c.options.constructorPolicy m.store := by
  induction h with
  | refl => exact refl_of _ _
  | tail hsteps hstep ih =>
      refine trans_of _ ih (hstep.rests (hl.steps hr hsteps) hr hfits ?_)
      rw [ih.cells]
      exact hbuilt

end Ledger

def ContainerState.Kept (c : Container H) (s : ContainerState H) : Prop :=
  ∃ l : Ledger H, l.Tracks s ∧ l.Sound c

namespace Container

variable {c : Container H} {s : ContainerState H} {key : Key}

theorem Warm.factory_eq (hwarm : c.Warm s) (hs : s.Kept c) (hr : c.registry.Assembled)
    (hfits : c.PlansFit) (hroot : c.registry.find? key = some r) :
    ∃ factory, c.factory key s = .ok factory s ∧
      c.registry.Buildable c.options.constructorPolicy c.registry.size r ∧
      ∃ number, factory.produce s.store =
        c.registry.produce c.options.constructorPolicy number r s.store := by
  have hcontains : c.contains key = true := by
    simp [contains, Registry.contains, hroot]
  obtain ⟨factory, hcached⟩ := Option.isSome_iff_exists.mp (hwarm.compiled key hcontains)
  obtain ⟨l, htracks, hsound⟩ := hs
  obtain ⟨issue, hissue, hkey, rfl⟩ := htracks.cached key factory hcached
  obtain ⟨d, hd, hbuildable, -, hproduce⟩ :=
    hsound.produce_eq hr hissue (hfits _ _ (hsound.compiled issue hissue).1)
  rw [c.registry.find?_congr hkey, hroot, Option.some.injEq] at hd
  subst hd
  rw [htracks.store] at hproduce
  exact ⟨issue.factory, c.factory_of_cached hcontains hcached, hbuildable, _, hproduce⟩

end Container

namespace Session

variable {c : Container H} {q : Session H}

namespace Reachable

/-- Once every singleton has been built, none is ever built again. -/
theorem rests_run (h : q.Reachable c) (hfits : c.PlansFit)
    (hbuilt : c.registry.Built q.store.cells) (requests : List (Request H)) :
    q.store.Rests c.registry c.options.constructorPolicy (q.run c requests).store := by
  obtain ⟨l, haccounts, hsound⟩ := h.exists_ledger
  obtain ⟨m, hsteps, hmore⟩ := haccounts.run requests
  have hstore : l.store = q.store := haccounts.state.store
  have hrests := hsteps.rests hsound h.assembled hfits (hstore ▸ hbuilt)
  rwa [haccounts.state.store, hmore.state.store] at hrests

/-- Once every registered key has a factory, none is ever compiled again. -/
theorem cache_run (h : q.Reachable c)
    (hcompiled : ∀ key, c.contains key = true → (q.state.cache.get? key).isSome = true)
    (requests : List (Request H)) :
    (q.run c requests).state.cache.compilations = q.state.cache.compilations ∧
      ∀ key, (q.run c requests).state.cache.get? key = q.state.cache.get? key := by
  obtain ⟨m, hm⟩ := h.exists_map
  obtain ⟨n, hn, more, hmore⟩ := run_collects q requests m hm
  -- A further entry of the map would be for a key that has a factory already.
  have hnone : more = [] := by
    rw [List.eq_nil_iff_forall_not_mem]
    intro entry hentry
    have hstored := hcompiled entry.1
      (hn.registered entry (hmore ▸ List.mem_append_right _ hentry))
    rw [hm.represents.get?, FactoryMap.get?, Option.isSome_map, List.find?_isSome] at hstored
    obtain ⟨old, hold, hkey⟩ := hstored
    have hapart := n.apart
    rw [← hmore] at hapart
    exact (List.pairwise_append.mp hapart).2.2 old hold entry hentry hkey
  have hsame : n = m := by
    cases n
    cases m
    simp_all
  subst hsame
  exact ⟨hn.represents.compilations.trans hm.represents.compilations.symm, fun key =>
    (hn.represents.get? key).trans (hm.represents.get? key).symm⟩

theorem kept (h : q.Reachable c) : q.state.Kept c := by
  obtain ⟨l, haccounts, hsound⟩ := h.exists_ledger
  exact ⟨l, haccounts.state, hsound⟩

theorem warm_run (h : q.Reachable c) (hfits : c.PlansFit) (hwarm : c.Warm q.state)
    (requests : List (Request H)) : c.Warm (q.run c requests).state where
  compiled key hkey := (h.cache_run hwarm.compiled requests).2 key ▸ hwarm.compiled key hkey
  built := (h.rests_run hfits hwarm.built requests).cells ▸ hwarm.built

end Reachable

end Session

end Wiring
