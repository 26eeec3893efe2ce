import Wiring.Proofs.Container.Session
import Wiring.Proofs.Factory.Caching
import Wiring.Proofs.Factory.Handling

namespace Wiring

variable {H : Host}

/-- The cache represents the map, and all keys of the map are registered. -/
structure ContainerState.Holds (c : Container H) (s : ContainerState H)
    (m : FactoryMap (Factory H)) : Prop where
  represents : s.cache.Represents m
  registered : ∀ entry ∈ m.entries, c.contains entry.1 = true

/-- Factories may have been added between the two states, behind those that were there. -/
def Container.Collects (c : Container H) (s t : ContainerState H) : Prop :=
  ∀ m, s.Holds c m → ∃ n, t.Holds c n ∧ m.entries <+: n.entries

namespace Container

variable (c : Container H)

instance : Std.Refl c.Collects := ⟨fun _ m hm => ⟨m, hm, List.prefix_rfl⟩⟩

instance : IsTrans (ContainerState H) c.Collects := ⟨by
  intro s t u hst htu m hm
  obtain ⟨mid, hmid, hfirst⟩ := hst m hm
  obtain ⟨n, hn, hsecond⟩ := htu mid hmid
  exact ⟨n, hn, hfirst.trans hsecond⟩⟩

variable {c} in
theorem Collects.of_cache_eq {s t : ContainerState H} (h : t.cache = s.cache) : c.Collects s t :=
  fun m hm => ⟨m, ⟨h ▸ hm.represents, hm.registered⟩, List.prefix_rfl⟩

def compileOn (key : Key) : Eval H (Factory H) := fun store =>
  match c.compile key ⟨store, .empty hashDigest⟩ with
  | .ok factory s => .ok factory s.store
  | .error e s => .error e s.store

theorem compile_eq (key : Key) : c.compile key = Run.eval (c.compileOn key) := by
  have hquiet : ∀ s : ContainerState H, c.compileQuietly key s =
      match c.compileQuietly key ⟨s.store, .empty hashDigest⟩ with
      | .ok factory t => .ok factory { s with store := t.store }
      | .error e t => .error e { s with store := t.store } := by
    intro s
    unfold compileQuietly
    cases hplan : (c.registry.plan c.options key).result with
    | error e =>
        have hrun : ∀ u : ContainerState H, c.plan key u = .error e
            { u with store := (c.registry.plan c.options key).log.foldl Store.log u.store } := by
          intro u
          rw [plan_eq, hplan]
          rfl
        rw [Action.bind_of_error _ (hrun _), Action.bind_of_error _ (hrun _)]
    | ok plan =>
        have hrun : ∀ u : ContainerState H, c.plan key u = .ok plan
            { u with store := (c.registry.plan c.options key).log.foldl Store.log u.store } := by
          intro u
          rw [plan_eq, hplan]
          rfl
        rw [Action.bind_of_ok _ (hrun _), Action.bind_of_ok _ (hrun _)]
        unfold Run.eval
        dsimp only
        cases Factory.compile plan _ <;> rfl
  funext s
  unfold Run.eval compileOn compile
  rw [hquiet s]
  cases c.compileQuietly key ⟨s.store, .empty hashDigest⟩ <;> rfl

/-- The factory of a key as a use of the map. Keys that are not registered are refused. -/
def factoryFrom (m : FactoryMap (Factory H)) (key : Key) (store : Store H) :
    Except Failure (Factory H) × FactoryMap (Factory H) × Store H :=
  if c.contains key then m.getOrCompile key (c.compileOn key) store
  else (.error (.notFound key.displayName), m, store)

variable {c} {m : FactoryMap (Factory H)} {s : ContainerState H} {key other : Key}
  {found : Factory H}

theorem contains_congr (c : Container H) (hkey : (key == other) = true) :
    c.contains key = c.contains other := by
  unfold contains Registry.contains
  rw [c.registry.find?_congr hkey]

theorem contains_of_stored (hs : s.Holds c m) (hstored : m.get? key = some found) :
    c.contains key = true := by
  obtain ⟨entry, hentry, -⟩ := Option.map_eq_some_iff.mp hstored
  have hkey : (entry.1 == key) = true := by simpa using List.find?_some hentry
  rw [← c.contains_congr hkey]
  exact hs.registered entry (List.mem_of_find?_eq_some hentry)

/-- The container hands out factories as the map does, and goes on with the map that comes of it. -/
theorem factory_refines (hs : s.Holds c m) (key : Key) :
    ∃ t : ContainerState H, c.factory key s = Action.answer (c.factoryFrom m key s.store).1 t ∧
      t.store = (c.factoryFrom m key s.store).2.2 ∧
      t.Holds c (c.factoryFrom m key s.store).2.1 := by
  unfold factory factoryFrom
  by_cases hcontains : c.contains key = true
  · rw [if_pos hcontains, if_pos hcontains]
    cases hstored : m.get? key with
    | some factory =>
        rw [FactoryMap.getOrCompile_of_stored hstored, FactoryCache.obtain_of_stored (fun _ => rfl)
          ((hs.represents.get? key).trans hstored)]
        exact ⟨s, rfl, rfl, hs⟩
    | none =>
        rw [FactoryMap.getOrCompile_of_missing hstored, FactoryCache.obtain_of_missing
          (fun _ _ => rfl) ((hs.represents.get? key).trans hstored), c.compile_eq]
        unfold Run.eval
        dsimp only
        cases c.compileOn key s.store with
        | ok factory store =>
            refine ⟨_, rfl, rfl, hs.represents.fill hstored factory, ?_⟩
            intro entry hentry
            rcases List.mem_append.mp hentry with hold | hnew
            · exact hs.registered entry hold
            · rw [List.mem_singleton.mp hnew]
              exact hcontains
        | error e store => exact ⟨_, rfl, rfl, hs.represents.reserve key, hs.registered⟩
  · rw [if_neg hcontains, if_neg hcontains]
    exact ⟨s, rfl, rfl, hs⟩

theorem factory_of_stored (hs : s.Holds c m) (hstored : m.get? key = some found) :
    c.factory key s = .ok found s := by
  unfold factory
  rw [if_pos (contains_of_stored hs hstored)]
  exact FactoryCache.obtain_of_stored (fun _ => rfl) ((hs.represents.get? key).trans hstored)

theorem prefix_factoryFrom (c : Container H) (m : FactoryMap (Factory H)) (key : Key)
    (store : Store H) : m.entries <+: (c.factoryFrom m key store).2.1.entries := by
  unfold factoryFrom
  split
  · exact m.prefix_getOrCompile key _ store
  · exact List.prefix_rfl

/-- What asking for a factory comes to: the key is not registered, or it has a factory, or it is
compiled. -/
inductive Obtains (c : Container H) (key : Key) (s : ContainerState H) :
    EStateM.Result Failure (ContainerState H) (Factory H) → Prop
  | unknown (hunknown : c.contains key = false) :
      Obtains c key s (.error (.notFound key.displayName) s)
  | stored {factory : Factory H} (hstored : s.cache.get? key = some factory) :
      Obtains c key s (.ok factory s)
  | compiled {factory : Factory H} {t : ContainerState H} (hcontains : c.contains key = true)
      (hmissing : s.cache.get? key = none)
      (hquiet : c.compileQuietly key { s with cache := s.cache.reserve key } = .ok factory t) :
      Obtains c key s (.ok factory
        ⟨c.reportReady key factory t.store, (s.cache.reserve key).fill key factory⟩)
  | failed {e : Failure} {t : ContainerState H} (hcontains : c.contains key = true)
      (hmissing : s.cache.get? key = none)
      (hquiet : c.compileQuietly key { s with cache := s.cache.reserve key } = .error e t) :
      Obtains c key s (.error e ⟨c.reportFailed key e t.store, s.cache.reserve key⟩)

theorem cache_of_compileQuietly (c : Container H) (key : Key) (s : ContainerState H) :
    (Action.finalState (c.compileQuietly key s)).cache = s.cache := by
  have hplan : Action.Ends (fun _ t => t.cache = s.cache) (fun _ t => t.cache = s.cache)
      (c.plan key s) := by
    rw [plan_eq]
    cases (c.registry.plan c.options key).result <;> rfl
  have hquiet : Action.Ends (fun _ t => t.cache = s.cache) (fun _ t => t.cache = s.cache)
      (c.compileQuietly key s) := by
    refine hplan.bind fun plan t ht => ?_
    unfold Run.eval
    cases Factory.compile plan t.store <;> exact ht
  cases hresult : c.compileQuietly key s <;>
    · rw [hresult] at hquiet
      exact hquiet

/-- What logging and numbering keep of the store, compiling keeps. -/
theorem leads_compileQuietly {R : Store H → Store H → Prop} [Std.Refl R] [IsTrans (Store H) R]
    (hlog : ∀ (s : Store H) (record : LogRecord), R s (s.log record))
    (hnumber : ∀ (s : Store H) (number : Nat), R s { s with nextFactory := number })
    (c : Container H) (key : Key) (s : ContainerState H) :
    R s.store (Action.finalState (c.compileQuietly key s)).store := by
  have hlogs : ∀ (records : List LogRecord) (s : Store H), R s (records.foldl Store.log s) := by
    intro records
    induction records with
    | nil => exact fun s => refl_of R s
    | cons record rest ih => exact fun s => trans_of R (hlog s record) (ih _)
  have hplanned := hlogs (c.registry.plan c.options key).log.toList s.store
  rw [Array.foldl_toList] at hplanned
  unfold compileQuietly
  cases hplan : (c.registry.plan c.options key).result with
  | error e =>
      have hrun : c.plan key s = .error e
          { s with store := (c.registry.plan c.options key).log.foldl Store.log s.store } := by
        rw [plan_eq, hplan]
        rfl
      rw [Action.bind_of_error _ hrun]
      exact hplanned
  | ok plan =>
      have hrun : c.plan key s = .ok plan
          { s with store := (c.registry.plan c.options key).log.foldl Store.log s.store } := by
        rw [plan_eq, hplan]
        rfl
      rw [Action.bind_of_ok _ hrun]
      unfold Run.eval
      cases hprogram : plan.program with
      | error e =>
          unfold Factory.compile
          rw [hprogram]
          exact hplanned
      | ok program =>
          rw [Factory.compile_eq hprogram]
          exact trans_of R hplanned (trans_of R (hnumber _ _) (hlog _ _))

theorem factory_obtains (c : Container H) (key : Key) (s : ContainerState H) :
    c.Obtains key s (c.factory key s) := by
  unfold factory
  split
  next hcontains =>
    cases hcached : s.cache.get? key with
    | some factory =>
        rw [FactoryCache.obtain_of_stored (fun _ => rfl) hcached]
        exact .stored hcached
    | none =>
        rw [FactoryCache.obtain_of_missing (fun _ _ => rfl) hcached]
        unfold compile
        cases hquiet : c.compileQuietly key { s with cache := s.cache.reserve key } with
        | ok factory t => exact .compiled hcontains hcached hquiet
        | error e t =>
            have hcache := c.cache_of_compileQuietly key { s with cache := s.cache.reserve key }
            rw [hquiet] at hcache
            cases t with
            | mk store cache =>
                cases hcache
                exact .failed hcontains hcached hquiet
  next hunknown => exact .unknown (by simpa using hunknown)

theorem factory_of_cached (c : Container H) (hcontains : c.contains key = true)
    (hcached : s.cache.get? key = some found) : c.factory key s = .ok found s := by
  unfold factory
  rw [if_pos hcontains]
  exact FactoryCache.obtain_of_stored (fun _ => rfl) hcached

theorem stored_of_factory_eq_ok {factory : Factory H} {t : ContainerState H}
    (h : c.factory key s = .ok factory t) : t.cache.get? key = some factory := by
  have hobtains := c.factory_obtains key s
  rw [h] at hobtains
  cases hobtains with
  | stored hstored => exact hstored
  | compiled hcontains hmissing hquiet => simp [FactoryCache.get?_fill_reserve]

section

open Wiring.Action

variable (c : Container H)

theorem eval_collects {α : Type} (action : Eval H α) : Leads c.Collects (Run.eval action) := by
  intro s
  unfold Run.eval
  cases action s.store <;> exact .of_cache_eq rfl

theorem onStore_collects (f : Store H → Store H) : Leads c.Collects (Run.onStore f) :=
  fun _ => .of_cache_eq rfl

theorem plan_collects (key : Key) : Leads c.Collects (c.plan key) := by
  intro s
  rw [plan_eq]
  cases (c.registry.plan c.options key).result <;> exact .of_cache_eq rfl

theorem factory_collects (key : Key) : Leads c.Collects (c.factory key) := by
  intro s m hm
  obtain ⟨t, hfactory, -, ht⟩ := factory_refines hm key
  rw [hfactory]
  cases hresult : (c.factoryFrom m key s.store).1 <;>
    exact ⟨_, ht, c.prefix_factoryFrom m key s.store⟩

theorem resolve_collects (key : Key) : Leads c.Collects (c.resolve key) := by
  rw [c.resolve_eq]
  exact (c.factory_collects key).bind fun _ => (c.eval_collects _).bind fun _ =>
    (c.onStore_collects _).bind fun _ => .pure _

theorem resolveAll_collects (key : Key) : Leads c.Collects (c.resolveAll key) :=
  .mapM fun r _ => c.resolve_collects r.key

theorem prewarmOne_collects (r : Registration H) : Leads c.Collects (c.prewarmOne r) := by
  refine (c.factory_collects r.key).bind fun factory => ?_
  split
  · exact (c.eval_collects _).discard
  · exact .pure _

theorem prewarm_collects : Leads c.Collects c.prewarm := by
  refine .ofState fun before => ?_
  refine Leads.bind (.forM fun r _ => c.prewarmOne_collects r) fun _ => ?_
  exact .ofState fun after => (c.onStore_collects _).bind fun _ => .pure _

theorem viewed_collects (view : Instance H → Except Failure (Instance H)) (object : Instance H) :
    Leads c.Collects (viewed view object) := by
  unfold viewed
  split
  · exact .pure _
  · exact .throw _

end

end Container

namespace Session

variable {c : Container H} {q : Session H}

theorem after_collects {α : Type} {m : Run H α} (hm : Action.Leads c.Collects m)
    {keep : α → Session H → Session H} (hkeep : ∀ a p, (keep a p).state = p.state) :
    c.Collects q.state (q.after (m q.state) keep).state := by
  have hstate := hm q.state
  unfold after
  cases hresult : m q.state with
  | ok a t =>
      rw [hresult] at hstate
      rw [hkeep]
      exact hstate
  | error e t =>
      rw [hresult] at hstate
      exact hstate

theorem serve_collects (request : Request H) : c.Collects q.state (q.serve c request).state := by
  cases request with
  | plan key => exact after_collects (c.plan_collects key) fun _ _ => rfl
  | compile position =>
      simp only [serve]
      split
      · exact refl_of c.Collects _
      · exact after_collects (c.eval_collects _) fun _ _ => rfl
  | factory key => exact after_collects (c.factory_collects key) fun _ _ => rfl
  | produce position =>
      simp only [serve]
      split
      · exact refl_of c.Collects _
      · exact after_collects (c.eval_collects _) fun _ _ => rfl
  | resolve key => exact after_collects (c.resolve_collects key) fun _ _ => rfl
  | resolveAll key => exact after_collects (c.resolveAll_collects key) fun _ _ => rfl
  | prewarm => exact after_collects c.prewarm_collects fun _ _ => rfl
  | get type name =>
      exact after_collects ((c.resolve_collects _).bind fun _ => c.viewed_collects _ _)
        fun _ _ => rfl
  | getInterface interface name =>
      exact after_collects ((c.resolve_collects _).bind fun _ => c.viewed_collects _ _)
        fun _ _ => rfl
  | getAll type =>
      exact after_collects ((c.resolveAll_collects _).bind fun _ =>
        .mapM fun object _ => c.viewed_collects _ object) fun _ _ => rfl
  | getAllInterface interface =>
      exact after_collects ((c.resolveAll_collects _).bind fun _ =>
        .mapM fun object _ => c.viewed_collects _ object) fun _ _ => rfl
  | remember change => exact .of_cache_eq rfl

theorem run_collects (q : Session H) (requests : List (Request H)) :
    c.Collects q.state (q.run c requests).state := by
  induction requests generalizing q with
  | nil => exact refl_of c.Collects _
  | cons request rest ih => exact trans_of c.Collects (serve_collects request) (ih _)

theorem Reachable.exists_map (h : q.Reachable c) : ∃ m, q.state.Holds c m := by
  obtain ⟨b, world, hash, requests, -, rfl, rfl⟩ := h
  obtain ⟨m, hm, -⟩ := run_collects (c := b.container) (b.session world hash) requests .empty
    ⟨FactoryCache.represents_empty hash, List.forall_mem_nil _⟩
  exact ⟨m, hm⟩

/-- The factory cache is one map up to equality of keys. Whatever the hash and whatever code the
compilations run, a cache answers any requests as the map does and leaves behind what the map leaves
behind; the map keeps its factories. In a container all keys of the map are registered, factories
are handed out and compiled as the map does it, and those that are in the map are handed out as they
are ever after, without compiling. As the map holds one factory for each compilation that has
succeeded, no key is compiled successfully twice. -/
theorem Reachable.cache_refines_map {ε τ φ : Type} (hash : List Datum → UInt64) (outside : τ)
    (requests more : List (CacheRequest ε τ φ)) (h : q.Reachable c) :
    (∀ key other : Key, (key == other) = true → key.digest = other.digest) ∧
    (let served := requests.mapM FactoryCache.serve (.empty hash, outside)
      let modelled := requests.mapM FactoryMap.serve (.empty, outside)
      let later := (requests ++ more).mapM FactoryMap.serve (.empty, outside)
      served.1 = modelled.1 ∧ FactoryCache.Matches served.2 modelled.2 ∧
        modelled.2.1.entries <+: later.2.1.entries) ∧
    ∃ m, q.state.Holds c m ∧
      (∀ key, ∃ t : ContainerState H,
        c.factory key q.state = Action.answer (c.factoryFrom m key q.store).1 t ∧
        t.store = (c.factoryFrom m key q.store).2.2 ∧
        t.Holds c (c.factoryFrom m key q.store).2.1) ∧
      ∀ further, ∃ n, (q.run c further).state.Holds c n ∧ m.entries <+: n.entries ∧
        ∀ key factory, m.get? key = some factory →
          c.factory key (q.run c further).state = .ok factory (q.run c further).state := by
  refine ⟨fun _ _ => Key.digest_congr, ?_, ?_⟩
  · have hstart : FactoryCache.Matches (.empty hash, outside) ((.empty : FactoryMap φ), outside) :=
      ⟨FactoryCache.represents_empty hash, rfl⟩
    obtain ⟨hanswers, hmatches⟩ := hstart.serveAll requests
    refine ⟨hanswers, hmatches, ?_⟩
    rw [List.mapM_append]
    exact FactoryMap.prefix_serveAll _ more
  · obtain ⟨m, hm⟩ := h.exists_map
    refine ⟨m, hm, fun key => Container.factory_refines hm key, fun further => ?_⟩
    obtain ⟨n, hn, hprefix⟩ := run_collects q further m hm
    exact ⟨n, hn, hprefix, fun key factory hstored =>
      Container.factory_of_stored hn (FactoryMap.get?_of_prefix hprefix hstored)⟩

end Session

namespace Sample

def cacheRequests : List (CacheRequest Unit Nat Nat) :=
  [.getOrCompile root fun n => .error () (n + 1), .getOrCompile root fun n => .ok 7 (n + 1),
    .getOrCompile root fun n => .ok 8 (n + 1), .compilations]

/-- Whatever the hash, the second compilation is run and the third is not; and the sample container
keeps what it has compiled. -/
theorem cache_of_session :
    session.Reachable container ∧
    (∀ hash : List Datum → UInt64,
      (cacheRequests.mapM FactoryCache.serve (.empty hash, 0)).1 =
        [.outcome (.error ()), .outcome (.ok 7), .outcome (.ok 7), .number 1]) ∧
    ∃ m, session.state.Holds container m ∧ ∀ further, ∃ n,
      (session.run container further).state.Holds container n ∧ m.entries <+: n.entries := by
  refine ⟨reachable, fun hash => ?_, ?_⟩
  · exact (Session.Reachable.cache_refines_map hash 0 cacheRequests [] reachable).2.1.1.trans rfl
  · obtain ⟨-, -, m, hm, -, hfurther⟩ :=
      Session.Reachable.cache_refines_map (fun _ => 0) 0 cacheRequests [] reachable
    refine ⟨m, hm, fun further => ?_⟩
    obtain ⟨n, hn, hprefix, -⟩ := hfurther further
    exact ⟨n, hn, hprefix⟩

end Sample

end Wiring
