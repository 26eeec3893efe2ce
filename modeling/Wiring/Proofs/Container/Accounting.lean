import Wiring.Proofs.Container.Ledger
import Wiring.Proofs.Factory.Caching

namespace Wiring

variable {H : Host}

namespace Container

variable (c : Container H)

theorem onStore_accounted {P : Ledger H → Prop} {f : Store H → Store H}
    (hf : ∀ s : Store H, s.Chatter (f s)) (hP : ∀ l m : Ledger H, l.Extends m → P l → P m) :
    Run.Accounted c P (Run.onStore f) (fun _ => P) := by
  intro s l hs hl
  obtain ⟨hstep, htracks⟩ := hs.chatter (c := c) (hf s.store)
  exact ⟨_, .single hstep, htracks, hP _ _ (Ledger.Steps.extends (.single hstep)) hl⟩

theorem plan_accounted (key : Key) :
    Run.Accounted c (fun _ => True) (c.plan key)
      (fun plan _ => (c.registry.plan c.options key).result = .ok plan) := by
  intro s l hs _
  obtain ⟨hstep, htracks⟩ := hs.chatter (c := c)
    (s.store.chatter_foldl_log (c.registry.plan c.options key).log)
  rw [c.plan_eq]
  cases hresult : (c.registry.plan c.options key).result with
  | ok plan => exact ⟨_, .single hstep, htracks, rfl⟩
  | error e => exact ⟨_, .single hstep, htracks⟩

theorem compilePlan_accounted {key : Key} {plan : Plan H}
    (hplan : (c.registry.plan c.options key).result = .ok plan) :
    Run.Accounted c (fun _ => True) (Run.eval (Factory.compile plan))
      (fun factory l => ⟨key, plan, factory⟩ ∈ l.issued) := by
  intro s l hs _
  unfold Run.eval
  cases hprogram : plan.program with
  | error e =>
      have hcompile : Factory.compile plan s.store = .error e s.store := by
        unfold Factory.compile
        rw [hprogram]
        rfl
      rw [hcompile]
      exact ⟨l, .refl, hs⟩
  | ok program =>
      have hcompile := Factory.compile_eq hprogram l.store
      rw [← hs.store, hcompile]
      refine ⟨_, .single (.issue hplan hcompile), ⟨rfl, ?_⟩, List.mem_append_right _ (by simp)⟩
      intro key factory hcached
      exact (hs.cached key factory hcached).extend
        (Ledger.Steps.extends (.single (.issue hplan hcompile)))

theorem compileQuietly_accounted (key : Key) :
    Run.Accounted c (fun _ => True) (c.compileQuietly key)
      (fun factory l => ∃ plan, ⟨key, plan, factory⟩ ∈ l.issued) := by
  refine (c.plan_accounted key).bind fun plan s l hs hplan => ?_
  refine (c.compilePlan_accounted hplan s l hs trivial).mono ?_ (fun _ _ h => h)
  rintro factory t ⟨m, hm, ht, hissued⟩
  exact ⟨m, hm, ht, plan, hissued⟩

theorem chatter_reportReady (key : Key) (factory : Factory H) (s : Store H) :
    s.Chatter (c.reportReady key factory s) :=
  (s.chatter_log _).trans (Store.chatter_announce _ _ _)

theorem chatter_reportFailed (key : Key) (e : Failure) (s : Store H) :
    s.Chatter (c.reportFailed key e s) :=
  (s.chatter_log _).trans (Store.chatter_announce _ _ _)

theorem compile_accounted (key : Key) :
    Run.Accounted c (fun _ => True) (c.compile key)
      (fun factory l => ∃ plan, ⟨key, plan, factory⟩ ∈ l.issued) := by
  intro s l hs _
  have hquiet := c.compileQuietly_accounted key s l hs trivial
  unfold compile
  cases hresult : c.compileQuietly key s with
  | ok factory t =>
      rw [hresult] at hquiet
      obtain ⟨m, hm, ht, hissued⟩ := hquiet
      obtain ⟨hstep, htracks⟩ :=
        ht.chatter (c := c) (c.chatter_reportReady key factory t.store)
      exact ⟨_, hm.tail hstep, htracks, hissued⟩
  | error e t =>
      rw [hresult] at hquiet
      obtain ⟨m, hm, ht⟩ := hquiet
      obtain ⟨hstep, htracks⟩ := ht.chatter (c := c) (c.chatter_reportFailed key e t.store)
      exact ⟨_, hm.tail hstep, htracks⟩

theorem factory_accounted (key : Key) :
    Run.Accounted c (fun _ => True) (c.factory key) (fun factory l => l.Issued key factory) := by
  intro s l hs _
  unfold factory
  split
  next =>
    cases hcached : s.cache.get? key with
    | some factory =>
        rw [FactoryCache.obtain_of_stored (fun _ => rfl) hcached]
        exact ⟨l, .refl, hs, hs.cached key factory hcached⟩
    | none =>
        rw [FactoryCache.obtain_of_missing (fun _ _ => rfl) hcached]
        have hreserved : l.Tracks { s with cache := s.cache.reserve key } :=
          ⟨hs.store, fun other factory h => hs.cached other factory (by simpa using h)⟩
        have hcompile := c.compile_accounted key _ l hreserved trivial
        cases hresult : c.compile key { s with cache := s.cache.reserve key } with
        | error e t =>
            rw [hresult] at hcompile
            exact hcompile
        | ok factory t =>
            rw [hresult] at hcompile
            obtain ⟨m, hm, ht, plan, hissued⟩ := hcompile
            refine ⟨m, hm, ⟨ht.store, ?_⟩, ⟨key, plan, factory⟩, hissued, BEq.rfl, rfl⟩
            intro other found hfound
            change ((s.cache.reserve key).fill key factory).get? other = some found at hfound
            rw [FactoryCache.get?_fill_reserve] at hfound
            split at hfound
            next hkey =>
              cases hfound
              exact ⟨⟨key, plan, factory⟩, hissued, hkey, rfl⟩
            next => exact (hs.cached other found hfound).extend hm.extends
  next => exact ⟨l, .refl, hs⟩

section

variable {resolved : List (Key × Instance H)}

theorem produce_accounted {key : Key} {factory : Factory H} :
    Run.Accounted c (fun l => l.Issued key factory ∧ l.Covers resolved)
      (Run.eval factory.produce) (fun object l => l.Covers (resolved ++ [(key, object)])) := by
  rintro s l hs ⟨⟨issue, hissue, hkey, rfl⟩, hcovers⟩
  unfold Run.eval
  rw [← hs.store]
  cases hproduce : issue.factory.produce l.store with
  | ok object t =>
      refine ⟨_, .single (.produce hissue hproduce), ⟨rfl, hs.cached⟩, ?_⟩
      exact hcovers.append hkey object t
  | error e t => exact ⟨_, .single (.fail hissue hproduce), ⟨rfl, hs.cached⟩⟩

theorem resolve_accounted (key : Key) :
    Run.Accounted c (fun l => l.Covers resolved) (c.resolve key)
      (fun object l => l.Covers (resolved ++ [(key, object)])) := by
  have hfactory := (c.factory_accounted key).frame (R := fun l => l.Covers resolved)
    fun l m hextends h => h.extend hextends
  rw [c.resolve_eq]
  refine Run.Accounted.bind (hfactory.weaken (fun _ h => ⟨trivial, h⟩) fun _ _ h => h)
    fun factory => c.produce_accounted.bind fun object => ?_
  refine (c.onStore_accounted (fun s => s.chatter_announce _ _)
    fun l m hextends h => h.extend hextends).bind fun _ => ?_
  apply (Run.Accounted.pure object).weaken (fun _ h => h)
  rintro found l ⟨rfl, h⟩
  exact h

theorem resolveAll_accounted (key : Key) :
    Run.Accounted c (fun l => l.Covers resolved) (c.resolveAll key)
      (fun objects l => l.Covers
        (resolved ++ ((c.registry.ofService key).map Registration.key).zip objects)) := by
  let R : List (Registration H × Instance H) → Ledger H → Prop := fun done l =>
    l.Covers (resolved ++ done.map (Prod.map Registration.key id))
  have hall : Run.Accounted c (R []) (c.resolveAll key)
      (fun objects => R ([] ++ (c.registry.ofService key).zip objects)) := by
    refine .mapM fun r _ done => ?_
    apply (c.resolve_accounted r.key).weaken (fun _ h => h)
    intro object l h
    simpa [R] using h
  refine hall.weaken (fun l h => ?_) fun objects l h => ?_
  · simpa [R] using h
  · simpa [R, List.zip_map_left] using h

end

theorem prewarmOne_accounted (r : Registration H) :
    Run.Accounted c (fun _ => True) (c.prewarmOne r) (fun _ _ => True) := by
  refine (c.factory_accounted r.key).bind fun factory => ?_
  split
  · refine Run.Accounted.bind (c.produce_accounted.weaken (fun _ h => ⟨h, .nil⟩)
      fun _ _ _ => trivial) fun _ => ?_
    exact (Run.Accounted.pure _).weaken (fun _ h => h) fun _ _ _ => trivial
  · exact (Run.Accounted.pure _).weaken (fun _ h => h) fun _ _ _ => trivial

theorem prewarm_accounted : Run.Accounted c (fun _ => True) c.prewarm (fun _ _ => True) := by
  refine .ofState fun before => ?_
  refine Run.Accounted.bind (.forM fun r _ => c.prewarmOne_accounted r) fun _ => ?_
  refine .ofState fun after => ?_
  refine (c.onStore_accounted (fun s => s.chatter_log _) fun _ _ _ h => h).bind fun _ => ?_
  exact (Run.Accounted.pure _).weaken (fun _ h => h) fun _ _ _ => trivial

/-- A view shows the instance itself or refuses it. -/
def Faithful (view : Instance H → Except Failure (Instance H)) : Prop :=
  ∀ object found, view object = .ok found → found = object

theorem faithful_expect (type : TypeTag) :
    Faithful (fun object : Instance H => object.expect type) :=
  fun _ _ h => (Instance.expect_eq_ok_iff.mp h).2

theorem faithful_expectInterface (interface : TypeTag) :
    Faithful (fun object : Instance H => object.expectInterface interface) :=
  fun _ _ h => (Instance.expectInterface_eq_ok_iff.mp h).2

variable {view : Instance H → Except Failure (Instance H)}

theorem viewed_eq (hview : Faithful view) (object : Instance H) (s : ContainerState H) :
    viewed view object s = .ok object s ∨ ∃ e, viewed view object s = .error e s := by
  unfold viewed
  cases hobject : view object with
  | ok found =>
      cases hview object found hobject
      exact Or.inl rfl
  | error e => exact Or.inr ⟨e, rfl⟩

theorem mapM_viewed_eq (hview : Faithful view) (objects : List (Instance H))
    (s : ContainerState H) :
    objects.mapM (viewed view) s = .ok objects s ∨
      ∃ e, objects.mapM (viewed view) s = .error e s := by
  induction objects with
  | nil => exact Or.inl rfl
  | cons object rest ih =>
      rw [List.mapM_cons]
      rcases viewed_eq hview object s with hobject | ⟨e, he⟩
      · rw [Action.bind_of_ok _ hobject]
        rcases ih with hrest | ⟨e, he⟩
        · rw [Action.bind_of_ok _ hrest]
          exact Or.inl rfl
        · rw [Action.bind_of_error _ he]
          exact Or.inr ⟨e, rfl⟩
      · rw [Action.bind_of_error _ he]
        exact Or.inr ⟨e, rfl⟩

theorem resolve_viewed_accounted (hview : Faithful view) (key : Key)
    {resolved : List (Key × Instance H)} :
    Run.Accounted c (fun l => l.Covers resolved) (c.resolve key >>= viewed view)
      (fun object l => l.Covers (resolved ++ [(key, object)])) := by
  refine (c.resolve_accounted key).bind fun object => ?_
  apply (Run.Accounted.readOnly (viewed_eq hview object)).weaken (fun _ h => h)
  rintro found l ⟨rfl, h⟩
  exact h

theorem resolveAll_viewed_accounted (hview : Faithful view) (key : Key)
    {resolved : List (Key × Instance H)} :
    Run.Accounted c (fun l => l.Covers resolved)
      (c.resolveAll key >>= fun objects => objects.mapM (viewed view))
      (fun objects l => l.Covers
        (resolved ++ ((c.registry.ofService key).map Registration.key).zip objects)) := by
  refine (c.resolveAll_accounted key).bind fun objects => ?_
  apply (Run.Accounted.readOnly (mapM_viewed_eq hview objects)).weaken (fun _ h => h)
  rintro found l ⟨rfl, h⟩
  exact h

end Container

/-- The ledger keeps account of a whole session. -/
structure Ledger.Accounts (c : Container H) (l : Ledger H) (q : Session H) : Prop where
  state : l.Tracks q.state
  plans : ∀ entry ∈ q.plans, (c.registry.plan c.options entry.1).result = .ok entry.2
  factories : ∀ entry ∈ q.factories, l.Issued entry.1 entry.2
  covered : l.Covers q.resolved

namespace Ledger.Accounts

variable {c : Container H} {l : Ledger H} {q : Session H}

theorem extend {m : Ledger H} {s : ContainerState H} (h : l.Accounts c q)
    (hextends : l.Extends m) (hs : m.Tracks s) : m.Accounts c { q with state := s } :=
  ⟨hs, h.plans, fun entry hentry => (h.factories entry hentry).extend hextends,
    h.covered.extend hextends⟩

theorem resolved (h : l.Accounts c q) : ∀ entry ∈ q.resolved, l.Produced entry.1 entry.2 :=
  fun _ hentry => h.covered.produced hentry

theorem after {α : Type} {P : Ledger H → Prop} {m : Run H α} {Q : α → Ledger H → Prop}
    {keep : α → Session H → Session H} (h : l.Accounts c q) (hm : Run.Accounted c P m Q)
    (hP : P l)
    (hkeep : ∀ a n s, Q a n → n.Accounts c { q with state := s } →
      n.Accounts c (keep a { q with state := s })) :
    ∃ n, Steps c l n ∧ n.Accounts c (q.after (m q.state) keep) := by
  have hends := hm q.state l h.state hP
  cases hresult : m q.state with
  | ok a t =>
      rw [hresult] at hends
      obtain ⟨n, hsteps, ht, hQ⟩ := hends
      exact ⟨n, hsteps, hkeep a n _ hQ (h.extend hsteps.extends ht)⟩
  | error e t =>
      rw [hresult] at hends
      obtain ⟨n, hsteps, ht⟩ := hends
      exact ⟨n, hsteps, h.extend hsteps.extends ht⟩

theorem keepFactory {key : Key} {factory : Factory H} (hfactory : l.Issued key factory)
    (h : l.Accounts c q) : l.Accounts c (q.keepFactory key factory) where
  state := h.state
  plans := h.plans
  factories := by
    intro entry hentry
    rcases List.mem_append.mp hentry with hold | hnew
    · exact h.factories entry hold
    · exact List.mem_singleton.mp hnew ▸ hfactory
  covered := h.covered

theorem keepResolved {key : Key} {object : Instance H}
    (hcovered : l.Covers (q.resolved ++ [(key, object)])) (h : l.Accounts c q) :
    l.Accounts c (q.keepResolved key object) :=
  ⟨h.state, h.plans, h.factories, hcovered⟩

theorem keepAllResolved {keys : List Key} {objects : List (Instance H)}
    (hcovered : l.Covers (q.resolved ++ keys.zip objects)) (h : l.Accounts c q) :
    l.Accounts c (q.keepAllResolved keys objects) :=
  ⟨h.state, h.plans, h.factories, hcovered⟩

theorem keepPlan {key : Key} {plan : Plan H}
    (hplan : (c.registry.plan c.options key).result = .ok plan) (h : l.Accounts c q) :
    l.Accounts c (q.keepPlan key plan) where
  state := h.state
  plans := by
    intro entry hentry
    rcases List.mem_append.mp hentry with hold | hnew
    · exact h.plans entry hold
    · exact List.mem_singleton.mp hnew ▸ hplan
  factories := h.factories
  covered := h.covered

theorem serve (h : l.Accounts c q) (request : Request H) :
    ∃ m, Steps c l m ∧ m.Accounts c (q.serve c request) := by
  cases request with
  | plan key => exact h.after (c.plan_accounted key) trivial fun _ _ _ => keepPlan
  | compile position =>
      cases hplan : q.plans[position]? with
      | none =>
          simp only [Session.serve, hplan]
          exact ⟨l, .refl, h⟩
      | some entry =>
          have hentry := h.plans entry (List.mem_of_getElem? hplan)
          simp only [Session.serve, hplan]
          refine h.after (c.compilePlan_accounted hentry) trivial fun factory m _ hissued => ?_
          exact keepFactory ⟨_, hissued, BEq.rfl, rfl⟩
  | factory key => exact h.after (c.factory_accounted key) trivial fun _ _ _ => keepFactory
  | produce position =>
      cases hfactory : q.factories[position]? with
      | none =>
          simp only [Session.serve, hfactory]
          exact ⟨l, .refl, h⟩
      | some entry =>
          have hentry := h.factories entry (List.mem_of_getElem? hfactory)
          simp only [Session.serve, hfactory]
          exact h.after c.produce_accounted ⟨hentry, h.covered⟩ fun _ _ _ h hn => hn.keepResolved h
  | resolve key =>
      exact h.after (c.resolve_accounted key) h.covered fun _ _ _ h hn => hn.keepResolved h
  | resolveAll key =>
      exact h.after (c.resolveAll_accounted key) h.covered fun _ _ _ h hn => hn.keepAllResolved h
  | prewarm => exact h.after c.prewarm_accounted trivial fun _ _ _ _ => id
  | get type name =>
      exact h.after (c.resolve_viewed_accounted (Container.faithful_expect type) _) h.covered
        fun _ _ _ h hn => hn.keepResolved h
  | getInterface interface name =>
      exact h.after
        (c.resolve_viewed_accounted (Container.faithful_expectInterface interface) _) h.covered
        fun _ _ _ h hn => hn.keepResolved h
  | getAll type =>
      exact h.after (c.resolveAll_viewed_accounted (Container.faithful_expect type) _) h.covered
        fun _ _ _ h hn => hn.keepAllResolved h
  | getAllInterface interface =>
      exact h.after
        (c.resolveAll_viewed_accounted (Container.faithful_expectInterface interface) _) h.covered
        fun _ _ _ h hn => hn.keepAllResolved h
  | remember change =>
      obtain ⟨hstep, htracks⟩ := h.state.chatter (c := c) (q.state.store.chatter_world _)
      exact ⟨_, .single hstep, h.extend (Steps.extends (.single hstep)) htracks⟩

theorem run (h : l.Accounts c q) (requests : List (Request H)) :
    ∃ m, Steps c l m ∧ m.Accounts c (q.run c requests) := by
  induction requests generalizing l q with
  | nil => exact ⟨l, .refl, h⟩
  | cons request rest ih =>
      obtain ⟨mid, hmid, hserved⟩ := h.serve request
      obtain ⟨m, hm, hrun⟩ := ih hserved
      exact ⟨m, hmid.trans hm, hrun⟩

end Ledger.Accounts

def Builder.ledger (b : Builder H) (world : H.World) (hash : List Datum → UInt64) : Ledger H :=
  ⟨(b.build world hash).2.store, [], []⟩

theorem Builder.ledger_accounts (b : Builder H) (world : H.World) (hash : List Datum → UInt64) :
    (b.ledger world hash).Accounts b.container (b.session world hash) where
  state := by
    refine ⟨rfl, fun key factory hcached => ?_⟩
    change (FactoryCache.empty hash).get? key = some factory at hcached
    rw [FactoryCache.get?_empty] at hcached
    cases hcached
  plans := List.forall_mem_nil _
  factories := List.forall_mem_nil _
  covered := .nil

/-- Every reachable session has a ledger that begins with a container from which nothing has been
asked yet. -/
theorem Session.Reachable.exists_steps {c : Container H} {q : Session H} (h : q.Reachable c) :
    ∃ (b : Builder H) (world : H.World) (hash : List Datum → UInt64) (l : Ledger H),
      b.Made ∧ c = b.container ∧ Ledger.Steps c (b.ledger world hash) l ∧ l.Accounts c q := by
  obtain ⟨b, world, hash, requests, hb, rfl, rfl⟩ := h
  obtain ⟨l, hsteps, haccounts⟩ := (b.ledger_accounts world hash).run requests
  exact ⟨b, world, hash, l, hb, rfl, hsteps, haccounts⟩

end Wiring
