import Wiring.Proofs.Container.Caching
import Wiring.Proofs.Elementwise
import Wiring.Proofs.Factory.Discretion

namespace Wiring

variable {H : Host}

def Container.delivery (c : Container H) (notice : Notice) : List (Nat × Notice) :=
  (List.range c.observers.length).map (·, notice)

theorem Container.heardBy_eq {c : Container H} {j : Journal H} {news : List Notice}
    (h : j.heard = news.flatMap c.delivery) {observer : Nat}
    (hobserver : observer < c.observers.length) : j.heardBy observer = news := by
  have hone : ∀ notice, (c.delivery notice).filterMap
      (fun told => if told.1 = observer then some told.2 else none) = [notice] := by
    intro notice
    rw [delivery, List.filterMap_map]
    exact filterMap_ite_eq_singleton List.nodup_range (List.mem_range.mpr hobserver) notice
  rw [Journal.heardBy, h, List.filterMap_flatMap]
  simp [hone]

namespace Notice

/-- Everything but the news of a factory. -/
def isReply : Notice → Bool
  | .compiled _ _ => false
  | _ => true

/-- The factory of an equal key has been compiled. -/
def Readies (key : Key) : Notice → Prop
  | .compiled other _ => (other == key) = true
  | _ => False

/-- Once the factory of a key has been compiled, the key is neither compiled again nor does it fail
to compile. -/
def Allows (earlier : Notice) : Notice → Prop
  | .compiled key _ => ¬ earlier.Readies key
  | .compileFailed key _ => ¬ earlier.Readies key
  | .resolved _ => True

end Notice

/-- A call of one of the operations that observers hear of, with what has come of it. -/
inductive Inquiry (H : Host) where
  | factory (key : Key) (result : Except Failure (Factory H))
  | resolve (key : Key) (result : Except Failure (Instance H))

/-- What is announced because of the call, the news of a factory aside: that a registered key could
not be compiled, or that a key was resolved. -/
def Inquiry.reply? (c : Container H) : Inquiry H → Option Notice
  | .factory key (.error e) => if c.contains key then some (.compileFailed key e) else none
  | .factory _ (.ok _) => none
  | .resolve key (.ok _) => some (.resolved key)
  | .resolve _ (.error _) => none

namespace Container

variable (c : Container H)

def inquire (key : Key) (s : ContainerState H) : Inquiry H :=
  .factory key (Action.outcome (c.factory key s))

/-- To resolve a key, its factory is asked for. -/
def inquiriesOfResolve (key : Key) (s : ContainerState H) : List (Inquiry H) :=
  [c.inquire key s, .resolve key (Action.outcome (c.resolve key s))]

def inquiriesOfResolveAll (key : Key) (s : ContainerState H) : List (Inquiry H) :=
  (Action.starts (fun r => c.resolve r.key) (c.registry.ofService key) s).flatMap
    fun start => c.inquiriesOfResolve start.1.key start.2

def inquiriesOfPrewarm (s : ContainerState H) : List (Inquiry H) :=
  (Action.starts c.prewarmOne c.registry.ordered s).flatMap
    fun start => [c.inquire start.1.key start.2]

/-- The calls that a request leads to, direct or made by other operations, in order. -/
def inquiries (s : ContainerState H) : Request H → List (Inquiry H)
  | .plan _ => []
  | .compile _ => []
  | .factory key => [c.inquire key s]
  | .produce _ => []
  | .resolve key => c.inquiriesOfResolve key s
  | .resolveAll key => c.inquiriesOfResolveAll key s
  | .prewarm => c.inquiriesOfPrewarm s
  | .get type name => c.inquiriesOfResolve (.ofType type name) s
  | .getInterface interface name => c.inquiriesOfResolve (.ofInterface interface name) s
  | .getAll type => c.inquiriesOfResolveAll (.ofType type) s
  | .getAllInterface interface => c.inquiriesOfResolveAll (.ofInterface interface) s
  | .remember _ => []

end Container

def Session.inquiries (c : Container H) (q : Session H) : List (Request H) → List (Inquiry H)
  | [] => []
  | request :: rest => c.inquiries q.state request ++ (q.serve c request).inquiries c rest

namespace ContainerState

/-- All cached factories were made by compiling. -/
def Emits (s : ContainerState H) : Prop :=
  ∀ key factory, s.cache.get? key = some factory → factory.Emitted

/-- The observers know the state: all have heard the same news, and from the news it can be told
which keys have a factory. -/
structure Informed (c : Container H) (news : List Notice) (s : ContainerState H) : Prop where
  heard : s.store.journal.heard = news.flatMap c.delivery
  ready : ∀ key, (s.cache.get? key).isSome = true ↔ ∃ notice ∈ news, notice.Readies key
  allowed : news.Pairwise Notice.Allows
  preceded : ∀ before key, before ++ [.resolved key] <+: news →
    ∃ notice ∈ before, notice.Readies key

/-- The observers know the state, and apart from the news of factories they have heard what the past
calls have given rise to. -/
def Told (c : Container H) (past : List (Inquiry H)) (s : ContainerState H) : Prop :=
  s.Emits ∧ ∃ news, s.Informed c news ∧
    news.filter Notice.isReply = past.filterMap (Inquiry.reply? c)

variable {c : Container H} {news : List Notice} {past : List (Inquiry H)}
  {s t : ContainerState H}

theorem Informed.announce (h : s.Informed c news) {notice : Notice}
    (hheard : t.store.journal.heard = s.store.journal.heard ++ c.delivery notice)
    (hready : ∀ key, (t.cache.get? key).isSome = true ↔
      (s.cache.get? key).isSome = true ∨ notice.Readies key)
    (hallowed : ∀ earlier ∈ news, earlier.Allows notice)
    (hpreceded : ∀ key, notice = .resolved key → (s.cache.get? key).isSome = true) :
    t.Informed c (news ++ [notice]) where
  heard := by simp [hheard, h.heard]
  ready := by
    intro key
    rw [hready, h.ready]
    simp [or_and_right, exists_or]
  allowed := by
    rw [List.pairwise_append]
    refine ⟨h.allowed, List.pairwise_singleton _ _, fun earlier hearlier other hother => ?_⟩
    exact List.mem_singleton.mp hother ▸ hallowed earlier hearlier
  preceded := by
    intro before key hprefix
    rcases List.prefix_concat_iff.mp hprefix with hall | hold
    · obtain ⟨rfl, hnotice⟩ := List.append_inj' hall rfl
      exact (h.ready key).mp (hpreceded key (List.singleton_inj.mp hnotice).symm)
    · exact h.preceded before key hold

theorem Told.silent (h : s.Told c past) (hcache : t.cache = s.cache)
    (hheard : s.store.Unheard t.store) : t.Told c past := by
  obtain ⟨hemits, news, hinformed, hreplies⟩ := h
  refine ⟨?_, news, ⟨hheard.trans hinformed.heard, ?_, hinformed.allowed, hinformed.preceded⟩,
    hreplies⟩
  · simpa only [Emits, hcache] using hemits
  · simpa only [hcache] using hinformed.ready

theorem Told.unanswered (h : s.Told c past) {inquiry : Inquiry H}
    (hreply : inquiry.reply? c = none) : s.Told c (past ++ [inquiry]) := by
  obtain ⟨hemits, news, hinformed, hreplies⟩ := h
  exact ⟨hemits, news, hinformed, by simp [hreplies, hreply]⟩

theorem Told.answered {inquiry : Inquiry H} {notice : Notice}
    (hreply : inquiry.reply? c = some notice) (hnotice : notice.isReply = true) (h : t.Emits)
    (hinformed : t.Informed c (news ++ [notice]))
    (hreplies : news.filter Notice.isReply = past.filterMap (Inquiry.reply? c)) :
    t.Told c (past ++ [inquiry]) :=
  ⟨h, _, hinformed, by simp [hreplies, hreply, hnotice]⟩

theorem Informed.not_readies (h : s.Informed c news) {key : Key}
    (hmissing : s.cache.get? key = none) : ∀ earlier ∈ news, ¬ earlier.Readies key := by
  intro earlier hearlier hready
  have hsome := (h.ready key).mpr ⟨earlier, hearlier, hready⟩
  simp [hmissing] at hsome

end ContainerState

theorem Factory.emitted_of_eval_compile_eq_ok {p : Plan H} {f : Factory H}
    {s t : ContainerState H} (h : Run.eval (Factory.compile p) s = .ok f t) : f.Emitted := by
  unfold Run.eval at h
  cases hcompile : Factory.compile p s.store with
  | ok found store =>
      rw [hcompile] at h
      cases h
      exact emitted_of_compile_eq_ok hcompile
  | error e store =>
      rw [hcompile] at h
      cases h

namespace Container

variable (c : Container H)

theorem emitted_of_compileQuietly_eq_ok {key : Key} {f : Factory H} {s t : ContainerState H}
    (h : c.compileQuietly key s = .ok f t) : f.Emitted := by
  obtain ⟨plan, mid, -, hcompile⟩ := Action.bind_eq_ok_iff.mp h
  exact Factory.emitted_of_eval_compile_eq_ok hcompile

theorem unheard_compileQuietly (key : Key) (s : ContainerState H) :
    s.store.Unheard (Action.finalState (c.compileQuietly key s)).store :=
  leads_compileQuietly Store.unheard_log (fun _ _ => rfl) c key s

theorem emits_factory {s : ContainerState H} (h : s.Emits) (key : Key) :
    (Action.finalState (c.factory key s)).Emits := by
  have hobtains := c.factory_obtains key s
  generalize c.factory key s = result at hobtains ⊢
  cases hobtains with
  | unknown => exact h
  | stored => exact h
  | compiled _ _ hquiet =>
      intro other found hfound
      change ((s.cache.reserve key).fill key _).get? other = some found at hfound
      rw [FactoryCache.get?_fill_reserve] at hfound
      split at hfound
      · cases hfound
        exact c.emitted_of_compileQuietly_eq_ok hquiet
      · exact h other found hfound
  | failed =>
      intro other found hfound
      exact h other found ((s.cache.get?_reserve key other).symm.trans hfound)

variable {c} {past : List (Inquiry H)} {s : ContainerState H}

theorem told_factory (h : s.Told c past) (key : Key) :
    (Action.finalState (c.factory key s)).Told c (past ++ [c.inquire key s]) := by
  have hemits := c.emits_factory h.1 key
  obtain ⟨-, news, hinformed, hreplies⟩ := h
  have hobtains := c.factory_obtains key s
  unfold inquire
  generalize c.factory key s = result at hemits hobtains ⊢
  cases hobtains with
  | unknown hunknown =>
      exact ContainerState.Told.unanswered ⟨hemits, news, hinformed, hreplies⟩
        (if_neg (by simp [hunknown]))
  | stored => exact ContainerState.Told.unanswered ⟨hemits, news, hinformed, hreplies⟩ rfl
  | @compiled factory t hcontains hmissing hquiet =>
      have hunheard := c.unheard_compileQuietly key { s with cache := s.cache.reserve key }
      rw [hquiet] at hunheard
      refine ⟨hemits, news ++ [.compiled key (factory.summary
        (t.store.log (.factoryReady key.label factory.nodeCount factory.cells.size)))], ?_, ?_⟩
      · refine hinformed.announce ?_ ?_ (hinformed.not_readies hmissing) (fun _ h => nomatch h)
        · exact (Store.heard_announce _ _ _).trans
            (congrArg (· ++ _) (trans_of Store.Unheard hunheard (t.store.unheard_log _)))
        · intro other
          change (((s.cache.reserve key).fill key factory).get? other).isSome = true ↔ _
          rw [FactoryCache.get?_fill_reserve]
          split
          next hkey => simp [Notice.Readies, hkey]
          next hkey => simp [Notice.Readies, hkey]
      · simp [hreplies, Action.outcome, Inquiry.reply?, Notice.isReply]
  | @failed e t hcontains hmissing hquiet =>
      have hunheard := c.unheard_compileQuietly key { s with cache := s.cache.reserve key }
      rw [hquiet] at hunheard
      have hreply : (Inquiry.factory key (.error e)).reply? c = some (.compileFailed key e) :=
        if_pos hcontains
      refine ContainerState.Told.answered hreply rfl hemits ?_ hreplies
      refine hinformed.announce ?_ ?_ (hinformed.not_readies hmissing) (fun _ h => nomatch h)
      · exact (Store.heard_announce _ _ _).trans
          (congrArg (· ++ _) (trans_of Store.Unheard hunheard (t.store.unheard_log _)))
      · intro other
        change ((s.cache.reserve key).get? other).isSome = true ↔ _
        simp [Notice.Readies]

theorem told_plan (h : s.Told c past) (key : Key) :
    (Action.finalState (c.plan key s)).Told c past := by
  rw [c.plan_eq]
  cases (c.registry.plan c.options key).result <;>
    exact h.silent rfl (s.store.unheard_foldl_log _)

theorem told_eval {α : Type} {m : Eval H α} (hm : Discreet m) (h : s.Told c past) :
    (Action.finalState (Run.eval m s)).Told c past := by
  have hstore := hm s.store
  unfold Run.eval
  cases hresult : m s.store with
  | ok a t =>
      rw [hresult] at hstore
      exact h.silent rfl hstore
  | error e t =>
      rw [hresult] at hstore
      exact h.silent rfl hstore

theorem told_resolve (h : s.Told c past) (key : Key) :
    (Action.finalState (c.resolve key s)).Told c (past ++ c.inquiriesOfResolve key s) := by
  have htold := told_factory h key
  unfold inquiriesOfResolve
  rw [List.append_cons]
  generalize c.inquire key s = inquiry at htold ⊢
  cases hfactory : c.factory key s with
  | error e t =>
      rw [hfactory] at htold
      rw [resolve_of_factory_eq_error hfactory]
      exact htold.unanswered rfl
  | ok f t =>
      rw [hfactory] at htold
      change t.Told c _ at htold
      have hstored := stored_of_factory_eq_ok hfactory
      have hunheard := Discreet.produce (htold.1 key f hstored) t.store
      rw [resolve_of_factory_eq_ok hfactory]
      cases hproduce : f.produce t.store with
      | error e store =>
          rw [hproduce] at hunheard
          have hstore : ContainerState.Told c _ { t with store } := htold.silent rfl hunheard
          exact hstore.unanswered rfl
      | ok object store =>
          rw [hproduce] at hunheard
          obtain ⟨hemits, news, hinformed, hreplies⟩ : ContainerState.Told c _ { t with store } :=
            htold.silent rfl hunheard
          refine ContainerState.Told.answered rfl rfl hemits ?_ hreplies
          refine hinformed.announce (Store.heard_announce _ _ _) ?_ (fun _ _ => trivial) ?_
          · exact fun other => by simp [Notice.Readies, Action.finalState]
          · rintro _ hkey
            cases hkey
            exact Option.isSome_of_mem hstored

theorem told_mapM {α β : Type} {f : α → Run H β}
    (calls : α → ContainerState H → List (Inquiry H))
    (hf : ∀ a past s, s.Told c past → (Action.finalState (f a s)).Told c (past ++ calls a s))
    (elements : List α) (h : s.Told c past) :
    (Action.finalState (elements.mapM f s)).Told c
      (past ++ (Action.starts f elements s).flatMap fun start => calls start.1 start.2) := by
  induction elements generalizing s past with
  | nil => simpa [Action.starts, Action.finalState] using h
  | cons a rest ih =>
      have hfirst := hf a past s h
      rw [List.mapM_cons, Action.starts, List.flatMap_cons, ← List.append_assoc]
      cases hresult : f a s with
      | error e t =>
          rw [hresult] at hfirst
          rw [Action.bind_of_error _ hresult, List.flatMap_nil, List.append_nil]
          exact hfirst
      | ok b t =>
          rw [hresult] at hfirst
          rw [Action.bind_of_ok _ hresult]
          have hrest := ih (s := t) hfirst
          cases hothers : rest.mapM f t with
          | error e u =>
              rw [hothers] at hrest
              rw [Action.bind_of_error _ hothers]
              exact hrest
          | ok others u =>
              rw [hothers] at hrest
              rw [Action.bind_of_ok _ hothers]
              exact hrest

theorem told_resolveAll (h : s.Told c past) (key : Key) :
    (Action.finalState (c.resolveAll key s)).Told c (past ++ c.inquiriesOfResolveAll key s) :=
  told_mapM (fun (r : Registration H) s => c.inquiriesOfResolve r.key s)
    (fun r _ _ hs => told_resolve hs r.key) (c.registry.ofService key) h

theorem told_prewarmOne (h : s.Told c past) (r : Registration H) :
    (Action.finalState (c.prewarmOne r s)).Told c (past ++ [c.inquire r.key s]) := by
  have htold := told_factory h r.key
  generalize c.inquire r.key s = inquiry at htold ⊢
  unfold prewarmOne
  cases hfactory : c.factory r.key s with
  | error e t =>
      rw [hfactory] at htold
      rw [Action.bind_of_error _ hfactory]
      exact htold
  | ok f t =>
      rw [hfactory] at htold
      change t.Told c _ at htold
      rw [Action.bind_of_ok _ hfactory]
      split
      · have hemitted := htold.1 r.key f (stored_of_factory_eq_ok hfactory)
        rw [Action.finalState_discard]
        exact told_eval (.produce hemitted) htold
      · exact htold

theorem told_prewarm (h : s.Told c past) :
    (Action.finalState (c.prewarm s)).Told c (past ++ c.inquiriesOfPrewarm s) := by
  have hall := told_mapM (fun (r : Registration H) s => [c.inquire r.key s])
    (fun r _ _ hs => told_prewarmOne hs r) c.registry.ordered h
  rw [← Action.finalState_forM] at hall
  unfold prewarm
  rw [Action.get_bind]
  cases hresult : c.registry.ordered.forM c.prewarmOne s with
  | error e t =>
      rw [hresult] at hall
      rw [Action.bind_of_error _ hresult]
      exact hall
  | ok _ t =>
      rw [hresult] at hall
      rw [Action.bind_of_ok _ hresult]
      exact hall.silent rfl (t.store.unheard_log _)

theorem still_viewed (view : Instance H → Except Failure (Instance H)) (object : Instance H) :
    Action.Leads Eq (viewed view object) := by
  intro s
  unfold viewed
  cases view object <;> rfl

theorem told_resolve_viewed (h : s.Told c past) (key : Key)
    (view : Instance H → Except Failure (Instance H)) :
    (Action.finalState ((c.resolve key >>= viewed view) s)).Told c
      (past ++ c.inquiriesOfResolve key s) := by
  rw [Action.Leads.finalState_bind (still_viewed view)]
  exact told_resolve h key

theorem told_resolveAll_viewed (h : s.Told c past) (key : Key)
    (view : Instance H → Except Failure (Instance H)) :
    (Action.finalState ((c.resolveAll key >>= fun objects => objects.mapM (viewed view)) s)).Told c
      (past ++ c.inquiriesOfResolveAll key s) := by
  rw [Action.Leads.finalState_bind fun objects => .mapM fun object _ => still_viewed view object]
  exact told_resolveAll h key

end Container

namespace Session

structure Told (c : Container H) (past : List (Inquiry H)) (q : Session H) : Prop where
  state : q.state.Told c past
  factories : ∀ entry ∈ q.factories, entry.2.Emitted

variable {c : Container H} {past : List (Inquiry H)} {q : Session H}

theorem Told.goOn (h : q.Told c past) {more : List (Inquiry H)} {s : ContainerState H}
    (hs : s.Told c more) : Told c more { q with state := s } :=
  ⟨hs, h.factories⟩

theorem Told.keepFactory (h : q.Told c past) (key : Key) {f : Factory H} (hf : f.Emitted) :
    (q.keepFactory key f).Told c past where
  state := h.state
  factories := by
    intro entry hentry
    rcases List.mem_append.mp hentry with hold | hnew
    · exact h.factories entry hold
    · exact List.mem_singleton.mp hnew ▸ hf

theorem Told.after {α : Type} {m : Run H α} {more : List (Inquiry H)}
    {keep : α → Session H → Session H} (h : q.Told c past)
    (hm : (Action.finalState (m q.state)).Told c more)
    (hkeep : ∀ a s, m q.state = .ok a s → Told c more { q with state := s } →
      (keep a { q with state := s }).Told c more) :
    (q.after (m q.state) keep).Told c more := by
  unfold Session.after
  cases hresult : m q.state with
  | ok a s =>
      rw [hresult] at hm
      exact hkeep a s hresult (h.goOn hm)
  | error e s =>
      rw [hresult] at hm
      exact h.goOn hm

theorem Told.serve (h : q.Told c past) (request : Request H) :
    (q.serve c request).Told c (past ++ c.inquiries q.state request) := by
  cases request with
  | plan key =>
      rw [Container.inquiries, List.append_nil]
      exact h.after (Container.told_plan h.state key) fun _ _ _ h => ⟨h.state, h.factories⟩
  | compile position =>
      rw [Container.inquiries, List.append_nil]
      cases hplan : q.plans[position]? with
      | none => simpa only [Session.serve, hplan] using h
      | some entry =>
          simp only [Session.serve, hplan]
          refine h.after (Container.told_eval (.compile _) h.state) fun f s hf hs => ?_
          exact hs.keepFactory _ (Factory.emitted_of_eval_compile_eq_ok hf)
  | factory key =>
      refine h.after (Container.told_factory h.state key) fun f s hf hs => hs.keepFactory key ?_
      exact hs.state.1 key f (Container.stored_of_factory_eq_ok hf)
  | produce position =>
      rw [Container.inquiries, List.append_nil]
      cases hfactory : q.factories[position]? with
      | none => simpa only [Session.serve, hfactory] using h
      | some entry =>
          have hemitted := h.factories entry (List.mem_of_getElem? hfactory)
          simp only [Session.serve, hfactory]
          exact h.after (Container.told_eval (.produce hemitted) h.state) fun _ _ _ h =>
            ⟨h.state, h.factories⟩
  | resolve key =>
      exact h.after (Container.told_resolve h.state key) fun _ _ _ h => ⟨h.state, h.factories⟩
  | resolveAll key =>
      exact h.after (Container.told_resolveAll h.state key) fun _ _ _ h => ⟨h.state, h.factories⟩
  | prewarm => exact h.after (Container.told_prewarm h.state) fun _ _ _ h => h
  | get type name =>
      exact h.after (Container.told_resolve_viewed h.state _ _) fun _ _ _ h =>
        ⟨h.state, h.factories⟩
  | getInterface interface name =>
      exact h.after (Container.told_resolve_viewed h.state _ _) fun _ _ _ h =>
        ⟨h.state, h.factories⟩
  | getAll type =>
      exact h.after (Container.told_resolveAll_viewed h.state _ _) fun _ _ _ h =>
        ⟨h.state, h.factories⟩
  | getAllInterface interface =>
      exact h.after (Container.told_resolveAll_viewed h.state _ _) fun _ _ _ h =>
        ⟨h.state, h.factories⟩
  | remember change =>
      rw [Container.inquiries, List.append_nil]
      exact h.goOn (h.state.silent rfl rfl)

theorem Told.run (h : q.Told c past) (requests : List (Request H)) :
    (q.run c requests).Told c (past ++ q.inquiries c requests) := by
  induction requests generalizing q past with
  | nil => simpa [Session.run, Session.inquiries] using h
  | cons request rest ih =>
      rw [Session.inquiries, ← List.append_assoc]
      exact ih (h.serve request)

end Session

theorem Builder.told_session (b : Builder H) (world : H.World) (hash : List Datum → UInt64) :
    (b.session world hash).Told b.container [] where
  state := by
    refine ⟨fun key factory h => ?_, [], ⟨?_, fun key => ?_, .nil, ?_⟩, rfl⟩
    · simp [session, build, Container.start] at h
    · exact Journal.heard_ofLog _
    · simp [session, build, Container.start]
    · intro before key hprefix
      simp at hprefix
  factories := List.forall_mem_nil _

end Wiring
