import Wiring.Proofs.Container.Announcements
import Wiring.Proofs.Injection.Activity

namespace Wiring

variable {H : Host}

namespace Journal

theorem calls_events (j : Journal H) (events : List H.Event) :
    calls (events.foldl (fun j event => j.push (.remark (.event event))) j) = j.calls := by
  refine List.foldlRecOn (motive := fun k => calls k = j.calls) _ _ rfl fun k hk event _ => ?_
  rw [calls_push, hk]
  exact List.append_nil _

end Journal

namespace Store

/-- The stores differ at most in what has been said, and not in what has been called. -/
def Alike (s t : Store H) : Prop :=
  ∃ journal : Journal H, t = { s with journal } ∧ journal.calls = s.journal.calls

namespace Alike

variable {s t u : Store H}

theorem refl (s : Store H) : s.Alike s := ⟨s.journal, rfl, rfl⟩

theorem symm (h : s.Alike t) : t.Alike s := by
  obtain ⟨journal, rfl, hcalls⟩ := h
  exact ⟨s.journal, rfl, hcalls.symm⟩

theorem trans (hst : s.Alike t) (htu : t.Alike u) : s.Alike u := by
  obtain ⟨journal, rfl, hcalls⟩ := hst
  obtain ⟨later, rfl, hlater⟩ := htu
  exact ⟨later, rfl, hlater.trans hcalls⟩

theorem world_eq (h : s.Alike t) : t.world = s.world := by
  obtain ⟨journal, rfl, -⟩ := h
  rfl

theorem cells_eq (h : s.Alike t) : t.cells = s.cells := by
  obtain ⟨journal, rfl, -⟩ := h
  rfl

theorem calls_eq (h : s.Alike t) : t.journal.calls = s.journal.calls := by
  obtain ⟨journal, rfl, hcalls⟩ := h
  exact hcalls

theorem enter (h : s.Alike t) (entry : Entry H) : (s.enter entry).Alike (t.enter entry) := by
  obtain ⟨journal, rfl, hcalls⟩ := h
  refine ⟨journal.push entry, rfl, ?_⟩
  rw [Store.enter, Journal.calls_push, Journal.calls_push, hcalls]

theorem absorb (h : s.Alike t) {α : Type} (reply : Reply H α) :
    (s.absorb reply).Alike (t.absorb reply) := by
  obtain ⟨journal, rfl, hcalls⟩ := h
  exact ⟨_, rfl, (Journal.calls_events _ _).trans (hcalls.trans (Journal.calls_events _ _).symm)⟩

theorem logs (h : s.Alike t) (log : Array LogRecord) :
    (log.foldl Store.log s).Alike (log.foldl Store.log t) :=
  Array.foldl_rel h fun _ _ _ _ hst => hst.enter _

theorem create (h : s.Alike t) (type : TypeTag) (payload : H.Payload) :
    (s.create type payload).1 = (t.create type payload).1 ∧
      (s.create type payload).2.Alike (t.create type payload).2 := by
  obtain ⟨journal, rfl, hcalls⟩ := h
  exact ⟨rfl, journal, rfl, hcalls⟩

end Alike

theorem alike_enter (s : Store H) {entry : Entry H} (h : entry.call? = none) :
    s.Alike (s.enter entry) :=
  ⟨(s.enter entry).journal, rfl, by simp [enter, Journal.calls_push, h]⟩

theorem alike_tell (s : Store H) {observer : Observer H} (h : observer.Passive) (position : Nat)
    (notice : Notice) : s.Alike (s.tell position observer notice) := by
  unfold tell
  dsimp only
  rw [h]
  exact List.foldlRecOn (motive := s.Alike) _ _ (s.alike_enter rfl)
    fun t ht _ _ => ht.trans (t.alike_enter rfl)

/-- Passive observers leave nothing behind but remarks. -/
theorem alike_announce (s : Store H) {observers : List (Observer H)}
    (h : ∀ observer ∈ observers, observer.Passive) (notice : Notice) :
    s.Alike (s.announce observers notice) :=
  List.foldlRecOn (motive := s.Alike) _ _ (.refl s) fun t ht pair hpair =>
    ht.trans (t.alike_tell (h pair.1 (List.fst_mem_of_mem_zipIdx hpair)) pair.2 notice)

end Store

/-- The evaluation does not depend on what has been said before. -/
def Deaf {α : Type} (m : Eval H α) : Prop :=
  ∀ s t : Store H, s.Alike t → Action.Parallel Store.Alike (m s) (m t)

namespace Deaf

variable {α β : Type} {s t : Store H}

theorem invoke (c : Constructor H) (args : List (Option (Instance H))) : Deaf (c.invoke args) := by
  intro s t h
  unfold Constructor.invoke
  cases c.recipe with
  | handOut object => exact .ok (h.enter _)
  | assemble code =>
      simp only [h.world_eq]
      have habsorb := h.absorb (code (.ofValues c.label args) s.world)
      cases (code (.ofValues c.label args) s.world).result with
      | error e => exact .error (habsorb.enter _)
      | ok payload =>
          obtain ⟨hobject, hstores⟩ := habsorb.create c.implementation payload
          simp only [hobject]
          exact .ok (hstores.enter _)

theorem apply (a : Adapter H) (object : Instance H) : Deaf (a.apply object) := by
  intro s t h
  unfold Adapter.apply
  cases object.expect a.source with
  | error e => exact .error (h.enter _)
  | ok found =>
      simp only [h.world_eq]
      have habsorb := h.absorb (a.convert found.payload s.world)
      cases (a.convert found.payload s.world).result with
      | error e => exact .error (habsorb.enter _)
      | ok payload => exact .ok (habsorb.enter _)

theorem substitute (p : Parameter H) : Deaf p.substitute := by
  intro s t h
  unfold Parameter.substitute
  cases p with
  | service type name => exact .ok h
  | interface interface name => exact .ok h
  | value type standard =>
      simp only [h.world_eq]
      obtain ⟨hobject, hstores⟩ :=
        (h.absorb (standard s.world)).create type (standard s.world).result
      simp only [hobject]
      exact .ok (hstores.enter _)

theorem conduct : Conduct (H := H) Deaf where
  pure _ _ _ h := .ok h
  throw _ _ _ h := .error h
  bind hm hf _ _ h := (hm _ _ h).bind fun a _ _ _ hmid => hf a _ _ hmid
  look hf hsame s t h := by
    obtain ⟨journal, rfl, hcalls⟩ := h
    rw [Action.get_bind, Action.get_bind, hsame s { s with journal } rfl rfl]
    exact hf _ _ _ ⟨journal, rfl, hcalls⟩
  fill cell object s t h := by
    obtain ⟨journal, rfl, hcalls⟩ := h
    exact .ok ⟨journal, rfl, hcalls⟩
  invoke := invoke
  apply := apply
  substitute := substitute

theorem produce {f : Factory H} (hf : f.Emitted) : Deaf f.produce :=
  conduct.produce hf fun number s t h => by
    obtain ⟨journal, rfl, hcalls⟩ := h
    exact .ok ⟨journal, rfl, hcalls⟩

theorem compile (p : Plan H) : Deaf (Factory.compile p) := by
  intro s t h
  cases hprogram : p.program with
  | error e =>
      unfold Factory.compile
      rw [hprogram]
      exact .error h
  | ok program =>
      obtain ⟨journal, rfl, hcalls⟩ := h
      rw [Factory.compile_eq hprogram, Factory.compile_eq hprogram]
      exact .ok (Store.Alike.enter (s := { s with nextFactory := s.nextFactory + 1 })
        ⟨journal, rfl, hcalls⟩ _)

end Deaf

structure ContainerState.Alike (s t : ContainerState H) : Prop where
  store : s.store.Alike t.store
  cache : t.cache = s.cache
  emits : s.Emits

namespace Container

open Wiring.Action

def watchedBy (c : Container H) (others : List (Observer H)) : Container H :=
  { c with observers := others }

variable {s t : ContainerState H}

theorem parallel_eval {α : Type} {m : Eval H α} (hm : Deaf m) (h : s.Alike t) :
    Parallel ContainerState.Alike (Run.eval m s) (Run.eval m t) := by
  have hstores := hm _ _ h.store
  unfold Run.eval
  generalize m s.store = first at hstores ⊢
  generalize m t.store = second at hstores ⊢
  cases hstores with
  | ok hstore => exact .ok ⟨hstore, h.cache, h.emits⟩
  | error hstore => exact .error ⟨hstore, h.cache, h.emits⟩

theorem finalState_orAbort {α : Type} (what : String) (run : Run H α) (s : ContainerState H) :
    finalState (orAbort what run s) = finalState (run s) := by
  unfold orAbort
  cases run s <;> rfl

theorem parallel_viewed (view : Instance H → Except Failure (Instance H)) (object : Instance H)
    (h : s.Alike t) :
    Parallel ContainerState.Alike (viewed view object s) (viewed view object t) := by
  unfold viewed
  cases view object with
  | ok found => exact .ok h
  | error e => exact .error h

variable (c : Container H)

theorem parallel_plan (others : List (Observer H)) (h : s.Alike t) (key : Key) :
    Parallel ContainerState.Alike (c.plan key s) ((c.watchedBy others).plan key t) := by
  have hstore := h.store.logs (c.registry.plan c.options key).log
  change Parallel _ (c.plan key s) (c.plan key t)
  rw [c.plan_eq, c.plan_eq]
  cases (c.registry.plan c.options key).result with
  | ok plan => exact .ok ⟨hstore, h.cache, h.emits⟩
  | error e => exact .error ⟨hstore, h.cache, h.emits⟩

theorem parallel_compileQuietly (others : List (Observer H)) (h : s.Alike t) (key : Key) :
    Parallel ContainerState.Alike (c.compileQuietly key s)
      ((c.watchedBy others).compileQuietly key t) :=
  (c.parallel_plan others h key).bind fun plan _ _ _ hmid => parallel_eval (.compile plan) hmid

section Passive

variable {c} {others : List (Observer H)} (hc : ∀ observer ∈ c.observers, observer.Passive)
  (hothers : ∀ observer ∈ others, observer.Passive)

include hc hothers

theorem alike_reportReady {s t : Store H} (h : s.Alike t) (key : Key) (f : Factory H) :
    (c.reportReady key f s).Alike ((c.watchedBy others).reportReady key f t) :=
  (Store.alike_announce _ hc _).symm.trans ((h.enter _).trans (Store.alike_announce _ hothers _))

theorem alike_reportFailed {s t : Store H} (h : s.Alike t) (key : Key) (e : Failure) :
    (c.reportFailed key e s).Alike ((c.watchedBy others).reportFailed key e t) :=
  (Store.alike_announce _ hc _).symm.trans ((h.enter _).trans (Store.alike_announce _ hothers _))

theorem parallel_compile (h : s.Alike t) (key : Key) :
    Parallel ContainerState.Alike (c.compile key s) ((c.watchedBy others).compile key t) := by
  have hquiet := c.parallel_compileQuietly others h key
  unfold compile
  generalize c.compileQuietly key s = first at hquiet ⊢
  generalize (c.watchedBy others).compileQuietly key t = second at hquiet ⊢
  cases hquiet with
  | ok hmid => exact .ok ⟨alike_reportReady hc hothers hmid.store key _, hmid.cache, hmid.emits⟩
  | error hmid =>
      exact .error ⟨alike_reportFailed hc hothers hmid.store key _, hmid.cache, hmid.emits⟩

theorem parallel_factory (h : s.Alike t) (key : Key) :
    Parallel ContainerState.Alike (c.factory key s) ((c.watchedBy others).factory key t) := by
  have hemits := c.emits_factory h.emits key
  refine Parallel.mono (R := fun s t => s.store.Alike t.store ∧ t.cache = s.cache) ?_
    fun hstates => ⟨hstates.1, hstates.2, hemits⟩
  clear hemits
  unfold factory
  have hcontains : (c.watchedBy others).contains key = c.contains key := rfl
  rw [hcontains]
  split
  · cases hcached : s.cache.get? key with
    | some f =>
        rw [FactoryCache.obtain_of_stored (fun _ => rfl) hcached,
          FactoryCache.obtain_of_stored (fun _ => rfl) (h.cache ▸ hcached)]
        exact .ok ⟨h.store, h.cache⟩
    | none =>
        have hreserved : ContainerState.Alike { s with cache := s.cache.reserve key }
            { t with cache := t.cache.reserve key } :=
          ⟨h.store, congrArg (·.reserve key) h.cache, fun other f hf =>
            h.emits other f ((s.cache.get?_reserve key other).symm.trans hf)⟩
        have hcompile := parallel_compile hc hothers hreserved key
        rw [FactoryCache.obtain_of_missing (fun _ _ => rfl) hcached,
          FactoryCache.obtain_of_missing (fun _ _ => rfl) (h.cache ▸ hcached)]
        generalize c.compile key _ = first at hcompile ⊢
        generalize (c.watchedBy others).compile key _ = second at hcompile ⊢
        cases hcompile with
        | ok hmid => exact .ok ⟨hmid.store, by rw [h.cache]⟩
        | error hmid => exact .error ⟨hmid.store, hmid.cache⟩
  · exact .error ⟨h.store, h.cache⟩

theorem parallel_resolve (h : s.Alike t) (key : Key) :
    Parallel ContainerState.Alike (c.resolve key s) ((c.watchedBy others).resolve key t) := by
  rw [c.resolve_eq, (c.watchedBy others).resolve_eq]
  refine (parallel_factory hc hothers h key).bind fun f s' t' hfactory hmid => ?_
  have hemitted := hmid.emits key f (stored_of_factory_eq_ok hfactory)
  refine (parallel_eval (.produce hemitted) hmid).bind fun object s'' t'' _ hlast => ?_
  refine .ok ⟨?_, hlast.cache, hlast.emits⟩
  exact (s''.store.alike_announce hc _).symm.trans
    (hlast.store.trans (t''.store.alike_announce hothers _))

theorem parallel_resolveAll (h : s.Alike t) (key : Key) :
    Parallel ContainerState.Alike (c.resolveAll key s) ((c.watchedBy others).resolveAll key t) :=
  .mapM (fun r _ _ _ hmid => parallel_resolve hc hothers hmid r.key) h

theorem parallel_prewarmOne (h : s.Alike t) (r : Registration H) :
    Parallel ContainerState.Alike (c.prewarmOne r s) ((c.watchedBy others).prewarmOne r t) := by
  refine (parallel_factory hc hothers h r.key).bind fun f s' t' hfactory hmid => ?_
  have hemitted := hmid.emits r.key f (stored_of_factory_eq_ok hfactory)
  split
  · exact (parallel_eval (.produce hemitted) hmid).discard
  · exact .ok hmid

theorem parallel_prewarm (h : s.Alike t) :
    Parallel ContainerState.Alike (c.prewarm s) ((c.watchedBy others).prewarm t) := by
  unfold prewarm
  rw [get_bind, get_bind, h.cache]
  refine Parallel.bind (.forM (fun r _ _ _ hmid => parallel_prewarmOne hc hothers hmid r) h) ?_
  intro _ s' t' _ hmid
  rw [get_bind, get_bind, hmid.cache]
  exact .ok ⟨hmid.store.enter _, hmid.cache, hmid.emits⟩

theorem parallel_resolve_viewed (h : s.Alike t) (key : Key)
    (view : Instance H → Except Failure (Instance H)) :
    Parallel ContainerState.Alike ((c.resolve key >>= viewed view) s)
      (((c.watchedBy others).resolve key >>= viewed view) t) :=
  (parallel_resolve hc hothers h key).bind fun object _ _ _ hmid => parallel_viewed view object hmid

theorem parallel_resolveAll_viewed (h : s.Alike t) (key : Key)
    (view : Instance H → Except Failure (Instance H)) :
    Parallel ContainerState.Alike
      ((c.resolveAll key >>= fun objects => objects.mapM (viewed view)) s)
      (((c.watchedBy others).resolveAll key >>= fun objects => objects.mapM (viewed view)) t) :=
  (parallel_resolveAll hc hothers h key).bind fun _ _ _ _ hmid =>
    .mapM (fun object _ _ _ hnext => parallel_viewed view object hnext) hmid

end Passive

end Container

namespace Session

structure Alike (q p : Session H) : Prop where
  state : q.state.Alike p.state
  plans : p.plans = q.plans
  factories : p.factories = q.factories
  resolved : p.resolved = q.resolved
  emitted : ∀ entry ∈ q.factories, entry.2.Emitted

/-- What a request comes back with. -/
inductive Answer (H : Host) where
  | plan (result : Except Failure (Plan H))
  | factory (result : Except Failure (Factory H))
  | object (result : Except Failure (Instance H))
  | objects (result : Except Failure (List (Instance H)))
  | count (result : Except Failure Nat)
  | nothing

open Wiring.Action in
def answer (c : Container H) (q : Session H) : Request H → Answer H
  | .plan key => .plan (outcome (c.plan key q.state))
  | .compile position =>
    match q.plans[position]? with
    | none => .nothing
    | some (_, plan) => .factory (outcome (Run.eval (Factory.compile plan) q.state))
  | .factory key => .factory (outcome (c.factory key q.state))
  | .produce position =>
    match q.factories[position]? with
    | none => .nothing
    | some (_, factory) => .object (outcome (Run.eval factory.produce q.state))
  | .resolve key => .object (outcome (c.resolve key q.state))
  | .resolveAll key => .objects (outcome (c.resolveAll key q.state))
  | .prewarm => .count (outcome (c.prewarm q.state))
  | .get type name => .object (outcome (c.get type name q.state))
  | .getInterface interface name => .object (outcome (c.getInterface interface name q.state))
  | .getAll type => .objects (outcome (c.getAll type q.state))
  | .getAllInterface interface => .objects (outcome (c.getAllInterface interface q.state))
  | .remember _ => .nothing

def answers (c : Container H) (q : Session H) : List (Request H) → List (Answer H)
  | [] => []
  | request :: rest => q.answer c request :: (q.serve c request).answers c rest

variable {q p : Session H}

theorem Alike.after {α : Type} {first second : EStateM.Result Failure (ContainerState H) α}
    {keep : α → Session H → Session H} (h : q.Alike p)
    (hresults : Action.Parallel ContainerState.Alike first second)
    (hkeep : ∀ a s t, first = .ok a s → Alike { q with state := s } { p with state := t } →
      (keep a { q with state := s }).Alike (keep a { p with state := t })) :
    (q.after first keep).Alike (p.after second keep) := by
  cases hresults with
  | ok hstates => exact hkeep _ _ _ rfl ⟨hstates, h.plans, h.factories, h.resolved, h.emitted⟩
  | error hstates => exact ⟨hstates, h.plans, h.factories, h.resolved, h.emitted⟩

theorem Alike.keepPlan (h : q.Alike p) (key : Key) (plan : Plan H) :
    (q.keepPlan key plan).Alike (p.keepPlan key plan) :=
  ⟨h.state, congrArg (· ++ _) h.plans, h.factories, h.resolved, h.emitted⟩

theorem Alike.keepFactory (h : q.Alike p) (key : Key) {f : Factory H} (hf : f.Emitted) :
    (q.keepFactory key f).Alike (p.keepFactory key f) where
  state := h.state
  plans := h.plans
  factories := congrArg (· ++ _) h.factories
  resolved := h.resolved
  emitted := by
    intro entry hentry
    rcases List.mem_append.mp hentry with hold | hnew
    · exact h.emitted entry hold
    · exact List.mem_singleton.mp hnew ▸ hf

theorem Alike.keepResolved (h : q.Alike p) (key : Key) (object : Instance H) :
    (q.keepResolved key object).Alike (p.keepResolved key object) :=
  ⟨h.state, h.plans, h.factories, congrArg (· ++ _) h.resolved, h.emitted⟩

theorem Alike.keepAllResolved (h : q.Alike p) (keys : List Key) (objects : List (Instance H)) :
    (q.keepAllResolved keys objects).Alike (p.keepAllResolved keys objects) :=
  ⟨h.state, h.plans, h.factories, congrArg (· ++ _) h.resolved, h.emitted⟩

section Passive

variable {c : Container H} {others : List (Observer H)}
  (hc : ∀ observer ∈ c.observers, observer.Passive)
  (hothers : ∀ observer ∈ others, observer.Passive)

include hc hothers

theorem Alike.serve (h : q.Alike p) (request : Request H) :
    q.answer c request = p.answer (c.watchedBy others) request ∧
      (q.serve c request).Alike (p.serve (c.watchedBy others) request) := by
  cases request with
  | plan key =>
      have hplan := c.parallel_plan others h.state key
      exact ⟨congrArg Answer.plan hplan.outcome_eq,
        h.after hplan fun plan _ _ _ hnext => hnext.keepPlan key plan⟩
  | compile position =>
      simp only [answer, Session.serve, h.plans]
      cases q.plans[position]? with
      | none => exact ⟨rfl, h⟩
      | some entry =>
          have hcompile := Container.parallel_eval (.compile entry.2) h.state
          refine ⟨congrArg Answer.factory hcompile.outcome_eq,
            h.after hcompile fun f s t hf hnext => hnext.keepFactory entry.1 ?_⟩
          exact Factory.emitted_of_eval_compile_eq_ok hf
  | factory key =>
      have hfactory := Container.parallel_factory hc hothers h.state key
      refine ⟨congrArg Answer.factory hfactory.outcome_eq,
        h.after hfactory fun f s t hf hnext => hnext.keepFactory key ?_⟩
      exact hnext.state.emits key f (Container.stored_of_factory_eq_ok hf)
  | produce position =>
      simp only [answer, Session.serve, h.factories]
      cases hfactory : q.factories[position]? with
      | none => exact ⟨rfl, h⟩
      | some entry =>
          have hproduce := Container.parallel_eval
            (.produce (h.emitted entry (List.mem_of_getElem? hfactory))) h.state
          exact ⟨congrArg Answer.object hproduce.outcome_eq,
            h.after hproduce fun object _ _ _ hnext => hnext.keepResolved entry.1 object⟩
  | resolve key =>
      have hresolve := Container.parallel_resolve hc hothers h.state key
      exact ⟨congrArg Answer.object hresolve.outcome_eq,
        h.after hresolve fun object _ _ _ hnext => hnext.keepResolved key object⟩
  | resolveAll key =>
      have hresolve := Container.parallel_resolveAll hc hothers h.state key
      exact ⟨congrArg Answer.objects hresolve.outcome_eq,
        h.after hresolve fun objects _ _ _ hnext => hnext.keepAllResolved _ objects⟩
  | prewarm =>
      have hprewarm := Container.parallel_prewarm hc hothers h.state
      exact ⟨congrArg Answer.count hprewarm.outcome_eq, h.after hprewarm fun _ _ _ _ hnext => hnext⟩
  | get type name =>
      have hget := Container.parallel_resolve_viewed hc hothers h.state (.ofType type name) (·.expect type)
      exact ⟨congrArg Answer.object hget.outcome_eq,
        h.after hget fun object _ _ _ hnext => hnext.keepResolved _ object⟩
  | getInterface interface name =>
      have hget := Container.parallel_resolve_viewed hc hothers h.state (.ofInterface interface name)
        (·.expectInterface interface)
      exact ⟨congrArg Answer.object hget.outcome_eq,
        h.after hget fun object _ _ _ hnext => hnext.keepResolved _ object⟩
  | getAll type =>
      have hget := Container.parallel_resolveAll_viewed hc hothers h.state (.ofType type) (·.expect type)
      exact ⟨congrArg Answer.objects hget.outcome_eq,
        h.after hget fun objects _ _ _ hnext => hnext.keepAllResolved _ objects⟩
  | getAllInterface interface =>
      have hget := Container.parallel_resolveAll_viewed hc hothers h.state (.ofInterface interface)
        (·.expectInterface interface)
      exact ⟨congrArg Answer.objects hget.outcome_eq,
        h.after hget fun objects _ _ _ hnext => hnext.keepAllResolved _ objects⟩
  | remember change =>
      obtain ⟨journal, hstore, hcalls⟩ := h.state.store
      refine ⟨rfl, ⟨?_, h.state.cache, h.state.emits⟩, h.plans, h.factories, h.resolved, h.emitted⟩
      exact ⟨journal, congrArg (fun store : Store H =>
        { store with world := change store.world }) hstore, hcalls⟩

theorem Alike.run (h : q.Alike p) (requests : List (Request H)) :
    q.answers c requests = p.answers (c.watchedBy others) requests ∧
      (q.run c requests).Alike (p.run (c.watchedBy others) requests) := by
  induction requests generalizing q p with
  | nil => exact ⟨rfl, h⟩
  | cons request rest ih =>
      obtain ⟨hanswer, hserved⟩ := h.serve hc hothers request
      obtain ⟨hanswers, hrun⟩ := ih hserved
      exact ⟨by rw [answers, answers, hanswer, hanswers], hrun⟩

end Passive

end Session

namespace Builder

def watchedBy (b : Builder H) (others : List (Observer H)) : Builder H :=
  { b with observers := others }

theorem alike_session (b : Builder H) (others : List (Observer H)) (world : H.World)
    (hash : List Datum → UInt64) :
    (b.session world hash).Alike ((b.watchedBy others).session world hash) where
  state := ⟨.refl _, rfl, fun key factory h => by simp [session, build, Container.start] at h⟩
  plans := rfl
  factories := rfl
  resolved := rfl
  emitted := List.forall_mem_nil _

/-- Whatever a program does, all observers hear the same news, each piece in the order in which the
observers were added. Once the factory of a key is announced, no equal key is announced again or
reported as failed. Apart from factories the news is what the calls give rise to, in their order:
one failure for each call that fails to compile a registered key, one resolution for each that
succeeds, and a resolution comes after the factory of its key. Observers may change the world; that
they call the container or a factory is ruled out by their type. If they are passive, everything else
is the same without them: the answers, the cells, the factories and the calls of client code. Services
that have to be resolvable are resolved like others. -/
theorem observation_protocol (b : Builder H) (world : H.World) (hash : List Datum → UInt64)
    (requests : List (Request H)) :
    let start := b.session world hash
    let q := start.run b.container requests
    let unwatched := b.watchedBy []
    let other := unwatched.session world hash
    let p := other.run unwatched.container requests
    (∃ news : List Notice,
      q.store.journal.heard =
        news.flatMap (fun notice => (List.range b.observers.length).map (·, notice)) ∧
      (∀ observer < b.observers.length, q.store.journal.heardBy observer = news) ∧
      news.Pairwise Notice.Allows ∧
      (∀ key, (q.state.cache.get? key).isSome = true ↔ ∃ notice ∈ news, notice.Readies key) ∧
      news.filter Notice.isReply =
        (start.inquiries b.container requests).filterMap (Inquiry.reply? b.container) ∧
      ∀ before key, before ++ [.resolved key] <+: news →
        ∃ notice ∈ before, notice.Readies key) ∧
    p.store.journal.heard = [] ∧
    ((∀ observer ∈ b.observers, observer.Passive) →
      other.answers unwatched.container requests = start.answers b.container requests ∧
      p.store.cells = q.store.cells ∧ p.state.cache = q.state.cache ∧
      p.store.journal.calls = q.store.journal.calls ∧ p.store.world = q.store.world ∧
      p.resolved = q.resolved) ∧
    ∀ type s, Action.finalState (b.container.require type s) =
        Action.finalState (b.container.get type none s) ∧
      Action.finalState (b.container.requireInterface type s) =
        Action.finalState (b.container.getInterface type none s) := by
  intro start q unwatched other p
  have htold := (b.told_session world hash).run requests
  obtain ⟨-, news, hinformed, hreplies⟩ := htold.state
  obtain ⟨-, silence, hsilent, -⟩ := ((unwatched.told_session world hash).run requests).state
  refine ⟨⟨news, hinformed.heard, fun _ => Container.heardBy_eq hinformed.heard, hinformed.allowed,
    hinformed.ready, hreplies, hinformed.preceded⟩, ?silence, ?transparency,
    fun _ _ => ⟨Container.finalState_orAbort _ _ _, Container.finalState_orAbort _ _ _⟩⟩
  case silence => exact hsilent.heard.trans (List.flatMap_eq_nil_iff.mpr fun _ _ => rfl)
  case transparency =>
    intro hpassive
    obtain ⟨hanswers, halike⟩ := (b.alike_session [] world hash).run (c := b.container) hpassive
      (List.forall_mem_nil _) requests
    exact ⟨hanswers.symm, halike.state.store.cells_eq, halike.state.cache,
      halike.state.store.calls_eq, halike.state.store.world_eq, halike.resolved⟩

end Builder

namespace Sample

def watched : Builder host :=
  builder.watchedBy [.logging "first", .logging "second"]

/-- The motor fails once. The answers to both attempts are the same without observers. -/
theorem logging_unnoticed :
    (∀ observer ∈ watched.observers, observer.Passive) ∧
      ((watched.watchedBy []).session 0 fun _ => 0).answers (watched.watchedBy []).container
          [.resolve (.ofType motor), .resolve (.ofType motor)] =
        (watched.session 0 fun _ => 0).answers watched.container
          [.resolve (.ofType motor), .resolve (.ofType motor)] := by
  have hpassive : ∀ observer ∈ watched.observers, observer.Passive :=
    List.forall_mem_cons.mpr ⟨Observer.passive_ofRemarks _,
      List.forall_mem_singleton.mpr (Observer.passive_ofRemarks _)⟩
  exact ⟨hpassive, ((watched.observation_protocol 0 (fun _ => 0) _).2.2.1 hpassive).1⟩

/-- Both observers hear of the motor's factory and then of the second attempt. -/
example : (((watched.session 0 fun _ => 0).run watched.container
    [.resolve (.ofType motor), .resolve (.ofType motor), .plan root]).store.journal.heard.map
      fun told => (told.1, told.2.isReply)) =
    [(0, false), (1, false), (0, true), (1, true)] := by
  decide +kernel

/-- An observer that changes the world. -/
def meddler : Observer host where
  react _ _ world := ⟨world + 1, []⟩

/-- Told of the motor's factory, it makes the motor work at the first attempt. -/
example : ([[], [meddler]].map fun observers =>
    (((builder.watchedBy observers).session 0 fun _ => 0).run
      (builder.watchedBy observers).container [.resolve (.ofType motor)]).resolved.length) =
    [0, 1] := by
  decide +kernel

end Sample

end Wiring
