import Wiring.Container.Builder
import Wiring.Container.Typed
import Wiring.Proofs.Action
import Wiring.Proofs.Registry.Dependency

/-!
Sessions: everything that a program can do with a container, in any order and any number of times.
Containers are made by builders, and clones of a container share its state.
-/

namespace Wiring

variable {H : Host}

theorem Container.plan_eq (c : Container H) (key : Key) (s : ContainerState H) :
    c.plan key s = Action.answer (c.registry.plan c.options key).result
      { s with store := (c.registry.plan c.options key).log.foldl Store.log s.store } := by
  unfold plan
  dsimp only
  cases (c.registry.plan c.options key).result <;> rfl

theorem Run.eval_of_ok {α : Type} {action : Eval H α} {s : ContainerState H} {a : α} {t : Store H}
    (h : action s.store = .ok a t) : Run.eval action s = .ok a { s with store := t } := by
  rw [eval, h]

theorem Run.eval_of_error {α : Type} {action : Eval H α} {s : ContainerState H} {e : Failure}
    {t : Store H} (h : action s.store = .error e t) :
    Run.eval action s = .error e { s with store := t } := by
  rw [eval, h]

/-- Without observers nobody misses the announcement. -/
theorem Container.resolve_eq (c : Container H) (key : Key) :
    c.resolve key = do
      let factory ← c.factory key
      let object ← Run.eval factory.produce
      Run.onStore (·.announce c.observers (.resolved key))
      return object := by
  unfold resolve
  split
  next hunwatched =>
    rw [List.isEmpty_iff.mp hunwatched]
    refine congrArg (c.factory key >>= ·) (funext fun factory => funext fun s => ?_)
    cases hproduce : Run.eval factory.produce s with
    | ok object t =>
        rw [Action.bind_of_ok _ hproduce]
        rfl
    | error e t => rw [Action.bind_of_error _ hproduce]
  next => rfl

theorem Container.resolve_of_factory_eq_error {c : Container H} {key : Key} {e : Failure}
    {s t : ContainerState H} (hfactory : c.factory key s = .error e t) :
    c.resolve key s = .error e t := by
  rw [resolve_eq, Action.bind_of_error _ hfactory]

theorem Container.resolve_of_factory_eq_ok {c : Container H} {key : Key} {f : Factory H}
    {s t : ContainerState H} (hfactory : c.factory key s = .ok f t) :
    c.resolve key s =
      match f.produce t.store with
      | .ok object store =>
        .ok object { t with store := store.announce c.observers (.resolved key) }
      | .error e store => .error e { t with store } := by
  rw [resolve_eq, Action.bind_of_ok _ hfactory]
  cases hproduce : f.produce t.store with
  | ok object store =>
      rw [Action.bind_of_ok _ (Run.eval_of_ok hproduce)]
      rfl
  | error e store => rw [Action.bind_of_error _ (Run.eval_of_error hproduce)]

/-- The builders that a program can make. Operations that fail leave what they have logged. -/
inductive Builder.Made : Builder H → Prop
  | withOptions (options : Options) : Made (.withOptions options)
  | add {b : Builder H} (hb : Made b) (i : Implementation H) (lifetime : Lifetime)
      (name : Option String) : Made (Action.finalState (Builder.add i lifetime name b))
  | addListed {b : Builder H} (hb : Made b) (i : Implementation H) (lifetime : Lifetime)
      (name : Option String) : Made (Action.finalState (Builder.addListed i lifetime name b))
  | addInterface {b : Builder H} (hb : Made b) (interface : TypeTag) (convert : Conversion H)
      (i : Implementation H) (lifetime : Lifetime) (name : Option String) :
      Made (Action.finalState (Builder.addInterface interface convert i lifetime name b))
  | addInstance {b : Builder H} (hb : Made b) (type : TypeTag) (payload : H.Payload)
      (name : Option String) : Made (Action.finalState (Builder.addInstance type payload name b))
  | addInterfaceInstance {b : Builder H} (hb : Made b) (interface : TypeTag) (payload : H.Payload)
      (name : Option String) :
      Made (Action.finalState (Builder.addInterfaceInstance interface payload name b))
  | addObserver {b : Builder H} (hb : Made b) (observer : Observer H) :
      Made (Action.finalState (Builder.addObserver observer b))
  | validate {b : Builder H} (hb : Made b) : Made (Action.finalState (Builder.validate b))

/-- One thing that a program can do. Plans and factories that it has obtained are named by their
position. -/
inductive Request (H : Host) where
  | plan (key : Key)
  | compile (position : Nat)
  | factory (key : Key)
  | produce (position : Nat)
  | resolve (key : Key)
  | resolveAll (key : Key)
  | prewarm
  | get (type : TypeTag) (name : Option String)
  | getInterface (interface : TypeTag) (name : Option String)
  | getAll (type : TypeTag)
  | getAllInterface (interface : TypeTag)
  /-- Client code does something that does not involve the container. -/
  | remember (change : H.World → H.World)

/-- A program in the middle of using a container, with everything that it has obtained. -/
structure Session (H : Host) where
  state : ContainerState H
  plans : List (Key × Plan H)
  factories : List (Key × Factory H)
  resolved : List (Key × Instance H)

namespace Session

/-- Goes on from where an operation has ended; what it has returned is kept. -/
def after {α : Type} (q : Session H)
    (result : EStateM.Result Failure (ContainerState H) α) (keep : α → Session H → Session H) :
    Session H :=
  match result with
  | .ok a state => keep a { q with state }
  | .error _ state => { q with state }

def keepPlan (key : Key) (plan : Plan H) (q : Session H) : Session H :=
  { q with plans := q.plans ++ [(key, plan)] }

def keepFactory (key : Key) (factory : Factory H) (q : Session H) : Session H :=
  { q with factories := q.factories ++ [(key, factory)] }

def keepResolved (key : Key) (object : Instance H) (q : Session H) : Session H :=
  { q with resolved := q.resolved ++ [(key, object)] }

def keepAllResolved (keys : List Key) (objects : List (Instance H)) (q : Session H) : Session H :=
  { q with resolved := q.resolved ++ keys.zip objects }

def serve (c : Container H) (q : Session H) : Request H → Session H
  | .plan key => q.after (c.plan key q.state) (keepPlan key)
  | .compile position =>
    match q.plans[position]? with
    | none => q
    | some (key, plan) => q.after (Run.eval (Factory.compile plan) q.state) (keepFactory key)
  | .factory key => q.after (c.factory key q.state) (keepFactory key)
  | .produce position =>
    match q.factories[position]? with
    | none => q
    | some (key, factory) => q.after (Run.eval factory.produce q.state) (keepResolved key)
  | .resolve key => q.after (c.resolve key q.state) (keepResolved key)
  | .resolveAll key =>
    q.after (c.resolveAll key q.state)
      (keepAllResolved ((c.registry.ofService key).map Registration.key))
  | .prewarm => q.after (c.prewarm q.state) fun _ => id
  | .get type name => q.after (c.get type name q.state) (keepResolved (.ofType type name))
  | .getInterface interface name =>
    q.after (c.getInterface interface name q.state) (keepResolved (.ofInterface interface name))
  | .getAll type =>
    q.after (c.getAll type q.state)
      (keepAllResolved ((c.registry.ofService (.ofType type)).map Registration.key))
  | .getAllInterface interface =>
    q.after (c.getAllInterface interface q.state)
      (keepAllResolved ((c.registry.ofService (.ofInterface interface)).map Registration.key))
  | .remember change =>
    { q with state :=
        { q.state with store := { q.state.store with world := change q.state.store.world } } }

theorem serve_of_resolve_eq_ok {c : Container H} {q : Session H} {key : Key} {object : Instance H}
    {s : ContainerState H} (h : c.resolve key q.state = .ok object s) :
    q.serve c (.resolve key) = keepResolved key object { q with state := s } := by
  simp [serve, after, h]

theorem serve_of_resolve_eq_error {c : Container H} {q : Session H} {key : Key} {e : Failure}
    {s : ContainerState H} (h : c.resolve key q.state = .error e s) :
    q.serve c (.resolve key) = { q with state := s } := by
  simp [serve, after, h]

theorem mem_keepResolved (q : Session H) (key : Key) (object : Instance H) :
    (key, object) ∈ (q.keepResolved key object).resolved :=
  List.mem_append_right _ (List.mem_singleton_self _)

def run (c : Container H) (q : Session H) (requests : List (Request H)) : Session H :=
  requests.foldl (serve c) q

def store (q : Session H) : Store H :=
  q.state.store

end Session

def Builder.session (b : Builder H) (world : H.World) (hash : List Datum → UInt64) : Session H :=
  ⟨(b.build world hash).2, [], [], []⟩

/-- Everything that can be reached: a builder has been made, it has built a container, and the
container has been used. -/
def Session.Reachable (c : Container H) (q : Session H) : Prop :=
  ∃ (b : Builder H) (world : H.World) (hash : List Datum → UInt64) (requests : List (Request H)),
    b.Made ∧ c = b.container ∧ q = (b.session world hash).run c requests

namespace Builder

variable {b : Builder H}

theorem registry_register (key : Key) (provision : Provision H) (b : Builder H) :
    (Action.finalState (register key provision b)).registry = b.registry ∨
      (Action.finalState (register key provision b)).registry =
        b.registry.store key provision := by
  unfold register Registry.insert
  dsimp only
  split
  next registry hinsert =>
    split at hinsert
    · cases hinsert
    · cases hinsert
      exact Or.inr rfl
  next => exact Or.inl rfl

theorem assembled_register {key : Key} {provision : Provision H} (hb : b.registry.Assembled) :
    (Action.finalState (register key provision b)).registry.Assembled := by
  rcases registry_register key provision b with hsame | hstored
  · exact hsame ▸ hb
  · exact hstored ▸ .store key provision hb

theorem Made.assembled (hb : b.Made) : b.registry.Assembled := by
  induction hb with
  | withOptions options => exact .withCapacity 16
  | add _ i lifetime name ih => exact assembled_register ih
  | @addListed b _ i lifetime name ih =>
      change (Action.finalState ((checkConstructors i >>= fun _ => Builder.add i lifetime name)
        b)).registry.Assembled
      unfold checkConstructors
      split
      · exact assembled_register ih
      · exact ih
  | addInterface _ interface convert i lifetime name ih => exact assembled_register ih
  | addInstance _ type payload name ih => exact assembled_register ih
  | addInterfaceInstance _ interface payload name ih => exact assembled_register ih
  | addObserver _ observer ih => exact ih
  | validate _ ih => exact ih

end Builder

theorem Session.Reachable.serve {c : Container H} {q : Session H} (h : q.Reachable c)
    (request : Request H) : (q.serve c request).Reachable c := by
  obtain ⟨b, world, hash, requests, hb, rfl, rfl⟩ := h
  refine ⟨b, world, hash, requests ++ [request], hb, rfl, ?_⟩
  rw [run, run, List.foldl_append]
  rfl

theorem Session.Reachable.run {c : Container H} {q : Session H} (h : q.Reachable c)
    (requests : List (Request H)) : (q.run c requests).Reachable c := by
  obtain ⟨b, world, hash, before, hb, hc, rfl⟩ := h
  refine ⟨b, world, hash, before ++ requests, hb, hc, ?_⟩
  exact (List.foldl_append ..).symm

theorem Session.Reachable.assembled {c : Container H} {q : Session H} (h : q.Reachable c) :
    c.registry.Assembled := by
  obtain ⟨b, -, -, -, hb, rfl, -⟩ := h
  exact .freeze hb.assembled

namespace Sample

/-- The small example as a program registers it. -/
def builder : Builder host :=
  Action.finalState (Builder.addInterface vehicle convert cars .transient none
    (Action.finalState (Builder.add lamps .transient none
      (Action.finalState (Builder.add motors .singleton none
        (Action.finalState (Builder.addInstance fuse 5 none
          (Action.finalState (Builder.add batteries .singleton none (.withOptions {}))))))))))

theorem made : builder.Made :=
  .addInterface (.add (.add (.addInstance (.add (.withOptions {}) ..) ..) ..) ..) ..

def container : Container host := builder.container

def session : Session host :=
  (builder.session 0 fun _ => 0).run container
    [.factory root, .produce 0, .resolve (.ofType motor), .plan (.ofType lamp), .compile 0,
      .produce 1, .produce 0]

theorem reachable : session.Reachable container :=
  ⟨builder, _, _, _, made, rfl, rfl⟩

theorem exists_plan : ∃ plan, (container.registry.plan container.options root).result = .ok plan ∧
    plan.nodes.size ≤ UInt32.size := by
  have hsize : ((container.registry.plan container.options root).result.map
      fun plan => plan.nodes.size).toOption = some 6 := by decide +kernel
  cases hresult : (container.registry.plan container.options root).result with
  | error e =>
      rw [hresult] at hsize
      cases hsize
  | ok plan =>
      rw [hresult] at hsize
      refine ⟨plan, rfl, ?_⟩
      have hplan : plan.nodes.size = 6 := Option.some.inj hsize
      rw [hplan]
      decide

end Sample

end Wiring
