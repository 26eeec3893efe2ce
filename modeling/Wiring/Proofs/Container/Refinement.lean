import Wiring.Proofs.Container.Preparation

namespace Wiring

variable {H : Host}

/-- What can be seen of an evaluation: its result and everything in the store but the memories of
factories. -/
def observe {α : Type} :
    EStateM.Result Failure (Store H) α → EStateM.Result Failure (Store H) α
  | .ok a s => .ok a { s with initialized := [] }
  | .error e s => .error e { s with initialized := [] }

def remembering {α : Type} (memory : List Nat) :
    EStateM.Result Failure (Store H) α → EStateM.Result Failure (Store H) α
  | .ok a s => .ok a { s with initialized := memory }
  | .error e s => .error e { s with initialized := memory }

theorem observe_remembering {α : Type} (memory : List Nat)
    (result : EStateM.Result Failure (Store H) α) :
    observe (remembering memory result) = observe result := by
  cases result <;> rfl

/-- The evaluation neither looks at the memories of factories nor changes them. -/
def Blind {α : Type} (m : Eval H α) : Prop :=
  ∀ (s : Store H) (memory : List Nat),
    m { s with initialized := memory } = remembering memory (m s)

namespace Blind

variable {α β : Type} {m : Eval H α}

theorem pure (a : α) : Blind (pure a : Eval H α) := fun _ _ => rfl

theorem throw (e : Failure) : Blind (throw e : Eval H α) := fun _ _ => rfl

theorem bind {f : α → Eval H β} (hm : Blind m) (hf : ∀ a, Blind (f a)) : Blind (m >>= f) := by
  intro s memory
  have hs := hm s memory
  cases hresult : m s with
  | ok a t =>
      rw [hresult] at hs
      rw [Action.bind_of_ok _ hs, Action.bind_of_ok _ hresult]
      exact hf a t memory
  | error e t =>
      rw [hresult] at hs
      rw [Action.bind_of_error _ hs, Action.bind_of_error _ hresult]
      rfl

theorem map {f : α → β} (hm : Blind m) : Blind (f <$> m) := by
  rw [map_eq_pure_bind]
  exact hm.bind fun a => pure _

theorem mapM {f : α → Eval H β} {elements : List α} (hf : ∀ a, Blind (f a)) :
    Blind (elements.mapM f) := by
  induction elements with
  | nil => exact pure []
  | cons a rest ih =>
      rw [List.mapM_cons]
      exact (hf a).bind fun b => ih.bind fun others => pure _

theorem invoke (c : Constructor H) (args : List (Option (Instance H))) :
    Blind (c.invoke args) := by
  intro s memory
  unfold Constructor.invoke
  cases c.recipe with
  | handOut object => rfl
  | assemble code =>
      dsimp only
      cases (code (.ofValues c.label args) s.world).result <;> rfl

theorem apply (a : Adapter H) (object : Instance H) : Blind (a.apply object) := by
  intro s memory
  unfold Adapter.apply
  cases object.expect a.source with
  | error e => rfl
  | ok found =>
      dsimp only
      cases (a.convert found.payload s.world).result <;> rfl

theorem substitute (p : Parameter H) : Blind p.substitute := by
  intro s memory
  cases p <;> rfl

theorem assemble {registry : Registry H} {policy : ConstructorPolicy}
    {evaluate : Registration H → Eval H (Instance H)} (hevaluate : ∀ d, Blind (evaluate d))
    (r : Registration H) : Blind (registry.assemble policy evaluate r) := by
  unfold Registry.assemble
  cases policy.choose? r.constructors with
  | none => exact throw _
  | some chosen =>
      refine Blind.bind (mapM fun parameter => ?_) fun args =>
        (invoke chosen args).bind fun object => ?_
      · unfold Registry.supply
        cases registry.find? parameter.key with
        | some d => exact (hevaluate d).map
        | none => exact substitute parameter
      · cases r.adapter with
        | some adapter => exact apply adapter object
        | none => exact pure object

theorem evaluate (registry : Registry H) (policy : ConstructorPolicy) (depth : Nat)
    (r : Registration H) : Blind (registry.evaluate policy depth r) := by
  induction depth generalizing r with
  | zero => exact throw _
  | succ depth ih =>
      unfold Registry.evaluate
      cases r.cell? with
      | none => exact assemble ih r
      | some cell =>
          intro s memory
          simp only [Action.get_bind]
          cases s.cells.get? cell <;> rfl

end Blind

namespace Registry

variable {registry : Registry H} {policy : ConstructorPolicy} {number : Nat}
  {r : Registration H} {s : Store H}

/-- Apart from its memory, a prepared factory does what direct injection does from the beginning. -/
theorem observe_produce (hbuildable : registry.Buildable policy registry.size r)
    (hprepared : s.Prepared registry policy number r) :
    observe (registry.produce policy number r s) = observe (registry.inject policy r s) := by
  unfold produce inject
  by_cases hmem : number ∈ s.initialized
  · rw [Action.bind_of_ok _ (prepare_of_mem hmem),
      Action.bind_of_ok _ (fillAll_of_filled hbuildable (hprepared hmem))]
  · have hprepare : registry.prepare policy number r s = (do
        registry.fillAll policy registry.size r
        modify fun s => { s with initialized := number :: s.initialized } : Eval H Unit) s :=
      prepare_of_not_mem hmem
    cases hfill : registry.fillAll policy registry.size r s with
    | error e t =>
        rw [Action.bind_of_error _ hfill] at hprepare
        rw [Action.bind_of_error _ hprepare, Action.bind_of_error _ hfill]
    | ok _ t =>
        rw [Action.bind_of_ok _ hfill] at hprepare
        rw [Action.bind_of_ok _ hprepare, Action.bind_of_ok _ hfill]
        rw [Blind.evaluate registry policy registry.size r t (number :: t.initialized)]
        exact observe_remembering _ _

end Registry

theorem Container.observe_factory (c : Container H) (hr : c.registry.Assembled) {key : Key}
    {plan : Plan H} {program : Program H} {r : Registration H}
    (hplan : (c.registry.plan c.options key).result = .ok plan)
    (hfits : plan.nodes.size ≤ UInt32.size) (hprogram : plan.program = .ok program)
    (hroot : c.registry.find? key = some r)
    (hbuildable : c.registry.Buildable c.options.constructorPolicy c.registry.size r)
    (number : Nat) {s : Store H}
    (hprepared : s.Prepared c.registry c.options.constructorPolicy number r) :
    observe ((program.factory number plan.nodes.size).produce s) = observe (c.inject key s) := by
  obtain ⟨hproduce, -⟩ := Registry.produce_simulated hr hplan hfits hprogram hroot number
    plan.nodes.size hprepared
  rw [hproduce, Registry.observe_produce hbuildable hprepared, Container.inject, hroot]

namespace Session.Reachable

variable {c : Container H} {q : Session H}

/-- Compiled factories refine direct injection. In every reachable state, what can be planned can be
compiled, and both the new factory and every factory obtained before do exactly what direct
injection from the registry does: the result, the calls with their arguments and order, and the
cells that are filled are the same. -/
theorem produce_refines_injection (h : q.Reachable c) (key : Key) (plan : Plan H)
    (hplan : (c.registry.plan c.options key).result = .ok plan)
    (hfits : plan.nodes.size ≤ UInt32.size) :
    (∃ factory t, Factory.compile plan q.store = .ok factory t ∧
      observe (factory.produce t) = observe (c.inject key t)) ∧
    ∀ factory, (key, factory) ∈ q.factories →
      observe (factory.produce q.store) = observe (c.inject key q.store) := by
  constructor
  · obtain ⟨r, program, factory, t, hroot, hbuildable, hprogram, hcompile, hmade, hprepared⟩ :=
      h.compile_spec hplan hfits
    refine ⟨factory, t, hcompile, ?_⟩
    rw [hmade]
    exact c.observe_factory h.assembled hplan hfits hprogram hroot hbuildable _ hprepared
  · intro factory hfactory
    obtain ⟨r, program, hroot, hbuildable, hprogram, hmade, hprepared⟩ :=
      h.factory_spec hfactory hplan hfits
    rw [hmade]
    exact c.observe_factory h.assembled hplan hfits hprogram hroot hbuildable _ hprepared

end Session.Reachable

namespace Sample

theorem root_refines_injection : ∃ plan,
    (container.registry.plan container.options root).result = .ok plan ∧
      plan.nodes.size ≤ UInt32.size ∧ session.Reachable container ∧ session.factories.length = 2 ∧
      (∃ factory t, Factory.compile plan session.store = .ok factory t ∧
        observe (factory.produce t) = observe (container.inject root t)) ∧
      ∀ factory, (root, factory) ∈ session.factories →
        observe (factory.produce session.store) =
          observe (container.inject root session.store) := by
  obtain ⟨plan, hplan, hfits⟩ := exists_plan
  exact ⟨plan, hplan, hfits, reachable, by decide +kernel,
    reachable.produce_refines_injection root plan hplan hfits⟩

end Sample

end Wiring
