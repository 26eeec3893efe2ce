import Wiring.Container
import Wiring.Proofs.Survey.Resolvable

/-!
Direct injection: services built straight from the registry, without plans, programs or factories.
First every singleton below the root is built, dependencies first; then the root is evaluated.
-/

namespace Wiring

variable {H : Host}

namespace Registry

/-- What a parameter gets: the registration of its service evaluated, or its default. -/
def supply (registry : Registry H) (evaluate : Registration H → Eval H (Instance H))
    (parameter : Parameter H) : Eval H (Option (Instance H)) :=
  match registry.find? parameter.key with
  | some d => some <$> evaluate d
  | none => parameter.substitute

/-- Builds a registration: supplies the parameters of its chosen constructor from left to right,
calls the constructor and presents the result as the service. -/
def assemble (registry : Registry H) (policy : ConstructorPolicy)
    (evaluate : Registration H → Eval H (Instance H)) (r : Registration H) :
    Eval H (Instance H) := do
  match policy.choose? r.constructors with
  | none => throw (.noConstructor r.implementation.name)
  | some chosen =>
    let args ← chosen.parameters.mapM (registry.supply evaluate)
    let object ← chosen.invoke args
    match r.adapter with
    | some adapter => adapter.apply object
    | none => return object

/-- Evaluates a registration whose chains of dependencies have at most `depth` members: a singleton
is the instance in its cell, a transient is built. -/
def evaluate (registry : Registry H) (policy : ConstructorPolicy) :
    Nat → Registration H → Eval H (Instance H)
  | 0, _ => throw (.depthExceeded 0)
  | depth + 1, r => do
    match r.cell? with
    | some cell =>
      match (← get).cells.get? cell with
      | some object => return object
      | none => throw (.slotUninitialized r.key.displayName)
    | none => registry.assemble policy (registry.evaluate policy depth) r

/-- Builds a singleton and fills its cell, unless the cell is filled already. -/
def fillOwn (registry : Registry H) (policy : ConstructorPolicy)
    (evaluate : Registration H → Eval H (Instance H)) (r : Registration H) : Eval H Unit := do
  match r.cell? with
  | none => return
  | some cell =>
    match (← get).cells.get? cell with
    | some _ => return
    | none =>
      let object ← registry.assemble policy evaluate r
      modify (·.fill cell object)

def visit (registry : Registry H) (action : Registration H → Eval H Unit)
    (parameter : Parameter H) : Eval H Unit :=
  match registry.find? parameter.key with
  | some d => action d
  | none => return

/-- Fills the cells of the singletons that a registration reaches, depth first in the order of
parameters, each after what it is built from. -/
def fillAll (registry : Registry H) (policy : ConstructorPolicy) :
    Nat → Registration H → Eval H Unit
  | 0, _ => throw (.depthExceeded 0)
  | depth + 1, r => do
    match policy.choose? r.constructors with
    | none => throw (.noConstructor r.implementation.name)
    | some chosen =>
      chosen.parameters.forM (registry.visit (registry.fillAll policy depth))
      registry.fillOwn policy (registry.evaluate policy depth) r

/-- Fills the cells below a registration and evaluates it. Chains of dependencies are no longer
than the registry. -/
def inject (registry : Registry H) (policy : ConstructorPolicy) (r : Registration H) :
    Eval H (Instance H) := do
  registry.fillAll policy registry.size r
  registry.evaluate policy registry.size r

end Registry

/-- Resolves a key directly. -/
def Container.inject (c : Container H) (key : Key) : Eval H (Instance H) :=
  match c.registry.find? key with
  | none => throw (.notFound key.displayName)
  | some r => c.registry.inject c.options.constructorPolicy r

namespace Registry

variable {registry : Registry H} {policy : ConstructorPolicy} {r d : Registration H}

/-- The registration can be evaluated to the given depth: every chain of dependencies is that short,
and a constructor can be chosen everywhere. -/
def Buildable (registry : Registry H) (policy : ConstructorPolicy) : Nat → Registration H → Prop
  | 0, _ => False
  | depth + 1, r => r ∈ registry.toList ∧ ∃ chosen, policy.choose? r.constructors = some chosen ∧
      ∀ parameter ∈ chosen.parameters, ∀ d, registry.find? parameter.key = some d →
        Buildable registry policy depth d

theorem Buildable.of_within {options : Options} {depth : Nat}
    (hplannable : registry.Plannable options r) (hmem : r ∈ registry.toList)
    (hwithin : registry.Within options.constructorPolicy depth r) :
    registry.Buildable options.constructorPolicy depth r := by
  induction depth generalizing r with
  | zero => exact hwithin.elim
  | succ depth ih =>
      obtain ⟨chosen, hchosen, -, hbelow⟩ := hplannable.exists_chosen
      refine ⟨hmem, chosen, hchosen, ?_⟩
      intro parameter hparameter d hfind
      have hd : registry.DependsOn options.constructorPolicy r d :=
        ⟨chosen, hchosen, parameter, hparameter, hfind⟩
      exact ih (hbelow parameter hparameter d hfind) hd.mem_toList (hwithin d hd)

theorem Plannable.buildable {options : Options} (hplannable : registry.Plannable options r)
    (hmem : r ∈ registry.toList) :
    registry.Buildable options.constructorPolicy registry.size r :=
  .of_within hplannable hmem (within_size hmem hplannable.resolvable.acyclic)

theorem Buildable.mem {depth : Nat} (h : registry.Buildable policy depth r) :
    r ∈ registry.toList := by
  cases depth with
  | zero => exact h.elim
  | succ depth => exact h.1

theorem Buildable.exists_succ {depth : Nat} (h : registry.Buildable policy depth r) :
    ∃ less, depth = less + 1 := by
  cases depth with
  | zero => exact h.elim
  | succ depth => exact ⟨depth, rfl⟩

theorem Buildable.of_parameter {depth : Nat} {chosen : Constructor H} {parameter : Parameter H}
    (h : registry.Buildable policy (depth + 1) r)
    (hchosen : policy.choose? r.constructors = some chosen)
    (hparameter : parameter ∈ chosen.parameters) (hfind : registry.find? parameter.key = some d) :
    registry.Buildable policy depth d := by
  obtain ⟨-, other, hother, hbelow⟩ := h
  rw [hchosen, Option.some.injEq] at hother
  subst hother
  exact hbelow parameter hparameter d hfind

/-- Everything that the registration reaches is filled, as far as it has a cell. -/
def Filled (registry : Registry H) (policy : ConstructorPolicy) (cells : Cells H)
    (r : Registration H) : Prop :=
  ∀ d, registry.Reaches policy r d → ∀ cell, d.cell? = some cell → (cells.get? cell).isSome

theorem Filled.of_dependsOn {cells : Cells H} (h : registry.Filled policy cells r)
    (hd : registry.DependsOn policy r d) : registry.Filled policy cells d :=
  fun e he => h e (.head hd he)

theorem Filled.of_reaches {cells : Cells H} (h : registry.Filled policy cells r)
    (hd : registry.Reaches policy r d) : registry.Filled policy cells d :=
  fun e he => h e (hd.trans he)

theorem filled_of_dependsOn {cells : Cells H}
    (hown : ∀ cell, r.cell? = some cell → (cells.get? cell).isSome)
    (hbelow : ∀ d, registry.DependsOn policy r d → registry.Filled policy cells d) :
    registry.Filled policy cells r := by
  intro d hd
  rcases Relation.ReflTransGen.cases_head hd with rfl | ⟨e, he, hrest⟩
  · exact hown
  · exact hbelow e he d hrest

end Registry

namespace Cells

/-- Every filled cell of the first table holds the same instance in the second. -/
def Keeps (c d : Cells H) : Prop :=
  ∀ (cell : Nat) (object : Instance H), c.get? cell = some object → d.get? cell = some object

theorem Keeps.refl (c : Cells H) : c.Keeps c := fun _ _ h => h

theorem Keeps.trans {c d e : Cells H} (hcd : c.Keeps d) (hde : d.Keeps e) : c.Keeps e :=
  fun cell object h => hde cell object (hcd cell object h)

theorem keeps_fill (c : Cells H) (cell : Nat) (object : Instance H) :
    c.Keeps (c.fill cell object) := by
  intro other found h
  rw [get?_fill, h]
  rfl

theorem get?_fill_self {c : Cells H} {cell : Nat} (object : Instance H)
    (hempty : c.get? cell = none) : (c.fill cell object).get? cell = some object := by
  simp [get?_fill, hempty]

theorem Keeps.isSome {c d : Cells H} (h : c.Keeps d) {cell : Nat}
    (hfilled : (c.get? cell).isSome) : (d.get? cell).isSome := by
  obtain ⟨object, hobject⟩ := Option.isSome_iff_exists.mp hfilled
  exact Option.isSome_iff_exists.mpr ⟨object, h cell object hobject⟩

end Cells

theorem Registry.Filled.keep {registry : Registry H} {policy : ConstructorPolicy}
    {r : Registration H} {c d : Cells H} (h : registry.Filled policy c r) (hkeeps : c.Keeps d) :
    registry.Filled policy d r :=
  fun e he cell hcell => hkeeps.isSome (h e he cell hcell)

end Wiring
