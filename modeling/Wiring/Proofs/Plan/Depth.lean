import Wiring.Proofs.Plan.WellFormed
import Wiring.Proofs.Registry.Reordering

/-!
What the depth limit limits. A survey counts the services that it is inside of. It is inside of every
transient that it plans, so chains of transients are no longer than the limit; but a singleton that
has been planned before is not entered again, however long the chain is that leads to it. Where
singletons are shared, chains can therefore be longer than the limit, and the order of parameters
decides whether the limit is noticed.
-/

namespace Wiring

variable {H : Host}

namespace Registry

/-- Chains of dependencies from the registration have at most the given number of members, if all
members after the first are transient. -/
def TransientWithin (registry : Registry H) (policy : ConstructorPolicy) :
    Nat → Registration H → Prop
  | 0, _ => False
  | depth + 1, r => ∀ d, registry.DependsOn policy r d → d.lifetime = .transient →
      TransientWithin registry policy depth d

/-- The limit holds for the chains of transients from everything that the registration reaches. -/
def Shallow (registry : Registry H) (policy : ConstructorPolicy) (limit : Nat)
    (r : Registration H) : Prop :=
  ∀ d, registry.Reaches policy r d → registry.TransientWithin policy limit d

variable {registry : Registry H} {policy : ConstructorPolicy} {r : Registration H}

theorem TransientWithin.mono {depth more : Nat} (h : registry.TransientWithin policy depth r)
    (hle : depth ≤ more) : registry.TransientWithin policy more r := by
  induction more generalizing depth r with
  | zero =>
      obtain rfl : depth = 0 := by omega
      exact h
  | succ more ih =>
      cases depth with
      | zero => exact h.elim
      | succ depth =>
          intro d hd htransient
          exact ih (h d hd htransient) (by omega)

theorem TransientWithin.within {depth : Nat} (h : registry.TransientWithin policy depth r)
    (hbelow : ∀ d, Relation.TransGen (registry.DependsOn policy) r d → d.lifetime = .transient) :
    registry.Within policy depth r := by
  induction depth generalizing r with
  | zero => exact h
  | succ depth ih =>
      intro d hd
      exact ih (h d hd (hbelow d (.single hd))) fun e he => hbelow e (.head hd he)

end Registry

namespace Planner

variable {registry : Registry H} {options : Options} {r : Registration H} {s : Survey H}

def RemembersShallow (registry : Registry H) (options : Options) (s : Survey H) : Prop :=
  ∀ (key : Key) (id : NodeId), s.planned[key]? = some id → ∀ r, registry.find? key = some r →
    registry.Shallow options.constructorPolicy options.maxDepth.toNat r

/-- The registration is shallow, and its own chains of transients have at most `depth` members if it
is transient itself. -/
def Short (registry : Registry H) (options : Options) (depth : Nat) (r : Registration H) : Prop :=
  registry.Shallow options.constructorPolicy options.maxDepth.toNat r ∧
    (r.lifetime = .transient → registry.TransientWithin options.constructorPolicy depth r)

theorem Short.of_below {depth : Nat} (hdepth : depth + 1 ≤ options.maxDepth.toNat)
    (hbelow : ∀ d, registry.DependsOn options.constructorPolicy r d →
      Short registry options depth d) : Short registry options (depth + 1) r := by
  have hown : registry.TransientWithin options.constructorPolicy (depth + 1) r :=
    fun d hd => (hbelow d hd).2
  refine ⟨?_, fun _ => hown⟩
  intro d hd
  rcases Relation.ReflTransGen.cases_head hd with rfl | ⟨e, he, hrest⟩
  · exact hown.mono hdepth
  · exact (hbelow e he).1 d hrest

theorem planRegistration_short {budget : Nat} (hr : registry.Assembled)
    (hmem : r ∈ registry.toList) (hbudget : budget ≤ options.maxDepth.toNat)
    (hs : RemembersShallow registry options s) :
    Action.Ends
      (fun _ t => RemembersShallow registry options t ∧ Short registry options budget r)
      (fun _ _ => True) (planRegistration registry options budget r s) := by
  induction budget using Nat.strongRecOn generalizing r s with
  | ind budget ih =>
      refine planRegistration_rule ?_ (fun _ => trivial) (fun _ _ => trivial) (fun _ => trivial) ?_
      · intro id hknown
        obtain ⟨hlifetime, hplanned⟩ := Survey.known?_eq_some hknown
        refine ⟨hs, hs _ _ hplanned r (hr.coherent.find?_self hmem), ?_⟩
        simp [hlifetime]
      · rintro less chosen rfl - - hchosen
        have hinner : RemembersShallow registry options (s.descend r.key) := hs
        refine (Action.Ends.mapM (I := RemembersShallow registry options)
          (R := fun (parameter : Parameter H) (_ : NodeId) => ∀ d,
            registry.find? parameter.key = some d → Short registry options less d) ?_
          hinner).mono ?_ (fun _ _ h => h)
        · intro parameter hparameter t ht
          refine planParameter_rule ?_ ?_ (fun _ _ => trivial)
          · intro d hfind
            refine (ih less (Nat.lt_succ_self _) (Registry.Coherent.mem_of_find? hfind) (by omega)
              ht).mono ?_ (fun _ _ h => h)
            rintro id u ⟨hu, hshort⟩
            refine ⟨hu, fun e he => ?_⟩
            rw [hfind, Option.some.injEq] at he
            exact he ▸ hshort
          · intro hfind _
            refine ⟨?_, by simp [hfind]⟩
            intro key id hplanned
            rw [Survey.append_planned] at hplanned
            exact ht key id hplanned
        · rintro args mid ⟨hmid, hargs⟩
          have hbelow : ∀ d, registry.DependsOn options.constructorPolicy r d →
              Short registry options less d := by
            rintro d ⟨other, hother, parameter, hparameter, hfind⟩
            rw [hchosen, Option.some.injEq] at hother
            subst hother
            obtain ⟨id, -, hid⟩ := exists_of_forall₂_left hargs parameter hparameter
            exact hid d hfind
          have hshort : Short registry options (less + 1) r := .of_below hbudget hbelow
          refine ⟨?_, hshort⟩
          intro key id hplanned d hfind
          rcases Survey.planned_remember hplanned with ⟨hkey, -, -⟩ | hbefore
          · rw [← registry.find?_congr hkey, hr.coherent.find?_self hmem,
              Option.some.injEq] at hfind
            exact hfind ▸ hshort.1
          · rw [Survey.ascend, Survey.append_planned] at hbefore
            exact hmid key id hbefore d hfind

theorem planRegistration_fails_deep {budget : Nat} (hr : registry.Assembled)
    (hmem : r ∈ registry.toList) (hplannable : registry.Plannable options r)
    (houtside : Outside registry options s.path r) :
    Action.Ends (fun _ t => t.path = s.path) (fun e _ => ∃ limit, e = .depthExceeded limit)
      (planRegistration registry options budget r s) := by
  induction budget using Nat.strongRecOn generalizing r s with
  | ind budget ih =>
      obtain ⟨chosen, hchosen, hpresent, hbelow⟩ := hplannable.exists_chosen
      refine planRegistration_rule (fun _ _ => rfl) ?_ (fun _ _ => ⟨_, rfl⟩) ?_ ?_
      · intro hinside
        obtain ⟨key, hkey, heq⟩ := List.any_eq_true.mp hinside
        exact absurd (Key.beq_symm heq) (houtside key hkey r .refl)
      · intro hnone
        rw [hchosen] at hnone
        cases hnone
      · rintro less other rfl - - hother
        rw [hchosen, Option.some.injEq] at hother
        subst hother
        refine (Action.Ends.mapM (I := fun t : Survey H => t.path = r.key :: s.path)
          (R := fun _ _ => True) ?_ rfl).mono ?_ (fun _ _ h => h)
        · intro parameter hparameter t ht
          refine planParameter_rule ?_ ?_ ?_
          · intro d hfind
            have hd : registry.DependsOn options.constructorPolicy r d :=
              ⟨chosen, hchosen, parameter, hparameter, hfind⟩
            exact (ih less (Nat.lt_succ_self _) hd.mem_toList (hbelow parameter hparameter d hfind)
              (ht ▸ houtside.descend hr hmem hplannable hd)).mono
              (fun _ u hu => ⟨hu.trans ht, trivial⟩) (fun _ _ h => h)
          · intro _ _
            exact ⟨(Survey.append_path _ _ _ _).trans ht, trivial⟩
          · intro hfind hrefuse
            rw [hpresent parameter hparameter hfind] at hrefuse
            cases hrefuse
        · rintro args mid ⟨hmid, -⟩
          rw [Survey.remember_path, Survey.ascend, Survey.append_path, hmid]
          rfl

end Planner

/-- Registered nodes of a plan, each an argument of the one before it. -/
structure Plan.Chain (p : Plan H) (path : List Nat) : Prop where
  linked : path.IsChain (Refers p.nodes)
  registered : ∀ i ∈ path, (p.nodes[i]?.any fun n => !n.isDefaulted) = true

instance (nodes : Array (Node H)) (i j : Nat) : Decidable (Refers nodes i j) :=
  decidable_of_iff ((nodes[i]?.any fun n => n.args.any fun arg => arg.index == j) = true)
    (by simp [Refers, Option.any_eq_true])

instance (p : Plan H) (path : List Nat) : Decidable (p.Chain path) :=
  decidable_of_iff (path.IsChain (Refers p.nodes) ∧
      ∀ i ∈ path, (p.nodes[i]?.any fun n => !n.isDefaulted) = true)
    ⟨fun h => ⟨h.1, h.2⟩, fun h => ⟨h.linked, h.registered⟩⟩

variable {registry : Registry H} {policy : ConstructorPolicy} {options : Options} {p : Plan H}
  {r d : Registration H} {i j : Nat}

namespace Mirror

theorem length_lt_of_chain {depth : Nat} {path : List Nat}
    (h : Mirror registry policy p.nodes p.slots) (hr : p.Stands i r)
    (hwithin : registry.TransientWithin policy depth r) (hpath : p.Chain (i :: path))
    (htransient : ∀ j ∈ path, ∀ n, p.nodes[j]? = some n → n.lifetime = .transient) :
    path.length < depth := by
  induction path generalizing i r depth with
  | nil =>
      cases depth with
      | zero => exact hwithin.elim
      | succ depth => exact Nat.succ_pos _
  | cons j path ih =>
      cases depth with
      | zero => exact hwithin.elim
      | succ depth =>
          obtain ⟨hrefers, hlinked⟩ := List.isChain_cons_cons.mp hpath.linked
          obtain ⟨-, hregistered⟩ := List.forall_mem_cons.mp hpath.registered
          obtain ⟨d, hd⟩ := Plan.exists_stands_iff.mpr (hregistered j (by simp))
          have hlifetime : d.lifetime = .transient := by
            obtain ⟨chosen, args, slot, hn⟩ := hd
            exact htransient j (by simp) _ hn
          have hrest := ih hd (hwithin d (h.dependsOn_of_refers hr hd hrefers) hlifetime)
            ⟨hlinked, hregistered⟩ fun k hk => htransient k (by simp [hk])
          simpa using hrest

end Mirror

namespace Registry

theorem plan_ok_or_deep (hr : registry.Assembled) {root : Key}
    (hroot : registry.find? root = some r) (hplannable : registry.Plannable options r) :
    (∃ plan, (registry.plan options root).result = .ok plan) ∨
      ∃ limit, (registry.plan options root).result = .error (.depthExceeded limit) := by
  have houtside : Planner.Outside registry options (Survey.start (H := H)).path r :=
    List.forall_mem_nil _
  have hends : Action.Ends (fun _ t => t.path = (Survey.start (H := H)).path)
      (fun e _ => ∃ limit, e = .depthExceeded limit)
      (Planner.planRegistration registry options options.maxDepth.toNat r Survey.start) :=
    Planner.planRegistration_fails_deep hr (Coherent.mem_of_find? hroot) hplannable houtside
  cases hresult :
      Planner.planRegistration registry options options.maxDepth.toNat r Survey.start with
  | ok id t => exact Or.inl (exists_plan_of_planRegistration hroot hresult)
  | error e t =>
      rw [hresult] at hends
      obtain ⟨limit, rfl⟩ := hends
      exact Or.inr ⟨limit, (plan_eq_error_iff hroot).mpr ⟨t, hresult⟩⟩

theorem exists_plan_of_within (hr : registry.Assembled) {root : Key}
    (hroot : registry.find? root = some r) (hplannable : registry.Plannable options r)
    (hwithin : registry.Within options.constructorPolicy options.maxDepth.toNat r) :
    ∃ plan, (registry.plan options root).result = .ok plan := by
  obtain ⟨id, t, hplanned, -⟩ := Planner.exists_planRegistration (s := Survey.start) hr
    (Coherent.mem_of_find? hroot) hplannable hwithin (List.forall_mem_nil _)
  exact exists_plan_of_planRegistration hroot hplanned

theorem shallow_of_plan (hr : registry.Assembled) {root : Key}
    (hroot : registry.find? root = some r)
    (hplan : (registry.plan options root).result = .ok p) :
    registry.Shallow options.constructorPolicy options.maxDepth.toNat r := by
  obtain ⟨id, t, hplanned, -⟩ := (plan_eq_ok_iff hroot).mp hplan
  have hstart : Planner.RemembersShallow registry options Survey.start := by
    simp [Planner.RemembersShallow, Survey.start]
  have hends := Planner.planRegistration_short hr (Coherent.mem_of_find? hroot) (Nat.le_refl _)
    hstart
  rw [hplanned] at hends
  exact hends.2.1

theorem deep_iff_not_within (hr : registry.Assembled) {root : Key}
    (hroot : registry.find? root = some r) (hplannable : registry.Plannable options r)
    (hbelow : ∀ d, Relation.TransGen (registry.DependsOn options.constructorPolicy) r d →
      d.lifetime = .transient) :
    (∃ limit, (registry.plan options root).result = .error (.depthExceeded limit)) ↔
      ¬ registry.Within options.constructorPolicy options.maxDepth.toNat r := by
  constructor
  · rintro ⟨limit, hdeep⟩ hwithin
    obtain ⟨plan, hplan⟩ := exists_plan_of_within hr hroot hplannable hwithin
    rw [hdeep] at hplan
    cases hplan
  · intro hlong
    rcases plan_ok_or_deep hr hroot hplannable with ⟨plan, hplan⟩ | hdeep
    · exact absurd ((shallow_of_plan hr hroot hplan r .refl).within hbelow) hlong
    · exact hdeep

/-- What the depth limit guarantees. In a plan, chains whose nodes after the first are transient are
no longer than the limit. Where no chain of dependencies is too long, the limit gets in the way of
nothing; and where everything below the root is transient, whether it is exceeded does not depend on
the order of parameters. -/
theorem depth_limit_of_transients (hr : registry.Assembled) {root : Key}
    (hroot : registry.find? root = some r) :
    (∀ plan, (registry.plan options root).result = .ok plan → plan.nodes.size ≤ UInt32.size →
      ∀ path, plan.Chain path →
        (∀ j ∈ path.tail, ∀ n, plan.nodes[j]? = some n → n.lifetime = .transient) →
          path.length ≤ options.maxDepth.toNat) ∧
    (registry.Resolvable options r →
      (registry.Within options.constructorPolicy options.maxDepth.toNat r →
        ∃ plan, (registry.plan options root).result = .ok plan) ∧
      ((∀ d, Relation.TransGen (registry.DependsOn options.constructorPolicy) r d →
          d.lifetime = .transient) →
        ∀ other : Registry H, other.Assembled → registry.Reordered other →
          ((∃ limit, (registry.plan options root).result = .error (.depthExceeded limit)) ↔
            ∃ limit, (other.plan options root).result = .error (.depthExceeded limit)))) := by
  have hmem := Coherent.mem_of_find? hroot
  constructor
  · intro plan hplan hfits path hpath htransient
    cases path with
    | nil => exact Nat.zero_le _
    | cons i path =>
        obtain ⟨d, hd, hcompact⟩ := registry.compact_of_plan hr hplan hfits
        rw [hroot, Option.some.injEq] at hd
        subst hd
        obtain ⟨e, he⟩ := Plan.exists_stands_iff.mpr (hpath.registered i (by simp))
        have hmirror := hcompact.mirrors.arena
        exact hmirror.length_lt_of_chain he
          (shallow_of_plan hr hroot hplan e (hcompact.reaches he)) hpath htransient
  · intro hresolvable
    have hplannable := hresolvable.plannable hmem
    refine ⟨exists_plan_of_within hr hroot hplannable, ?_⟩
    intro hbelow other hother hsame
    obtain ⟨d, hd, hrd⟩ := hsame.symm.exists_find? hroot
    have hbelowOther : ∀ e,
        Relation.TransGen (other.DependsOn options.constructorPolicy) d e →
          e.lifetime = .transient := by
      intro e he
      obtain ⟨c, hc, hce⟩ := hsame.transGen hrd.symm he
      exact hce.lifetime ▸ hbelow c hc
    rw [deep_iff_not_within hr hroot hplannable hbelow,
      deep_iff_not_within hother hd (hsame.plannable hrd.symm hplannable) hbelowOther]
    exact not_congr ⟨hsame.within hrd.symm, hsame.symm.within hrd⟩

end Registry

namespace Sample

def shallow : Options := { maxDepth := 2 }

/-- A car with the given parameters, a lamp that uses the battery, and the battery. -/
def wired (lifetime : Lifetime) (parameters : List (Parameter host)) : Registry host :=
  Registry.empty
    |>.store (.ofType battery) (.construct batteries lifetime none)
    |>.store (.ofType lamp) (.construct (part lamp [.service battery none]) .transient none)
    |>.store (.ofType car) (.construct (part car parameters) .transient none)

def batteryFirst (lifetime : Lifetime) : Registry host :=
  wired lifetime [.service battery none, .service lamp none]

def lampFirst (lifetime : Lifetime) : Registry host :=
  wired lifetime [.service lamp none, .service battery none]

theorem wired_assembled (lifetime : Lifetime) (parameters : List (Parameter host)) :
    (wired lifetime parameters).Assembled :=
  .store _ _ (.store _ _ (.store _ _ (.withCapacity 16)))

theorem batteryFirst_reordered (lifetime : Lifetime) :
    (batteryFirst lifetime).Reordered (lampFirst lifetime) := by
  apply Registry.Reordered.of_front _ rfl rfl
  refine .cons ⟨rfl, rfl, ?_⟩ (.cons ⟨rfl, rfl, ?_⟩ (.cons ⟨rfl, rfl, ?_⟩ .nil))
  · exact .cons (.refl _) .nil
  · exact .cons (.refl _) .nil
  · exact .cons (.swap _ _ _) .nil

theorem exists_plan_of_any {registry : Registry host} {options : Options} {root : Key}
    {P : Plan host → Bool}
    (h : ((registry.plan options root).result.toOption.any P) = true) :
    ∃ plan, (registry.plan options root).result = .ok plan ∧ P plan = true := by
  cases hplan : (registry.plan options root).result with
  | error e =>
      rw [hplan] at h
      cases h
  | ok plan =>
      rw [hplan] at h
      exact ⟨plan, rfl, h⟩

theorem lampFirst_deep (lifetime : Lifetime) :
    ((lampFirst lifetime).plan shallow (.ofType car)).result = .error (.depthExceeded 2) :=
  eq_error_of_map (f := fun _ => ()) (by cases lifetime <;> decide +kernel)

/-- With the battery first, the plan has a chain of three services: the car, its lamp and the lamp's
battery. With the lamp first, the same services exceed the limit. -/
theorem depth_limit_evaded :
    (∃ plan, ((batteryFirst .singleton).plan shallow (.ofType car)).result = .ok plan ∧
      ∃ path, plan.Chain path ∧ path.head? = some plan.root.index ∧
        shallow.maxDepth.toNat < path.length) ∧
    (∃ r, (batteryFirst .singleton).find? (.ofType car) = some r ∧
      (batteryFirst .singleton).Resolvable shallow r) ∧
    (batteryFirst .singleton).Reordered (lampFirst .singleton) ∧
    ((lampFirst .singleton).plan shallow (.ofType car)).result = .error (.depthExceeded 2) := by
  obtain ⟨plan, hplan, hfacts⟩ : ∃ plan,
      ((batteryFirst .singleton).plan shallow (.ofType car)).result = .ok plan ∧
        decide (plan.nodes.size = 3 ∧ plan.root.index = 2 ∧ plan.Chain [2, 1, 0]) = true :=
    exists_plan_of_any (by decide +kernel)
  obtain ⟨hsize, hroot, hchain⟩ := of_decide_eq_true hfacts
  obtain ⟨r, hfind, -, hplannable⟩ :=
    Registry.mirrors_of_plan (wired_assembled _ _) hplan (by rw [hsize]; decide)
  refine ⟨⟨plan, hplan, _, hchain, congrArg some hroot.symm, by decide⟩,
    ⟨r, hfind, hplannable.resolvable⟩, batteryFirst_reordered _, lampFirst_deep _⟩

/-- Without a shared singleton the limit is exceeded in either order, and with one it still bounds
the chains of transients. -/
theorem depth_limit_of_transient_battery :
    (∃ limit, ((batteryFirst .transient).plan shallow (.ofType car)).result =
      .error (.depthExceeded limit)) ∧
    ∃ plan, ((batteryFirst .singleton).plan shallow (.ofType car)).result = .ok plan ∧
      ∀ path, plan.Chain path →
        (∀ j ∈ path.tail, ∀ n, plan.nodes[j]? = some n → n.lifetime = .transient) →
          path.length ≤ 2 := by
  constructor
  · obtain ⟨plan, hplan, hsize⟩ : ∃ plan,
        ((lampFirst .transient).plan {} (.ofType car)).result = .ok plan ∧
          decide (plan.nodes.size = 4) = true :=
      exists_plan_of_any (by decide +kernel)
    obtain ⟨r, hfind, -, hplannable⟩ := Registry.mirrors_of_plan (wired_assembled _ _) hplan
      (by rw [of_decide_eq_true hsize]; decide)
    obtain ⟨hconstructed, hacyclic, hpresent⟩ := hplannable.resolvable
    have hresolvable : (lampFirst .transient).Resolvable shallow r :=
      ⟨hconstructed, hacyclic, hpresent⟩
    have htransient : ((lampFirst .transient).toList.all fun d => d.lifetime == .transient) =
        true := by decide +kernel
    have hlimit :=
      (Registry.depth_limit_of_transients (wired_assembled _ _) hfind).2 hresolvable
    refine (hlimit.2 ?_ _ (wired_assembled _ _) (batteryFirst_reordered _).symm).mp
      ⟨2, lampFirst_deep _⟩
    intro d hd
    obtain ⟨e, -, hstep⟩ := Relation.TransGen.tail'_iff.mp hd
    exact of_decide_eq_true (List.all_eq_true.mp htransient d hstep.mem_toList)
  · obtain ⟨plan, hplan, hsize⟩ : ∃ plan,
        ((batteryFirst .singleton).plan shallow (.ofType car)).result = .ok plan ∧
          decide (plan.nodes.size = 3) = true :=
      exists_plan_of_any (by decide +kernel)
    have hfits : plan.nodes.size ≤ UInt32.size := by
      rw [of_decide_eq_true hsize]
      decide
    obtain ⟨r, hfind, -, -⟩ := Registry.mirrors_of_plan (wired_assembled _ _) hplan hfits
    exact ⟨plan, hplan,
      (Registry.depth_limit_of_transients (wired_assembled _ _) hfind).1 plan hplan hfits⟩

end Sample

end Wiring
