import Wiring.Proofs.Survey.Failures

namespace Wiring

variable {H : Host}

namespace Registry

/-- Everything below the registration can be planned; being inductive, this leaves no room for a
circle. -/
inductive Plannable (registry : Registry H) (options : Options) : Registration H → Prop
  | intro {r : Registration H} {chosen : Constructor H}
      (hchosen : options.constructorPolicy.choose? r.constructors = some chosen)
      (hpresent : ∀ parameter ∈ chosen.parameters,
        registry.find? parameter.key = none → options.missingDependency = .substitute)
      (hbelow : ∀ parameter ∈ chosen.parameters, ∀ d,
        registry.find? parameter.key = some d → Plannable registry options d) :
      Plannable registry options r

/-- What a root must satisfy to be resolved: every registration that it reaches declares a
constructor and lies on no circle, and, if nothing may be missing, nothing is. -/
structure Resolvable (registry : Registry H) (options : Options) (root : Registration H) :
    Prop where
  constructed : ∀ r, registry.Reaches options.constructorPolicy root r → r.constructors ≠ []
  acyclic : ∀ r, registry.Reaches options.constructorPolicy root r →
    ¬ registry.OnCircle options.constructorPolicy r
  present : options.missingDependency = .refuse →
    ∀ r, registry.Reaches options.constructorPolicy root r →
      ∀ chosen, options.constructorPolicy.choose? r.constructors = some chosen →
        ∀ parameter ∈ chosen.parameters, registry.contains parameter.key = true

variable {registry : Registry H} {options : Options} {r d : Registration H}

namespace Plannable

theorem exists_chosen (hr : registry.Plannable options r) :
    ∃ chosen, options.constructorPolicy.choose? r.constructors = some chosen ∧
      (∀ parameter ∈ chosen.parameters,
        registry.find? parameter.key = none → options.missingDependency = .substitute) ∧
      ∀ parameter ∈ chosen.parameters, ∀ d,
        registry.find? parameter.key = some d → registry.Plannable options d := by
  cases hr with
  | @intro _ chosen hchosen hpresent hbelow => exact ⟨chosen, hchosen, hpresent, hbelow⟩

theorem of_dependsOn (hr : registry.Plannable options r)
    (hd : registry.DependsOn options.constructorPolicy r d) : registry.Plannable options d := by
  obtain ⟨_, hchosen, -, hbelow⟩ := hr.exists_chosen
  obtain ⟨chosen, hchosen', parameter, hparameter, hfind⟩ := hd
  rw [hchosen, Option.some.injEq] at hchosen'
  subst hchosen'
  exact hbelow parameter hparameter d hfind

theorem of_reaches (hr : registry.Plannable options r)
    (hd : registry.Reaches options.constructorPolicy r d) : registry.Plannable options d := by
  induction hd with
  | refl => exact hr
  | tail _ hstep ih => exact ih.of_dependsOn hstep

theorem not_onCircle (hr : registry.Plannable options r) :
    ¬ registry.OnCircle options.constructorPolicy r := by
  induction hr with
  | intro hchosen hpresent hbelow ih =>
      intro hcircle
      obtain ⟨d, hd, hback⟩ := Relation.TransGen.head'_iff.mp hcircle
      obtain ⟨chosen', hchosen', parameter, hparameter, hfind⟩ := hd
      have hcircleBelow : registry.OnCircle options.constructorPolicy d :=
        Relation.TransGen.tail' hback ⟨chosen', hchosen', parameter, hparameter, hfind⟩
      rw [hchosen, Option.some.injEq] at hchosen'
      subst hchosen'
      exact ih parameter hparameter d hfind hcircleBelow

theorem resolvable (hr : registry.Plannable options r) : registry.Resolvable options r where
  constructed := by
    intro d hd hnone
    obtain ⟨_, hchosen, -, -⟩ := (hr.of_reaches hd).exists_chosen
    rw [(options.constructorPolicy.choose?_eq_none_iff _).mpr hnone] at hchosen
    cases hchosen
  acyclic := fun d hd => (hr.of_reaches hd).not_onCircle
  present := by
    intro hpolicy d hd chosen hchosen parameter hparameter
    obtain ⟨_, hchosen', hpresent, -⟩ := (hr.of_reaches hd).exists_chosen
    rw [hchosen, Option.some.injEq] at hchosen'
    subst hchosen'
    rw [contains, Option.isSome_iff_ne_none]
    intro hnone
    have := hpresent parameter hparameter hnone
    rw [hpolicy] at this
    cases this

end Plannable

theorem Resolvable.of_dependsOn (hr : registry.Resolvable options r)
    (hd : registry.DependsOn options.constructorPolicy r d) : registry.Resolvable options d where
  constructed := fun e he => hr.constructed e (.head hd he)
  acyclic := fun e he => hr.acyclic e (.head hd he)
  present := fun hpolicy e he => hr.present hpolicy e (.head hd he)

theorem Resolvable.plannable_of_within {depth : Nat} (hr : registry.Resolvable options r)
    (hwithin : registry.Within options.constructorPolicy depth r) :
    registry.Plannable options r := by
  induction depth generalizing r with
  | zero => exact hwithin.elim
  | succ depth ih =>
      cases hchosen : options.constructorPolicy.choose? r.constructors with
      | none =>
          rw [options.constructorPolicy.choose?_eq_none_iff] at hchosen
          exact absurd hchosen (hr.constructed r .refl)
      | some chosen =>
          refine .intro hchosen ?_ ?_
          · intro parameter hparameter hnone
            cases hpolicy : options.missingDependency with
            | substitute => rfl
            | refuse =>
                have := hr.present hpolicy r .refl chosen hchosen parameter hparameter
                rw [contains, hnone] at this
                cases this
          · intro parameter hparameter d hfind
            have hd : registry.DependsOn options.constructorPolicy r d :=
              ⟨chosen, hchosen, parameter, hparameter, hfind⟩
            exact ih (hr.of_dependsOn hd) (hwithin d hd)

theorem Resolvable.plannable (hr : registry.Resolvable options r) (hmem : r ∈ registry.toList) :
    registry.Plannable options r :=
  hr.plannable_of_within (within_size hmem hr.acyclic)

end Registry

namespace Surveyed

variable {registry : Registry H} {options : Options}

def Registered (registry : Registry H) : Errand H → Prop
  | .registration r => r ∈ registry.toList
  | .parameters _ _ => True

def Plannable (registry : Registry H) (options : Options) : Errand H → Prop
  | .registration r => registry.Plannable options r
  | .parameters _ parameters =>
      ∀ parameter ∈ parameters,
        (registry.find? parameter.key = none → options.missingDependency = .substitute) ∧
          ∀ d, registry.find? parameter.key = some d → registry.Plannable options d

def RemembersPlannable (registry : Registry H) (options : Options) (s : Survey H) : Prop :=
  ∀ (key : Key) (id : NodeId), s.planned[key]? = some id →
    ∀ r, registry.find? key = some r → registry.Plannable options r

/-- A successful survey has met nothing that cannot be planned. The memory of singletons hides no
circle, since it only holds registrations whose planning has ended. -/
theorem plannable {errand : Errand H} {s t : Survey H} {ids : List NodeId}
    (h : Surveyed registry options errand s ids t) (hr : registry.Assembled)
    (herrand : Registered registry errand) (hs : RemembersPlannable registry options s) :
    Plannable registry options errand ∧ RemembersPlannable registry options t := by
  induction h with
  | known hknown =>
      refine ⟨?_, hs⟩
      exact hs _ _ (Survey.known?_eq_some hknown).2 _ (hr.coherent.find?_self herrand)
  | @fresh r s mid chosen args hknown hinside hchosen hargs ih =>
      obtain ⟨hparameters, hmid⟩ := ih trivial hs
      have hplannable : registry.Plannable options r :=
        .intro hchosen (fun parameter hmem => (hparameters parameter hmem).1)
          (fun parameter hmem => (hparameters parameter hmem).2)
      refine ⟨hplannable, ?_⟩
      intro key id hplanned d hfind
      rcases Survey.planned_remember hplanned with ⟨hkey, -, -⟩ | hbefore
      · have hself : registry.find? key = some r := by
          rw [← registry.find?_congr hkey]
          exact hr.coherent.find?_self herrand
        rw [hself, Option.some.injEq] at hfind
        exact hfind ▸ hplannable
      · rw [Survey.ascend, Survey.append_planned] at hbefore
        exact hmid key id hbefore d hfind
  | nil => exact ⟨List.forall_mem_nil _, hs⟩
  | @registered parent d parameter rest s mid t ids others hfind hd hrest ihd ihrest =>
      obtain ⟨hplannable, hmid⟩ := ihd (Registry.Coherent.mem_of_find? hfind) hs
      obtain ⟨hothers, ht⟩ := ihrest trivial hmid
      refine ⟨List.forall_mem_cons.mpr ⟨⟨?_, ?_⟩, hothers⟩, ht⟩
      · intro hnone
        rw [hfind] at hnone
        cases hnone
      · intro e he
        rw [hfind, Option.some.injEq] at he
        exact he ▸ hplannable
  | missing hfind hpolicy hrest ih =>
      obtain ⟨hothers, ht⟩ := ih trivial (by
        intro key id hplanned
        rw [Survey.append_planned] at hplanned
        exact hs key id hplanned)
      refine ⟨List.forall_mem_cons.mpr ⟨⟨fun _ => hpolicy, ?_⟩, hothers⟩, ht⟩
      intro e he
      rw [hfind] at he
      cases he

end Surveyed

namespace Planner

variable {registry : Registry H} {options : Options}

/-- No service that the survey is inside of lies below the registration. -/
def Outside (registry : Registry H) (options : Options) (path : List Key)
    (r : Registration H) : Prop :=
  ∀ key ∈ path, ∀ d, registry.Reaches options.constructorPolicy r d → ¬ (d.key == key) = true

theorem Outside.descend {path : List Key} {r d : Registration H} (hr : registry.Assembled)
    (hmem : r ∈ registry.toList) (houtside : Outside registry options path r)
    (hplannable : registry.Plannable options r)
    (hd : registry.DependsOn options.constructorPolicy r d) :
    Outside registry options (r.key :: path) d := by
  intro key hkey e he heq
  rcases List.mem_cons.mp hkey with rfl | hkey
  · have hself : registry.find? r.key = some e :=
      hr.find?_eq_some_iff.mpr ⟨Registry.Reaches.mem_toList hd.mem_toList he, heq⟩
    rw [hr.coherent.find?_self hmem, Option.some.injEq] at hself
    subst hself
    exact hplannable.not_onCircle (.head' hd he)
  · exact houtside key hkey e (.head hd he) heq

/-- The budget suffices for what can be planned: planning does not meet a service that it is inside
of, and does not run out of budget before it reaches the end of a chain. -/
theorem exists_planRegistration {budget : Nat} {r : Registration H} {s : Survey H}
    (hr : registry.Assembled) (hmem : r ∈ registry.toList)
    (hplannable : registry.Plannable options r)
    (hwithin : registry.Within options.constructorPolicy budget r)
    (houtside : Outside registry options s.path r) :
    ∃ id t, planRegistration registry options budget r s = .ok id t ∧ t.path = s.path := by
  induction budget generalizing r s with
  | zero => exact hwithin.elim
  | succ budget ih =>
      cases hknown : s.known? r with
      | some id => exact ⟨id, s, planRegistration_known _ hknown, rfl⟩
      | none =>
          have hinside : s.isInside r.key = false := by
            rw [Survey.isInside, List.any_eq_false]
            intro key hkey heq
            exact houtside key hkey r .refl (Key.beq_symm heq)
          obtain ⟨chosen, hchosen, hpresent, hbelow⟩ := hplannable.exists_chosen
          have hparameter : ∀ parameter ∈ chosen.parameters, ∀ mid : Survey H,
              mid.path = r.key :: s.path →
                ∃ id t, planParameter registry options
                  (planRegistration registry options budget) r parameter mid = .ok id t ∧
                    t.path = r.key :: s.path := by
            intro parameter hparameter mid hpath
            unfold planParameter
            cases hfind : registry.find? parameter.key with
            | some d =>
                have hd : registry.DependsOn options.constructorPolicy r d :=
                  ⟨chosen, hchosen, parameter, hparameter, hfind⟩
                obtain ⟨id, t, hplan, ht⟩ := ih (s := mid) hd.mem_toList
                  (hbelow parameter hparameter d hfind) (hwithin d hd)
                  (hpath ▸ houtside.descend hr hmem hplannable hd)
                exact ⟨id, t, hplan, ht.trans hpath⟩
            | none =>
                rw [hpresent parameter hparameter hfind]
                refine ⟨_, _, planMissing_substitute r parameter, ?_⟩
                rw [Survey.append_path]
                exact hpath
          obtain ⟨args, mid, hargs, hmid⟩ :=
            Action.mapM_ok_of_invariant (P := fun mid => mid.path = r.key :: s.path)
              hparameter (s := s.descend r.key) rfl
          rw [planRegistration_fresh budget hknown hinside, planParts_chosen _ hchosen, hargs]
          refine ⟨_, _, rfl, ?_⟩
          rw [Survey.remember_path, Survey.ascend, Survey.append_path, hmid]
          rfl

end Planner

namespace Registry

variable {registry : Registry H} {options : Options}

theorem exists_onCircle_of_plan_eq_circular (hr : registry.Assembled) {root : Key}
    {names : List String} (h : (registry.plan options root).result = .error (.circular names)) :
    ∃ r d, registry.find? root = some r ∧ registry.Reaches options.constructorPolicy r d ∧
      registry.OnCircle options.constructorPolicy d := by
  cases hroot : registry.find? root with
  | none =>
      rw [plan_of_find?_eq_none hroot] at h
      cases h
  | some r =>
      obtain ⟨t, herror⟩ := (plan_eq_error_iff hroot).mp h
      have hends := Planner.planRegistration_warranted hr (.start options hroot)
      rw [herror] at hends
      obtain ⟨d, ⟨top, htop, hd⟩, hcircle⟩ := hends.exists_onCircle
      rw [hroot, Option.some.injEq] at htop
      exact ⟨r, d, rfl, htop ▸ hd, hcircle⟩

/-- With a depth limit no smaller than the registry, planning succeeds exactly for the registered
roots from which nothing unresolvable is reachable. Neither the memory of singletons nor the path
of a shared service changes the answer, and only real circles are reported. -/
theorem plan_decides_resolvable (hr : registry.Assembled)
    (hdepth : registry.size ≤ options.maxDepth.toNat) (root : Key) :
    ((∃ plan, (registry.plan options root).result = .ok plan) ↔
      ∃ r, registry.find? root = some r ∧ registry.Resolvable options r) ∧
    ∀ names, (registry.plan options root).result = .error (.circular names) →
      ∃ r d, registry.find? root = some r ∧ registry.Reaches options.constructorPolicy r d ∧
        registry.OnCircle options.constructorPolicy d := by
  refine ⟨?_, fun names => exists_onCircle_of_plan_eq_circular hr⟩
  cases hroot : registry.find? root with
  | none => simp [plan_of_find?_eq_none hroot]
  | some r =>
      have hmem : r ∈ registry.toList := Coherent.mem_of_find? hroot
      constructor
      · rintro ⟨plan, hplan⟩
        obtain ⟨id, t, hplanned, -⟩ := (plan_eq_ok_iff hroot).mp hplan
        have hstart : Surveyed.RemembersPlannable registry options Survey.start := by
          intro key id hnone
          simp [Survey.start] at hnone
        obtain ⟨hplannable, -⟩ :=
          (Surveyed.of_planRegistration hplanned).plannable hr hmem hstart
        exact ⟨r, rfl, hplannable.resolvable⟩
      · rintro ⟨_, heq, hresolvable⟩
        rw [Option.some.injEq] at heq
        subst heq
        obtain ⟨id, t, hplanned, -⟩ := Planner.exists_planRegistration (s := Survey.start) hr hmem
          (hresolvable.plannable hmem) ((within_size hmem hresolvable.acyclic).mono hdepth)
          (List.forall_mem_nil _)
        have hstart : (Survey.start (H := H)).RemembersNodes := by
          intro key id hnone
          simp [Survey.start] at hnone
        obtain ⟨hindex, -⟩ := (Surveyed.of_planRegistration hplanned).index_lt hstart
        exact ⟨_, (plan_eq_ok_iff hroot).mpr ⟨id, t, hplanned, hindex id (by simp), rfl⟩⟩

theorem sample_resolvable : Sample.registry.size ≤ ({} : Options).maxDepth.toNat ∧
    ∃ r, Sample.registry.find? Sample.root = some r ∧ Sample.registry.Resolvable {} r := by
  have hdepth : Sample.registry.size ≤ ({} : Options).maxDepth.toNat := by decide +kernel
  refine ⟨hdepth, (plan_decides_resolvable Sample.assembled hdepth Sample.root).1.mp ?_⟩
  have hok : (Sample.registry.plan {} Sample.root).result.toOption.isSome = true := by
    decide +kernel
  cases hresult : (Sample.registry.plan {} Sample.root).result with
  | ok plan => exact ⟨plan, rfl⟩
  | error e =>
      rw [hresult] at hok
      cases hok

end Registry

end Wiring
