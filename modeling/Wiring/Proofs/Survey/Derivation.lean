import Wiring.Plan.Survey
import Wiring.Proofs.Action

/-!
How a survey comes to succeed, as a derivation: each rule is one way to plan a registration or the
parameters of one. Every successful survey has a derivation, so that what holds of plans is shown by
induction over derivations and not over the planner.
-/

namespace Wiring

variable {H : Host}

namespace Survey

@[simp] theorem append_planned (s : Survey H) (provenance : Provenance H) (args : List NodeId)
    (lifetime : Lifetime) : (s.append provenance args lifetime).2.planned = s.planned := by
  cases lifetime <;> rfl

@[simp] theorem append_path (s : Survey H) (provenance : Provenance H) (args : List NodeId)
    (lifetime : Lifetime) : (s.append provenance args lifetime).2.path = s.path := by
  cases lifetime <;> rfl

@[simp] theorem remember_path (s : Survey H) (r : Registration H) (id : NodeId) :
    (s.remember r id).path = s.path := by
  unfold remember
  cases r.lifetime <;> rfl

theorem known?_eq_some {s : Survey H} {r : Registration H} {id : NodeId}
    (h : s.known? r = some id) : r.lifetime = .singleton ∧ s.planned[r.key]? = some id := by
  unfold known? at h
  cases hlifetime : r.lifetime with
  | singleton =>
      rw [hlifetime] at h
      exact ⟨rfl, h⟩
  | transient =>
      rw [hlifetime] at h
      cases h

theorem planned_remember {s : Survey H} {r : Registration H} {id found : NodeId} {key : Key}
    (h : (s.remember r id).planned[key]? = some found) :
    (r.key == key) = true ∧ r.lifetime = .singleton ∧ found = id ∨
      s.planned[key]? = some found := by
  unfold remember at h
  cases hlifetime : r.lifetime with
  | transient =>
      rw [hlifetime] at h
      exact Or.inr h
  | singleton =>
      rw [hlifetime] at h
      rw [Std.TreeMap.getElem?_insert] at h
      split at h
      next heq => exact Or.inl ⟨Key.cmp_eq_iff.mp heq, rfl, (Option.some.inj h).symm⟩
      next => exact Or.inr h

theorem planned_remember_of_ne {s : Survey H} {r : Registration H} (id : NodeId) {key : Key}
    (hne : ¬ Key.cmp r.key key = .eq) :
    (s.remember r id).planned[key]? = s.planned[key]? := by
  unfold remember
  cases r.lifetime with
  | transient => rfl
  | singleton => rw [Std.TreeMap.getElem?_insert, if_neg hne]

theorem size_append (s : Survey H) (provenance : Provenance H) (args : List NodeId)
    (lifetime : Lifetime) :
    (s.append provenance args lifetime).2.nodes.size = s.nodes.size + 1 := by
  cases lifetime <;> simp [append]

@[simp] theorem remember_nodes (s : Survey H) (r : Registration H) (id : NodeId) :
    (s.remember r id).nodes = s.nodes := by
  unfold remember
  cases r.lifetime <;> rfl

end Survey

namespace Planner

variable {registry : Registry H} {options : Options} {r : Registration H} {s : Survey H}

theorem planRegistration_known {id : NodeId} (budget : Nat) (hknown : s.known? r = some id) :
    planRegistration registry options budget r s = .ok id s := by
  unfold planRegistration
  cases budget <;> simp [hknown]

theorem planRegistration_circular (budget : Nat) (hknown : s.known? r = none)
    (hinside : s.isInside r.key = true) :
    planRegistration registry options budget r s =
      .error (.circular (s.pathTo r.key)) s := by
  unfold planRegistration
  cases budget <;> simp [hknown, hinside]

theorem planRegistration_deep (hknown : s.known? r = none) (hinside : s.isInside r.key = false) :
    planRegistration registry options 0 r s = .error (.depthExceeded s.path.length) s := by
  unfold planRegistration
  simp [hknown, hinside]

theorem planRegistration_fresh (budget : Nat) (hknown : s.known? r = none)
    (hinside : s.isInside r.key = false) :
    planRegistration registry options (budget + 1) r s =
      match planParts registry options (planRegistration registry options budget) r
          (s.descend r.key) with
      | .ok id t => .ok id (t.ascend.remember r id)
      | .error e t => .error e t.ascend := by
  rw [planRegistration]
  simp only [Action.get_bind, hknown, hinside]
  cases hparts : planParts registry options (planRegistration registry options budget) r
      (s.descend r.key) with
  | ok id t =>
      have hbody : inside r.key
          (planParts registry options (planRegistration registry options budget) r) s =
            .ok id t.ascend := by
        unfold inside
        rw [hparts]
      exact Action.bind_of_ok _ hbody
  | error e t =>
      have hbody : inside r.key
          (planParts registry options (planRegistration registry options budget) r) s =
            .error e t.ascend := by
        unfold inside
        rw [hparts]
      exact Action.bind_of_error _ hbody

theorem planParts_unchosen (plan : Registration H → Planner H NodeId)
    (hchosen : options.constructorPolicy.choose? r.constructors = none) :
    planParts registry options plan r s =
      .error (.noConstructor r.implementation.name) s := by
  unfold planParts
  simp [hchosen]

theorem planParts_chosen (plan : Registration H → Planner H NodeId) {chosen : Constructor H}
    (hchosen : options.constructorPolicy.choose? r.constructors = some chosen) :
    planParts registry options plan r s =
      match chosen.parameters.mapM (planParameter registry options plan r) s with
      | .ok args t =>
          .ok (t.append (.constructed r chosen) args r.lifetime).1
            (t.append (.constructed r chosen) args r.lifetime).2
      | .error e t => .error e t := by
  unfold planParts
  rw [hchosen]
  cases hargs : chosen.parameters.mapM (planParameter registry options plan r) s with
  | ok args t => exact Action.bind_of_ok _ hargs
  | error e t => exact Action.bind_of_error _ hargs

/-- A registration is planned because it is known, or by planning the parameters of its chosen
constructor and then appending a node for it. -/
theorem of_planRegistration_eq_ok {budget : Nat} {id : NodeId} {t : Survey H}
    (h : planRegistration registry options budget r s = .ok id t) :
    s.known? r = some id ∧ s = t ∨
      ∃ less chosen args mid, budget = less + 1 ∧ s.known? r = none ∧
        s.isInside r.key = false ∧
        options.constructorPolicy.choose? r.constructors = some chosen ∧
        chosen.parameters.mapM
          (planParameter registry options (planRegistration registry options less) r)
          (s.descend r.key) = .ok args mid ∧
        (mid.append (.constructed r chosen) args r.lifetime).1 = id ∧
        (mid.append (.constructed r chosen) args r.lifetime).2.ascend.remember r id = t := by
  cases hknown : s.known? r with
  | some found =>
      rw [planRegistration_known _ hknown] at h
      cases h
      exact Or.inl ⟨rfl, rfl⟩
  | none =>
      cases hinside : s.isInside r.key with
      | true =>
          rw [planRegistration_circular _ hknown hinside] at h
          cases h
      | false =>
          cases budget with
          | zero =>
              rw [planRegistration_deep hknown hinside] at h
              cases h
          | succ less =>
              rw [planRegistration_fresh less hknown hinside] at h
              cases hchosen : options.constructorPolicy.choose? r.constructors with
              | none =>
                  rw [planParts_unchosen _ hchosen] at h
                  cases h
              | some chosen =>
                  rw [planParts_chosen _ hchosen] at h
                  cases hargs : chosen.parameters.mapM (planParameter registry options
                      (planRegistration registry options less) r) (s.descend r.key) with
                  | error e mid =>
                      rw [hargs] at h
                      cases h
                  | ok args mid =>
                      rw [hargs] at h
                      cases h
                      exact Or.inr ⟨less, chosen, args, mid, rfl, rfl, rfl, rfl, hargs, rfl, rfl⟩

def noteDefault (s : Survey H) (parent : Registration H) (parameter : Parameter H) : Survey H :=
  { s with log := s.log.push (.defaulting parent.key.label parameter.key.label s.path.length) }

theorem planMissing_substitute (parent : Registration H) (parameter : Parameter H) :
    planMissing .substitute parent parameter s =
      .ok ((noteDefault s parent parameter).append (.defaulted parameter) [] .transient).1
        ((noteDefault s parent parameter).append (.defaulted parameter) [] .transient).2 := rfl

theorem planRegistration_rule {budget : Nat} {Q : NodeId → Survey H → Prop}
    {E : Failure → Survey H → Prop} (hknown : ∀ id, s.known? r = some id → Q id s)
    (hcircular : s.isInside r.key = true → E (.circular (s.pathTo r.key)) s)
    (hdeep : budget = 0 → s.isInside r.key = false → E (.depthExceeded s.path.length) s)
    (hunchosen : options.constructorPolicy.choose? r.constructors = none →
      E (.noConstructor r.implementation.name) s)
    (hparts : ∀ less chosen, budget = less + 1 → s.known? r = none → s.isInside r.key = false →
      options.constructorPolicy.choose? r.constructors = some chosen →
        Action.Ends
          (fun args mid => Q (mid.append (.constructed r chosen) args r.lifetime).1
            ((mid.append (.constructed r chosen) args r.lifetime).2.ascend.remember r
              (mid.append (.constructed r chosen) args r.lifetime).1))
          (fun e mid => E e mid.ascend)
          (chosen.parameters.mapM
            (planParameter registry options (planRegistration registry options less) r)
            (s.descend r.key))) :
    Action.Ends Q E (planRegistration registry options budget r s) := by
  cases hmemory : s.known? r with
  | some id =>
      rw [planRegistration_known _ hmemory]
      exact hknown id hmemory
  | none =>
      cases hinside : s.isInside r.key with
      | true =>
          rw [planRegistration_circular _ hmemory hinside]
          exact hcircular hinside
      | false =>
          cases budget with
          | zero =>
              rw [planRegistration_deep hmemory hinside]
              exact hdeep rfl hinside
          | succ less =>
              rw [planRegistration_fresh less hmemory hinside]
              cases hchosen : options.constructorPolicy.choose? r.constructors with
              | none =>
                  rw [planParts_unchosen _ hchosen]
                  exact hunchosen hchosen
              | some chosen =>
                  have hargs := hparts less chosen rfl hmemory hinside hchosen
                  rw [planParts_chosen _ hchosen]
                  cases hresult : chosen.parameters.mapM
                      (planParameter registry options (planRegistration registry options less) r)
                      (s.descend r.key) with
                  | ok args mid =>
                      rw [hresult] at hargs
                      exact hargs
                  | error e mid =>
                      rw [hresult] at hargs
                      exact hargs

theorem planParameter_rule {plan : Registration H → Planner H NodeId} {parameter : Parameter H}
    {Q : NodeId → Survey H → Prop} {E : Failure → Survey H → Prop}
    (hfound : ∀ d, registry.find? parameter.key = some d → Action.Ends Q E (plan d s))
    (hsubstituted : registry.find? parameter.key = none →
      options.missingDependency = .substitute →
        Q ((noteDefault s r parameter).append (.defaulted parameter) [] .transient).1
          ((noteDefault s r parameter).append (.defaulted parameter) [] .transient).2)
    (hrefused : registry.find? parameter.key = none → options.missingDependency = .refuse →
      E (.missingDependency r.key.displayName parameter.key.displayName) s) :
    Action.Ends Q E (planParameter registry options plan r parameter s) := by
  unfold planParameter
  cases hfind : registry.find? parameter.key with
  | some d => exact hfound d hfind
  | none =>
      cases hpolicy : options.missingDependency with
      | substitute => exact hsubstituted hfind hpolicy
      | refuse => exact hrefused hfind hpolicy

end Planner

/-- What a survey is sent out to plan: one registration, or parameters of one in their order. -/
inductive Errand (H : Host) where
  | registration (r : Registration H)
  | parameters (parent : Registration H) (parameters : List (Parameter H))

/-- Derivations of successful surveys: `Surveyed registry options errand s ids t` says that the
errand, begun at `s`, ends at `t` with the nodes `ids`. -/
inductive Surveyed (registry : Registry H) (options : Options) :
    Errand H → Survey H → List NodeId → Survey H → Prop
  | known {r : Registration H} {s : Survey H} {id : NodeId} (hknown : s.known? r = some id) :
      Surveyed registry options (.registration r) s [id] s
  | fresh {r : Registration H} {s mid : Survey H} {chosen : Constructor H} {args : List NodeId}
      (hknown : s.known? r = none) (hinside : s.isInside r.key = false)
      (hchosen : options.constructorPolicy.choose? r.constructors = some chosen)
      (hargs : Surveyed registry options (.parameters r chosen.parameters) (s.descend r.key)
        args mid) :
      Surveyed registry options (.registration r) s
        [(mid.append (.constructed r chosen) args r.lifetime).1]
        ((mid.append (.constructed r chosen) args r.lifetime).2.ascend.remember r
          (mid.append (.constructed r chosen) args r.lifetime).1)
  | nil {parent : Registration H} {s : Survey H} :
      Surveyed registry options (.parameters parent []) s [] s
  | registered {parent d : Registration H} {parameter : Parameter H}
      {rest : List (Parameter H)} {s mid t : Survey H} {ids others : List NodeId}
      (hfind : registry.find? parameter.key = some d)
      (hd : Surveyed registry options (.registration d) s ids mid)
      (hrest : Surveyed registry options (.parameters parent rest) mid others t) :
      Surveyed registry options (.parameters parent (parameter :: rest)) s (ids ++ others) t
  | missing {parent : Registration H} {parameter : Parameter H} {rest : List (Parameter H)}
      {s t : Survey H} {others : List NodeId}
      (hfind : registry.find? parameter.key = none)
      (hpolicy : options.missingDependency = .substitute)
      (hrest : Surveyed registry options (.parameters parent rest)
        ((Planner.noteDefault s parent parameter).append (.defaulted parameter) [] .transient).2
        others t) :
      Surveyed registry options (.parameters parent (parameter :: rest)) s
        ([((Planner.noteDefault s parent parameter).append (.defaulted parameter) []
          .transient).1] ++ others) t

namespace Surveyed

variable {registry : Registry H} {options : Options} {r : Registration H} {s t : Survey H}

theorem of_mapM {plan : Registration H → Planner H NodeId}
    (hplan : ∀ d s id t, plan d s = .ok id t →
      Surveyed registry options (.registration d) s [id] t)
    {parameters : List (Parameter H)} {ids : List NodeId}
    (h : parameters.mapM (Planner.planParameter registry options plan r) s = .ok ids t) :
    Surveyed registry options (.parameters r parameters) s ids t := by
  induction parameters generalizing s ids with
  | nil =>
      cases h
      exact .nil
  | cons parameter rest ih =>
      obtain ⟨id, mid, others, hparameter, hothers, rfl⟩ := Action.mapM_cons_eq_ok_iff.mp h
      unfold Planner.planParameter at hparameter
      cases hfind : registry.find? parameter.key with
      | some d =>
          rw [hfind] at hparameter
          exact .registered hfind (hplan d s id mid hparameter) (ih hothers)
      | none =>
          rw [hfind] at hparameter
          cases hpolicy : options.missingDependency with
          | refuse =>
              rw [hpolicy] at hparameter
              cases hparameter
          | substitute =>
              rw [hpolicy] at hparameter
              cases hparameter
              exact .missing hfind hpolicy (ih hothers)

theorem of_planRegistration {budget : Nat} {id : NodeId}
    (h : Planner.planRegistration registry options budget r s = .ok id t) :
    Surveyed registry options (.registration r) s [id] t := by
  induction budget generalizing r s id t with
  | zero =>
      rcases Planner.of_planRegistration_eq_ok h with ⟨hknown, rfl⟩ | ⟨less, _, _, _, hbudget, -⟩
      · exact .known hknown
      · cases hbudget
  | succ budget ih =>
      rcases Planner.of_planRegistration_eq_ok h with ⟨hknown, rfl⟩ |
        ⟨less, chosen, args, mid, hbudget, hknown, hinside, hchosen, hargs, rfl, rfl⟩
      · exact .known hknown
      · cases hbudget
        exact .fresh hknown hinside hchosen (of_mapM (fun d s id t hd => ih hd) hargs)

theorem size_le {errand : Errand H} {s t : Survey H} {ids : List NodeId}
    (h : Surveyed registry options errand s ids t) : s.nodes.size ≤ t.nodes.size := by
  induction h with
  | known => exact Nat.le_refl _
  | @fresh r s mid chosen args hknown hinside hchosen hargs ih =>
      rw [Survey.remember_nodes, Survey.ascend, Survey.size_append]
      exact Nat.le_succ_of_le ih
  | nil => exact Nat.le_refl _
  | registered _ _ _ ihd ihrest => exact Nat.le_trans ihd ihrest
  | missing _ _ _ ih =>
      rw [Survey.size_append] at ih
      exact Nat.le_of_succ_le ih

end Surveyed

namespace Survey

/-- The nodes remembered by a survey stand in its arena. -/
def RemembersNodes (s : Survey H) : Prop :=
  ∀ (key : Key) (id : NodeId), s.planned[key]? = some id → id.index < s.nodes.size

theorem append_index_lt (s : Survey H) (provenance : Provenance H) (args : List NodeId)
    (lifetime : Lifetime) : (s.append provenance args lifetime).1.index <
      (s.append provenance args lifetime).2.nodes.size := by
  have hindex := NodeId.index_ofIndex_le s.nodes.size
  cases lifetime <;>
    · simp only [append, Array.size_push]
      omega

theorem remembersNodes_start : (start (H := H)).RemembersNodes := by
  simp [RemembersNodes, start]

theorem RemembersNodes.append {s : Survey H} (hs : s.RemembersNodes) (provenance : Provenance H)
    (args : List NodeId) (lifetime : Lifetime) :
    (s.append provenance args lifetime).2.RemembersNodes := by
  intro key id hplanned
  rw [append_planned] at hplanned
  rw [size_append]
  exact Nat.lt_succ_of_lt (hs key id hplanned)

end Survey

namespace Surveyed

variable {registry : Registry H} {options : Options}

theorem index_lt {errand : Errand H} {s t : Survey H} {ids : List NodeId}
    (h : Surveyed registry options errand s ids t) (hs : s.RemembersNodes) :
    (∀ id ∈ ids, id.index < t.nodes.size) ∧ t.RemembersNodes := by
  induction h with
  | known hknown =>
      refine ⟨?_, hs⟩
      intro id hid
      rw [List.mem_singleton] at hid
      exact hid ▸ hs _ _ (Survey.known?_eq_some hknown).2
  | @fresh r s mid chosen args hknown hinside hchosen hargs ih =>
      obtain ⟨-, hmid⟩ := ih hs
      have hnew := mid.append_index_lt (.constructed r chosen) args r.lifetime
      constructor
      · intro id hid
        rw [List.mem_singleton] at hid
        rw [Survey.remember_nodes, hid]
        exact hnew
      · intro key id hplanned
        rw [Survey.remember_nodes]
        rcases Survey.planned_remember hplanned with ⟨-, -, rfl⟩ | hbefore
        · exact hnew
        · exact hmid.append _ _ _ key id hbefore
  | nil => exact ⟨List.forall_mem_nil _, hs⟩
  | @registered parent d parameter rest s mid t ids others hfind hd hrest ihd ihrest =>
      obtain ⟨hids, hmid⟩ := ihd hs
      obtain ⟨hothers, ht⟩ := ihrest hmid
      refine ⟨List.forall_mem_append.mpr ⟨?_, hothers⟩, ht⟩
      exact fun id hid => Nat.lt_of_lt_of_le (hids id hid) hrest.size_le
  | @missing parent parameter rest s t others hfind hpolicy hrest ih =>
      let noted := Planner.noteDefault s parent parameter
      have hnoted : noted.RemembersNodes := hs
      obtain ⟨hothers, ht⟩ := ih (hnoted.append _ _ _)
      refine ⟨List.forall_mem_append.mpr ⟨?_, hothers⟩, ht⟩
      intro id hid
      rw [List.mem_singleton] at hid
      exact hid ▸ Nat.lt_of_lt_of_le (noted.append_index_lt _ _ _) hrest.size_le

end Surveyed

namespace Registry

variable {registry : Registry H} {options : Options}

theorem plan_of_find?_eq_none {root : Key} (hroot : registry.find? root = none) :
    (registry.plan options root).result = .error (.notFound root.displayName) := by
  rw [plan, hroot]

theorem plan_eq_ok_iff {root : Key} {r : Registration H} (hroot : registry.find? root = some r)
    {plan : Plan H} :
    (registry.plan options root).result = .ok plan ↔
      ∃ id t, Planner.planRegistration registry options options.maxDepth.toNat r Survey.start =
        .ok id t ∧ ∃ h : id.index < t.nodes.size, plan = ⟨t.nodes, id, t.slots, h⟩ := by
  rw [Registry.plan, hroot]
  dsimp only
  cases hplanned :
      Planner.planRegistration registry options options.maxDepth.toNat r Survey.start with
  | error e t => simp
  | ok id t =>
      dsimp only
      split
      next hindex =>
        constructor
        · intro h
          exact ⟨id, t, rfl, hindex, (Except.ok.inj h).symm⟩
        · rintro ⟨_, _, heq, _, rfl⟩
          cases heq
          rfl
      next hindex =>
        constructor
        · intro h
          cases h
        · rintro ⟨_, _, heq, hlt, -⟩
          cases heq
          exact absurd hlt hindex

theorem exists_plan_of_planRegistration {root : Key} {r : Registration H}
    (hroot : registry.find? root = some r) {id : NodeId} {t : Survey H}
    (h : Planner.planRegistration registry options options.maxDepth.toNat r Survey.start =
      .ok id t) : ∃ plan, (registry.plan options root).result = .ok plan := by
  obtain ⟨hindex, -⟩ := (Surveyed.of_planRegistration h).index_lt Survey.remembersNodes_start
  exact ⟨_, (plan_eq_ok_iff hroot).mpr ⟨id, t, h, hindex id (by simp), rfl⟩⟩

theorem plan_eq_error_iff {root : Key} {r : Registration H} (hroot : registry.find? root = some r)
    {e : Failure} :
    (registry.plan options root).result = .error e ↔
      ∃ t, Planner.planRegistration registry options options.maxDepth.toNat r Survey.start =
        .error e t := by
  cases hplanned :
      Planner.planRegistration registry options options.maxDepth.toNat r Survey.start with
  | error other t => simp [Registry.plan, hroot, hplanned, eq_comm]
  | ok id t =>
      obtain ⟨plan, hplan⟩ := exists_plan_of_planRegistration hroot hplanned
      simp [hplan]

end Registry

end Wiring
