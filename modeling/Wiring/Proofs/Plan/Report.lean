import Wiring.Plan.Report
import Wiring.Proofs.Plan.Arena
import Wiring.Proofs.Registry.Catalogue

namespace Wiring

variable {H : Host}

namespace Registry

/-- What there is to say about a parameter of a registration. -/
def doubt? (registry : Registry H) (r : Registration H) (parameter : Parameter H) :
    Option Warning :=
  match registry.find? parameter.key with
  | none => some (.defaultedDependency r.key parameter.key)
  | some d =>
    if r.lifetime = .singleton ∧ d.lifetime = .transient then some (.capturedTransient r.key d.key)
    else none

def doubts (registry : Registry H) (policy : ConstructorPolicy) (r : Registration H) :
    List Warning :=
  match policy.choose? r.constructors with
  | none => []
  | some chosen => chosen.parameters.filterMap (registry.doubt? r)

end Registry

def Defect.of? {α : Type} (service : Key) : Except Failure α → Option Defect
  | .error failure => some ⟨service, failure⟩
  | .ok _ => none

def Warning.ofPlanning : Except Failure (Plan H) → List Warning
  | .error _ => []
  | .ok plan => ofPlan plan

namespace Registry

variable {registry other : Registry H} {options : Options} {policy : ConstructorPolicy}
  {r : Registration H}

theorem validate_eq (registry : Registry H) (options : Options) :
    (registry.validate options).1 =
      ⟨registry.ordered.filterMap fun r => Defect.of? r.key (registry.plan options r.key).result,
        registry.ordered.flatMap fun r =>
          Warning.ofPlanning (registry.plan options r.key).result⟩ := by
  have hfold : ∀ (registrations : List (Registration H)) (told : Report × Array LogRecord),
      (registrations.foldl (fun told r =>
        let planning := registry.plan options r.key
        (told.1.add r.key planning.result, told.2 ++ planning.log)) told).1 =
      ⟨told.1.defects ++ registrations.filterMap fun r =>
          Defect.of? r.key (registry.plan options r.key).result,
        told.1.warnings ++ registrations.flatMap fun r =>
          Warning.ofPlanning (registry.plan options r.key).result⟩ := by
    intro registrations
    induction registrations with
    | nil => simp
    | cons r rest ih =>
        intro told
        rw [List.foldl_cons, ih]
        cases hplan : (registry.plan options r.key).result <;>
          simp [Report.add, Defect.of?, Warning.ofPlanning, hplan]
  exact (hfold registry.ordered (.empty, #[])).trans (by simp [Report.empty])

end Registry

/-- What is said about an argument is what is to be said about the parameter that it serves. -/
theorem Node.Serves.ofArgument?_eq {registry : Registry H} {r : Registration H}
    {parameter : Parameter H} {root n : Node H} {chosen : Constructor H}
    (hroot : root.provenance = .constructed r chosen) (h : n.Serves registry parameter) :
    Warning.ofArgument? root n = registry.doubt? r parameter := by
  have hservice : root.service = r.key := by simp [service, hroot]
  have hlifetime : root.lifetime = r.lifetime := by simp [lifetime, hroot]
  unfold Warning.ofArgument? Registry.doubt?
  unfold Serves at h
  cases hfind : registry.find? parameter.key with
  | some d =>
      rw [hfind] at h
      obtain ⟨_, hn⟩ := h
      simp [isDefaulted, service, lifetime, hn, hroot]
  | none =>
      rw [hfind] at h
      simp [isDefaulted, service, h, hroot]

theorem Warning.filterMap_served {registry : Registry H} {r : Registration H} {p : Plan H}
    {root : Node H} {chosen : Constructor H} {i : Nat} {parameters : List (Parameter H)}
    {args : List NodeId} (hroot : root.provenance = .constructed r chosen)
    (hserved : List.Forall₂ (ServedBelow registry p.nodes i) parameters args) :
    (args.filterMap p.node?).filterMap (ofArgument? root) =
      parameters.filterMap (registry.doubt? r) := by
  induction hserved with
  | nil => rfl
  | @cons parameter arg parameters args hhead _ ih =>
      obtain ⟨-, n, hn, hserves⟩ := hhead
      have harg : p.node? arg = some n := hn
      rw [List.filterMap_cons_some harg, List.filterMap_cons, List.filterMap_cons, ih,
        hserves.ofArgument?_eq hroot]

theorem Plan.Mirrors.warnings_eq {registry : Registry H} {policy : ConstructorPolicy}
    {r : Registration H} {p : Plan H} (h : p.Mirrors registry policy r) :
    Warning.ofPlan p = registry.doubts policy r := by
  obtain ⟨chosen, args, slot, hn⟩ := h.stands
  obtain ⟨-, hchosen, hserved⟩ := (h.arena.node _ _ hn).served
  have hroot : p.rootNode = ⟨.constructed r chosen, args, slot⟩ :=
    Option.some.inj (p.node?_root.symm.trans hn)
  unfold Warning.ofPlan Registry.doubts
  rw [hroot, hchosen]
  exact Warning.filterMap_served rfl hserved

namespace Planner

variable {registry other : Registry H}

theorem planRegistration_of_find? (h : ∀ key, registry.find? key = other.find? key)
    (options : Options) (budget : Nat) :
    planRegistration registry options budget = planRegistration other options budget := by
  induction budget with
  | zero =>
      funext r
      simp only [planRegistration]
  | succ budget ih =>
      have hparameter : planParameter registry options = planParameter other options := by
        funext plan parent parameter
        rw [planParameter, h, planParameter]
      funext r
      simp only [planRegistration, planParts, hparameter, ih]

end Planner

namespace Registry.Assembled

variable {r : Registry H}

theorem find?_freeze (hr : r.Assembled) (key : Key) : r.freeze.find? key = r.find? key := by
  ext a
  rw [hr.freeze.find?_eq_some_iff, hr.find?_eq_some_iff, mem_toList_freeze]

theorem ordered_freeze (hr : r.Assembled) : r.freeze.ordered = r.ordered := by
  refine eq_of_sequence_pairwise (hr.freeze.coherent.bySequence_pairwise (List.Sublist.refl _))
    (hr.coherent.bySequence_pairwise (List.Sublist.refl _)) fun a => ?_
  rw [mem_ordered, mem_ordered, mem_toList_freeze]

theorem plan_freeze (hr : r.Assembled) (options : Options) (key : Key) :
    r.freeze.plan options key = r.plan options key := by
  unfold plan
  rw [hr.find?_freeze, Planner.planRegistration_of_find? hr.find?_freeze]

end Registry.Assembled

theorem Registry.Assembled.validate_freeze {r : Registry H} (hr : r.Assembled) (options : Options) :
    r.freeze.validate options = r.validate options := by
  unfold validate
  rw [hr.ordered_freeze]
  simp only [hr.plan_freeze]

end Wiring
