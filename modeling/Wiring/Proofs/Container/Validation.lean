import Wiring.Proofs.Container.Resolution
import Wiring.Proofs.Plan.Report

namespace Wiring

variable {H : Host}

open Wiring.Action (outcome)

theorem Container.outcome_plan (c : Container H) (key : Key) (s : ContainerState H) :
    outcome (c.plan key s) = (c.registry.plan c.options key).result := by
  rw [c.plan_eq]
  cases (c.registry.plan c.options key).result <;> rfl

theorem Session.Reachable.defect_of_factory {c : Container H} {q : Session H} (h : q.Reachable c)
    (hfits : c.PlansFit) (service key : Key) :
    Defect.of? service (Action.outcome (c.factory key q.state)) =
      Defect.of? service (c.registry.plan c.options key).result := by
  cases hplan : (c.registry.plan c.options key).result with
  | error e =>
      obtain ⟨t, hfactory⟩ := h.factory_of_plan_eq_error hplan
      rw [hfactory]
      rfl
  | ok plan =>
      obtain ⟨factory, t, hfactory⟩ := h.factory_of_plan_eq_ok hplan (hfits key plan hplan)
      rw [hfactory]
      rfl

namespace Container

def report (c : Container H) : Report :=
  ⟨c.registry.ordered.filterMap fun r =>
      Defect.of? r.key (c.registry.plan c.options r.key).result,
    c.registry.ordered.flatMap fun r =>
      Warning.ofPlanning (c.registry.plan c.options r.key).result⟩

variable {c : Container H}

theorem isValid_report_iff :
    c.report.isValid = true ↔
      ∀ r ∈ c.registry.toList, ∃ plan, (c.registry.plan c.options r.key).result = .ok plan := by
  unfold Report.isValid report
  rw [List.isEmpty_iff, List.filterMap_eq_nil_iff]
  refine forall_congr' fun r => ?_
  rw [Registry.mem_ordered]
  refine imp_congr_right fun _ => ?_
  cases (c.registry.plan c.options r.key).result <;> simp [Defect.of?]

theorem all_defects_iff {r : Registration H} (hmem : r ∈ c.registry.toList) :
    (c.report.defects.all fun defect => !(defect.service == r.key)) = true ↔
      ∃ plan, (c.registry.plan c.options r.key).result = .ok plan := by
  rw [List.all_eq_true]
  constructor
  · intro hall
    cases hplan : (c.registry.plan c.options r.key).result with
    | ok plan => exact ⟨plan, rfl⟩
    | error e =>
        have hown : ⟨r.key, e⟩ ∈ c.report.defects :=
          List.mem_filterMap.mpr ⟨r, Registry.mem_ordered.mpr hmem, by rw [hplan]; rfl⟩
        have hnone := hall _ hown
        simp at hnone
  · rintro ⟨plan, hplan⟩ defect hdefect
    obtain ⟨d, hd, hfound⟩ := List.mem_filterMap.mp hdefect
    cases hfailed : (c.registry.plan c.options d.key).result with
    | ok other =>
        rw [hfailed] at hfound
        cases hfound
    | error e =>
        rw [hfailed] at hfound
        cases hfound
        rw [Bool.not_eq_true', ← Bool.not_eq_true]
        intro hkey
        rw [Registry.plan_congr (Key.beq_symm hkey) hplan] at hfailed
        cases hfailed

theorem warnings_report (hr : c.registry.Assembled) (hfits : c.PlansFit) :
    c.report.warnings = (c.registry.ordered.filter fun r =>
        c.report.defects.all fun defect => !(defect.service == r.key)).flatMap
      (c.registry.doubts c.options.constructorPolicy) := by
  refine flatMap_eq_flatMap_filter fun r hmem => ?_
  have hplanned := all_defects_iff (Registry.mem_ordered.mp hmem)
  cases hplan : (c.registry.plan c.options r.key).result with
  | error e =>
      rw [if_neg fun hall => by simpa [hplan] using hplanned.mp hall]
      rfl
  | ok plan =>
      obtain ⟨d, hroot, hmirrors, -⟩ :=
        c.registry.mirrors_of_plan hr hplan (hfits r.key plan hplan)
      rw [hr.coherent.find?_self (Registry.mem_ordered.mp hmem), Option.some.injEq] at hroot
      subst hroot
      rw [if_pos (hplanned.mpr ⟨plan, hplan⟩)]
      exact hmirrors.warnings_eq

end Container

theorem Builder.Made.validate_eq {b : Builder H} (hb : b.Made) :
    ∃ t, Builder.validate b = .ok b.container.report t ∧ t.container = b.container := by
  have hreport := b.container.registry.validate_eq b.options
  rw [show b.container.registry = b.registry.freeze from rfl,
    hb.assembled.validate_freeze b.options] at hreport
  exact ⟨{ b with log := b.log ++ (b.registry.validate b.options).2 },
    congrArg (EStateM.Result.ok · _) hreport, rfl⟩

/-- What validation reports about a builder is what the container that is built from it does: the
errors are, in the order of registration, what planning and compiling each registered key fails
with, in every state that the container can reach; so the report is valid if and only if there is a
factory for every registered key. The warnings are, for the other registrations in the order of
registration and for the parameters of their chosen constructors in declared order, that the
parameter's key is not registered or that a singleton asks for a transient. -/
theorem Builder.Made.validation_foretells {b : Builder H} (hb : b.Made)
    (hfits : b.container.PlansFit) :
    ∃ report t, Builder.validate b = .ok report t ∧ t.container = b.container ∧
      (∀ q : Session H, q.Reachable b.container →
        report.defects = b.container.registry.ordered.filterMap (fun r =>
          Defect.of? r.key (outcome (b.container.plan r.key q.state))) ∧
        report.defects = b.container.registry.ordered.filterMap (fun r =>
          Defect.of? r.key (outcome (b.container.factory r.key q.state))) ∧
        (report.isValid = true ↔ ∀ key, b.container.contains key = true →
          ∃ factory s, b.container.factory key q.state = .ok factory s)) ∧
      report.warnings = (b.container.registry.ordered.filter fun r =>
          report.defects.all fun defect => !(defect.service == r.key)).flatMap
        (b.container.registry.doubts b.options.constructorPolicy) := by
  obtain ⟨t, hvalidate, hcontainer⟩ := hb.validate_eq
  refine ⟨b.container.report, t, hvalidate, hcontainer, ?_,
    Container.warnings_report (.freeze hb.assembled) hfits⟩
  intro q hq
  refine ⟨?_, ?_, ?_⟩
  · simp only [Container.outcome_plan]
    rfl
  · simp only [hq.defect_of_factory hfits]
    rfl
  · rw [Container.isValid_report_iff]
    constructor
    · intro hall key hcontains
      obtain ⟨r, hroot⟩ := Option.isSome_iff_exists.mp hcontains
      obtain ⟨plan, hplan⟩ := hall r (Registry.Coherent.mem_of_find? hroot)
      have hkey := (Registry.Assembled.freeze hb.assembled).coherent.find?_key hroot
      have hplan := Registry.plan_congr hkey hplan
      exact hq.factory_of_plan_eq_ok hplan (hfits key plan hplan)
    · intro hall r hmem
      have hcontains : b.container.contains r.key = true :=
        Option.isSome_iff_exists.mpr
          ⟨r, (Registry.Assembled.freeze hb.assembled).coherent.find?_self hmem⟩
      obtain ⟨factory, s, hfactory⟩ := hall r.key hcontains
      cases hplan : (b.container.registry.plan b.container.options r.key).result with
      | ok plan => exact ⟨plan, rfl⟩
      | error e =>
          obtain ⟨t, herror⟩ := hq.factory_of_plan_eq_error hplan
          rw [hfactory] at herror
          cases herror

namespace Sample

def gauge : TypeTag := .declared 7 "Gauge"
def horn : TypeTag := .declared 8 "Horn"
def panel : TypeTag := .declared 9 "Panel"

/-- The small example with a colour that depends on itself, and with a panel that keeps its gauge
and asks for a horn that is not registered. -/
def flawed : Builder host :=
  Action.finalState (Builder.add (part panel [.service gauge none, .service horn none])
    .singleton none
    (Action.finalState (Builder.add (part gauge []) .transient none
      (Action.finalState (Builder.add (part colour [.service colour none]) .transient none
        builder)))))

theorem flawed_made : flawed.Made :=
  .add (.add (.add made ..) ..) ..

theorem flaws_foretold : flawed.Made ∧ flawed.container.PlansFit ∧
    ∃ report t, Builder.validate flawed = .ok report t ∧ report.isValid = false ∧
      report.defects.map (·.service.displayName) = [lamp.name, vehicle.name, colour.name] ∧
      report.warnings.map Warning.message =
        ["Singleton 'Panel' depends on transient 'Gauge' - will always get same instance",
          "Service 'Panel' depends on unregistered 'Horn' - a default will be injected"] ∧
      ∀ q : Session host, q.Reachable flawed.container →
        report.defects = flawed.container.registry.ordered.filterMap (fun r =>
          Defect.of? r.key (outcome (flawed.container.factory r.key q.state))) := by
  have hfits : flawed.container.PlansFit := by
    apply Container.plansFit_of_all (.freeze flawed_made.assembled)
    decide +kernel
  obtain ⟨report, t, hvalidate, -, hreport, -⟩ := flawed_made.validation_foretells hfits
  have hsaid : (outcome (Builder.validate flawed)).toOption.map (fun report =>
      (report.isValid, report.defects.map (·.service.displayName),
        report.warnings.map Warning.message)) =
      some (false, [lamp.name, vehicle.name, colour.name],
        ["Singleton 'Panel' depends on transient 'Gauge' - will always get same instance",
          "Service 'Panel' depends on unregistered 'Horn' - a default will be injected"]) := by
    decide +kernel
  rw [hvalidate] at hsaid
  simp only [outcome, Except.toOption, Option.map_some, Option.some.injEq, Prod.mk.injEq] at hsaid
  obtain ⟨hvalid, hdefects, hwarnings⟩ := hsaid
  exact ⟨flawed_made, hfits, report, t, hvalidate, hvalid, hdefects, hwarnings,
    fun q hq => (hreport q hq).2.1⟩

end Sample

end Wiring
