import Wiring.Proofs.Container.Occasions
import Wiring.Proofs.Container.Transients
import Wiring.Proofs.Container.Typing
import Wiring.Proofs.Container.Validation

namespace Wiring

variable {H : Host}

/-- Whatever chosen constructors ask for is registered, and singletons only ask for singletons. -/
def Registry.SelfContained (registry : Registry H) (policy : ConstructorPolicy) : Prop :=
  ∀ r ∈ registry.toList, ∀ chosen, policy.choose? r.constructors = some chosen →
    ∀ parameter ∈ chosen.parameters, ∃ d, registry.find? parameter.key = some d ∧
      (r.lifetime = .singleton → d.lifetime = .singleton)

/-- The instance of the singleton is in its cell. -/
def Store.Stores (s : Store H) (r : Registration H) (object : Instance H) : Prop :=
  ∃ cell, r.cell? = some cell ∧ s.cells.get? cell = some object

/-- The constructor call that made the first instance, or what it is a handle to, was given the
second. -/
def Journal.Holds (journal : Journal H) (object held : Instance H) : Prop :=
  ∃ callee args result made, Entry.call (.construct callee args result) ∈ journal.toList ∧
    (Call.construct callee args result).made? = some made ∧ made.origin = object.origin ∧
    some held ∈ args

namespace Registry

variable {registry : Registry H} {r : Registration H} {parameter : Parameter H}

theorem doubt?_eq_none_iff :
    registry.doubt? r parameter = none ↔ ∃ d, registry.find? parameter.key = some d ∧
      (r.lifetime = .singleton → d.lifetime = .singleton) := by
  unfold doubt?
  cases registry.find? parameter.key with
  | none => simp
  | some d => cases hd : d.lifetime <;> simp [hd]

end Registry

theorem Container.selfContained_of_report {c : Container H} (hr : c.registry.Assembled)
    (hfits : c.PlansFit) (hvalid : c.report.isValid = true)
    (hsilent : c.report.hasWarnings = false) :
    c.registry.SelfContained c.options.constructorPolicy := by
  intro r hmem chosen hchosen parameter hparameter
  have hwarnings : c.report.warnings = [] := by
    simpa [Report.hasWarnings] using hsilent
  obtain ⟨plan, hplan⟩ := isValid_report_iff.mp hvalid r hmem
  obtain ⟨d, hroot, hmirrors, -⟩ := c.registry.mirrors_of_plan hr hplan (hfits r.key plan hplan)
  rw [hr.coherent.find?_self hmem, Option.some.injEq] at hroot
  subst hroot
  have hdoubts := List.flatMap_eq_nil_iff.mp hwarnings r (Registry.mem_ordered.mpr hmem)
  rw [hplan] at hdoubts
  have hnone := hmirrors.warnings_eq.symm.trans hdoubts
  rw [Registry.doubts, hchosen] at hnone
  exact Registry.doubt?_eq_none_iff.mp (List.filterMap_eq_nil_iff.mp hnone parameter hparameter)

theorem Call.eq_of_made? {callee : Constructor H} {args : List (Option (Instance H))}
    {object made : Instance H} (h : (Call.construct callee args (.ok object)).made? = some made) :
    object = made := by
  cases hrecipe : callee.recipe with
  | handOut => simp [made?, hrecipe] at h
  | assemble code =>
      rw [made?_of_assemble hrecipe, Option.some.injEq] at h
      exact h

namespace Session.Reachable

variable {c : Container H} {q : Session H}

/-- What a constructor was called with: something for every parameter that a registration serves,
and for a singleton the instance in its cell. -/
theorem arguments_present (h : q.Reachable c) (hfits : c.PlansFit) {callee : Constructor H}
    {args : List (Option (Instance H))} {result : Except Failure (Instance H)}
    (hcall : Entry.call (.construct callee args result) ∈ q.store.journal.toList) :
    List.Forall₂ (fun parameter arg => ∀ d, c.registry.find? parameter.key = some d →
      ∃ object, arg = some object ∧ (d.lifetime = .singleton → q.store.Stores d object))
      callee.parameters args := by
  obtain ⟨-, haccounts⟩ := (h.portrayed hfits (typing_truthful c.registry)).1.called _ hcall
  obtain ⟨l, hledger, -, hlawful⟩ := h.exists_lawful hfits
  obtain ⟨records, hrecords⟩ := hlawful.store.annals
  rw [hledger.state.store] at hrecords
  have hdelivered := hrecords.delivered hcall
  cases haccounts with
  | construct _ _ hpictures hargs _ =>
      have hpresent : List.Forall₂ (fun parameter arg => ∀ d,
          c.registry.find? parameter.key = some d → ∃ object, arg = some object)
          callee.parameters args := by
        refine forall₂_join (mapM_eq_some_iff.mp hpictures).flip hargs.flip ?_
        intro picture parameter arg hpicture harg d hd
        unfold Reading.delivery at hpicture
        rw [hd] at hpicture
        obtain ⟨type, -, rfl⟩ := Option.map_eq_some_iff.mp hpicture
        obtain ⟨object, hobject, -⟩ := exists_of_rel_some harg
        exact ⟨object, hobject⟩
      refine List.forall₂_iff_zip.mpr ⟨hpresent.length_eq, fun {parameter arg} hzip d hd => ?_⟩
      obtain ⟨object, rfl⟩ := List.forall₂_zip hpresent hzip d hd
      refine ⟨object, rfl, fun hlifetime => ?_⟩
      have hcell := Registration.cell?_eq_some_iff.mpr ⟨hlifetime, rfl⟩
      obtain ⟨stored, hstored, hsame⟩ := List.forall₂_zip hdelivered hzip d hd _ hcell
      exact ⟨d.sequence, hcell, Option.some.inj hsame ▸ hstored⟩

theorem callee_of_stored (h : q.Reachable c) (hfits : c.PlansFit)
    (hready : c.registry.HandsOutReadyMade) {r : Registration H} (hmem : r ∈ c.registry.toList)
    {object made : Instance H} (hobject : q.store.Stores r object) {callee : Constructor H}
    {args : List (Option (Instance H))} {result : Except Failure (Instance H)}
    (hcall : Entry.call (.construct callee args result) ∈ q.store.journal.toList)
    (hmade : (Call.construct callee args result).made? = some made)
    (horigin : made.origin = object.origin) :
    c.options.constructorPolicy.choose? r.constructors = some callee := by
  obtain ⟨cell, hcell, hstored⟩ := hobject
  obtain ⟨serial, hserial, -⟩ :=
    (h.portrayed hfits (typing_truthful c.registry)).1.numbered _ made hcall hmade
  obtain ⟨products, hproducts⟩ := h.balanced hfits
  have hproductive : Entry.isProductive (.call (.construct callee args result)) = true := by
    cases result with
    | ok found => rfl
    | error e => cases hmade
  obtain ⟨product, hproduct, hascribed⟩ := exists_of_forall₂_right hproducts.ascribed _
    (List.mem_filter.mpr ⟨hcall, hproductive⟩)
  cases hascribed with
  | @construct d _ _ built hd hchosen =>
      obtain rfl := Call.eq_of_made? hmade
      have hgiven : r.givenInstance = none := by
        cases hgiven : r.givenInstance with
        | none => rfl
        | some found =>
            have hfound := h.cell_of_given hfits hmem hgiven
            rw [Registration.sequence_of_cell? hcell, hstored, Option.some.injEq] at hfound
            have hnone := hready.of_given hmem hgiven
            rw [← hfound, ← horigin, hserial] at hnone
            cases hnone
      have hkept := hproducts.kept r hmem hgiven cell object hcell hstored
      have hsame := Product.eq_of_serial (hproducts.numbered hready).1 _ hproduct _ hkept hserial
        (horigin ▸ hserial)
      obtain rfl : d = r := Option.some.inj (congrArg Product.owner hsame)
      exact hchosen

theorem arguments_served (h : q.Reachable c) (hfits : c.PlansFit)
    (hself : c.registry.SelfContained c.options.constructorPolicy) {r : Registration H}
    (hmem : r ∈ c.registry.toList) {callee : Constructor H}
    (hchosen : c.options.constructorPolicy.choose? r.constructors = some callee)
    {args : List (Option (Instance H))} {result : Except Failure (Instance H)}
    (hcall : Entry.call (.construct callee args result) ∈ q.store.journal.toList) :
    List.Forall₂ (fun parameter arg => ∃ d object, c.registry.find? parameter.key = some d ∧
        c.registry.DependsOn c.options.constructorPolicy r d ∧ arg = some object ∧
        (r.lifetime = .singleton → q.store.Stores d object))
      callee.parameters args := by
  have hpresent := h.arguments_present hfits hcall
  refine List.forall₂_iff_zip.mpr ⟨hpresent.length_eq, fun {parameter arg} hzip => ?_⟩
  have hparameter := (List.of_mem_zip hzip).1
  obtain ⟨d, hd, hlifetime⟩ := hself r hmem callee hchosen parameter hparameter
  obtain ⟨object, hobject, hstored⟩ := List.forall₂_zip hpresent hzip d hd
  exact ⟨d, object, hd, ⟨callee, hchosen, parameter, hparameter, hd⟩, hobject,
    fun hr => hstored (hlifetime hr)⟩

theorem stores_of_holds (h : q.Reachable c) (hfits : c.PlansFit)
    (hself : c.registry.SelfContained c.options.constructorPolicy)
    (hready : c.registry.HandsOutReadyMade) {r : Registration H} (hmem : r ∈ c.registry.toList)
    {object held : Instance H} (hobject : q.store.Stores r object)
    (hheld : q.store.journal.Holds object held) :
    ∃ d ∈ c.registry.toList, q.store.Stores d held := by
  obtain ⟨callee, args, result, made, hcall, hmade, horigin, harg⟩ := hheld
  have hchosen := h.callee_of_stored hfits hready hmem hobject hcall hmade horigin
  obtain ⟨parameter, -, d, found, hd, -, hfound, hstored⟩ :=
    exists_of_forall₂_right (h.arguments_served hfits hself hmem hchosen hcall) _ harg
  cases hfound
  obtain ⟨cell, hcell, -⟩ := hobject
  exact ⟨d, Registry.Coherent.mem_of_find? hd,
    hstored (Registration.cell?_eq_some_iff.mp hcell).1⟩

end Session.Reachable

/-- What a clean report guarantees. If validation finds neither errors nor warnings, then in every
session with the container no default is used, every argument of a constructor is there and comes
from a registration, every argument of a singleton's constructor is the stored instance of another
singleton, and so is everything that such an instance holds, directly or through others. What
constructors hand out is taken to have been there before the container. -/
theorem Builder.Made.clean_report_guarantees {b : Builder H} (hb : b.Made)
    (hfits : b.container.PlansFit) {report : Report} {t : Builder H}
    (hvalidate : Builder.validate b = .ok report t) (hvalid : report.isValid = true)
    (hsilent : report.hasWarnings = false) {q : Session H} (hq : q.Reachable b.container) :
    (∀ parameter object, Entry.call (.default parameter object) ∉ q.store.journal.toList) ∧
    (∀ callee args result,
      Entry.call (.construct callee args result) ∈ q.store.journal.toList →
        List.Forall₂ (fun parameter arg => ∃ d object,
          b.container.registry.find? parameter.key = some d ∧ arg = some object)
          callee.parameters args) ∧
    (∀ r ∈ b.container.registry.toList, r.lifetime = .singleton → ∀ callee,
      b.options.constructorPolicy.choose? r.constructors = some callee → ∀ args result,
        Entry.call (.construct callee args result) ∈ q.store.journal.toList →
          List.Forall₂ (fun parameter arg => ∃ d object,
            b.container.registry.find? parameter.key = some d ∧ d ≠ r ∧ arg = some object ∧
            q.store.Stores d object) callee.parameters args) ∧
    (b.container.registry.HandsOutReadyMade → ∀ r ∈ b.container.registry.toList, ∀ object,
      q.store.Stores r object → ∀ held, Relation.TransGen q.store.journal.Holds object held →
        ∃ d ∈ b.container.registry.toList, q.store.Stores d held) := by
  have hr : b.container.registry.Assembled := .freeze hb.assembled
  obtain ⟨_, hreport, -⟩ := hb.validate_eq
  rw [hreport] at hvalidate
  cases hvalidate
  have hself := Container.selfContained_of_report hr hfits hvalid hsilent
  refine ⟨?_, ?_, ?_, ?_⟩
  · intro parameter object hcall
    obtain ⟨r, hmem, hbehalf⟩ := hq.exists_onBehalfOf hfits hcall
    cases hbehalf with
    | default hchosen hparameter hfind =>
        obtain ⟨d, hd, -⟩ := hself r hmem _ hchosen _ hparameter
        rw [hfind] at hd
        cases hd
  · intro callee args result hcall
    obtain ⟨r, hmem, hbehalf⟩ := hq.exists_onBehalfOf hfits hcall
    cases hbehalf with
    | construct hchosen =>
        refine (hq.arguments_served hfits hself hmem hchosen hcall).imp ?_
        rintro parameter arg ⟨d, object, hd, -, hobject, -⟩
        exact ⟨d, object, hd, hobject⟩
  · intro r hmem hlifetime callee hchosen args result hcall
    refine (hq.arguments_served hfits hself hmem hchosen hcall).imp ?_
    rintro parameter arg ⟨d, object, hd, hdepends, hobject, hstored⟩
    refine ⟨d, object, hd, ?_, hobject, hstored hlifetime⟩
    -- What could be planned is not built from itself.
    rintro rfl
    obtain ⟨plan, hplan⟩ := Container.isValid_report_iff.mp hvalid d hmem
    obtain ⟨root, hroot, -, hplannable⟩ :=
      b.container.registry.mirrors_of_plan hr hplan (hfits d.key plan hplan)
    rw [hr.coherent.find?_self hmem, Option.some.injEq] at hroot
    subst hroot
    exact hplannable.not_onCircle (.single hdepends)
  · intro hready r hmem object hobject held hheld
    induction hheld with
    | single hholds => exact hq.stores_of_holds hfits hself hready hmem hobject hholds
    | tail _ hholds ih =>
        obtain ⟨d, hd, hstored⟩ := ih
        exact hq.stores_of_holds hfits hself hready hd hstored hholds

namespace Sample

def tidy : Builder host :=
  Action.finalState (Builder.addInterface vehicle convert (part car [.service motor none])
    .transient none
    (Action.finalState (Builder.add motors .singleton none
      (Action.finalState (Builder.addInstance fuse 5 none
        (Action.finalState (Builder.add batteries .singleton none (.withOptions {}))))))))

theorem tidy_made : tidy.Made :=
  .addInterface (.add (.addInstance (.add (.withOptions {}) ..) ..) ..) ..

def tidySession : Session host :=
  (tidy.session 1 fun _ => 0).run tidy.container [.resolve root]

theorem motor_holds_singletons : tidy.Made ∧ tidy.container.PlansFit ∧
    tidySession.Reachable tidy.container ∧
    (∃ report t, Builder.validate tidy = .ok report t ∧ report.isValid = true ∧
      report.hasWarnings = false) ∧
    (tidySession.store.journal.toList.filter Entry.isProductive).length = 3 ∧
    (∀ parameter object,
      Entry.call (.default parameter object) ∉ tidySession.store.journal.toList) ∧
    ∃ r ∈ tidy.container.registry.toList, r.key.displayName = motor.name ∧
      ∃ object, tidySession.store.Stores r object ∧
        ∀ held, Relation.TransGen tidySession.store.journal.Holds object held →
          ∃ d ∈ tidy.container.registry.toList, tidySession.store.Stores d held := by
  have hfits : tidy.container.PlansFit := by
    apply Container.plansFit_of_all (.freeze tidy_made.assembled)
    decide +kernel
  have hreachable : tidySession.Reachable tidy.container := ⟨tidy, _, _, _, tidy_made, rfl, rfl⟩
  obtain ⟨t, hvalidate, -⟩ := tidy_made.validate_eq
  have hvalid : tidy.container.report.isValid = true := by decide +kernel
  have hsilent : tidy.container.report.hasWarnings = false := by decide +kernel
  have hready : tidy.container.registry.HandsOutReadyMade := by
    apply Registry.handsOutReadyMade_of_all
    decide +kernel
  obtain ⟨hdefaults, -, -, hheld⟩ :=
    tidy_made.clean_report_guarantees hfits hvalidate hvalid hsilent hreachable
  have hmotor : (tidy.container.registry.toList.any fun r => r.key.displayName = motor.name &&
      (r.cell?.bind tidySession.store.cells.get?).isSome) = true := by decide +kernel
  obtain ⟨r, hmem, hfacts⟩ := List.any_eq_true.mp hmotor
  obtain ⟨hname, hfilled⟩ := Bool.and_eq_true_iff.mp hfacts
  obtain ⟨object, hobject⟩ := Option.isSome_iff_exists.mp hfilled
  have hstores : tidySession.store.Stores r object := Option.bind_eq_some_iff.mp hobject
  exact ⟨tidy_made, hfits, hreachable, ⟨_, t, hvalidate, hvalid, hsilent⟩, by decide +kernel,
    hdefaults, r, hmem, of_decide_eq_true hname, object, hstores,
    hheld hready r hmem object hstores⟩

end Sample

end Wiring
