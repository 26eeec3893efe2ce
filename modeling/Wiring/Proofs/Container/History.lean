import Wiring.Proofs.Container.Resolution
import Wiring.Proofs.Container.Typing
import Wiring.Proofs.Injection.Lineage

namespace Wiring

variable {H : Host}

/-- In no session does a call of a constructor or an adapter fail. -/
def Container.NeverFails (c : Container H) : Prop :=
  ∀ q : Session H, q.Reachable c → ∀ call, Entry.call call ∈ q.store.journal.toList →
    call.failure? = none

/-- The constructor succeeds whenever its arguments are what its parameters promise. -/
def Constructor.Reliable (c : Constructor H) : Prop :=
  ∀ code, c.recipe = .assemble code → ∀ args world, List.Forall₂ Parameter.Fits c.parameters args →
    ∃ payload, (code (.ofValues c.label args) world).result = .ok payload

def Registration.Reliable (r : Registration H) : Prop :=
  (∀ c ∈ r.constructors, c.Reliable) ∧ ∀ a, r.adapter = some a → a.Reliable

theorem Container.neverFails_of_reliable {c : Container H} (hfits : c.PlansFit)
    (hbuilds : c.registry.BuildsImplementations)
    (hapart : ∀ interface, c.registry.HasInterface interface → c.registry.Distinguishes interface)
    (hreliable : ∀ r ∈ c.registry.toList, r.Reliable) : c.NeverFails := by
  intro q hq call hcall
  obtain ⟨hgenuine, haccounts⟩ :=
    (hq.portrayed hfits (typing_truthful c.registry)).1.called call hcall
  cases call with
  | construct callee args result =>
      cases result with
      | ok object => rfl
      | error e =>
          have hargs := Registry.fits_of_accounts hq.assembled hq.sincere hbuilds hapart haccounts
          cases haccounts with
          | @construct r _ _ _ _ _ hmem hchosen =>
              have hcallee := (ConstructorPolicy.choose?_eq_some_iff.mp hchosen).mem
              cases hgenuine with
              | fail hrecipe hreply =>
                  obtain ⟨payload, hok⟩ :=
                    (hreliable r hmem).1 callee hcallee _ hrecipe args _ hargs
                  rw [hok] at hreply
                  cases hreply
  | adapt adapter object result =>
      obtain ⟨-, -, hconverts⟩ :=
        Registry.converts_of_accounts hq.sincere hbuilds haccounts hgenuine
      cases haccounts with
      | @adapt r _ _ _ _ _ hmem hadapter =>
          obtain ⟨handle, rfl⟩ := hconverts ((hreliable r hmem).2 adapter hadapter)
          rfl
  | default => rfl

namespace Session

variable (c : Container H)

/-- What resolving a key comes to: a failure, or an instance, of which the type and the lineage
matter. -/
def outcome (q : Session H) (key : Key) : Except Failure (TypeTag × Option (Lineage H)) :=
  match c.resolve key q.state with
  | .ok object s => .ok (object.type, s.store.journal.lineage? object)
  | .error e _ => .error e

/-- What resolving keys one after the other comes to. -/
def outcomes (q : Session H) :
    List Key → List (Key × Except Failure (TypeTag × Option (Lineage H)))
  | [] => []
  | key :: rest => (key, q.outcome c key) :: outcomes (q.serve c (.resolve key)) rest

namespace Reachable

variable {c} {q other : Session H}

theorem presents (h : q.Reachable c) (hfits : c.PlansFit)
    (hready : c.registry.HandsOutReadyMade) {key : Key} {object : Instance H}
    (hobject : (key, object) ∈ q.resolved) :
    ∃ plan lineage, (c.registry.plan c.options key).result = .ok plan ∧
      c.prospect typing key = some object.type ∧ c.prospect ancestry key = some lineage ∧
      q.store.journal.lineage? object = some lineage := by
  obtain ⟨plan, type, hplan, htype, hshows⟩ :=
    (h.portrayed hfits (typing_truthful c.registry)).2 key object hobject
  obtain ⟨-, lineage, -, hlineage, hknown⟩ :=
    (h.portrayed hfits (ancestry_truthful hready)).2 key object hobject
  rw [typing_shows_iff] at hshows
  exact ⟨plan, lineage, hplan, hshows ▸ htype, hlineage, hknown⟩

theorem outcome_of_plan_eq_ok (h : q.Reachable c) (hfits : c.PlansFit)
    (hready : c.registry.HandsOutReadyMade) (hnever : c.NeverFails) {key : Key} {plan : Plan H}
    (hplan : (c.registry.plan c.options key).result = .ok plan) :
    ∃ type lineage, c.prospect typing key = some type ∧ c.prospect ancestry key = some lineage ∧
      q.outcome c key = .ok (type, some lineage) := by
  -- What is resolved now is among what the session has resolved once it has served the request.
  have hserved := h.serve (.resolve key)
  have hends := h.resolve_ends hfits key
  rw [hplan] at hends
  rcases hends with ⟨object, s, hresolve⟩ | ⟨e, s, call, hresolve, hfailure, hcall⟩
  · rw [serve_of_resolve_eq_ok hresolve] at hserved
    obtain ⟨-, lineage, -, htype, hlineage, hknown⟩ :=
      hserved.presents hfits hready (mem_keepResolved _ key object)
    refine ⟨object.type, lineage, htype, hlineage, ?_⟩
    simp only [outcome, hresolve]
    exact congrArg (fun found => Except.ok (object.type, found)) hknown
  · rw [serve_of_resolve_eq_error hresolve] at hserved
    rw [hnever _ hserved call hcall] at hfailure
    cases hfailure

theorem outcome_of_plan_eq_error (h : q.Reachable c) (hfits : c.PlansFit) {key : Key} {e : Failure}
    (hplan : (c.registry.plan c.options key).result = .error e) : q.outcome c key = .error e := by
  have hends := h.resolve_ends hfits key
  rw [hplan] at hends
  obtain ⟨s, hresolve⟩ := hends
  simp only [outcome, hresolve]

theorem outcome_eq (h : q.Reachable c) (hother : other.Reachable c) (hfits : c.PlansFit)
    (hready : c.registry.HandsOutReadyMade) (hnever : c.NeverFails) (key : Key) :
    q.outcome c key = other.outcome c key := by
  cases hplan : (c.registry.plan c.options key).result with
  | error e =>
      rw [h.outcome_of_plan_eq_error hfits hplan, hother.outcome_of_plan_eq_error hfits hplan]
  | ok plan =>
      obtain ⟨type, lineage, htype, hlineage, houtcome⟩ :=
        h.outcome_of_plan_eq_ok hfits hready hnever hplan
      obtain ⟨type', lineage', htype', hlineage', houtcome'⟩ :=
        hother.outcome_of_plan_eq_ok hfits hready hnever hplan
      obtain rfl : type = type' := Option.some.inj (htype.symm.trans htype')
      rw [houtcome, houtcome', ← hlineage, ← hlineage']

theorem outcomes_eq_map (h : q.Reachable c) (hother : other.Reachable c) (hfits : c.PlansFit)
    (hready : c.registry.HandsOutReadyMade) (hnever : c.NeverFails) (keys : List Key) :
    q.outcomes c keys = keys.map fun key => (key, other.outcome c key) := by
  induction keys generalizing q with
  | nil => rfl
  | cons key rest ih =>
      rw [outcomes, List.map_cons, h.outcome_eq hother hfits hready hnever key,
        ih (h.serve (.resolve key))]

/-- Results do not depend on history. If client code never fails, then in any two sessions with a
container, for example in one that has just begun and in one that has gone on for long, resolving a key
fails in both with the same failure, or succeeds in both with instances of the same type and the same
lineage. So is whatever was resolved or produced for the key before, and so it is when keys are
resolved one after the other in two different orders. Lineages are those of the calls: what a call has
made has its callee and, in turn, the lineages of its arguments. -/
theorem results_independent_of_history (h : q.Reachable c) (hother : other.Reachable c)
    (hfits : c.PlansFit) (hready : c.registry.HandsOutReadyMade) (hnever : c.NeverFails) :
    (∀ key, q.outcome c key = other.outcome c key) ∧
    (∀ key type lineage, q.outcome c key = .ok (type, lineage) → lineage.isSome) ∧
    (∀ key object, (key, object) ∈ q.resolved →
      other.outcome c key = .ok (object.type, q.store.journal.lineage? object)) ∧
    (∀ keys reordered : List Key, keys.Perm reordered →
      (q.outcomes c keys).Perm (other.outcomes c reordered)) ∧
    ∀ call object, Entry.call call ∈ q.store.journal.toList → call.made? = some object →
      ∃ lineage, q.store.journal.lineage? object = some lineage ∧
        Lineage.ofCall? (Lineage.known q.store.journal.toList) call = some lineage := by
  refine ⟨h.outcome_eq hother hfits hready hnever, ?_, ?_, ?_, ?_⟩
  · intro key type lineage houtcome
    cases hplan : (c.registry.plan c.options key).result with
    | error e =>
        rw [h.outcome_of_plan_eq_error hfits hplan] at houtcome
        cases houtcome
    | ok plan =>
        obtain ⟨_, known, -, -, hknown⟩ := h.outcome_of_plan_eq_ok hfits hready hnever hplan
        rw [hknown] at houtcome
        cases houtcome
        rfl
  · intro key object hobject
    obtain ⟨plan, lineage, hplan, htype, hlineage, hknown⟩ := h.presents hfits hready hobject
    obtain ⟨type, lineage', htype', hlineage', houtcome⟩ :=
      hother.outcome_of_plan_eq_ok hfits hready hnever hplan
    obtain rfl : object.type = type := Option.some.inj (htype.symm.trans htype')
    rw [houtcome, hknown, ← hlineage, ← hlineage']
  · intro keys reordered hperm
    rw [h.outcomes_eq_map hother hfits hready hnever,
      hother.outcomes_eq_map hother hfits hready hnever]
    exact hperm.map _
  · intro call object hcall hmade
    obtain ⟨-, haccounts⟩ := (h.portrayed hfits (ancestry_truthful hready)).1.called call hcall
    exact haccounts.lineage?_made hmade

end Reachable

end Session

namespace Sample

def count : Client host (Except Failure Nat) := fun parts => ⟨.ok parts, parts + 1, []⟩

def reliablePart (type : TypeTag) (parameters : List (Parameter host)) : Implementation host :=
  ⟨type, [.declare type parameters fun _ => count]⟩

def workshop : Builder host :=
  Action.finalState (Builder.addInterface vehicle convert
    (reliablePart car [.service motor none, .service lamp none]) .transient none
    (Action.finalState (Builder.add
      (reliablePart lamp [.value colour fun parts => ⟨0, parts, []⟩, .service battery none])
      .transient none
      (Action.finalState (Builder.add
        (reliablePart motor [.service battery none, .service fuse none]) .singleton none
        (Action.finalState (Builder.addInstance fuse 5 none
          (Action.finalState (Builder.add (reliablePart battery []) .singleton none
            (.withOptions {}))))))))))

theorem workshop_made : workshop.Made :=
  .addInterface (.add (.add (.addInstance (.add (.withOptions {}) ..) ..) ..) ..) ..

theorem reliable_declared (type : TypeTag) (parameters : List (Parameter host))
    (lifetime : Lifetime) (accepted : Nat) :
    (Enrolment.registration (.declared (reliablePart type parameters) lifetime none)
      accepted).Reliable := by
  refine ⟨?_, by rintro _ ⟨⟩⟩
  intro c hc code hrecipe args world _
  cases List.mem_singleton.mp hc
  cases hrecipe
  exact ⟨world, rfl⟩

theorem reliable_workshop : ∀ r ∈ workshop.container.registry.toList, r.Reliable := by
  have hfuse : ∀ accepted,
      (Enrolment.registration (H := host) (.given fuse 5 none) accepted).Reliable := by
    refine fun accepted => ⟨?_, by rintro _ ⟨⟩⟩
    intro c hc code hrecipe
    cases List.mem_singleton.mp hc
    cases hrecipe
  have hvehicle : ∀ accepted, (Enrolment.registration (.presented vehicle convert
      (reliablePart car [.service motor none, .service lamp none]) .transient none)
        accepted).Reliable := by
    refine fun accepted => ⟨(reliable_declared car _ .transient accepted).1, ?_⟩
    rintro a ⟨⟩
    exact fun payload world => ⟨payload, rfl⟩
  have hall : ∀ r ∈ workshop.registry.toList, r.Reliable :=
    Builder.forall_mem_perform (Builder.forall_mem_perform (Builder.forall_mem_perform
      (Builder.forall_mem_perform (Builder.forall_mem_perform (Builder.forall_mem_withOptions {})
        (reliable_declared battery [] .singleton)) hfuse)
          (reliable_declared motor _ .singleton)) (reliable_declared lamp _ .transient)) hvehicle
  exact fun r hr => hall r (Registry.mem_toList_freeze.mp hr)

theorem plansFit_workshop : workshop.container.PlansFit := by
  apply Container.plansFit_of_all (.freeze workshop_made.assembled)
  decide +kernel

theorem workshop_neverFails : workshop.container.NeverFails := by
  refine Container.neverFails_of_reliable plansFit_workshop ?_ ?_ reliable_workshop
  · unfold Registry.BuildsImplementations
    decide +kernel
  · intro interface
    exact Registry.distinguishes_of_single (by decide +kernel :
      ∀ r ∈ workshop.container.registry.toList, r.key.isInterface = true →
        r.delivers.id = vehicle.handle.id) (by decide +kernel)

theorem vehicle_independent_of_history : ∃ fresh later : Session host,
    fresh = workshop.session 0 (fun _ => 0) ∧
    later = fresh.run workshop.container
      [.resolve (.ofType lamp), .prewarm, .factory root, .produce 0] ∧
    fresh.Reachable workshop.container ∧ later.Reachable workshop.container ∧
    workshop.container.PlansFit ∧ workshop.container.registry.HandsOutReadyMade ∧
    workshop.container.NeverFails ∧
    (fresh.outcome workshop.container root).toOption.map Prod.fst = some vehicle.handle ∧
    later.outcome workshop.container root = fresh.outcome workshop.container root ∧
    (later.outcomes workshop.container [root, .ofType lamp]).Perm
      (fresh.outcomes workshop.container [.ofType lamp, root]) := by
  have hfresh : (workshop.session 0 fun _ => 0).Reachable workshop.container :=
    ⟨workshop, _, _, [], workshop_made, rfl, rfl⟩
  have hlater : ((workshop.session 0 fun _ => 0).run workshop.container
      [.resolve (.ofType lamp), .prewarm, .factory root, .produce 0]).Reachable
        workshop.container := ⟨workshop, _, _, _, workshop_made, rfl, rfl⟩
  have hready : workshop.container.registry.HandsOutReadyMade := by
    apply Registry.handsOutReadyMade_of_all
    decide +kernel
  obtain ⟨hsame, -, -, horders, -⟩ := hlater.results_independent_of_history hfresh plansFit_workshop
    hready workshop_neverFails
  exact ⟨_, _, rfl, rfl, hfresh, hlater, plansFit_workshop, hready, workshop_neverFails,
    by decide +kernel, hsame root, horders _ _ (.swap ..)⟩

end Sample

end Wiring
