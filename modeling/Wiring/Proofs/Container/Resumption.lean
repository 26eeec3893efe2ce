import Wiring.Proofs.Container.Singletons
import Wiring.Proofs.Factory.Steps

namespace Wiring

variable {H : Host} {registry : Registry H} {policy : ConstructorPolicy} {r : Registration H}

/-- Below a filled singleton everything is filled. -/
def Registry.Closed (registry : Registry H) (policy : ConstructorPolicy) (cells : Cells H) : Prop :=
  ∀ d ∈ registry.toList, ∀ cell, d.cell? = some cell → (cells.get? cell).isSome →
    registry.Filled policy cells d

theorem Act.closed {s t : Store H} (hr : registry.Assembled) (h : Act registry policy s t)
    (hs : registry.Closed policy s.cells) : registry.Closed policy t.cells := by
  cases h with
  | chatter hchatter => exact hchatter.cells ▸ hs
  | default => exact hs
  | work => exact hs
  | @complete d call cell object hmem _ hcell hempty hbelow _ =>
      have hkeeps := Cells.keeps_fill s.cells cell object
      intro e he other hother hfilled
      by_cases hsame : other = cell
      · subst hsame
        have hed : e = d := hr.coherent.sequence_inj e he d hmem <| by
          rw [Registration.sequence_of_cell? hother, Registration.sequence_of_cell? hcell]
        subst hed
        refine Registry.filled_of_dependsOn ?_ fun f hf => (hbelow f hf).keep hkeeps
        intro own hown
        rw [hcell, Option.some.injEq] at hown
        exact hown ▸ hfilled
      · refine (hs e he other hother ?_).keep hkeeps
        change ((s.cells.fill cell object).get? other).isSome at hfilled
        simpa [Cells.get?_fill, hsame] using hfilled

namespace Ledger

variable {c : Container H} {l m : Ledger H}

theorem Steps.cells_induction {P : Cells H → Prop} (hr : c.registry.Assembled)
    (hfits : c.PlansFit) (hl : l.Sound c)
    (hact : ∀ s t : Store H, Act c.registry c.options.constructorPolicy s t →
      P s.cells → P t.cells)
    (hP : P l.store.cells) (h : Steps c l m) : P m.store.cells := by
  have hprogress : ∀ {number : Nat} {r : Registration H} {s t : Store H},
      Relation.ReflTransGen (Progress c.registry c.options.constructorPolicy number r) s t →
        P s.cells → P t.cells := by
    intro number r s t hst hs
    induction hst with
    | refl => exact hs
    | tail _ hstep ih =>
        cases hstep with
        | act hstep => exact hact _ _ hstep ih
        | finish => exact ih
  induction h with
  | refl => exact hP
  | @tail mid last hsteps hstep ih =>
      have hmid := hl.steps hr hsteps
      cases hstep with
      | chatter hchatter => exact hchatter.cells ▸ ih
      | issue _ hcompile =>
          obtain ⟨program, -, -, rfl⟩ := Factory.of_compile_eq_ok hcompile
          exact ih
      | produce hissue hproduce =>
          obtain ⟨r, -, hends⟩ :=
            hmid.produce_ends hr hissue (hfits _ _ (hmid.compiled _ hissue).1)
          rw [hproduce] at hends
          exact hprogress hends.1 ih
      | fail hissue hproduce =>
          obtain ⟨r, -, hends⟩ :=
            hmid.produce_ends hr hissue (hfits _ _ (hmid.compiled _ hissue).1)
          rw [hproduce] at hends
          exact hprogress hends.1 ih

end Ledger

theorem Registration.not_dependsOn_of_given {d : Registration H} {object : Instance H}
    (hgiven : r.givenInstance = some object) : ¬ registry.DependsOn policy r d := by
  rintro ⟨chosen, hchosen, parameter, hparameter, -⟩
  obtain ⟨key, provision, sequence⟩ := r
  cases provision with
  | construct => cases hgiven
  | given found =>
      rw [Registration.constructors, Provision.constructors, ConstructorPolicy.choose?_singleton,
        Option.some.injEq] at hchosen
      subst hchosen
      exact absurd hparameter (List.not_mem_nil)

theorem Builder.closed_ledger {b : Builder H} (hb : b.Made) (world : H.World)
    (hash : List Datum → UInt64) :
    b.container.registry.Closed policy (b.ledger world hash).store.cells := by
  intro d hd cell hcell hfilled
  obtain ⟨object, hobject⟩ := Option.isSome_iff_exists.mp hfilled
  refine Registry.filled_of_dependsOn ?_ fun e he =>
    absurd he (Registration.not_dependsOn_of_given (hb.given_of_cell hd hcell hobject))
  intro other hother
  rw [hcell, Option.some.injEq] at hother
  exact hother ▸ hfilled

namespace Session.Reachable

variable {c : Container H} {q : Session H}

theorem keeps_run (h : q.Reachable c) (requests : List (Request H)) :
    q.store.cells.Keeps (q.run c requests).store.cells := by
  obtain ⟨l, haccounts, hsound⟩ := h.exists_ledger
  obtain ⟨m, hsteps, hmore⟩ := haccounts.run requests
  have hkeeps := hsteps.keeps h.assembled hsound
  rwa [haccounts.state.store, hmore.state.store] at hkeeps

theorem closed (h : q.Reachable c) (hfits : c.PlansFit) :
    c.registry.Closed c.options.constructorPolicy q.store.cells := by
  have hr := h.assembled
  obtain ⟨b, world, hash, l, hb, rfl, hsteps, haccounts⟩ := h.exists_steps
  have hclosed := hsteps.cells_induction hr hfits (b.ledger_sound world hash)
    (fun s t hact => hact.closed hr) (Builder.closed_ledger hb world hash)
  rwa [haccounts.state.store] at hclosed

theorem implements (h : q.Reachable c) (hfits : c.PlansFit) {key : Key} {factory : Factory H}
    (hfactory : (key, factory) ∈ q.factories) :
    ∃ (r : Registration H) (plan : Plan H) (program : Program H),
      c.registry.find? key = some r ∧ (c.registry.plan c.options key).result = .ok plan ∧
      plan.program = .ok program ∧
      factory = program.factory factory.number plan.nodes.size ∧
      program.Implements c.registry c.options.constructorPolicy plan r ∧
      q.store.Prepared c.registry c.options.constructorPolicy factory.number r := by
  obtain ⟨l, haccounts, hsound⟩ := h.exists_ledger
  obtain ⟨issue, hissue, hkey, rfl⟩ := haccounts.factories _ hfactory
  have hplan := Registry.plan_congr hkey (hsound.compiled issue hissue).1
  obtain ⟨r, program, hroot, -, hprogram, hmade, hprepared⟩ :=
    h.factory_spec hfactory hplan (hfits _ _ hplan)
  obtain ⟨d, other, hd, hother, himplements⟩ :=
    c.registry.implements_of_plan h.assembled hplan (hfits _ _ hplan)
  rw [hroot, Option.some.injEq] at hd
  rw [hprogram, Except.ok.injEq] at hother
  subst hd hother
  exact ⟨r, issue.plan, program, hroot, hplan, hprogram, hmade, himplements, hprepared⟩

/-- In every session a call that fails can be repeated. It has filled exactly the empty cells of the
steps before the one that failed, or of all steps if the entry failed, and only then does the factory
count as initialized; the next call carries out the steps whose cells are still empty and no others.
Whatever has failed, everything below a filled singleton is filled; and once the root is filled, no
factory for it makes any call. -/
theorem failed_call_resumable (h : q.Reachable c) (hfits : c.PlansFit) :
    (∀ key factory, (key, factory) ∈ q.factories →
      (∃ plan program, (c.registry.plan c.options key).result = .ok plan ∧
        plan.program = .ok program ∧ program.SlotBySlot ∧
        factory = program.factory factory.number plan.nodes.size) ∧
      (∀ e t, factory.produce q.store = .error e t → factory.Fails q.store e t) ∧
      (factory.isInitialized q.store = false →
        factory.prepare q.store = factory.resume q.store)) ∧
    (∀ r ∈ c.registry.toList, ∀ cell, r.cell? = some cell → (q.store.cells.get? cell).isSome →
      c.registry.Filled c.options.constructorPolicy q.store.cells r) ∧
    ∀ key r cell object, c.registry.find? key = some r → r.cell? = some cell →
      q.store.cells.get? cell = some object →
        ∀ more factory, (key, factory) ∈ (q.run c more).factories →
          ∃ t, factory.produce (q.run c more).store = .ok object t ∧
            t.cells = (q.run c more).store.cells ∧ t.journal = (q.run c more).store.journal := by
  refine ⟨?_, h.closed hfits, ?_⟩
  · intro key factory hfactory
    obtain ⟨r, plan, program, -, hplan, hprogram, hmade, himplements, hprepared⟩ :=
      h.implements hfits hfactory
    refine ⟨⟨plan, program, hplan, hprogram, himplements.slotBySlot, hmade⟩, ?_, ?_⟩
    · intro e t herror
      rw [hmade] at herror ⊢
      exact himplements.produce_fails hprepared herror
    · intro hnew
      rw [hmade] at hnew ⊢
      exact himplements.prepare_eq_resume hnew
  · intro key r cell object hroot hcell hobject more factory hfactory
    have hlater := h.run more
    have hstays := h.keeps_run more cell object hobject
    have hfilled := hlater.closed hfits r (Registry.Coherent.mem_of_find? hroot) cell hcell
      (by rw [hstays]; rfl)
    obtain ⟨d, plan, program, hd, hplan, hprogram, hmade, himplements, hprepared⟩ :=
      hlater.implements hfits hfactory
    rw [hroot, Option.some.injEq] at hd
    subst hd
    obtain ⟨hproduce, -⟩ := Registry.produce_simulated h.assembled hplan (hfits _ _ hplan)
      hprogram hroot factory.number plan.nodes.size hprepared
    rw [hmade, hproduce]
    exact Registry.produce_of_filled (himplements.buildable r .refl) hcell hstays hfilled

end Session.Reachable

namespace Sample

def stalled : Session host :=
  (builder.session 1 fun _ => 0).run container
    [.resolve (.ofType battery), .remember fun _ => 0, .factory root]

/-- The call for the vehicle fails in the step of the motor, the only one that is pending. -/
theorem motor_resumable : stalled.Reachable container ∧ container.PlansFit ∧
    ∃ key factory e t, (key, factory) ∈ stalled.factories ∧
      factory.produce stalled.store = .error e t ∧ factory.Fails stalled.store e t ∧
      (factory.pending stalled.store).length = 1 ∧
      factory.prepare stalled.store = factory.resume stalled.store := by
  have hstalled : stalled.Reachable container := ⟨builder, _, _, _, made, rfl, rfl⟩
  obtain ⟨hcalls, -, -⟩ := hstalled.failed_call_resumable plansFit
  have hany : (stalled.factories.any fun entry =>
      (match entry.2.produce stalled.store with
        | .ok _ _ => false
        | .error _ _ => true) &&
      decide ((entry.2.pending stalled.store).length = 1) &&
      !entry.2.isInitialized stalled.store) = true := by decide +kernel
  obtain ⟨⟨key, factory⟩, hfactory, hfacts⟩ := List.any_eq_true.mp hany
  simp only [Bool.and_eq_true, decide_eq_true_eq, Bool.not_eq_true'] at hfacts
  obtain ⟨⟨hfailed, hpending⟩, hnew⟩ := hfacts
  obtain ⟨-, hfails, hresume⟩ := hcalls key factory hfactory
  cases herror : factory.produce stalled.store with
  | ok object t =>
      rw [herror] at hfailed
      cases hfailed
  | error e t =>
      exact ⟨hstalled, plansFit, key, factory, e, t, hfactory, herror, hfails e t herror, hpending,
        hresume hnew⟩

end Sample

end Wiring
