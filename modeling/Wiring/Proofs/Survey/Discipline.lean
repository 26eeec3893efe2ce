import Wiring.Proofs.Survey.Failures
import Wiring.Proofs.Survey.Walk

namespace Wiring

variable {H : Host}

/-- The constructor is the one that the policy chooses, and what remains to be planned are
parameters of it. -/
structure Frame.Proper (policy : ConstructorPolicy) (f : Frame H) : Prop where
  chosen : policy.choose? f.registration.constructors = some f.chosen
  remaining : ∀ parameter ∈ f.remaining, parameter ∈ f.chosen.parameters

namespace Task

def entered? : Task H → Option (Registration H)
  | .select r => some r
  | .supply f => some f.registration
  | .leave r _ => some r
  | _ => none

end Task

namespace Walk

/-- The registrations that have been entered and not been left, outermost first. -/
def entered (w : Walk H) : List (Registration H) :=
  (w.waiting.map Frame.registration).reverse ++ w.task.entered?.toList

/-- The walk is inside of a chain of services from the root, and keeps to the depth limit. What it
visits, the chain depends on. -/
structure Disciplined (registry : Registry H) (options : Options) (root : Key) (w : Walk H) :
    Prop where
  path : w.survey.path = (w.entered.map Registration.key).reverse
  chain : w.entered ≠ [] → registry.Chain options.constructorPolicy root w.entered
  length_le : w.entered.length ≤ options.maxDepth.toNat
  waiting : ∀ f ∈ w.waiting, f.Proper options.constructorPolicy
  supplied : ∀ f, w.task = .supply f → f.Proper options.constructorPolicy
  visited : ∀ d, w.task = .visit d → (w.entered ++ [d]).head? = registry.find? root ∧
    (w.entered ++ [d]).IsChain (registry.DependsOn options.constructorPolicy)
  uncrashed : w.task ≠ .crashed

namespace Disciplined

variable {registry : Registry H} {options : Options} {root : Key} {r d : Registration H}
  {task next : Task H} {waiting : List (Frame H)} {s t : Survey H} {w : Walk H}

theorem start (hroot : registry.find? root = some r) :
    (Walk.start r).Disciplined registry options root where
  path := rfl
  chain := fun h => absurd rfl h
  length_le := Nat.zero_le _
  waiting := List.forall_mem_nil _
  supplied := by rintro f ⟨⟩
  visited := by
    rintro d ⟨⟩
    exact ⟨hroot.symm, List.isChain_singleton r⟩
  uncrashed := by rintro ⟨⟩

theorem stay (h : Disciplined registry options root ⟨task, waiting, s⟩)
    (hentered : next.entered? = task.entered?) (hpath : t.path = s.path)
    (hsupplied : ∀ f, next = .supply f → f.Proper options.constructorPolicy)
    (hvisited : ∀ d, next ≠ .visit d) (huncrashed : next ≠ .crashed) :
    Disciplined registry options root ⟨next, waiting, t⟩ := by
  have hsame : entered ⟨next, waiting, t⟩ = entered ⟨task, waiting, s⟩ := by
    simp only [entered, hentered]
  refine ⟨?_, ?_, ?_, h.waiting, hsupplied, fun d hd => absurd hd (hvisited d), huncrashed⟩
  · rw [hsame]
    exact hpath.trans h.path
  · rw [hsame]
    exact h.chain
  · rw [hsame]
    exact h.length_le

theorem answer (h : Disciplined registry options root ⟨.visit r, waiting, s⟩)
    (result : Except Failure NodeId) :
    Disciplined registry options root ⟨.answer result, waiting, s⟩ :=
  h.stay rfl rfl (by rintro f ⟨⟩) (by rintro d ⟨⟩) (by rintro ⟨⟩)

theorem finish (h : Disciplined registry options root ⟨task, waiting, s⟩)
    (hentered : some r = task.entered?) (hpath : t.path = s.path)
    (result : Except Failure NodeId) :
    Disciplined registry options root ⟨.leave r result, waiting, t⟩ :=
  h.stay hentered hpath (by rintro f ⟨⟩) (by rintro d ⟨⟩) (by rintro ⟨⟩)

theorem approaches (h : Disciplined registry options root ⟨.visit r, waiting, s⟩) :
    Planner.Approaches registry options root (entered ⟨.visit r, waiting, s⟩) r
      (options.maxDepth.toNat - (entered ⟨.visit r, waiting, s⟩).length) s where
  path := h.path
  starts := (h.visited r rfl).1
  linked := (h.visited r rfl).2
  apart := by
    by_cases hnone : entered ⟨.visit r, waiting, s⟩ = []
    · rw [hnone]
      exact .nil
    · exact (h.chain hnone).apart
  budget := Nat.add_sub_cancel' h.length_le

theorem enter (h : Disciplined registry options root ⟨.visit r, waiting, s⟩)
    (hinside : s.isInside r.key = false) (hdeep : ¬ options.maxDepth.toNat ≤ s.path.length) :
    Disciplined registry options root ⟨.select r, waiting, s.descend r.key⟩ := by
  have hentered : entered ⟨.select r, waiting, s.descend r.key⟩ =
      entered ⟨.visit r, waiting, s⟩ ++ [r] := by
    simp [entered, Task.entered?]
  have hlength : s.path.length = (entered ⟨.visit r, waiting, s⟩).length := by
    have hpath : s.path = _ := h.path
    rw [hpath, List.length_reverse, List.length_map]
  refine ⟨?_, ?_, ?_, h.waiting, by rintro f ⟨⟩, by rintro d ⟨⟩, by rintro ⟨⟩⟩
  · have hpath : s.path = _ := h.path
    rw [hentered]
    change r.key :: s.path = _
    rw [hpath]
    simp
  · rw [hentered]
    exact fun _ => h.approaches.extend hinside
  · rw [hentered, List.length_append, List.length_singleton]
    omega

theorem visit {chosen : Constructor H} {args : List NodeId} {parameter : Parameter H}
    {rest : List (Parameter H)}
    (h : Disciplined registry options root
      ⟨.supply ⟨r, chosen, args, parameter :: rest⟩, waiting, s⟩)
    (hfind : registry.find? parameter.key = some d) :
    Disciplined registry options root ⟨.visit d, ⟨r, chosen, args, rest⟩ :: waiting, s⟩ := by
  have hentered : entered ⟨.visit d, ⟨r, chosen, args, rest⟩ :: waiting, s⟩ =
      entered ⟨.supply ⟨r, chosen, args, parameter :: rest⟩, waiting, s⟩ := by
    simp [entered, Task.entered?]
  obtain ⟨hchosen, hremaining⟩ := h.supplied _ rfl
  have hinner : entered ⟨.supply ⟨r, chosen, args, parameter :: rest⟩, waiting, s⟩ =
      (waiting.map Frame.registration).reverse ++ [r] := rfl
  have hchain := h.chain (by simp [hinner])
  refine ⟨?_, ?_, ?_, ?_, by rintro f ⟨⟩, ?_, by rintro ⟨⟩⟩
  · rw [hentered]
    exact h.path
  · rw [hentered]
    exact h.chain
  · rw [hentered]
    exact h.length_le
  · refine List.forall_mem_cons.mpr ⟨⟨hchosen, fun other hother => ?_⟩, h.waiting⟩
    exact hremaining other (List.mem_cons_of_mem _ hother)
  · rintro _ ⟨⟩
    have hd : registry.DependsOn options.constructorPolicy r d :=
      ⟨chosen, hchosen, parameter, hremaining parameter (by simp), hfind⟩
    rw [hentered]
    constructor
    · rw [← hchain.starts, hinner]
      simp
    · refine hchain.linked.append (List.isChain_singleton d) ?_
      rw [hinner]
      simpa using hd

theorem leave {result : Except Failure NodeId}
    (h : Disciplined registry options root ⟨.leave r result, waiting, s⟩) :
    ∃ outer, s.path = r.key :: outer ∧
      Disciplined registry options root ⟨.answer result, waiting, left s r result⟩ := by
  let outer := (waiting.map Frame.registration).reverse
  have hentered : entered ⟨.leave r result, waiting, s⟩ = outer ++ [r] := rfl
  have houter : entered ⟨.answer result, waiting, left s r result⟩ = outer := List.append_nil _
  have hpath : s.path = r.key :: (outer.map Registration.key).reverse := by
    have hpath : s.path = _ := h.path
    rw [hpath, hentered]
    simp
  have hchain := h.chain (by simp [hentered])
  rw [hentered] at hchain
  refine ⟨_, hpath, ?_, ?_, ?_, h.waiting, by rintro f ⟨⟩, by rintro d ⟨⟩, by rintro ⟨⟩⟩
  · rw [houter]
    change (left s r result).path = _
    rw [left_path, hpath]
    rfl
  · rw [houter]
    intro hsome
    refine ⟨?_, hchain.linked.left_of_append, hchain.apart.sublist (List.sublist_append_left _ _)⟩
    rw [← hchain.starts, List.head?_append_of_ne_nil _ hsome]
  · have hlength : (outer ++ [r]).length ≤ _ := hentered ▸ h.length_le
    rw [houter]
    rw [List.length_append] at hlength
    omega

theorem resume {f : Frame H} {result : Except Failure NodeId}
    (h : Disciplined registry options root ⟨.answer result, f :: waiting, s⟩)
    (hentered : next.entered? = some f.registration)
    (hsupplied : ∀ g, next = .supply g → g.Proper options.constructorPolicy)
    (huncrashed : next ≠ .crashed) : Disciplined registry options root ⟨next, waiting, s⟩ := by
  have hsame : entered ⟨next, waiting, s⟩ = entered ⟨.answer result, f :: waiting, s⟩ := by
    simp only [entered, hentered]
    simp [Task.entered?]
  refine ⟨?_, ?_, ?_, (List.forall_mem_cons.mp h.waiting).2, hsupplied, ?_, huncrashed⟩
  · rw [hsame]
    exact h.path
  · rw [hsame]
    exact h.chain
  · rw [hsame]
    exact h.length_le
  · rintro d rfl
    cases hentered

/-- Whatever is done next keeps discipline. -/
theorem step (h : w.Disciplined registry options root) :
    (w.step registry options).Disciplined registry options root := by
  obtain ⟨task, waiting, s⟩ := w
  cases task with
  | visit r =>
      cases hknown : s.known? r with
      | some id =>
          rw [step_known hknown]
          exact h.answer (.ok id)
      | none =>
          cases hinside : s.isInside r.key with
          | true =>
              rw [step_circular hknown hinside]
              exact h.answer _
          | false =>
              by_cases hdeep : options.maxDepth.toNat ≤ s.path.length
              · rw [step_deep hknown hinside hdeep]
                exact h.answer _
              · rw [step_enter hknown hinside hdeep]
                exact h.enter hinside hdeep
  | select r =>
      cases hchosen : options.constructorPolicy.choose? r.constructors with
      | none =>
          rw [step_unchosen hchosen]
          exact h.finish rfl rfl _
      | some chosen =>
          rw [step_chosen hchosen]
          refine h.stay rfl rfl ?_ (by rintro d ⟨⟩) (by rintro ⟨⟩)
          rintro _ ⟨⟩
          exact ⟨hchosen, fun _ hparameter => hparameter⟩
  | supply f =>
      obtain ⟨r, chosen, args, remaining⟩ := f
      obtain ⟨hchosen, hremaining⟩ := h.supplied _ rfl
      cases remaining with
      | nil =>
          rw [step_supplied]
          exact h.finish rfl (Survey.append_path ..) _
      | cons parameter rest =>
          cases hfind : registry.find? parameter.key with
          | some d =>
              rw [step_registered hfind]
              exact h.visit hfind
          | none =>
              cases hpolicy : options.missingDependency with
              | refuse =>
                  rw [step_refused hfind hpolicy]
                  exact h.finish rfl rfl _
              | substitute =>
                  rw [step_defaulted hfind hpolicy]
                  refine h.stay rfl (Survey.append_path ..) ?_ (by rintro d ⟨⟩) (by rintro ⟨⟩)
                  rintro _ ⟨⟩
                  exact ⟨hchosen, fun other hother =>
                    hremaining other (List.mem_cons_of_mem _ hother)⟩
  | leave r result =>
      obtain ⟨outer, hpath, hleft⟩ := h.leave
      rw [step_leave hpath]
      exact hleft
  | answer result =>
      cases waiting with
      | nil => exact h
      | cons f below =>
          obtain ⟨hchosen, hremaining⟩ := h.waiting f (by simp)
          cases result with
          | ok id =>
              refine h.resume rfl ?_ (by rintro ⟨⟩)
              rintro _ ⟨⟩
              exact ⟨hchosen, hremaining⟩
          | error e => exact h.resume rfl (by rintro g ⟨⟩) (by rintro ⟨⟩)
  | crashed => exact absurd rfl h.uncrashed

theorem iterate (h : w.Disciplined registry options root) (n : Nat) :
    ((Walk.step registry options)^[n] w).Disciplined registry options root := by
  induction n with
  | zero => exact h
  | succ n ih =>
      rw [Function.iterate_succ_apply']
      exact ih.step

end Disciplined

end Walk

namespace Registry

variable {registry : Registry H} {options : Options} {root : Key}

theorem Chain.mem_toList {policy : ConstructorPolicy} {chain : List (Registration H)}
    (h : registry.Chain policy root chain) : ∀ r ∈ chain, r ∈ registry.toList := by
  intro r hr
  obtain ⟨top, htop, hreaches⟩ := h.reachedFrom r hr
  exact hreaches.mem_toList (Coherent.mem_of_find? htop)

theorem Chain.length_le {policy : ConstructorPolicy} {chain : List (Registration H)}
    (h : registry.Chain policy root chain) : chain.length ≤ registry.size := by
  refine length_le_size (h.apart.imp fun hapart heq => ?_) h.mem_toList
  rw [heq, BEq.rfl] at hapart
  cases hapart

/-- Planning walks the registry, and its walk is disciplined. A root that is not registered is
refused at once. From a registered one the walk comes to an end, with everyone answered, no service
entered that has not been left, and the result and the arena that planning returns. At every moment
until then it is inside of the services of a chain of dependencies from the root: registrations
under different keys, no more than the limit allows and no more than there are; and no service has
been left that was not the innermost one. Every visit is answered before anything that waits below
it goes on, and the path is then what it was, whether the answer is a node or a failure. -/
theorem walk_disciplined (registry : Registry H) (options : Options) (root : Key) :
    (registry.find? root = none →
      (registry.plan options root).result = .error (.notFound root.displayName)) ∧
    ∀ r, registry.find? root = some r →
      let moment (n : Nat) : Walk H := (Walk.step registry options)^[n] (Walk.start r)
      (∃ n result t, moment n = ⟨.answer result, [], t⟩ ∧ t.path = [] ∧
        (∀ e, result = .error e → (registry.plan options root).result = .error e) ∧
        ∀ id, result = .ok id → ∃ plan, (registry.plan options root).result = .ok plan ∧
          plan.root = id ∧ plan.nodes = t.nodes ∧ plan.slots = t.slots) ∧
      (∀ n, (moment n).task ≠ .crashed ∧
        ∃ chain, (moment n).survey.path = (chain.map Registration.key).reverse ∧
          (chain ≠ [] → registry.Chain options.constructorPolicy root chain) ∧
          (∀ a ∈ chain, a ∈ registry.toList) ∧
          chain.length ≤ min options.maxDepth.toNat registry.size) ∧
      ∀ n d waiting s, moment n = ⟨.visit d, waiting, s⟩ →
        ∃ m result t, moment (n + m) = ⟨.answer result, waiting, t⟩ ∧ t.path = s.path ∧
          ∀ k ≤ m, waiting <:+ (moment (n + k)).waiting := by
  refine ⟨plan_of_find?_eq_none, ?_⟩
  intro r hroot moment
  have hdisciplined (n : Nat) : (moment n).Disciplined registry options root :=
    (Walk.Disciplined.start hroot).iterate n
  have hlength (n : Nat) : (moment n).survey.path.length = (moment n).entered.length := by
    rw [(hdisciplined n).path, List.length_reverse, List.length_map]
  refine ⟨?_, ?_, ?_⟩
  · obtain ⟨result, t, hplanned, ht, hruns⟩ := Walk.visit_answers registry options
      options.maxDepth.toNat r [] Survey.start (Nat.zero_add _)
    obtain ⟨n, hn, -⟩ := hruns.exists_iterate
    refine ⟨n, result, t, hn, ht, ?_, ?_⟩
    · rintro e rfl
      exact (plan_eq_error_iff hroot).mpr ⟨t, hplanned⟩
    · rintro id rfl
      obtain ⟨plan, hplan⟩ := exists_plan_of_planRegistration hroot hplanned
      obtain ⟨other, u, hother, hindex, rfl⟩ := (plan_eq_ok_iff hroot).mp hplan
      cases hplanned.symm.trans hother
      exact ⟨_, hplan, rfl, rfl, rfl⟩
  · intro n
    have h := hdisciplined n
    refine ⟨h.uncrashed, (moment n).entered, h.path, h.chain, ?_, le_min h.length_le ?_⟩
    · intro a ha
      exact (h.chain (List.ne_nil_of_mem ha)).mem_toList a ha
    · by_cases hnone : (moment n).entered = []
      · simp [hnone]
      · exact (h.chain hnone).length_le
  · intro n d waiting s hn
    have hdepth := (hdisciplined n).length_le
    rw [← hlength n, hn] at hdepth
    obtain ⟨result, t, -, ht, hruns⟩ := Walk.visit_answers registry options _ d waiting s
      (Nat.add_sub_cancel' hdepth)
    obtain ⟨m, hm, hwaiting⟩ := hruns.exists_iterate
    have hlater (k : Nat) : moment (n + k) =
        (Walk.step registry options)^[k] ⟨.visit d, waiting, s⟩ := by
      rw [← hn, Nat.add_comm]
      exact Function.iterate_add_apply ..
    refine ⟨m, result, t, (hlater m).trans hm, ht, fun k hk => ?_⟩
    rw [hlater k]
    exact hwaiting k hk

end Registry

namespace Sample

/-- Without any limit to speak of, the walk through the registry with a circle ends with the circle,
and is never inside of more services than are registered. -/
theorem tangled_walk_disciplined :
    ∃ r, tangled.find? (.ofType car) = some r ∧
      let options : Options := { maxDepth := 0xFFFFFFFFFFFFFFFF }
      let moment (n : Nat) : Walk host := (Walk.step tangled options)^[n] (Walk.start r)
      (∃ n t, moment n =
          ⟨.answer (.error (.circular ["Car", "Motor", "Lamp", "Motor"])), [], t⟩ ∧ t.path = []) ∧
        ∀ n, (moment n).survey.path.length ≤ 4 := by
  let options : Options := { maxDepth := 0xFFFFFFFFFFFFFFFF }
  obtain ⟨-, hwalk⟩ := Registry.walk_disciplined tangled options (.ofType car)
  have hroot : (tangled.find? (.ofType car)).isSome = true := by decide +kernel
  obtain ⟨r, hr⟩ := Option.isSome_iff_exists.mp hroot
  obtain ⟨⟨n, result, t, hn, ht, herror, hok⟩, hmoments, -⟩ := hwalk r hr
  refine ⟨r, hr, ⟨n, t, ?_, ht⟩, fun n => ?_⟩
  · have hcircular : (tangled.plan options (.ofType car)).result =
        .error (.circular ["Car", "Motor", "Lamp", "Motor"]) :=
      eq_error_of_map (f := fun _ => ()) (by decide +kernel)
    cases result with
    | ok id =>
        obtain ⟨plan, hplan, -⟩ := hok id rfl
        rw [hcircular] at hplan
        cases hplan
    | error e =>
        rw [herror e rfl, Except.error.injEq] at hcircular
        exact hcircular ▸ hn
  · obtain ⟨-, chain, hpath, -, -, hlength⟩ := hmoments n
    have hsize : tangled.size = 4 := by decide +kernel
    rw [hpath, List.length_reverse, List.length_map]
    omega

end Sample

end Wiring
