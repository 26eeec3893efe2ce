import Wiring.Proofs.Registry.Coherence
import Wiring.Proofs.Survey.Derivation
import Mathlib.Data.List.Infix
import Mathlib.Logic.Function.Iterate

/-!
The survey step by step. A walk visits a registration, enters it, plans the parameters of its chosen
constructor one after the other, and leaves it with a node or a failure; whatever waits for the
answer is kept on a stack of its own. Entering compares the path with the depth limit, and leaving
insists that the innermost service of the path is the one that is left. Every walk comes to an end,
with the answer and the survey that planning has.
-/

namespace Wiring

variable {H : Host}

/-- A registration in the middle of being planned. -/
structure Frame (H : Host) where
  registration : Registration H
  chosen : Constructor H
  args : List NodeId
  remaining : List (Parameter H)

inductive Task (H : Host) where
  | visit (r : Registration H)
  | select (r : Registration H)
  | supply (f : Frame H)
  | leave (r : Registration H) (result : Except Failure NodeId)
  | answer (result : Except Failure NodeId)
  /-- A service was left that was not the innermost one. -/
  | crashed

structure Walk (H : Host) where
  task : Task H
  /-- Those that wait for an answer, innermost first. -/
  waiting : List (Frame H)
  survey : Survey H

namespace Walk

def start (r : Registration H) : Walk H :=
  ⟨.visit r, [], .start⟩

/-- Does what is to be done next. A walk that has answered everyone stays as it is, as does one that
has crashed. -/
def step (registry : Registry H) (options : Options) (w : Walk H) : Walk H :=
  match w.task with
  | .visit r =>
    match w.survey.known? r with
    | some id => { w with task := .answer (.ok id) }
    | none =>
      if w.survey.isInside r.key then
        { w with task := .answer (.error (.circular (w.survey.pathTo r.key))) }
      else if options.maxDepth.toNat ≤ w.survey.path.length then
        { w with task := .answer (.error (.depthExceeded w.survey.path.length)) }
      else ⟨.select r, w.waiting, w.survey.descend r.key⟩
  | .select r =>
    match options.constructorPolicy.choose? r.constructors with
    | none => { w with task := .leave r (.error (.noConstructor r.implementation.name)) }
    | some chosen => { w with task := .supply ⟨r, chosen, [], chosen.parameters⟩ }
  | .supply f =>
    match f.remaining with
    | [] =>
      let (id, s) := w.survey.append (.constructed f.registration f.chosen) f.args
        f.registration.lifetime
      ⟨.leave f.registration (.ok id), w.waiting, s⟩
    | parameter :: rest =>
      match registry.find? parameter.key with
      | some d => ⟨.visit d, { f with remaining := rest } :: w.waiting, w.survey⟩
      | none =>
        match options.missingDependency with
        | .refuse =>
          { w with task := .leave f.registration (.error
              (.missingDependency f.registration.key.displayName parameter.key.displayName)) }
        | .substitute =>
          let (id, s) := (Planner.noteDefault w.survey f.registration parameter).append
            (.defaulted parameter) [] .transient
          ⟨.supply { f with args := f.args ++ [id], remaining := rest }, w.waiting, s⟩
  | .leave r result =>
    match w.survey.path with
    | [] => { w with task := .crashed }
    | innermost :: _ =>
      if innermost == r.key then
        match result with
        | .ok id => ⟨.answer (.ok id), w.waiting, w.survey.ascend.remember r id⟩
        | .error e => ⟨.answer (.error e), w.waiting, w.survey.ascend⟩
      else { w with task := .crashed }
  | .answer result =>
    match w.waiting, result with
    | [], _ => w
    | f :: below, .ok id => ⟨.supply { f with args := f.args ++ [id] }, below, w.survey⟩
    | f :: below, .error e => ⟨.leave f.registration (.error e), below, w.survey⟩
  | .crashed => w

section Equations

variable {registry : Registry H} {options : Options} {r d : Registration H}
  {chosen : Constructor H} {args : List NodeId} {parameter : Parameter H}
  {rest : List (Parameter H)} {waiting : List (Frame H)} {s : Survey H}

theorem step_known {id : NodeId} (hknown : s.known? r = some id) :
    step registry options ⟨.visit r, waiting, s⟩ = ⟨.answer (.ok id), waiting, s⟩ := by
  simp only [step, hknown]

theorem step_circular (hknown : s.known? r = none) (hinside : s.isInside r.key = true) :
    step registry options ⟨.visit r, waiting, s⟩ =
      ⟨.answer (.error (.circular (s.pathTo r.key))), waiting, s⟩ := by
  simp only [step, hknown, hinside, if_true]

theorem step_deep (hknown : s.known? r = none) (hinside : s.isInside r.key = false)
    (hdeep : options.maxDepth.toNat ≤ s.path.length) :
    step registry options ⟨.visit r, waiting, s⟩ =
      ⟨.answer (.error (.depthExceeded s.path.length)), waiting, s⟩ := by
  simp only [step, hknown, hinside, Bool.false_eq_true, if_false, if_pos hdeep]

theorem step_enter (hknown : s.known? r = none) (hinside : s.isInside r.key = false)
    (hdeep : ¬ options.maxDepth.toNat ≤ s.path.length) :
    step registry options ⟨.visit r, waiting, s⟩ = ⟨.select r, waiting, s.descend r.key⟩ := by
  simp only [step, hknown, hinside, Bool.false_eq_true, if_false, if_neg hdeep]

theorem step_unchosen (hchosen : options.constructorPolicy.choose? r.constructors = none) :
    step registry options ⟨.select r, waiting, s⟩ =
      ⟨.leave r (.error (.noConstructor r.implementation.name)), waiting, s⟩ := by
  simp only [step, hchosen]

theorem step_chosen (hchosen : options.constructorPolicy.choose? r.constructors = some chosen) :
    step registry options ⟨.select r, waiting, s⟩ =
      ⟨.supply ⟨r, chosen, [], chosen.parameters⟩, waiting, s⟩ := by
  simp only [step, hchosen]

theorem step_supplied : step registry options ⟨.supply ⟨r, chosen, args, []⟩, waiting, s⟩ =
    ⟨.leave r (.ok (s.append (.constructed r chosen) args r.lifetime).1), waiting,
      (s.append (.constructed r chosen) args r.lifetime).2⟩ :=
  rfl

theorem step_registered (hfind : registry.find? parameter.key = some d) :
    step registry options ⟨.supply ⟨r, chosen, args, parameter :: rest⟩, waiting, s⟩ =
      ⟨.visit d, ⟨r, chosen, args, rest⟩ :: waiting, s⟩ := by
  simp only [step, hfind]

theorem step_refused (hfind : registry.find? parameter.key = none)
    (hpolicy : options.missingDependency = .refuse) :
    step registry options ⟨.supply ⟨r, chosen, args, parameter :: rest⟩, waiting, s⟩ =
      ⟨.leave r (.error (.missingDependency r.key.displayName parameter.key.displayName)),
        waiting, s⟩ := by
  simp only [step, hfind, hpolicy]

theorem step_defaulted (hfind : registry.find? parameter.key = none)
    (hpolicy : options.missingDependency = .substitute) :
    step registry options ⟨.supply ⟨r, chosen, args, parameter :: rest⟩, waiting, s⟩ =
      ⟨.supply ⟨r, chosen, args ++ [((Planner.noteDefault s r parameter).append
          (.defaulted parameter) [] .transient).1], rest⟩, waiting,
        ((Planner.noteDefault s r parameter).append (.defaulted parameter) [] .transient).2⟩ := by
  simp only [step, hfind, hpolicy]

def left (s : Survey H) (r : Registration H) : Except Failure NodeId → Survey H
  | .ok id => s.ascend.remember r id
  | .error _ => s.ascend

theorem left_path (s : Survey H) (r : Registration H) (result : Except Failure NodeId) :
    (left s r result).path = s.path.tail := by
  cases result with
  | ok id => exact Survey.remember_path ..
  | error e => rfl

theorem step_leave {outer : List Key} (hpath : s.path = r.key :: outer)
    (result : Except Failure NodeId) :
    step registry options ⟨.leave r result, waiting, s⟩ =
      ⟨.answer result, waiting, left s r result⟩ := by
  have hinnermost : (r.key == r.key) = true := BEq.rfl
  cases result <;> simp only [step, hpath, hinnermost, if_true] <;> rfl

end Equations

/-- The first walk comes to the second, and what waits below is not told anything until then. -/
inductive Runs (registry : Registry H) (options : Options) (below : List (Frame H)) :
    Walk H → Walk H → Prop
  | refl {w : Walk H} (hw : below <:+ w.waiting) : Runs registry options below w w
  | head {w v : Walk H} (hw : below <:+ w.waiting)
      (hrest : Runs registry options below (w.step registry options) v) :
      Runs registry options below w v

namespace Runs

variable {registry : Registry H} {options : Options} {below more : List (Frame H)}
  {u v w : Walk H}

theorem trans (huv : Runs registry options below u v) (hvw : Runs registry options below v w) :
    Runs registry options below u w := by
  induction huv with
  | refl => exact hvw
  | head hu _ ih => exact .head hu (ih hvw)

theorem mono (h : Runs registry options more v w) (hbelow : below <:+ more) :
    Runs registry options below v w := by
  induction h with
  | refl hw => exact .refl (hbelow.trans hw)
  | head hw _ ih => exact .head (hbelow.trans hw) ih

theorem waiting (h : Runs registry options below v w) : below <:+ w.waiting := by
  induction h with
  | refl hw => exact hw
  | head _ _ ih => exact ih

theorem exists_iterate (h : Runs registry options below v w) :
    ∃ n, (step registry options)^[n] v = w ∧
      ∀ k ≤ n, below <:+ ((step registry options)^[k] v).waiting := by
  induction h with
  | refl hw =>
      refine ⟨0, rfl, fun k hk => ?_⟩
      rw [Nat.le_zero.mp hk]
      exact hw
  | @head v w hw _ ih =>
      obtain ⟨n, hn, hwaiting⟩ := ih
      refine ⟨n + 1, hn, fun k hk => ?_⟩
      cases k with
      | zero => exact hw
      | succ k => exact hwaiting k (Nat.le_of_succ_le_succ hk)

end Runs

end Walk

namespace Planner

variable {registry : Registry H} {options : Options} {r : Registration H} {chosen : Constructor H}

def planRest (registry : Registry H) (options : Options)
    (plan : Registration H → Planner H NodeId) (r : Registration H) (chosen : Constructor H)
    (args : List NodeId) (remaining : List (Parameter H)) : Planner H NodeId := do
  let others ← remaining.mapM (planParameter registry options plan r)
  append (.constructed r chosen) (args ++ others) r.lifetime

variable {plan : Registration H → Planner H NodeId}

theorem planParts_eq_planRest (hchosen : options.constructorPolicy.choose? r.constructors =
    some chosen) :
    planParts registry options plan r =
      planRest registry options plan r chosen [] chosen.parameters := by
  unfold planParts planRest
  rw [hchosen]
  rfl

theorem planRest_nil (args : List NodeId) (s : Survey H) :
    planRest registry options plan r chosen args [] s =
      .ok (s.append (.constructed r chosen) args r.lifetime).1
        (s.append (.constructed r chosen) args r.lifetime).2 := by
  have h : planRest registry options plan r chosen args [] =
      append (.constructed r chosen) args r.lifetime := by
    simp [planRest]
  rw [h]
  rfl

theorem planRest_cons (args : List NodeId) (parameter : Parameter H) (rest : List (Parameter H)) :
    planRest registry options plan r chosen args (parameter :: rest) =
      planParameter registry options plan r parameter >>= fun id =>
        planRest registry options plan r chosen (args ++ [id]) rest := by
  simp [planRest]

end Planner

namespace Walk

variable {registry : Registry H} {options : Options} {r : Registration H} {s : Survey H}

/-- The walk comes to the same as planning: it goes on as `after` tells with the same result, and is
inside of the same services again. -/
def Answers (registry : Registry H) (options : Options) (w : Walk H)
    (planned : EStateM.Result Failure (Survey H) NodeId)
    (after : Except Failure NodeId → Task H) : Prop :=
  ∃ result t, planned = Action.answer result t ∧ t.path = w.survey.path ∧
    Runs registry options w.waiting w ⟨after result, w.waiting, t⟩

namespace Answers

variable {task next : Task H} {waiting : List (Frame H)} {t : Survey H}
  {planned : EStateM.Result Failure (Survey H) NodeId} {after : Except Failure NodeId → Task H}

theorem now {result : Except Failure NodeId}
    (hstep : step registry options ⟨task, waiting, s⟩ = ⟨after result, waiting, t⟩)
    (hpath : t.path = s.path) (hplanned : planned = Action.answer result t) :
    Answers registry options ⟨task, waiting, s⟩ planned after := by
  refine ⟨result, t, hplanned, hpath, .head List.suffix_rfl ?_⟩
  rw [hstep]
  exact .refl List.suffix_rfl

theorem later (hstep : step registry options ⟨task, waiting, s⟩ = ⟨next, waiting, t⟩)
    (hpath : t.path = s.path) (h : Answers registry options ⟨next, waiting, t⟩ planned after) :
    Answers registry options ⟨task, waiting, s⟩ planned after := by
  obtain ⟨result, u, hplanned, hu, hruns⟩ := h
  refine ⟨result, u, hplanned, hu.trans hpath, .head List.suffix_rfl ?_⟩
  rw [hstep]
  exact hruns

theorem visiting {f : Frame H} {d : Registration H} {plan : Planner H NodeId}
    {rest : NodeId → Planner H NodeId}
    (hstep : step registry options ⟨task, waiting, s⟩ = ⟨.visit d, f :: waiting, s⟩)
    (hvisit : Answers registry options ⟨.visit d, f :: waiting, s⟩ (plan s) .answer)
    (hrest : ∀ id t, t.path = s.path →
      Answers registry options ⟨.supply { f with args := f.args ++ [id] }, waiting, t⟩ (rest id t)
        (.leave f.registration)) :
    Answers registry options ⟨task, waiting, s⟩ ((plan >>= rest) s) (.leave f.registration) := by
  obtain ⟨result, mid, hplanned, hmid, hruns⟩ := hvisit
  have hbegin : Runs registry options waiting ⟨task, waiting, s⟩
      ⟨.answer result, f :: waiting, mid⟩ := by
    refine .head List.suffix_rfl ?_
    rw [hstep]
    exact hruns.mono (List.suffix_cons _ _)
  cases result with
  | ok id =>
      obtain ⟨result, t, hends, ht, hon⟩ := hrest id mid hmid
      refine ⟨result, t, ?_, ht.trans hmid, hbegin.trans (.head (List.suffix_cons _ _) hon)⟩
      rw [Action.bind_of_ok _ hplanned]
      exact hends
  | error e =>
      refine ⟨.error e, mid, Action.bind_of_error _ hplanned, hmid, hbegin.trans ?_⟩
      exact .head (List.suffix_cons _ _) (.refl List.suffix_rfl)

end Answers

theorem supply_answers {less : Nat}
    (hvisit : ∀ (d : Registration H) (waiting : List (Frame H)) (t : Survey H),
      t.path.length + less = options.maxDepth.toNat →
        Answers registry options ⟨.visit d, waiting, t⟩
          (Planner.planRegistration registry options less d t) .answer)
    (chosen : Constructor H) (args : List NodeId) (remaining : List (Parameter H))
    (waiting : List (Frame H)) (hdepth : s.path.length + less = options.maxDepth.toNat) :
    Answers registry options ⟨.supply ⟨r, chosen, args, remaining⟩, waiting, s⟩
      (Planner.planRest registry options (Planner.planRegistration registry options less) r chosen
        args remaining s) (.leave r) := by
  induction remaining generalizing args s with
  | nil => exact .now step_supplied (Survey.append_path ..) (Planner.planRest_nil args s)
  | cons parameter rest ih =>
      rw [Planner.planRest_cons]
      cases hfind : registry.find? parameter.key with
      | some d =>
          refine .visiting (f := ⟨r, chosen, args, rest⟩) (step_registered hfind) ?_ ?_
          · unfold Planner.planParameter
            rw [hfind]
            exact hvisit d _ s hdepth
          · intro id t ht
            exact ih (args ++ [id]) (by rw [ht]; exact hdepth)
      | none =>
          cases hpolicy : options.missingDependency with
          | refuse =>
              have hparameter : Planner.planParameter registry options
                  (Planner.planRegistration registry options less) r parameter s =
                    .error (.missingDependency r.key.displayName parameter.key.displayName) s := by
                unfold Planner.planParameter
                rw [hfind, hpolicy]
                rfl
              exact .now (step_refused hfind hpolicy) rfl (Action.bind_of_error _ hparameter)
          | substitute =>
              have hparameter : Planner.planParameter registry options
                  (Planner.planRegistration registry options less) r parameter s =
                    Planner.planMissing .substitute r parameter s := by
                unfold Planner.planParameter
                rw [hfind, hpolicy]
              rw [Action.bind_of_ok _
                (hparameter.trans (Planner.planMissing_substitute r parameter))]
              exact .later (step_defaulted hfind hpolicy) (Survey.append_path ..) (ih _ hdepth)

theorem select_answers {less : Nat}
    (hvisit : ∀ (d : Registration H) (waiting : List (Frame H)) (t : Survey H),
      t.path.length + less = options.maxDepth.toNat →
        Answers registry options ⟨.visit d, waiting, t⟩
          (Planner.planRegistration registry options less d t) .answer)
    (r : Registration H) (waiting : List (Frame H))
    (hdepth : s.path.length + less = options.maxDepth.toNat) :
    Answers registry options ⟨.select r, waiting, s⟩
      (Planner.planParts registry options (Planner.planRegistration registry options less) r s)
      (.leave r) := by
  cases hchosen : options.constructorPolicy.choose? r.constructors with
  | none => exact .now (step_unchosen hchosen) rfl (Planner.planParts_unchosen _ hchosen)
  | some chosen =>
      rw [Planner.planParts_eq_planRest hchosen]
      exact .later (step_chosen hchosen) rfl (supply_answers hvisit chosen [] _ waiting hdepth)

/-- Every visit comes to what planning the registration comes to, and comes back out of every
service that it enters. -/
theorem visit_answers (registry : Registry H) (options : Options) (budget : Nat)
    (r : Registration H) (waiting : List (Frame H)) (s : Survey H)
    (hdepth : s.path.length + budget = options.maxDepth.toNat) :
    Answers registry options ⟨.visit r, waiting, s⟩
      (Planner.planRegistration registry options budget r s) .answer := by
  induction budget using Nat.strongRecOn generalizing r waiting s with
  | ind budget ih =>
      cases hknown : s.known? r with
      | some id =>
          exact .now (step_known hknown) rfl (Planner.planRegistration_known budget hknown)
      | none =>
          cases hinside : s.isInside r.key with
          | true =>
              exact .now (step_circular hknown hinside) rfl
                (Planner.planRegistration_circular budget hknown hinside)
          | false =>
              cases budget with
              | zero =>
                  exact .now (step_deep hknown hinside (by omega)) rfl
                    (Planner.planRegistration_deep hknown hinside)
              | succ less =>
                  have hless : (s.descend r.key).path.length + less = options.maxDepth.toNat := by
                    simp only [Survey.descend, List.length_cons]
                    omega
                  obtain ⟨result, mid, hparts, hmid, hruns⟩ :=
                    select_answers (ih less (Nat.lt_succ_self _)) r waiting hless
                  have henter : step registry options ⟨.visit r, waiting, s⟩ =
                      ⟨.select r, waiting, s.descend r.key⟩ :=
                    step_enter hknown hinside (by omega)
                  have hleave : step registry options ⟨.leave r result, waiting, mid⟩ =
                      ⟨.answer result, waiting, left mid r result⟩ := step_leave hmid result
                  refine ⟨result, left mid r result, ?_, ?_, .head List.suffix_rfl ?_⟩
                  · rw [Planner.planRegistration_fresh less hknown hinside, hparts]
                    cases result <;> rfl
                  · rw [left_path, hmid]
                    rfl
                  · rw [henter]
                    refine hruns.trans (.head List.suffix_rfl ?_)
                    rw [hleave]
                    exact .refl List.suffix_rfl

end Walk

end Wiring
