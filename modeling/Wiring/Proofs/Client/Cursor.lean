import Wiring.Proofs.Client.Accessors
import Wiring.Proofs.Registry.Dependency

namespace Wiring

variable {H : Host}

namespace Arguments

/-- The arguments once there have been `k` attempts to read one. -/
def attempted (label : String) (values : List (Option (Instance H))) (k : Nat) : Arguments H :=
  ⟨label, values, min k values.length⟩

variable {label : String} {values : List (Option (Instance H))} {k : Nat}

theorem attempted_zero : attempted label values 0 = .ofValues label values := by
  rw [attempted, Nat.zero_min, ofValues]

theorem attempted_of_le_length (h : k ≤ values.length) :
    attempted label values k = ⟨label, values, k⟩ := by
  rw [attempted, Nat.min_eq_left h]

theorem attempted_of_length_le (h : values.length ≤ k) :
    attempted label values k = ⟨label, values, values.length⟩ := by
  rw [attempted, Nat.min_eq_right h]

theorem unread_attempted : (attempted label values k).unread = values.length - k := by
  simp only [unread, attempted]
  omega

end Arguments

namespace Accessor

open Wiring.Arguments

/-- The outcome of the attempt with number `k`. -/
def answerAt (accessor : Accessor) (label : String) (values : List (Option (Instance H)))
    (k : Nat) : Except Failure (Finding H) :=
  if h : k < values.length then accessor.judge label values[k]
  else .error (.argumentMismatch label values.length)

section AnswerAt

variable (accessor : Accessor) (label : String) {values : List (Option (Instance H))} {k : Nat}

theorem answerAt_of_lt (hlt : k < values.length) :
    accessor.answerAt label values k = accessor.judge label values[k] :=
  dif_pos hlt

theorem answerAt_of_le (hle : values.length ≤ k) :
    accessor.answerAt label values k = .error (.argumentMismatch label values.length) :=
  dif_neg (Nat.not_lt_of_le hle)

theorem fetch_attempted :
    accessor.fetch (attempted label values k) =
      Action.answer (accessor.answerAt label values k) (attempted label values (k + 1)) := by
  rcases Nat.lt_or_ge k values.length with hlt | hle
  · rw [attempted_of_le_length (Nat.le_of_lt hlt), attempted_of_le_length hlt,
      answerAt_of_lt _ _ hlt]
    exact fetch_of_lt accessor hlt
  · rw [attempted_of_length_le hle, attempted_of_length_le (Nat.le_succ_of_le hle),
      answerAt_of_le _ _ hle]
    exact fetch_of_le accessor (Nat.le_refl _)

end AnswerAt

end Accessor

/-- Code that reads arguments. What it asks for next may depend on all that it was told, and no
failure ends it. -/
inductive Consumer (H : Host) where
  | stop
  | attempt (accessor : Accessor) (next : Except Failure (Finding H) → Consumer H)
  | count (next : Nat → Consumer H)

inductive Exchange (H : Host) where
  | attempt (accessor : Accessor) (outcome : Except Failure (Finding H))
  | count (unread : Nat)

def Exchange.isAttempt : Exchange H → Bool
  | .attempt _ _ => true
  | .count _ => false

structure Moment (H : Host) where
  exchange : Exchange H
  args : Arguments H

namespace Moment

open Wiring.Arguments

/-- The exchange comes after `k` attempts and is answered accordingly. -/
def InStep (moment : Moment H) (label : String) (values : List (Option (Instance H))) (k : Nat) :
    Prop :=
  match moment.exchange with
  | .attempt accessor outcome =>
    outcome = accessor.answerAt label values k ∧ moment.args = attempted label values (k + 1)
  | .count unread => unread = values.length - k ∧ moment.args = attempted label values k

end Moment

namespace Consumer

open Wiring.Arguments

/-- Everything that happens while the consumer reads, in order. -/
def run : Consumer H → Arguments H → List (Moment H)
  | .stop, _ => []
  | .attempt accessor next, args =>
    let outcome := Action.outcome (accessor.fetch args)
    let after := Action.finalState (accessor.fetch args)
    ⟨.attempt accessor outcome, after⟩ :: (next outcome).run after
  | .count next, args => ⟨.count args.unread, args⟩ :: (next args.unread).run args

def attempts (moments : List (Moment H)) : Nat :=
  moments.countP (·.exchange.isAttempt)

variable {label : String} {values : List (Option (Instance H))} {k : Nat}

theorem run_attempt (accessor : Accessor) (next : Except Failure (Finding H) → Consumer H) :
    (attempt accessor next).run (attempted label values k) =
      ⟨.attempt accessor (accessor.answerAt label values k), attempted label values (k + 1)⟩ ::
        (next (accessor.answerAt label values k)).run (attempted label values (k + 1)) := by
  simp only [run, Accessor.fetch_attempted, Action.outcome_answer, Action.finalState_answer]

theorem run_count (next : Nat → Consumer H) :
    (count next).run (attempted label values k) =
      ⟨.count (values.length - k), attempted label values k⟩ ::
        (next (values.length - k)).run (attempted label values k) := by
  rw [run, unread_attempted]

theorem attempts_attempt_cons (accessor : Accessor) (outcome : Except Failure (Finding H))
    (args : Arguments H) (rest : List (Moment H)) :
    attempts (⟨.attempt accessor outcome, args⟩ :: rest) = attempts rest + 1 :=
  List.countP_cons_of_pos rfl

theorem attempts_count_cons (unread : Nat) (args : Arguments H) (rest : List (Moment H)) :
    attempts (⟨.count unread, args⟩ :: rest) = attempts rest :=
  List.countP_cons_of_neg Bool.false_ne_true

/-- A run that begins after `k` attempts stays in step. -/
theorem inStep_of_run {consumer : Consumer H} {earlier later : List (Moment H)} {now : Moment H}
    (hrun : consumer.run (attempted label values k) = earlier ++ now :: later) :
    now.InStep label values (k + attempts earlier) := by
  -- An attempt moves `k` on by one, answered or refused, so what comes next begins in step.
  induction consumer generalizing k earlier with
  | stop => simp [run] at hrun
  | attempt accessor next ih =>
      rw [run_attempt] at hrun
      cases earlier with
      | nil =>
          obtain ⟨rfl, -⟩ := List.cons.inj hrun
          exact ⟨rfl, rfl⟩
      | cons first rest =>
          obtain ⟨rfl, hrest⟩ := List.cons.inj hrun
          rw [attempts_attempt_cons, ← Nat.add_assoc, Nat.add_right_comm]
          exact ih _ hrest
  | count next ih =>
      rw [run_count] at hrun
      cases earlier with
      | nil =>
          obtain ⟨rfl, -⟩ := List.cons.inj hrun
          exact ⟨rfl, rfl⟩
      | cons first rest =>
          obtain ⟨rfl, hrest⟩ := List.cons.inj hrun
          rw [attempts_count_cons]
          exact ih _ hrest

/-- The law of the cursor. Whatever a consumer asks for, and whatever it does after failures, the
attempt with number `k` is answered from the argument with number `k` alone, as the read judges it;
every attempt past the last argument is refused with the number of arguments and leaves the cursor
there; and the unread arguments are always as many as there are arguments, less one for each attempt
so far, and none once the attempts are more. -/
theorem reads_by_position (label : String) (values : List (Option (Instance H)))
    (consumer : Consumer H) {earlier later : List (Moment H)} {now : Moment H}
    (hrun : consumer.run (.ofValues label values) = earlier ++ now :: later) :
    (∀ accessor outcome, now.exchange = .attempt accessor outcome →
      (∀ hlt : attempts earlier < values.length,
        outcome = accessor.judge label values[attempts earlier] ∧
          now.args.cursor = attempts earlier + 1) ∧
      (values.length ≤ attempts earlier →
        outcome = .error (.argumentMismatch label values.length) ∧
          now.args.cursor = values.length)) ∧
    (∀ unread, now.exchange = .count unread → unread = values.length - attempts earlier) ∧
    now.args.unread = values.length - attempts (earlier ++ [now]) := by
  rw [← attempted_zero] at hrun
  have hstep := inStep_of_run hrun
  rw [Nat.zero_add] at hstep
  have hattempts : attempts (earlier ++ [now]) = attempts earlier + attempts [now] :=
    List.countP_append
  rw [hattempts]
  obtain ⟨exchange, after⟩ := now
  cases exchange with
  | attempt accessor outcome =>
      obtain ⟨rfl, rfl⟩ := hstep
      refine ⟨?_, nofun, unread_attempted⟩
      rintro _ _ ⟨⟩
      refine ⟨fun hlt => ⟨accessor.answerAt_of_lt label hlt, ?_⟩,
        fun hle => ⟨accessor.answerAt_of_le label hle, ?_⟩⟩
      · rw [attempted_of_le_length hlt]
      · rw [attempted_of_length_le (Nat.le_succ_of_le hle)]
  | count unread =>
      obtain ⟨rfl, rfl⟩ := hstep
      refine ⟨nofun, ?_, unread_attempted⟩
      rintro _ ⟨⟩
      rfl

end Consumer

namespace Sample

def delivered : List (Option (Instance host)) :=
  [some ⟨battery, 3, .built 0⟩, none, some ⟨fuse, 5, .given 1⟩]

/-- Asks for a fuse and for a lamp in vain, and goes on to one argument too many. -/
def inspector : Consumer host :=
  .attempt (.optional fuse) fun _ =>
  .attempt (.required lamp) fun outcome =>
  match outcome with
  | .ok _ => .stop
  | .error _ =>
    .count fun _ =>
    .attempt (.contents fuse) fun _ =>
    .attempt (.requiredInterface vehicle) fun _ => .stop

/-- Two failed attempts later the fuse is found at its position, and nothing is found behind it. -/
theorem inspector_by_position :
    ∃ failed found refused,
      inspector.run (.ofValues car.name delivered) = failed ++ [found, refused] ∧
        Consumer.attempts failed = 2 ∧
        found.exchange = .attempt (.contents fuse) (.ok (.copy 5)) ∧ found.args.cursor = 3 ∧
        refused.exchange = .attempt (.requiredInterface vehicle)
          (.error (.argumentMismatch car.name 3)) ∧
        refused.args.cursor = 3 ∧ refused.args.unread = 0 := by
  let moments := inspector.run (.ofValues car.name delivered)
  have hthird : inspector.run (.ofValues car.name delivered) =
      moments.take 3 ++ moments[3] :: [moments[4]] := rfl
  have hfourth : inspector.run (.ofValues car.name delivered) =
      moments.take 4 ++ moments[4] :: [] := rfl
  obtain ⟨hfound, -, -⟩ := Consumer.reads_by_position _ _ _ hthird
  obtain ⟨hrefused, -, hunread⟩ := Consumer.reads_by_position _ _ _ hfourth
  obtain ⟨houtcome, hcursor⟩ := (hfound _ _ rfl).1 (by decide)
  obtain ⟨hmismatch, hend⟩ := (hrefused _ _ rfl).2 (by decide)
  exact ⟨_, _, _, hthird, rfl, congrArg _ houtcome, hcursor, congrArg _ hmismatch, hend, hunread⟩

end Sample

end Wiring
