import Wiring.Client.Arguments
import Wiring.Declaration.Parameter
import Wiring.Proofs.Action
import Wiring.Proofs.Elementwise

namespace Wiring

variable {H : Host}

inductive Finding (H : Host) where
  | absent
  | object (found : Instance H)
  | copy (payload : H.Payload)

def Finding.ofOption : Option (Instance H) → Finding H
  | none => .absent
  | some found => .object found

/-- The ways to read an argument. -/
inductive Accessor where
  | optional (type : TypeTag)
  | required (type : TypeTag)
  | optionalInterface (interface : TypeTag)
  | requiredInterface (interface : TypeTag)
  | contents (type : TypeTag)

namespace Accessor

/-- The runtime type that an argument must have to be read. -/
def asks : Accessor → TypeTag
  | .optional type => type
  | .required type => type
  | .optionalInterface interface => interface.handle
  | .requiredInterface interface => interface.handle
  | .contents type => type

/-- Reads the next argument; what is found does not matter here. -/
def read : Accessor → Reader H PUnit
  | .optional type => discard (Arguments.optional type)
  | .required type => discard (Arguments.required type)
  | .optionalInterface interface => discard (Arguments.optionalInterface interface)
  | .requiredInterface interface => discard (Arguments.requiredInterface interface)
  | .contents type => discard (Arguments.contents type)

/-- The type that complaints name: the interface, not the handle to it. -/
def named : Accessor → TypeTag
  | .optional type | .required type | .contents type => type
  | .optionalInterface interface | .requiredInterface interface => interface

def admitsAbsence : Accessor → Bool
  | .optional _ | .optionalInterface _ => true
  | .required _ | .requiredInterface _ | .contents _ => false

def view (accessor : Accessor) (object : Instance H) : Except Failure (Instance H) :=
  if object.type.id = accessor.asks.id then .ok object
  else .error (.typeMismatch accessor.named.name)

def handsOver (accessor : Accessor) (object : Instance H) : Finding H :=
  match accessor with
  | .contents _ => .copy object.payload
  | _ => .object object

/-- What the read makes of an argument, wherever the argument stands. -/
def judge (accessor : Accessor) (label : String) :
    Option (Instance H) → Except Failure (Finding H)
  | none =>
    if accessor.admitsAbsence then .ok .absent
    else .error (.missingDependency label accessor.named.name)
  | some object => accessor.handsOver <$> accessor.view object

def fetch : Accessor → Reader H (Finding H)
  | .optional type => Finding.ofOption <$> Arguments.optional type
  | .required type => Finding.object <$> Arguments.required type
  | .optionalInterface interface => Finding.ofOption <$> Arguments.optionalInterface interface
  | .requiredInterface interface => Finding.object <$> Arguments.requiredInterface interface
  | .contents type => Finding.copy <$> Arguments.contents type

theorem read_eq_discard_fetch (accessor : Accessor) :
    (accessor.read : Reader H PUnit) = discard accessor.fetch := by
  cases accessor <;>
    simp only [read, fetch, discard, Functor.discard, LawfulFunctor.map_const,
      Function.comp_apply, Functor.map_map]

/-- Reads one argument after the other, also after failures. -/
def readAll : List Accessor → Arguments H → List (Except Failure PUnit)
  | [], _ => []
  | accessor :: rest, args =>
    match accessor.read args with
    | .ok found args => .ok found :: readAll rest args
    | .error e args => .error e :: readAll rest args

end Accessor

/-- The argument is absent or has the runtime type that the parameter promises. -/
def Parameter.Fits (parameter : Parameter H) (value : Option (Instance H)) : Prop :=
  ∀ object, value = some object → object.type.id = parameter.delivers.id

def Parameter.ReadBy (parameter : Parameter H) (accessor : Accessor) : Prop :=
  accessor.asks.id = parameter.delivers.id

namespace Arguments

variable {args : Arguments H}

def next (args : Arguments H) : Arguments H :=
  { args with cursor := args.cursor + 1 }

/-- The reader takes the next argument, or finds it absent. Either way it has read it. -/
def Takes {α : Type} (args : Arguments H) (reader : Reader H α) : Prop :=
  (∃ a, reader args = .ok a args.next) ∨
    ∃ dependency, reader args = .error (.missingDependency args.label dependency) args.next

theorem Takes.map {α β : Type} {reader : Reader H α} (h : args.Takes reader) (f : α → β) :
    args.Takes (f <$> reader) := by
  rcases h with ⟨a, ha⟩ | ⟨dependency, herror⟩
  · exact Or.inl ⟨f a, Action.map_of_ok f ha⟩
  · exact Or.inr ⟨dependency, Action.map_of_error f herror⟩

theorem advanceAs_of_lt (view : Instance H → Except Failure (Instance H))
    (hlt : args.cursor < args.values.length) :
    advanceAs view args = Action.answer (args.values[args.cursor].mapM view) args.next := by
  unfold advanceAs
  rw [Action.bind_of_ok _ (advance_of_lt hlt)]
  cases args.values[args.cursor] with
  | none => rfl
  | some object => cases hview : view object <;> simp [hview, Action.answer, next]

theorem advanceAs_of_le (view : Instance H → Except Failure (Instance H))
    (hle : args.values.length ≤ args.cursor) :
    advanceAs view args = .error (.argumentMismatch args.label args.cursor) args :=
  Action.bind_of_error _ (advance_of_le hle)

def demand (type : TypeTag) (label : String) :
    Option (Instance H) → Except Failure (Instance H)
  | some object => .ok object
  | none => .error (.missingDependency label type.name)

theorem present_answer (type : TypeTag) {reader : Reader H (Option (Instance H))}
    {result : Except Failure (Option (Instance H))} {after : Arguments H}
    (h : reader args = Action.answer result after) :
    present type reader args = Action.answer (result >>= demand type after.label) after := by
  unfold present
  cases result with
  | error e => exact Action.bind_of_error _ h
  | ok value =>
      rw [Action.bind_of_ok _ h]
      cases value with
      | none => rfl
      | some object => rfl

end Arguments

namespace Accessor

open Wiring.Arguments

variable {args : Arguments H}

theorem map_ofOption_eq_judge {accessor : Accessor} (h : accessor.admitsAbsence = true)
    (label : String) (value : Option (Instance H)) :
    Finding.ofOption <$> value.mapM accessor.view = accessor.judge label value := by
  cases value with
  | none =>
      rw [judge, if_pos h]
      rfl
  | some object =>
      have hhandsOver : (accessor.handsOver : Instance H → Finding H) = .object := by
        cases accessor with
        | optional | optionalInterface => rfl
        | required | requiredInterface | contents => cases h
      rw [judge, hhandsOver]
      cases hview : accessor.view object <;> simp [hview, Finding.ofOption]

theorem map_demand_eq_judge {accessor : Accessor} (h : accessor.admitsAbsence = false)
    (label : String) (value : Option (Instance H)) :
    accessor.handsOver <$> (value.mapM accessor.view >>= demand accessor.named label) =
      accessor.judge label value := by
  cases value with
  | none =>
      rw [judge, h]
      rfl
  | some object =>
      rw [judge, Option.mapM_some]
      cases accessor.view object <;> rfl

/-- Before the end, a read takes the argument at the cursor and is answered by it alone. -/
theorem fetch_of_lt (accessor : Accessor) (hlt : args.cursor < args.values.length) :
    (accessor.fetch : Reader H _) args =
      Action.answer (accessor.judge args.label args.values[args.cursor]) args.next := by
  have hview := advanceAs_of_lt accessor.view hlt
  cases accessor with
  | optional type =>
      rw [← map_ofOption_eq_judge rfl]
      exact Action.map_answer _ hview
  | required type =>
      rw [← map_demand_eq_judge rfl]
      exact Action.map_answer _ (present_answer type hview)
  | optionalInterface interface =>
      rw [← map_ofOption_eq_judge rfl]
      exact Action.map_answer _ hview
  | requiredInterface interface =>
      rw [← map_demand_eq_judge rfl]
      exact Action.map_answer _ (present_answer interface hview)
  | contents type =>
      have hcopy := Action.map_answer Finding.copy
        (Action.map_answer Instance.payload (present_answer type hview))
      rw [← map_demand_eq_judge rfl]
      exact hcopy.trans (congrArg (Action.answer · args.next) (Functor.map_map _ _ _))

theorem fetch_of_le (accessor : Accessor) (hle : args.values.length ≤ args.cursor) :
    (accessor.fetch : Reader H _) args =
      .error (.argumentMismatch args.label args.cursor) args := by
  have hrefused {view : Instance H → Except Failure (Instance H)} :
      advanceAs view args = .error (.argumentMismatch args.label args.cursor) args :=
    advanceAs_of_le view hle
  have hpresent {type : TypeTag} {view : Instance H → Except Failure (Instance H)} :
      present type (advanceAs view) args =
        .error (.argumentMismatch args.label args.cursor) args :=
    Action.bind_of_error _ hrefused
  cases accessor with
  | optional type => exact Action.map_of_error _ hrefused
  | required type => exact Action.map_of_error _ hpresent
  | optionalInterface interface => exact Action.map_of_error _ hrefused
  | requiredInterface interface => exact Action.map_of_error _ hpresent
  | contents type => exact Action.map_of_error _ (Action.map_of_error Instance.payload hpresent)

theorem takes_read {accessor : Accessor} (hlt : args.cursor < args.values.length)
    (htype : ∀ object, args.values[args.cursor] = some object →
      object.type.id = accessor.asks.id) : args.Takes (H := H) accessor.read := by
  have hfetch : args.Takes (accessor.fetch : Reader H _) := by
    unfold Takes
    rw [fetch_of_lt accessor hlt]
    cases hvalue : args.values[args.cursor] with
    | some object =>
        rw [judge, view, if_pos (htype object hvalue)]
        exact Or.inl ⟨accessor.handsOver object, rfl⟩
    | none =>
        rw [judge]
        split
        · exact Or.inl ⟨.absent, rfl⟩
        · exact Or.inr ⟨accessor.named.name, rfl⟩
  rw [read_eq_discard_fetch]
  exact hfetch.map _

/-- Reading on from the cursor, by accessors that suit the parameters one by one, fails only where an
argument is absent. -/
theorem readAll_from {accessors : List Accessor} {parameters : List (Parameter H)}
    (hargs : List.Forall₂ Parameter.Fits parameters (args.values.drop args.cursor))
    (haccessors :
      List.Forall₂ Parameter.ReadBy (parameters.take accessors.length) accessors) :
    ∀ e, .error e ∈ readAll accessors args →
      ∃ dependency, e = .missingDependency args.label dependency := by
  -- Every accessor moves the cursor by one, whether it finds its argument or not.
  induction accessors generalizing parameters args with
  | nil => simp [readAll]
  | cons accessor rest ih =>
      cases parameters with
      | nil => cases haccessors
      | cons parameter others =>
          have hlt : args.cursor < args.values.length := by
            by_contra hle
            rw [List.drop_eq_nil_of_le (Nat.le_of_not_lt hle)] at hargs
            cases hargs
          rw [List.drop_eq_getElem_cons hlt, List.forall₂_cons] at hargs
          rw [List.length_cons, List.take_succ_cons, List.forall₂_cons] at haccessors
          have htakes := takes_read hlt fun object hobject =>
            (hargs.1 object hobject).trans haccessors.1.symm
          have hrest : ∀ e, .error e ∈ readAll rest args.next →
              ∃ dependency, e = .missingDependency args.label dependency :=
            ih hargs.2 haccessors.2
          intro e he
          unfold readAll at he
          rcases htakes with ⟨found, hread⟩ | ⟨dependency, hread⟩
          · rw [hread] at he
            rcases List.mem_cons.mp he with hfirst | hlater
            · cases hfirst
            · exact hrest e hlater
          · rw [hread] at he
            rcases List.mem_cons.mp he with hfirst | hlater
            · cases hfirst
              exact ⟨dependency, rfl⟩
            · exact hrest e hlater

end Accessor

end Wiring
