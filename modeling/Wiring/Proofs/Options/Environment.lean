import Wiring.Options.Environment
import Wiring.Proofs.Options.Settings

namespace Wiring

/-- The environment with some variables set, in place of what they held. -/
def EnvironmentSettings.assign (e : EnvironmentSettings) (entries : List (String × String)) :
    EnvironmentSettings :=
  { e with environment := entries ++ e.environment }

namespace Options

variable {o : Options} {e : EnvironmentSettings} {text : String}

/-- The variables that hold the options as documented, each behind `lead`. -/
def toVariables (o : Options) (lead : String) : List (String × String) :=
  [(lead ++ "REGISTRATION_MODE", o.registrationMode.name),
   (lead ++ "MISSING_DEPENDENCY", o.missingDependency.name),
   (lead ++ "CONSTRUCTOR_POLICY", o.constructorPolicy.name),
   (lead ++ "MAX_DEPTH", toString o.maxDepth.toNat)]

theorem lookup_toVariables {lead name : String} {rest : List (String × String)}
    (h : (lead ++ name, text) ∈ o.toVariables lead) :
    (o.toVariables lead ++ rest).lookup (lead ++ name) = some text := by
  have hkey (a b : String) : (lead ++ a == lead ++ b) = decide (a = b) := by
    rw [Bool.eq_iff_iff, beq_iff_eq, decide_eq_true_iff, String.append_right_inj]
  simp only [toVariables, List.mem_cons, List.not_mem_nil, or_false, Prod.mk.injEq,
    String.append_right_inj] at h
  obtain ⟨rfl, rfl⟩ | ⟨rfl, rfl⟩ | ⟨rfl, rfl⟩ | ⟨rfl, rfl⟩ := h <;>
    simp [toVariables, List.lookup_cons, hkey]

theorem get_assign_toVariables {key : String} (name : String) (hupper : Text.upper key = name)
    (h : (e.lead ++ name, text) ∈ o.toVariables e.lead) :
    (e.assign (o.toVariables e.lead)).toSource.get key = some (.parse text) := by
  change ((o.toVariables e.lead ++ e.environment).lookup (e.lead ++ Text.upper key)).map _ = _
  rw [hupper, lookup_toVariables h, Option.map_some]

theorem selects_parse_name {α : Type} {name : α → String} {first second : α}
    (h : Switch name first second) (hfirst : SettingValue.parse (name first) = .text (name first))
    (hsecond : SettingValue.parse (name second) = .text (name second)) (standard choice : α) :
    Selects name standard (some (.parse (name choice))) choice := by
  obtain rfl | rfl := h.only choice
  · exact hfirst
  · exact hsecond

theorem limits_parse_iff {depth : UInt64} :
    Limits (some (SettingValue.parse text)) depth ↔
      ∃ n : Int, Numeral text.toList n ∧ 0 < n ∧ n < 2 ^ 63 ∧ (depth.toNat : Int) = n := by
  simp only [Limits, SettingValue.parse_eq_integer_iff]
  constructor
  · rintro ⟨n, hn, hpos, hdepth⟩
    exact ⟨_, hn, hpos, n.toInt_lt, hdepth⟩
  · rintro ⟨n, hn, hpos, hlt, hdepth⟩
    have hword : (Int64.ofInt n).toInt = n := Int64.toInt_ofInt_of_le (by omega) hlt
    exact ⟨.ofInt n, by rwa [hword], by rwa [hword], by rwa [hword]⟩

theorem load_assign_toVariables (hpos : 0 < o.maxDepth.toNat) (hlt : o.maxDepth.toNat < 2 ^ 63) :
    load (e.assign (o.toVariables e.lead)).toSource = .ok o := by
  have hmode : (e.assign (o.toVariables e.lead)).toSource.get "registration_mode" =
      some (.parse o.registrationMode.name) :=
    get_assign_toVariables "REGISTRATION_MODE" (by decide) (by simp [toVariables])
  have hmissing : (e.assign (o.toVariables e.lead)).toSource.get "missing_dependency" =
      some (.parse o.missingDependency.name) :=
    get_assign_toVariables "MISSING_DEPENDENCY" (by decide) (by simp [toVariables])
  have hpolicy : (e.assign (o.toVariables e.lead)).toSource.get "constructor_policy" =
      some (.parse o.constructorPolicy.name) :=
    get_assign_toVariables "CONSTRUCTOR_POLICY" (by decide) (by simp [toVariables])
  have hdepth : (e.assign (o.toVariables e.lead)).toSource.get "max_depth" =
      some (.parse (toString o.maxDepth.toNat)) :=
    get_assign_toVariables "MAX_DEPTH" (by decide) (by simp [toVariables])
  refine load_eq_ok_iff.mpr ⟨⟨?_, ?_, ?_⟩, ?_⟩
  · rw [hmode]
    exact selects_parse_name RegistrationMode.switch (by decide) (by decide) _ _
  · rw [hmissing]
    exact selects_parse_name MissingDependencyPolicy.switch (by decide) (by decide) _ _
  · rw [hpolicy]
    exact selects_parse_name ConstructorPolicy.switch (by decide) (by decide) _ _
  · rw [hdepth]
    exact limits_parse_iff.mpr ⟨_, .toString _, by omega, by omega, rfl⟩

def recognized : List String :=
  ["registration_mode", "missing_dependency", "constructor_policy", "max_depth"]

theorem load_congr {source other : SettingSource}
    (h : ∀ key ∈ recognized, other.get key = source.get key) : load other = load source := by
  simp only [recognized, List.forall_mem_cons] at h
  obtain ⟨hmode, hmissing, hpolicy, hdepth, -⟩ := h
  simp only [load, loadChoice, loadDepth, hmode, hmissing, hpolicy, hdepth]

theorem load_eq_ok_iff_of_lookup (h : e.environment.lookup (e.lead ++ "MAX_DEPTH") = some text) :
    load e.toSource = .ok o ↔ o.ChosenBy e.toSource ∧
      ∃ n : Int, Numeral text.toList n ∧ 0 < n ∧ n < 2 ^ 63 ∧ (o.maxDepth.toNat : Int) = n := by
  have hget : e.toSource.get "max_depth" = some (.parse text) := by
    change (e.environment.lookup (e.lead ++ Text.upper "max_depth")).map _ = _
    rw [show Text.upper "max_depth" = "MAX_DEPTH" by decide, h, Option.map_some]
  rw [load_eq_ok_iff, ← limits_parse_iff, ← hget]
  exact ⟨fun h => ⟨h.toChosenBy, h.maxDepth⟩, fun h => ⟨h.1, h.2⟩⟩

/-- Options load from a source exactly if every option that it sets has a documented value, and are
then as it says, whatever else it holds; otherwise loading fails with a complaint about the
configuration. Options come back from the environment that they are written into if their limit is
a positive signed word. The text of a limit is taken exactly if it is a numeral of such a word, and
the limit is then that very number. -/
theorem load_exact (source : SettingSource) (e : EnvironmentSettings) (o : Options) :
    (load source = .ok o ↔ o.DescribedBy source) ∧
      ((∃ o, load source = .ok o) ↔ Documented source) ∧
      (¬ Documented source → ∃ message, load source = .error (.config message)) ∧
      (∀ other, (∀ key ∈ recognized, other.get key = source.get key) →
        load other = load source) ∧
      (0 < o.maxDepth.toNat → o.maxDepth.toNat < 2 ^ 63 →
        load (e.assign (o.toVariables e.lead)).toSource = .ok o) ∧
      ∀ text, e.environment.lookup (e.lead ++ "MAX_DEPTH") = some text →
        (load e.toSource = .ok o ↔ o.ChosenBy e.toSource ∧ ∃ n : Int, Numeral text.toList n ∧
          0 < n ∧ n < 2 ^ 63 ∧ (o.maxDepth.toNat : Int) = n) := by
  have hloads : (∃ o, load source = .ok o) ↔ Documented source := by
    simp only [load_eq_ok_iff, exists_describedBy_iff]
  refine ⟨load_eq_ok_iff, hloads, ?_, fun _ => load_congr, load_assign_toVariables,
    fun _ => load_eq_ok_iff_of_lookup⟩
  intro hundocumented
  cases hload : load source with
  | ok o => exact absurd (hloads.mp ⟨o, hload⟩) hundocumented
  | error failure =>
      obtain ⟨message, rfl⟩ := load_eq_error hload
      exact ⟨message, rfl⟩

end Options

namespace Sample

def depthVariables : EnvironmentSettings :=
  ⟨[("APP_MAX_DEPTH", "+07"), ("APP_COLOUR", "red")], some "app"⟩

def strictOptions : Options :=
  { registrationMode := .strict, constructorPolicy := .firstDeclared, maxDepth := 7 }

theorem options_from_variables :
    Options.load depthVariables.toSource = .ok { maxDepth := 7 } ∧
      Options.load
        (depthVariables.assign (strictOptions.toVariables depthVariables.lead)).toSource =
          .ok strictOptions ∧
      ∃ message, Options.load
        (depthVariables.assign [("APP_REGISTRATION_MODE", "true")]).toSource =
          .error (.config message) := by
  have hdepth : depthVariables.environment.lookup (depthVariables.lead ++ "MAX_DEPTH") =
      some "+07" := by decide
  have hnumeral : Numeral "+07".toList 7 := .positive (List.cons_ne_nil 0 [7])
  obtain ⟨-, -, -, -, -, htext⟩ :=
    Options.load_exact depthVariables.toSource depthVariables { maxDepth := 7 }
  obtain ⟨-, -, -, -, hback, -⟩ :=
    Options.load_exact depthVariables.toSource depthVariables strictOptions
  obtain ⟨-, -, hrefused, -⟩ :=
    Options.load_exact (depthVariables.assign [("APP_REGISTRATION_MODE", "true")]).toSource
      depthVariables strictOptions
  refine ⟨(htext "+07" hdepth).mpr ⟨⟨rfl, rfl, rfl⟩, 7, hnumeral, by decide, by decide, by decide⟩,
    hback (by decide) (by decide), hrefused fun hdocumented => ?_⟩
  have hread := hdocumented.registrationMode (.boolean true) (by decide)
  simp at hread

end Sample

end Wiring
