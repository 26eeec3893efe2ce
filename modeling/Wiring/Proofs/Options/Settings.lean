import Wiring.Options.Environment
import Wiring.Proofs.Settings.Value

namespace Wiring

/-- There are two choices, with different names. -/
structure Switch {α : Type} (name : α → String) (first second : α) : Prop where
  only : ∀ choice, choice = first ∨ choice = second
  differ : name first ≠ name second

namespace Switch

variable {α : Type} {name : α → String} {first second choice : α} {text : String}

theorem ofName?_eq_some_iff (h : Switch name first second) :
    (if text = name first then some first else if text = name second then some second else none) =
      some choice ↔ text = name choice := by
  constructor
  · intro hchoice
    split_ifs at hchoice <;> cases hchoice <;> assumption
  · rintro rfl
    obtain rfl | rfl := h.only choice
    · exact if_pos rfl
    · rw [if_neg h.differ.symm, if_pos rfl]

theorem exists_text_name_iff (h : Switch name first second) (v : SettingValue) :
    (∃ choice, v = .text (name choice)) ↔ v = .text (name first) ∨ v = .text (name second) := by
  constructor
  · rintro ⟨choice, hv⟩
    obtain rfl | rfl := h.only choice
    · exact .inl hv
    · exact .inr hv
  · rintro (hv | hv)
    · exact ⟨_, hv⟩
    · exact ⟨_, hv⟩

end Switch

theorem RegistrationMode.switch : Switch name .replace .strict where
  only mode := by cases mode <;> simp
  differ := by decide

theorem RegistrationMode.ofName?_eq_some_iff {text : String} {mode : RegistrationMode} :
    ofName? text = some mode ↔ text = mode.name :=
  switch.ofName?_eq_some_iff

theorem MissingDependencyPolicy.switch : Switch name .substitute .refuse where
  only policy := by cases policy <;> simp
  differ := by decide

theorem MissingDependencyPolicy.ofName?_eq_some_iff {text : String}
    {policy : MissingDependencyPolicy} : ofName? text = some policy ↔ text = policy.name :=
  switch.ofName?_eq_some_iff

theorem ConstructorPolicy.switch : Switch name .mostParameters .firstDeclared where
  only policy := by cases policy <;> simp
  differ := by decide

theorem ConstructorPolicy.ofName?_eq_some_iff {text : String} {policy : ConstructorPolicy} :
    ofName? text = some policy ↔ text = policy.name :=
  switch.ofName?_eq_some_iff

section

variable {α β : Type} {x : Except Failure α} {f : α → Except Failure β}

theorem Except.bind_eq_ok_iff {b : β} : x >>= f = .ok b ↔ ∃ a, x = .ok a ∧ f a = .ok b := by
  cases x <;> simp [bind, Except.bind]

theorem Except.bind_eq_error_iff {e : Failure} :
    x >>= f = .error e ↔ x = .error e ∨ ∃ a, x = .ok a ∧ f a = .error e := by
  cases x <;> simp [bind, Except.bind]

end

namespace Options

variable {source : SettingSource} {o : Options}

section

variable {α : Type}

/-- The choice that a setting makes: the one it names, or the standard one if it is not set. -/
def Selects (name : α → String) (standard : α) (value : Option SettingValue) (choice : α) : Prop :=
  match value with
  | none => choice = standard
  | some value => value = .text (name choice)

variable {key : String} {name : α → String} {ofName? : String → Option α} {standard choice : α}

theorem loadChoice_eq_ok_iff
    (hname : ∀ {text choice}, ofName? text = some choice ↔ text = name choice) :
    loadChoice source key ofName? standard = .ok choice ↔
      Selects name standard (source.get key) choice := by
  unfold loadChoice Selects
  cases source.get key with
  | none => simp [eq_comm]
  | some value =>
      cases value with
      | integer => simp [SettingValue.asText]
      | boolean => simp [SettingValue.asText]
      | text text =>
          simp only [SettingValue.asText, SettingValue.text.injEq, ← hname]
          cases ofName? text <;> simp

theorem loadChoice_eq_error {e : Failure}
    (h : loadChoice source key ofName? standard = .error e) : ∃ message, e = .config message := by
  unfold loadChoice at h
  split at h
  next => cases h
  next value _ =>
    cases value with
    | integer => exact ⟨_, (Except.error.inj h).symm⟩
    | boolean => exact ⟨_, (Except.error.inj h).symm⟩
    | text text =>
        simp only [SettingValue.asText] at h
        split at h
        next => cases h
        next => exact ⟨_, (Except.error.inj h).symm⟩

theorem exists_selects_iff {first second : α} (h : Switch name first second) (standard : α)
    (value : Option SettingValue) : (∃ choice, Selects name standard value choice) ↔
      ∀ v, value = some v → v = .text (name first) ∨ v = .text (name second) := by
  cases value with
  | none => simp [Selects]
  | some v => simpa [Selects] using h.exists_text_name_iff v

end

/-- The depth limit that a setting makes: its value, a positive integer, or the standard one if it
is not set. -/
def Limits (value : Option SettingValue) (depth : UInt64) : Prop :=
  match value with
  | none => depth = 256
  | some value => ∃ n : Int64, value = .integer n ∧ 0 < n.toInt ∧ (depth.toNat : Int) = n.toInt

theorem toNat_ofNat_depth {n : Int64} (h : 0 < n.toInt) :
    ((UInt64.ofNat n.toInt.toNat).toNat : Int) = n.toInt := by
  have hlt : n.toInt < 2 ^ 63 := n.toInt_lt
  have hsize : n.toInt.toNat < UInt64.size := by
    change n.toInt.toNat < 2 ^ 64
    omega
  rw [UInt64.toNat_ofNat_of_lt' hsize]
  omega

theorem loadDepth_eq_ok_iff {depth : UInt64} :
    loadDepth source 256 = .ok depth ↔ Limits (source.get "max_depth") depth := by
  unfold loadDepth Limits
  cases source.get "max_depth" with
  | none => simp [eq_comm]
  | some value =>
      cases value with
      | text => simp [SettingValue.asInteger]
      | boolean => simp [SettingValue.asInteger]
      | integer n =>
          simp only [SettingValue.asInteger, SettingValue.integer.injEq]
          split
          next hle => simp; omega
          next hpos =>
            have hdepth := toNat_ofNat_depth (Int.not_le.mp hpos)
            constructor
            · intro h
              exact ⟨n, rfl, Int.not_le.mp hpos, Except.ok.inj h ▸ hdepth⟩
            · rintro ⟨_, rfl, -, h⟩
              congr 1
              exact UInt64.toNat_inj.mp (by omega)

theorem loadDepth_eq_error {standard : UInt64} {e : Failure}
    (h : loadDepth source standard = .error e) : ∃ message, e = .config message := by
  unfold loadDepth at h
  split at h
  next => cases h
  next value _ =>
    cases value with
    | text => exact ⟨_, (Except.error.inj h).symm⟩
    | boolean => exact ⟨_, (Except.error.inj h).symm⟩
    | integer n =>
        simp only [SettingValue.asInteger] at h
        split at h
        next => exact ⟨_, (Except.error.inj h).symm⟩
        next => cases h

theorem exists_limits_iff (value : Option SettingValue) :
    (∃ depth, Limits value depth) ↔
      ∀ v, value = some v → ∃ n : Int64, v = .integer n ∧ 0 < n.toInt := by
  cases value with
  | none => simp [Limits]
  | some value =>
      simp only [Limits, Option.some.injEq, forall_eq']
      constructor
      · rintro ⟨_, n, hn, hpos, -⟩
        exact ⟨n, hn, hpos⟩
      · rintro ⟨n, hn, hpos⟩
        exact ⟨_, n, hn, hpos, toNat_ofNat_depth hpos⟩

structure ChosenBy (o : Options) (source : SettingSource) : Prop where
  registrationMode :
    Selects RegistrationMode.name .replace (source.get "registration_mode") o.registrationMode
  missingDependency :
    Selects MissingDependencyPolicy.name .substitute (source.get "missing_dependency")
      o.missingDependency
  constructorPolicy :
    Selects ConstructorPolicy.name .mostParameters (source.get "constructor_policy")
      o.constructorPolicy

/-- All options are as the source says, and as documented where it says nothing. -/
structure DescribedBy (o : Options) (source : SettingSource) : Prop extends o.ChosenBy source where
  maxDepth : Limits (source.get "max_depth") o.maxDepth

theorem load_eq_ok_iff : load source = .ok o ↔ o.DescribedBy source := by
  simp only [load, Except.bind_eq_ok_iff, loadChoice_eq_ok_iff RegistrationMode.ofName?_eq_some_iff,
    loadChoice_eq_ok_iff MissingDependencyPolicy.ofName?_eq_some_iff,
    loadChoice_eq_ok_iff ConstructorPolicy.ofName?_eq_some_iff]
  constructor
  · rintro ⟨mode, hmode, missing, hmissing, policy, hpolicy, depth, hdepth, h⟩
    obtain rfl := Except.ok.inj h
    exact ⟨⟨hmode, hmissing, hpolicy⟩, loadDepth_eq_ok_iff.mp hdepth⟩
  · intro h
    exact ⟨_, h.registrationMode, _, h.missingDependency, _, h.constructorPolicy, _,
      loadDepth_eq_ok_iff.mpr h.maxDepth, rfl⟩

theorem load_eq_error {e : Failure} (h : load source = .error e) :
    ∃ message, e = .config message := by
  simp only [load, Except.bind_eq_error_iff] at h
  obtain h | ⟨_, -, h | ⟨_, -, h | ⟨_, -, h | ⟨_, -, h⟩⟩⟩⟩ := h
  · exact loadChoice_eq_error h
  · exact loadChoice_eq_error h
  · exact loadChoice_eq_error h
  · exact loadDepth_eq_error h
  · cases h

/-- Every option that is set holds one of the values it is documented to take. -/
structure Documented (source : SettingSource) : Prop where
  registrationMode : ∀ v, source.get "registration_mode" = some v →
    v = .text "replace" ∨ v = .text "strict"
  missingDependency : ∀ v, source.get "missing_dependency" = some v →
    v = .text "default" ∨ v = .text "error"
  constructorPolicy : ∀ v, source.get "constructor_policy" = some v →
    v = .text "most_parameters" ∨ v = .text "first_declared"
  maxDepth : ∀ v, source.get "max_depth" = some v → ∃ n : Int64, v = .integer n ∧ 0 < n.toInt

theorem exists_describedBy_iff : (∃ o : Options, o.DescribedBy source) ↔ Documented source := by
  have hmode := exists_selects_iff RegistrationMode.switch .replace
    (source.get "registration_mode")
  have hmissing := exists_selects_iff MissingDependencyPolicy.switch .substitute
    (source.get "missing_dependency")
  have hpolicy := exists_selects_iff ConstructorPolicy.switch .mostParameters
    (source.get "constructor_policy")
  have hdepth := exists_limits_iff (source.get "max_depth")
  constructor
  · rintro ⟨o, h⟩
    exact ⟨hmode.mp ⟨_, h.registrationMode⟩, hmissing.mp ⟨_, h.missingDependency⟩,
      hpolicy.mp ⟨_, h.constructorPolicy⟩, hdepth.mp ⟨_, h.maxDepth⟩⟩
  · intro h
    obtain ⟨mode, hmode⟩ := hmode.mpr h.registrationMode
    obtain ⟨missing, hmissing⟩ := hmissing.mpr h.missingDependency
    obtain ⟨policy, hpolicy⟩ := hpolicy.mpr h.constructorPolicy
    obtain ⟨depth, hdepth⟩ := hdepth.mpr h.maxDepth
    exact ⟨⟨mode, missing, policy, depth⟩, ⟨hmode, hmissing, hpolicy⟩, hdepth⟩

end Options

end Wiring
