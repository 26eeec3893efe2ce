import Wiring.Options
import Wiring.Settings.Source

namespace Wiring.Options

def unsupported (key value : String) : Failure :=
  .config s!"unsupported value '{value}' for {key}"

/-- A setting with named choices; absent, it keeps its default. -/
def loadChoice {α : Type} (source : SettingSource) (key : String)
    (ofName? : String → Option α) (fallback : α) : Except Failure α :=
  match source.get key with
  | none => .ok fallback
  | some value =>
    match value.asText with
    | .error e => .error e
    | .ok name =>
      match ofName? name with
      | some choice => .ok choice
      | none => .error (unsupported key name)

/-- The depth limit, a positive integer; absent, it keeps its default. -/
def loadDepth (source : SettingSource) (fallback : UInt64) : Except Failure UInt64 :=
  match source.get "max_depth" with
  | none => .ok fallback
  | some value =>
    match value.asInteger with
    | .error e => .error e
    | .ok depth =>
      if depth.toInt ≤ 0 then .error (unsupported "max_depth" (toString depth.toInt))
      else .ok (UInt64.ofNat depth.toInt.toNat)

def load (source : SettingSource) : Except Failure Options := do
  let standard : Options := {}
  let registrationMode ←
    loadChoice source "registration_mode" RegistrationMode.ofName? standard.registrationMode
  let missingDependency ←
    loadChoice source "missing_dependency" MissingDependencyPolicy.ofName?
      standard.missingDependency
  let constructorPolicy ←
    loadChoice source "constructor_policy" ConstructorPolicy.ofName? standard.constructorPolicy
  let maxDepth ← loadDepth source standard.maxDepth
  return { registrationMode, missingDependency, constructorPolicy, maxDepth }

end Wiring.Options
