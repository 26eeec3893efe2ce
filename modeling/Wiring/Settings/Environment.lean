import Wiring.Settings.Source
import Wiring.Text.Case

namespace Wiring

/-- An environment, as its variables with their values, and the qualifier of those that are settings. -/
structure EnvironmentSettings where
  environment : List (String × String)
  qualifier : Option String
deriving Inhabited

namespace EnvironmentSettings

def lead (e : EnvironmentSettings) : String :=
  match e.qualifier with
  | some qualifier => Text.upper qualifier ++ "_"
  | none => ""

def variableName (e : EnvironmentSettings) (key : String) : String :=
  e.lead ++ Text.upper key

def get (e : EnvironmentSettings) (key : String) : Option SettingValue :=
  (e.environment.lookup (e.variableName key)).map SettingValue.parse

/-- The setting that a variable holds, if it is one. -/
def settingName? (e : EnvironmentSettings) (name : String) : Option String :=
  if e.lead.toList.isPrefixOf name.toList then
    some (Text.lower (String.ofList (name.toList.drop e.lead.length)))
  else
    none

def keys (e : EnvironmentSettings) : List String :=
  e.environment.filterMap fun (name, _) => e.settingName? name

def toSource (e : EnvironmentSettings) : SettingSource :=
  ⟨e.get, e.keys⟩

end EnvironmentSettings

end Wiring
