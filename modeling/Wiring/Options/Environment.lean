import Wiring.Options.Settings
import Wiring.Settings.Environment

namespace Wiring.Options

def environmentQualifier : String :=
  "FERROUS_FACTORY"

def ofEnvironment (environment : List (String × String)) : Except Failure Options :=
  load (EnvironmentSettings.toSource ⟨environment, some environmentQualifier⟩)

end Wiring.Options
