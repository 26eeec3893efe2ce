import Wiring.Settings.Value

namespace Wiring

/-- Where settings come from: the value of each, by its name in lower case, and the names that the
source can serve. -/
structure SettingSource where
  get : String → Option SettingValue
  keys : List String

end Wiring
