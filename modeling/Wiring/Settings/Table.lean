import Wiring.Settings.Source
import Std.Data.TreeMap

namespace Wiring

/-- Settings by name; setting one again replaces its value. -/
structure SettingTable where
  values : Std.TreeMap String SettingValue

namespace SettingTable

def empty : SettingTable :=
  ⟨∅⟩

def set (t : SettingTable) (key : String) (value : SettingValue) : SettingTable :=
  ⟨t.values.insert key value⟩

def get (t : SettingTable) (key : String) : Option SettingValue :=
  t.values[key]?

def keys (t : SettingTable) : List String :=
  t.values.keys

def toSource (t : SettingTable) : SettingSource :=
  ⟨t.get, t.keys⟩

theorem get_set (t : SettingTable) (key other : String) (value : SettingValue) :
    (t.set key value).get other = if key = other then some value else t.get other := by
  simp [get, set, Std.TreeMap.getElem?_insert]

end SettingTable

end Wiring
