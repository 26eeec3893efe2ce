import Wiring.Proofs.Text.Case
import Wiring.Settings.Environment
import Wiring.Settings.Table

namespace Wiring

/-- The source serves every setting that it lists, and lists once each of the settings asked for
that it serves. -/
structure SettingSource.Agrees (s : SettingSource) (asked : String → Prop) : Prop where
  served : ∀ key ∈ s.keys, (s.get key).isSome
  listed : ∀ key, asked key → (s.get key).isSome → s.keys.count key = 1

namespace SettingTable

variable {t : SettingTable} {key : String}

theorem mem_keys_iff : key ∈ t.keys ↔ (t.get key).isSome := by
  rw [keys, Std.TreeMap.mem_keys, get, Std.TreeMap.isSome_getElem?_eq_contains,
    Std.TreeMap.contains_iff_mem]

theorem keys_pairwise_lt (t : SettingTable) : t.keys.Pairwise (· < ·) := by
  have hordered : t.values.keys.Pairwise fun a b => compare a b = .lt := Std.TreeMap.ordered_keys
  exact hordered.imp compareOfLessAndEq_eq_lt.mp

theorem agrees (t : SettingTable) : t.toSource.Agrees fun _ => True where
  served _ hkey := mem_keys_iff.mp hkey
  listed _ _ hserved := List.count_eq_one_of_mem Std.TreeMap.nodup_keys (mem_keys_iff.mpr hserved)

def setAll (t : SettingTable) (settings : List (String × SettingValue)) : SettingTable :=
  settings.foldl (fun t setting => t.set setting.1 setting.2) t

theorem isSome_get_setAll (settings : List (String × SettingValue)) :
    ((t.setAll settings).get key).isSome ↔ key ∈ settings.map Prod.fst ∨ (t.get key).isSome := by
  induction settings generalizing t with
  | nil => simp [setAll]
  | cons setting rest ih =>
      rw [show t.setAll (setting :: rest) = (t.set setting.1 setting.2).setAll rest from rfl, ih,
        get_set, List.map_cons, List.mem_cons]
      by_cases hkey : setting.1 = key
      · simp [hkey]
      · simp [hkey, Ne.symm hkey]

theorem mem_keys_setAll_empty (settings : List (String × SettingValue)) :
    key ∈ (empty.setAll settings).keys ↔ key ∈ settings.map Prod.fst := by
  rw [mem_keys_iff, isSome_get_setAll]
  simp [get, empty]

end SettingTable

namespace EnvironmentSettings

variable {e : EnvironmentSettings} {name key rest : String}

def names (e : EnvironmentSettings) : List String :=
  e.environment.map Prod.fst

/-- No variable that is a setting has a lower-case letter after the qualifier. -/
def Capitalized (e : EnvironmentSettings) : Prop :=
  ∀ rest, e.lead ++ rest ∈ e.names → Text.upper rest = rest

theorem isSome_get : (e.get key).isSome ↔ e.variableName key ∈ e.names := by
  rw [get, Option.isSome_map, List.lookup_isSome_iff, names, List.mem_map]
  exact exists_congr fun _ => and_congr_right fun _ => beq_iff_eq.trans eq_comm

theorem settingName?_eq_some_iff :
    e.settingName? name = some key ↔ ∃ rest, name = e.lead ++ rest ∧ Text.lower rest = key := by
  unfold settingName?
  constructor
  · intro h
    split at h
    next hlead =>
      obtain ⟨rest, hrest⟩ := List.isPrefixOf_iff_prefix.mp hlead
      refine ⟨String.ofList rest, String.toList_injective (by simp [hrest]), ?_⟩
      rw [← hrest, ← String.length_toList, List.drop_left] at h
      exact Option.some.inj h
    next => cases h
  · rintro ⟨rest, rfl, rfl⟩
    have hlead : e.lead.toList.isPrefixOf (e.lead ++ rest).toList = true := by
      rw [String.toList_append]
      exact List.isPrefixOf_iff_prefix.mpr (List.prefix_append _ _)
    rw [if_pos hlead, String.toList_append, ← String.length_toList, List.drop_left,
      String.ofList_toList]

theorem mem_keys_iff :
    key ∈ e.keys ↔ ∃ rest, e.lead ++ rest ∈ e.names ∧ Text.lower rest = key := by
  simp only [keys, List.mem_filterMap, settingName?_eq_some_iff, names, List.mem_map]
  constructor
  · rintro ⟨entry, hentry, rest, hname, hkey⟩
    exact ⟨rest, ⟨entry, hentry, hname⟩, hkey⟩
  · rintro ⟨rest, ⟨entry, hentry, hname⟩, hkey⟩
    exact ⟨entry, hentry, rest, hname, hkey⟩

theorem count_keys (e : EnvironmentSettings) (key : String) :
    e.keys.count key = e.names.countP fun name => e.settingName? name == some key := by
  rw [keys, List.count_filterMap, names, List.countP_map]
  rfl

theorem eq_of_count_keys (h : e.keys.count key = 1) {other : String} (hname : name ∈ e.names)
    (hother : other ∈ e.names) (hkey : e.settingName? name = some key)
    (hotherKey : e.settingName? other = some key) : name = other := by
  rw [count_keys, List.countP_eq_length_filter, List.length_eq_one_iff] at h
  obtain ⟨only, honly⟩ := h
  have hmem {n : String} (hn : n ∈ e.names) (hkey : e.settingName? n = some key) : n = only := by
    rw [← List.mem_singleton, ← honly, List.mem_filter]
    exact ⟨hn, beq_iff_eq.mpr hkey⟩
  rw [hmem hname hkey, hmem hother hotherKey]

theorem mem_keys_of_served (hkey : Text.IsAscii key) (hlower : Text.lower key = key)
    (hserved : (e.get key).isSome) : key ∈ e.keys := by
  refine mem_keys_iff.mpr ⟨Text.upper key, isSome_get.mp hserved, ?_⟩
  rw [hkey.lower_upper, hlower]

section

variable (hascii : ∀ name ∈ e.names, Text.IsAscii name)

include hascii

theorem isAscii_of_mem_names (hname : e.lead ++ rest ∈ e.names) : Text.IsAscii rest :=
  (Text.IsAscii.append_iff.mp (hascii _ hname)).2

theorem isAscii_of_mem_keys (hkey : key ∈ e.keys) : Text.IsAscii key := by
  obtain ⟨rest, hname, rfl⟩ := mem_keys_iff.mp hkey
  exact (isAscii_of_mem_names hascii hname).lower

theorem variableName_lower (hname : e.lead ++ rest ∈ e.names) :
    e.variableName (Text.lower rest) = e.lead ++ Text.upper rest := by
  rw [variableName, (isAscii_of_mem_names hascii hname).upper_lower]

/-- A source that agrees cannot hold a variable in mixed case: it is either not served, or listed
twice, next to the one in upper case that is served. -/
theorem capitalized_of_agrees
    (h : e.toSource.Agrees fun key => Text.IsAscii key ∧ Text.lower key = key) :
    e.Capitalized := by
  intro rest hname
  have hrest : Text.IsAscii rest := isAscii_of_mem_names hascii hname
  have hserved : (e.get (Text.lower rest)).isSome :=
    h.served _ (mem_keys_iff.mpr ⟨rest, hname, rfl⟩)
  have hcapital : e.lead ++ Text.upper rest ∈ e.names := by
    rw [← variableName_lower hascii hname]
    exact isSome_get.mp hserved
  have hsame : e.lead ++ Text.upper rest = e.lead ++ rest :=
    eq_of_count_keys (h.listed _ ⟨hrest.lower, hrest.lower_lower⟩ hserved) hcapital hname
      (settingName?_eq_some_iff.mpr ⟨_, rfl, hrest.lower_upper⟩)
      (settingName?_eq_some_iff.mpr ⟨_, rfl, rfl⟩)
  exact (String.append_right_inj _).mp hsame

theorem agrees_of_capitalized (hdistinct : e.names.Nodup) (h : e.Capitalized) :
    e.toSource.Agrees fun key => Text.IsAscii key ∧ Text.lower key = key where
  served key hkey := by
    obtain ⟨rest, hname, rfl⟩ := mem_keys_iff.mp hkey
    refine isSome_get.mpr ?_
    rwa [variableName_lower hascii hname, h rest hname]
  listed key hkey hserved := by
    have honly : ∀ name ∈ e.names,
        (e.settingName? name == some key) = true ↔ (name == e.variableName key) = true := by
      intro name hname
      rw [beq_iff_eq, beq_iff_eq, settingName?_eq_some_iff]
      constructor
      · rintro ⟨rest, rfl, rfl⟩
        rw [variableName_lower hascii hname, h rest hname]
      · rintro rfl
        exact ⟨Text.upper key, rfl, by rw [hkey.1.lower_upper, hkey.2]⟩
    change e.keys.count key = 1
    rw [count_keys, List.countP_congr honly]
    exact List.count_eq_one_of_mem hdistinct (isSome_get.mp hserved)

end

/-- An environment whose variables have ASCII names lists what it serves exactly if all its settings
are in upper case. In any case, of the lower-case names that it serves it lists the ASCII ones and
no others. A table always lists what it serves, in order. -/
theorem agrees_iff_capitalized (e : EnvironmentSettings) (hdistinct : e.names.Nodup)
    (hascii : ∀ name ∈ e.names, Text.IsAscii name) (settings : List (String × SettingValue)) :
    (e.toSource.Agrees (fun key => Text.IsAscii key ∧ Text.lower key = key) ↔ e.Capitalized) ∧
      (∀ key, Text.lower key = key → (e.get key).isSome →
        (key ∈ e.keys ↔ Text.IsAscii key)) ∧
      ((SettingTable.empty.setAll settings).toSource.Agrees (fun _ => True) ∧
        (SettingTable.empty.setAll settings).keys.Pairwise (· < ·) ∧
        ∀ key, key ∈ (SettingTable.empty.setAll settings).keys ↔
          key ∈ settings.map Prod.fst) := by
  refine ⟨⟨capitalized_of_agrees hascii, agrees_of_capitalized hascii hdistinct⟩, ?_,
    SettingTable.agrees _, SettingTable.keys_pairwise_lt _,
    fun _ => SettingTable.mem_keys_setAll_empty settings⟩
  intro key hlower hserved
  exact ⟨isAscii_of_mem_keys hascii, fun hkey => mem_keys_of_served hkey hlower hserved⟩

end EnvironmentSettings

namespace Sample

def twoModes : EnvironmentSettings :=
  ⟨[("APP_MODE", "fast"), ("APP_mode", "slow")], some "app"⟩

/-- A setting that two lower-case names ask for, `ss` and `ß`. -/
def doubleS : EnvironmentSettings :=
  ⟨[("SS", "x")], none⟩

/-- Of the two modes one is served and both are listed; of the two names of the other setting one is
listed and both are served. -/
theorem listing_disagrees :
    (twoModes.names.Nodup ∧ (∀ name ∈ twoModes.names, Text.IsAscii name) ∧ Text.IsAscii "app" ∧
      ¬ twoModes.toSource.Agrees fun key => Text.lower key = key) ∧
    (doubleS.names.Nodup ∧ (∀ name ∈ doubleS.names, Text.IsAscii name) ∧
      ¬ doubleS.toSource.Agrees fun key => Text.lower key = key) := by
  refine ⟨⟨by decide, by decide, by decide, fun h => ?_⟩, by decide, by decide, fun h => ?_⟩
  · have hcount : twoModes.keys.count "mode" = 1 := h.listed "mode" (by decide) (by decide)
    exact absurd hcount (by decide)
  · have hcount : doubleS.keys.count "ß" = 1 := h.listed "ß" (by decide) (by decide)
    exact absurd hcount (by decide)

def oneMode : EnvironmentSettings :=
  ⟨[("APP_MODE", "fast"), ("HOME", "/")], some "app"⟩

theorem oneMode_capitalized : oneMode.Capitalized := by
  intro rest hname
  have hnames : oneMode.names = [oneMode.lead ++ "MODE", "HOME"] := by decide
  rw [hnames, List.mem_cons, List.mem_singleton] at hname
  rcases hname with hmode | hhome
  · rw [(String.append_right_inj _).mp hmode]
    decide
  · have hhead := congrArg (fun s : String => s.toList.head?) hhome
    rw [String.toList_append] at hhead
    cases hhead

theorem mode_listed_as_served :
    oneMode.names.Nodup ∧ (∀ name ∈ oneMode.names, Text.IsAscii name) ∧
      oneMode.toSource.Agrees fun key => Text.IsAscii key ∧ Text.lower key = key := by
  have hdistinct : oneMode.names.Nodup := by decide
  have hascii : ∀ name ∈ oneMode.names, Text.IsAscii name := by decide
  obtain ⟨hagrees, -⟩ := EnvironmentSettings.agrees_iff_capitalized oneMode hdistinct hascii []
  exact ⟨hdistinct, hascii, hagrees.mpr oneMode_capitalized⟩

end Sample

end Wiring
