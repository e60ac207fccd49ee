import LiberaLink.Avb.Settings

/-!
# AVB settings, saved and loaded

* `savedEntries`                  the entries of a saved file;
* `saved_lines`                   each line of it is valid, with these entries;
* `SettingLine.oneLine`           the id of a line has no line break;
* `avb_settings_round_trip_iff`   **which setups come back from a file**.
-/

namespace LiberaLink
open Text IStream

/-! ## the lines of a saved file -/

theorem quotedId_quote (text : List Char) : QuotedId (quote '"' '\\' text) text :=
  ⟨_, rfl, quotes_escaped text⟩

theorem settingLine_deviceLine {config : AvbDeviceConfiguration} (hne : config.deviceUid ≠ "")
    (hlow : 1 ≤ config.preferredPointRate) (hhigh : config.preferredPointRate ≤ 2 ^ 32 - 1) :
    SettingLine (deviceLine config) (some (.device config)) := by
  have hid : config.deviceUid.toList ≠ [] := fun h => hne (String.toList_inj.mp h)
  have hline : deviceLine config = [] ++ ("device".toList ++ ([' '] ++
      (quote '"' '\\' config.deviceUid.toList ++
        ([' '] ++ (Nat.toDigits 10 config.preferredPointRate ++ []))))) := by
    unfold deviceLine
    rw [Nat.toString_eq_repr, Nat.toList_repr, List.append_nil]
    rfl
  have hentry : (some (.device config) : Option AvbSetting) =
      some (.device ⟨.ofList config.deviceUid.toList, (config.preferredPointRate : Int).toNat⟩) := by
    rw [String.ofList_toList, Int.toNat_natCast]
  rw [hline, hentry]
  exact .device blank_nil (by decide) (by decide) (.inl (quotedId_quote _)) hid (by decide)
    (isNumber_toDigits _) (by omega) (by omega) blank_nil

theorem settingLine_halfXYLine {id : String} (hne : id ≠ "") :
    SettingLine (halfXYLine id) (some (.halfXY id)) := by
  have hid : id.toList ≠ [] := fun h => hne (String.toList_inj.mp h)
  have hline : halfXYLine id =
      [] ++ ("half-xy".toList ++ ([' '] ++ (quote '"' '\\' id.toList ++ []))) := by
    unfold halfXYLine
    rw [List.append_nil]
    rfl
  have hentry : (some (.halfXY id) : Option AvbSetting) = some (.halfXY (.ofList id.toList)) := by
    rw [String.ofList_toList]
  rw [hline, hentry]
  exact .halfXY blank_nil (by decide) (by decide) (.inl (quotedId_quote _)) hid blank_nil

/-- the entries of a saved file, in order -/
def savedEntries (configs : List AvbDeviceConfiguration) (ids : List String) : List (Option AvbSetting) :=
  none :: (configs.map (fun config => some (.device config)) ++ ids.map fun id => some (.halfXY id))

theorem devicesOf_savedEntries (configs : List AvbDeviceConfiguration) (ids : List String) :
    devicesOf (savedEntries configs ids) = configs := by
  unfold devicesOf savedEntries
  rw [List.filterMap_cons, List.filterMap_append, List.filterMap_map, List.filterMap_map]
  simp

theorem halfXYOf_savedEntries (configs : List AvbDeviceConfiguration) (ids : List String) :
    halfXYOf (savedEntries configs ids) = ids := by
  unfold halfXYOf savedEntries
  rw [List.filterMap_cons, List.filterMap_append, List.filterMap_map, List.filterMap_map]
  simp

/-- the entry is on one line -/
def AvbSetting.OneLine : AvbSetting → Prop
  | .device config => '\n' ∉ config.deviceUid.toList
  | .halfXY id => '\n' ∉ id.toList

theorem mem_of_mem_id {text id : List Char} {c : Char} (h : QuotedId text id ∨ BareId text id)
    (hc : c ∈ id) : c ∈ text := by
  rcases h with ⟨body, rfl, hquotes⟩ | ⟨rfl, -⟩
  · exact List.mem_cons_of_mem _ (List.mem_append_left _ (hquotes.mem hc))
  · exact hc

/-- the id of a line has no line break -/
theorem SettingLine.oneLine {line : List Char} {setting : AvbSetting}
    (h : SettingLine line (some setting))
    (hline : '\n' ∉ line) : setting.OneLine := by
  cases h with
  | device _ _ _ hid =>
    simp only [List.mem_append, not_or] at hline
    intro hmem
    rw [String.toList_ofList] at hmem
    exact hline.2.2.2.1 (mem_of_mem_id (hid.imp_right And.left) hmem)
  | halfXY _ _ _ hid =>
    simp only [List.mem_append, not_or] at hline
    intro hmem
    rw [String.toList_ofList] at hmem
    exact hline.2.2.2.1 (mem_of_mem_id hid hmem)

section
variable {σ : Type} {manager : AvbManager σ} {setup : σ}
  (hdevices : ∀ config ∈ manager.configuredDevices setup,
    config.deviceUid ≠ "" ∧ 1 ≤ config.preferredPointRate ∧ config.preferredPointRate ≤ 2 ^ 32 - 1)
  (hids : ∀ id ∈ manager.halfXYOutputControllers setup, id ≠ "")
include hdevices hids

theorem saved_lines : List.Forall₂ SettingLine (avbSettingsLines manager setup)
    (savedEntries (manager.configuredDevices setup) (manager.halfXYOutputControllers setup)) := by
  refine .cons (@SettingLine.comment [] _ blank_nil) (List.rel_append ?_ ?_)
  · rw [List.forall₂_map_left_iff, List.forall₂_map_right_iff, List.forall₂_same]
    intro config hconfig
    obtain ⟨hne, hlow, hhigh⟩ := hdevices config hconfig
    exact settingLine_deviceLine hne hlow hhigh
  · rw [List.forall₂_map_left_iff, List.forall₂_map_right_iff, List.forall₂_same]
    exact fun id hid => settingLine_halfXYLine (hids id hid)

end

theorem newline_not_mem_deviceLine {config : AvbDeviceConfiguration}
    (h : '\n' ∉ config.deviceUid.toList) :
    '\n' ∉ deviceLine config := by
  unfold deviceLine
  simp only [List.mem_append, List.mem_cons, not_or]
  refine ⟨by decide, fun hmem => h (mem_of_mem_quote hmem (by decide) (by decide)), by decide,
    fun hmem => ?_⟩
  rw [Nat.toString_eq_repr, Nat.toList_repr] at hmem
  exact absurd (Nat.isDigit_of_mem_toDigits (by decide) (by decide) hmem) (by decide)

theorem newline_not_mem_halfXYLine {id : String} (h : '\n' ∉ id.toList) : '\n' ∉ halfXYLine id := by
  unfold halfXYLine
  simp only [List.mem_append, not_or]
  exact ⟨by decide, fun hmem => h (mem_of_mem_quote hmem (by decide) (by decide))⟩

/-! ## what comes back -/

section
variable {σ : Type} (manager : AvbManager σ) (path : String)

/-- **What is saved comes back** exactly if no id has a line break in it. -/
theorem avb_settings_round_trip_iff (configs : List AvbDeviceConfiguration) (ids : List String) (s s' : σ)
    (hdevices : ∀ config ∈ configs,
      config.deviceUid ≠ "" ∧ 1 ≤ config.preferredPointRate ∧ config.preferredPointRate ≤ 2 ^ 32 - 1)
    (hids : ∀ id ∈ ids, id ≠ "") :
    (∃ text, saveAvbSettings manager path true
        (manager.setHalfXYOutputControllers ids (manager.setConfiguredDevices configs s)) = .ok text ∧
      let load := loadAvbSettings manager path (.opened text false) s'
      load.ok = true ∧ manager.configuredDevices load.setup = configs ∧
        manager.halfXYOutputControllers load.setup = ids) ↔
      (∀ config ∈ configs, '\n' ∉ config.deviceUid.toList) ∧ ∀ id ∈ ids, '\n' ∉ id.toList := by
  have hconfigs := manager.configuredDevices_setHalfXY ids (manager.setConfiguredDevices configs s)
  rw [manager.configuredDevices_set] at hconfigs
  have hcontrollers := manager.halfXYOutputControllers_set ids (manager.setConfiguredDevices configs s)
  have hlines := saved_lines (by rw [hconfigs]; exact hdevices) (by rw [hcontrollers]; exact hids)
  rw [hconfigs, hcontrollers] at hlines
  constructor
  · rintro ⟨text, -, hok, hdev, hhalf⟩
    rcases valid_or_first (splitLines '\n' text) with
      ⟨entries, hentries⟩ | ⟨before, line, after, hfirst, hbefore, hline⟩
    · rw [loadAvbSettings_ok manager path hentries] at hdev hhalf
      rw [manager.configuredDevices_setHalfXY, manager.configuredDevices_set] at hdev
      rw [manager.halfXYOutputControllers_set] at hhalf
      -- each entry was read from a line, and lines have no line break
      have hone : ∀ setting, some setting ∈ entries → setting.OneLine := by
        intro setting hsetting
        obtain ⟨line, hmem, hline⟩ := (lines_entries hentries).2 _ hsetting
        exact hline.oneLine (sep_not_mem_splitLines hmem)
      refine ⟨fun config hconfig => ?_, fun id hid => ?_⟩
      · rw [← hdev] at hconfig
        obtain ⟨e, he, heq⟩ := List.mem_filterMap.mp hconfig
        rcases e with - | ⟨config'⟩ | ⟨id⟩
        · cases heq
        · obtain rfl := Option.some.inj heq
          exact hone _ he
        · cases heq
      · rw [← hhalf] at hid
        obtain ⟨e, he, heq⟩ := List.mem_filterMap.mp hid
        rcases e with - | ⟨config⟩ | ⟨id'⟩
        · cases heq
        · cases heq
        · obtain rfl := Option.some.inj heq
          exact hone _ he
    · rw [loadAvbSettings_error manager path hfirst hbefore hline] at hok
      cases hok
  · rintro ⟨hdevLines, hidLines⟩
    refine ⟨_, rfl, ?_⟩
    have hread : splitLines '\n' (joinLines '\n' (avbSettingsLines manager
        (manager.setHalfXYOutputControllers ids (manager.setConfiguredDevices configs s)))) =
        avbSettingsLines manager
          (manager.setHalfXYOutputControllers ids (manager.setConfiguredDevices configs s)) := by
      refine splitLines_joinLines fun line hline => ?_
      unfold avbSettingsLines at hline
      rw [hconfigs, hcontrollers] at hline
      rcases List.mem_cons.mp hline with rfl | hline
      · decide
      · rcases List.mem_append.mp hline with hline | hline
        · obtain ⟨config, hconfig, rfl⟩ := List.mem_map.mp hline
          exact newline_not_mem_deviceLine (hdevLines config hconfig)
        · obtain ⟨id, hid, rfl⟩ := List.mem_map.mp hline
          exact newline_not_mem_halfXYLine (hidLines id hid)
    rw [← hread] at hlines
    intro load
    have hload : load = _ := loadAvbSettings_ok manager path hlines s'
    rw [hload]
    refine ⟨rfl, ?_, ?_⟩
    · rw [manager.configuredDevices_setHalfXY, manager.configuredDevices_set, devicesOf_savedEntries]
    · rw [manager.halfXYOutputControllers_set, halfXYOf_savedEntries]

end

/-- ids with blanks, quotes, a backslash and a hash -/
theorem avb_settings_round_trip_quotes :
    ∃ text, saveAvbSettings AvbManager.lists "avb" true
        ([⟨"#1 \\\"in\" \\ path", 96000⟩], ["avb::ch-0"]) = .ok text ∧
      let load := loadAvbSettings AvbManager.lists "avb" (.opened text false) ([], [])
      load.ok = true ∧ load.setup.1 = [⟨"#1 \\\"in\" \\ path", 96000⟩] ∧
        load.setup.2 = ["avb::ch-0"] := by
  refine (avb_settings_round_trip_iff AvbManager.lists "avb" [⟨"#1 \\\"in\" \\ path", 96000⟩] ["avb::ch-0"]
    ([], []) ([], []) ?_ ?_).mpr ⟨?_, ?_⟩
  · decide +kernel
  · decide
  · decide +kernel
  · decide +kernel

/-- An id with a line break is written on two lines, and the first of them is not valid. -/
theorem avb_settings_lost :
    ∃ text, saveAvbSettings AvbManager.lists "avb" true ([⟨"a\nb", 48000⟩], []) = .ok text ∧
      (loadAvbSettings AvbManager.lists "avb" (.opened text false) ([], [])).ok = false :=
  ⟨_, rfl, by decide +kernel⟩

end LiberaLink
