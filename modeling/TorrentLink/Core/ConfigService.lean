import TorrentLink.Core.AppSettings

/-!
# The service of the settings

The settings of the application and those of its controller lie in one file. The keys of the two and those
of the windows' state are distinct, so that saving the one leaves the others as they are.
-/

namespace TorrentLink

open Lib (KeyStore)

structure ControllerSettings where
  autoApplyDefaultTrackers : Bool
  defaultTrackers : List String
  magnetMaxInflight : Int32
  bottomStatusEnabled : Bool
  bottomStatusRefreshMs : Int32
  taskAutosaveMs : Int32
  restoreStartPaused : Bool

structure CombinedSettings (ρ : Type) where
  app : AppSettings ρ
  controller : ControllerSettings

/-- Trimmed, without empty and repeated ones, in their first order. -/
def normalizeTrackers (trackers : List String) : List String :=
  trackers.foldl (fun out t =>
    let t := trimmed t
    if t ≠ "" && !out.contains t then out ++ [t] else out) []

variable {ρ : Type} (env : SettingsEnv ρ) (file : SettingsFile)

def loadControllerSettings : ControllerSettings where
  autoApplyDefaultTrackers := file.bool "trackers/auto_apply" false
  defaultTrackers := normalizeTrackers ((file "trackers/default_list").getD [])
  magnetMaxInflight := stdClamp (env.int file "ui/magnet/max_inflight" 8) 5 10
  bottomStatusEnabled := file.bool "ui/status/enabled" true
  bottomStatusRefreshMs := stdClamp (env.int file "ui/status/refresh_ms" 1000) 500 5000
  taskAutosaveMs := stdClamp (env.int file "task/autosave_ms" 5000) 2000 60000
  restoreStartPaused := file.bool "task/restore_start_paused" true

/-- The values that `saveControllerSettings` sets, in its order. -/
def ControllerSettings.entries (s : ControllerSettings) : List (String × List String) :=
  [("trackers/auto_apply", ofBool s.autoApplyDefaultTrackers),
    ("trackers/default_list", normalizeTrackers s.defaultTrackers),
    ("ui/magnet/max_inflight", [toString s.magnetMaxInflight]),
    ("ui/status/enabled", ofBool s.bottomStatusEnabled),
    ("ui/status/refresh_ms", [toString s.bottomStatusRefreshMs]),
    ("task/autosave_ms", [toString s.taskAutosaveMs]),
    ("task/restore_start_paused", ofBool s.restoreStartPaused)]

def saveControllerSettings (s : ControllerSettings) : SettingsFile := file.putAll s.entries

variable [LT ρ] [DecidableLT ρ] in
def loadCombinedSettings : CombinedSettings ρ :=
  ⟨AppSettings.load env file, loadControllerSettings env file⟩

def saveCombinedSettings (s : CombinedSettings ρ) : SettingsFile :=
  saveControllerSettings (AppSettings.save env file s.app) s.controller

/-- The keys under which the windows keep their state. -/
def uiStateKeys : List String :=
  ["ui/main_window/geometry", "ui/main_window/state", "ui/main_window/tab",
    "ui/main_window/task_header_state", "ui/main_window/sort_key", "ui/main_window/sort_order",
    "ui/main_window/filter", "ui/main_window/bottom_status_bar_visible",
    "ui/main_window/transfer_detail_panel_visible", "ui/log_center/geometry", "ui/log_center/level",
    "ui/log_center/keyword"]

/-- The settings with other default trackers, on or off. -/
def ControllerSettings.withDefaultTrackers (s : ControllerSettings) (enabled : Bool)
    (trackers : List String) : ControllerSettings :=
  { s with autoApplyDefaultTrackers := enabled, defaultTrackers := trackers }

/-- The settings with another theme. -/
def CombinedSettings.withTheme (s : CombinedSettings ρ) (theme : String) : CombinedSettings ρ :=
  { s with app := s.app.withTheme theme }

/-- The settings with other cookies. -/
def CombinedSettings.withCookies (s : CombinedSettings ρ) (header rules : String) :
    CombinedSettings ρ :=
  { s with app := s.app.withCookies header rules }

/-! ### Trackers -/

/-- A list that normalizing leaves as it is. -/
structure CleanTrackers (trackers : List String) : Prop where
  nodup : trackers.Nodup
  trimmed_eq : ∀ t ∈ trackers, trimmed t = t
  ne_empty : ∀ t ∈ trackers, t ≠ ""

theorem CleanTrackers.nil : CleanTrackers [] := ⟨List.nodup_nil, by simp, by simp⟩

theorem CleanTrackers.concat {trackers : List String} (h : CleanTrackers trackers) {t : String}
    (hnew : t ∉ trackers) (htrimmed : trimmed t = t) (hne : t ≠ "") : CleanTrackers (trackers ++ [t]) where
  nodup := by
    rw [List.nodup_append]
    refine ⟨h.nodup, by simp, ?_⟩
    intro a ha b hb hab
    rw [List.mem_singleton] at hb
    exact hnew (hb ▸ hab ▸ ha)
  trimmed_eq := by
    intro u hu
    rcases List.mem_append.mp hu with hu | hu
    · exact h.trimmed_eq u hu
    · rwa [List.mem_singleton.mp hu]
  ne_empty := by
    intro u hu
    rcases List.mem_append.mp hu with hu | hu
    · exact h.ne_empty u hu
    · rwa [List.mem_singleton.mp hu]

theorem CleanTrackers.foldl {step : List String → String → List String}
    (hstep : ∀ out t, CleanTrackers out → CleanTrackers (step out t)) (trackers : List String) :
    ∀ out, CleanTrackers out → CleanTrackers (trackers.foldl step out) := by
  induction trackers with
  | nil => intro out h; exact h
  | cons t trackers ih =>
    intro out h
    exact ih _ (hstep out t h)

theorem cleanTrackers_normalizeTrackers (trackers : List String) :
    CleanTrackers (normalizeTrackers trackers) := by
  refine CleanTrackers.foldl (fun out t h => ?_) trackers [] .nil
  dsimp only
  split
  · next hnew =>
    simp only [Bool.and_eq_true, decide_eq_true_eq, Bool.not_eq_true', List.contains_eq_mem,
      decide_eq_false_iff_not] at hnew
    exact h.concat hnew.2 (trimmed_trimmed t) hnew.1
  · exact h

theorem normalizeTrackers_of_clean {trackers : List String} (h : CleanTrackers trackers) :
    normalizeTrackers trackers = trackers := by
  -- what was kept and what is to come are clean together
  have hfold (rest : List String) : ∀ out, CleanTrackers (out ++ rest) →
      rest.foldl (fun out t =>
        let t := trimmed t
        if t ≠ "" && !out.contains t then out ++ [t] else out) out = out ++ rest := by
    induction rest with
    | nil => intro out _; simp
    | cons t rest ih =>
      intro out hclean
      have hmem : t ∈ out ++ t :: rest := by simp
      have hnew : t ∉ out := fun hold =>
        (List.nodup_append.mp hclean.nodup).2.2 t hold t List.mem_cons_self rfl
      rw [List.foldl_cons]
      simp only [hclean.trimmed_eq t hmem]
      rw [if_pos (by simp [hnew, hclean.ne_empty t hmem])]
      simpa using ih (out ++ [t]) (by simpa using hclean)
  exact hfold trackers [] h

/-! ### What the file keeps -/

/-- The controller's settings that a save of `s` leaves. -/
def ControllerSettings.kept (s : ControllerSettings) : ControllerSettings where
  autoApplyDefaultTrackers := s.autoApplyDefaultTrackers
  defaultTrackers := normalizeTrackers s.defaultTrackers
  magnetMaxInflight := stdClamp s.magnetMaxInflight 5 10
  bottomStatusEnabled := s.bottomStatusEnabled
  bottomStatusRefreshMs := stdClamp s.bottomStatusRefreshMs 500 5000
  taskAutosaveMs := stdClamp s.taskAutosaveMs 2000 60000
  restoreStartPaused := s.restoreStartPaused

variable [LT ρ] [DecidableLT ρ] in
def CombinedSettings.kept (s : CombinedSettings ρ) : CombinedSettings ρ :=
  ⟨s.app.kept env, s.controller.kept⟩

variable {env}

theorem ControllerSettings.nodup_entries (s : ControllerSettings) :
    (s.entries.map Prod.fst).Nodup := by
  simp [entries]

/-- The settings of the application have other keys than the controller's. -/
theorem entries_disjoint (s : AppSettings ρ) (c : ControllerSettings) :
    ∀ e ∈ s.entries env, e.1 ∉ c.entries.map Prod.fst := by
  simp [AppSettings.entries, ControllerSettings.entries]

theorem loadControllerSettings_congr {file file' : SettingsFile} {s : ControllerSettings}
    (h : ∀ e ∈ s.entries, file e.1 = file' e.1) :
    loadControllerSettings env file = loadControllerSettings env file' := by
  simp only [ControllerSettings.entries, List.forall_mem_cons] at h
  unfold loadControllerSettings
  simp only [SettingsFile.bool, SettingsEnv.int, h]

theorem loadControllerSettings_save [LT ρ] (h : env.Lawful) (s : ControllerSettings) :
    loadControllerSettings env (saveControllerSettings file s) = s.kept := by
  have stored : ∀ e ∈ s.entries, saveControllerSettings file s e.1 = some e.2 :=
    fun _ he => KeyStore.putAll_of_mem s.nodup_entries he
  simp only [ControllerSettings.entries, List.forall_mem_cons] at stored
  unfold loadControllerSettings ControllerSettings.kept
  simp only [SettingsFile.bool, SettingsEnv.int, ofBool, stored, valueOf_some, toBool_ofBool,
    h.toInt_toString, Option.getD_some, normalizeTrackers_of_clean (cleanTrackers_normalizeTrackers _)]

theorem kept_loadControllerSettings :
    (loadControllerSettings env file).kept = loadControllerSettings env file := by
  unfold loadControllerSettings ControllerSettings.kept
  simp (disch := decide) only [stdClamp_stdClamp,
    normalizeTrackers_of_clean (cleanTrackers_normalizeTrackers _)]

/-- The windows' state lies under keys of its own. -/
theorem entries_notMem_uiStateKeys (s : AppSettings ρ) :
    ∀ e ∈ s.entries env, e.1 ∉ uiStateKeys := by
  simp [AppSettings.entries, uiStateKeys]

theorem ControllerSettings.entries_notMem_uiStateKeys (s : ControllerSettings) :
    ∀ e ∈ s.entries, e.1 ∉ uiStateKeys := by
  simp [entries, uiStateKeys]

variable [LT ρ] [DecidableLT ρ]

theorem ControllerSettings.cleanTrackers {s : ControllerSettings} (h : s.kept = s) :
    CleanTrackers s.defaultTrackers := by
  have htrackers : normalizeTrackers s.defaultTrackers = s.defaultTrackers :=
    congrArg ControllerSettings.defaultTrackers h
  rw [← htrackers]
  exact cleanTrackers_normalizeTrackers s.defaultTrackers

theorem ControllerSettings.kept_withDefaultTrackers {s : ControllerSettings} (h : s.kept = s)
    (enabled : Bool) {trackers : List String} (hclean : CleanTrackers trackers) :
    (s.withDefaultTrackers enabled trackers).kept = s.withDefaultTrackers enabled trackers := by
  have hsame : (s.withDefaultTrackers enabled trackers).kept =
      s.kept.withDefaultTrackers enabled (normalizeTrackers trackers) := rfl
  rw [hsame, h, normalizeTrackers_of_clean hclean]

theorem CombinedSettings.kept_withTheme (h : env.Lawful) (s : CombinedSettings ρ) {theme : String}
    (htheme : theme ∈ uiThemes) : (s.withTheme theme).kept env = (s.kept env).withTheme theme := by
  unfold kept withTheme
  rw [AppSettings.kept_withTheme h s.app htheme]

theorem CombinedSettings.kept_withCookies (s : CombinedSettings ρ) (header rules : String) :
    (s.withCookies header rules).kept env = (s.kept env).withCookies header rules := by
  unfold kept withCookies
  rw [AppSettings.kept_withCookies]

theorem kept_loadCombinedSettings (h : env.Lawful) :
    (loadCombinedSettings env file).kept env = loadCombinedSettings env file := by
  unfold loadCombinedSettings CombinedSettings.kept
  rw [AppSettings.kept_load h, kept_loadControllerSettings]

/-- Saving the settings of the application leaves the controller's. -/
theorem loadCombinedSettings_saveApp (h : env.Lawful) (s : AppSettings ρ) :
    loadCombinedSettings env (AppSettings.save env file s) =
      ⟨s.kept env, loadControllerSettings env file⟩ := by
  have hcontroller : loadControllerSettings env (AppSettings.save env file s) =
      loadControllerSettings env file := by
    apply loadControllerSettings_congr (s := loadControllerSettings env file)
    intro e he
    apply KeyStore.putAll_of_notMem
    intro hkey
    obtain ⟨e', he', hsame⟩ := List.mem_map.mp hkey
    apply entries_disjoint s (loadControllerSettings env file) e' he'
    rw [hsame]
    exact List.mem_map_of_mem he
  unfold loadCombinedSettings
  rw [AppSettings.load_save h, hcontroller]

theorem loadCombinedSettings_saveCombinedSettings (h : env.Lawful) (s : CombinedSettings ρ) :
    loadCombinedSettings env (saveCombinedSettings env file s) = s.kept env := by
  have happ : AppSettings.load env (saveCombinedSettings env file s) =
      AppSettings.load env (AppSettings.save env file s.app) := by
    apply AppSettings.load_congr (s := s.app)
    intro e he
    exact KeyStore.putAll_of_notMem (entries_disjoint s.app s.controller e he)
  unfold loadCombinedSettings CombinedSettings.kept
  rw [happ, AppSettings.load_save h]
  exact congrArg _ (loadControllerSettings_save _ h s.controller)

/-- Saving the windows' state leaves all settings. -/
theorem loadCombinedSettings_update {key : String} (hkey : key ∈ uiStateKeys) (texts : List String) :
    loadCombinedSettings env (Function.update file key (some texts)) = loadCombinedSettings env file := by
  have happ : AppSettings.load env (Function.update file key (some texts)) =
      AppSettings.load env file := by
    apply AppSettings.load_congr (s := AppSettings.load env file)
    intro e he
    apply Function.update_of_ne
    rintro rfl
    exact entries_notMem_uiStateKeys _ e he hkey
  have hcontroller : loadControllerSettings env (Function.update file key (some texts)) =
      loadControllerSettings env file := by
    apply loadControllerSettings_congr (s := loadControllerSettings env file)
    intro e he
    apply Function.update_of_ne
    rintro rfl
    exact ControllerSettings.entries_notMem_uiStateKeys _ e he hkey
  unfold loadCombinedSettings
  rw [happ, hcontroller]

end TorrentLink
