import TorrentLink.Base.InputSanitizer
import TorrentLink.Core.ConfigService
import TorrentLink.Core.SaveFolder

/-!
# The settings and the controller's copy of them

The controller works on a copy of the settings and writes it back as a whole: when the default trackers
change, and at the end of the program. The windows write the file themselves, and all but the theme menu
then have the controller read it again. So the two can differ in the theme, and in nothing else. A write of
the file is taken to succeed, and a dialog that is cancelled is no event.
-/

namespace TorrentLink

variable {ρ : Type}

namespace App

/-- The file, and what the controller holds of it. -/
structure SettingsState (ρ : Type) where
  file : SettingsFile
  cachedAppSettings : AppSettings ρ
  controller : ControllerSettings

/-- What happens to the settings: from the preferences, the cookie dialog, the theme menu, the default
trackers of a task's menu, the watched IP filter, the windows that keep their state, and a restart. -/
inductive SettingsEvent (ρ : Type)
  | preferences (toSave : CombinedSettings ρ)
  | cookies (header rules : String)
  | theme (word : { word : String // word ∈ uiThemes })
  | defaultTrackers (enabled : Bool) (trackers : List String)
  | ipFilterFileChanged
  | uiState (key : { key : String // key ∈ uiStateKeys }) (texts : List String)
  | restart

section

variable (env : SettingsEnv ρ) (q : QtInput)

/-- `AppController::saveSettings` -/
def SettingsState.saveSettings (w : SettingsState ρ) : SettingsState ρ :=
  { w with file := saveCombinedSettings env w.file ⟨w.cachedAppSettings, w.controller⟩ }

variable [LT ρ] [DecidableLT ρ]

/-- `AppController::loadSettings` -/
def loadSettings (file : SettingsFile) : SettingsState ρ :=
  let config := loadCombinedSettings env file
  { file
    cachedAppSettings := config.app
    controller := { config.controller with
      defaultTrackers := normalizeTrackers config.controller.defaultTrackers } }

/-- What `AppController::applyRuntimeSettingsFromConfig` does to the copy. -/
def SettingsState.applyRuntimeSettingsFromConfig (w : SettingsState ρ)
    (appSettings : Option (AppSettings ρ)) : SettingsState ρ :=
  { w with cachedAppSettings := appSettings.getD (AppSettings.load env w.file) }

/-- The handler of `MainWindow::settingsChanged`. -/
def SettingsState.settingsChanged (w : SettingsState ρ) : SettingsState ρ :=
  let w := loadSettings env w.file
  w.applyRuntimeSettingsFromConfig env (some w.cachedAppSettings)

def settingsStep (w : SettingsState ρ) : SettingsEvent ρ → SettingsState ρ
  | .preferences toSave =>
    ({ w with file := saveCombinedSettings env w.file toSave } : SettingsState ρ).settingsChanged env
  | .cookies header rules =>
    let combined := (loadCombinedSettings env w.file).withCookies header rules
    ({ w with file := saveCombinedSettings env w.file combined } : SettingsState ρ).settingsChanged env
  | .theme word =>
    -- the controller is not told
    { w with file := AppSettings.save env w.file ((AppSettings.load env w.file).withTheme word) }
  | .defaultTrackers enabled trackers =>
    ({ w with
      controller := w.controller.withDefaultTrackers enabled
        (if enabled then sanitizeTrackers q (normalizeTrackers trackers)
          else w.controller.defaultTrackers) } : SettingsState ρ).saveSettings env
  | .ipFilterFileChanged => w.applyRuntimeSettingsFromConfig env none
  | .uiState key texts => { w with file := Function.update w.file key (some texts) }
  | .restart => loadSettings env (w.saveSettings env).file

/-- The program is started on a file. -/
def settingsRun (file : SettingsFile) (events : List (SettingsEvent ρ)) : SettingsState ρ :=
  events.foldl (settingsStep env q) (loadSettings env file)

/-! ### The purpose -/

/-- The settings that a start would find, and the theme of the controller's copy. -/
structure SettingsRegister (ρ : Type) where
  settings : CombinedSettings ρ
  seenTheme : String

def registerStep (r : SettingsRegister ρ) : SettingsEvent ρ → SettingsRegister ρ
  | .preferences toSave => ⟨toSave.kept env, (toSave.kept env).app.uiTheme⟩
  | .cookies header rules =>
    ⟨r.settings.withCookies header rules, r.settings.app.uiTheme⟩
  | .theme word => { r with settings := r.settings.withTheme word }
  | .defaultTrackers enabled trackers =>
    { r with
      settings := { r.settings.withTheme r.seenTheme with
        controller := r.settings.controller.withDefaultTrackers enabled
          (if enabled then sanitizeTrackers q (normalizeTrackers trackers)
            else r.settings.controller.defaultTrackers) } }
  | .ipFilterFileChanged => { r with seenTheme := r.settings.app.uiTheme }
  | .uiState _ _ => r
  | .restart => { r with settings := r.settings.withTheme r.seenTheme }

def registerRun (file : SettingsFile) (events : List (SettingsEvent ρ)) : SettingsRegister ρ :=
  events.foldl (registerStep env q)
    ⟨loadCombinedSettings env file, (AppSettings.load env file).uiTheme⟩

/-- The file holds the settings of the register, and the controller's copy differs from them in the
theme only. -/
structure Holds (w : SettingsState ρ) (r : SettingsRegister ρ) : Prop where
  file : loadCombinedSettings env w.file = r.settings
  copy : (⟨w.cachedAppSettings, w.controller⟩ : CombinedSettings ρ) =
    r.settings.withTheme r.seenTheme
  seenTheme : r.seenTheme ∈ uiThemes

variable {env q} {w : SettingsState ρ} {r : SettingsRegister ρ}

theorem cleanTrackers_sanitizeTrackers (q : QtInput) (trackers : List String) :
    CleanTrackers (sanitizeTrackers q trackers) := by
  refine CleanTrackers.foldl (fun out t h => ?_) trackers [] .nil
  dsimp only
  split
  · exact h
  · next hnew =>
    split
    · simp only [Bool.or_eq_true, decide_eq_true_eq, List.contains_eq_mem, not_or] at hnew
      exact h.concat hnew.2 (trimmed_trimmed t) hnew.1
    · exact h

/-- Whatever is loaded, the copy is the same as the file. -/
theorem holds_loadSettings (file : SettingsFile) :
    Holds env (loadSettings env file)
      ⟨loadCombinedSettings env file, (AppSettings.load env file).uiTheme⟩ where
  file := rfl
  copy := by
    have hclean := normalizeTrackers_of_clean
      (cleanTrackers_normalizeTrackers ((file "trackers/default_list").getD []))
    have hcontroller : (loadSettings env file).controller = loadControllerSettings env file := by
      unfold loadSettings loadCombinedSettings loadControllerSettings
      simp only [hclean]
    rw [hcontroller]
    show (⟨AppSettings.load env file, _⟩ : CombinedSettings ρ) =
      ⟨(AppSettings.load env file).withTheme (AppSettings.load env file).uiTheme, _⟩
    rw [AppSettings.withTheme_uiTheme]
    rfl
  seenTheme := AppSettings.uiTheme_load_mem file

theorem Holds.kept (h : env.Lawful) (hold : Holds env w r) : r.settings.kept env = r.settings := by
  rw [← hold.file]
  exact kept_loadCombinedSettings _ h

theorem Holds.controller (hold : Holds env w r) : w.controller = r.settings.controller :=
  (CombinedSettings.mk.inj hold.copy).2

/-- Saving the copy as a whole gives the file the copy's theme. -/
theorem Holds.saveCombined (h : env.Lawful) (hold : Holds env w r) (c : ControllerSettings)
    (hc : c.kept = c) :
    loadCombinedSettings env (saveCombinedSettings env w.file ⟨w.cachedAppSettings, c⟩) =
      { r.settings.withTheme r.seenTheme with controller := c } := by
  have hcopy := CombinedSettings.kept_withTheme h r.settings hold.seenTheme
  rw [hold.kept h, ← hold.copy] at hcopy
  rw [loadCombinedSettings_saveCombinedSettings _ h, ← hold.copy]
  unfold CombinedSettings.kept at hcopy ⊢
  rw [hc, (CombinedSettings.mk.inj hcopy).1]

/-- Once a save has put the settings into the file, loading them brings the copy up to date. -/
theorem holds_of_load {file : SettingsFile} {s : CombinedSettings ρ}
    (h : loadCombinedSettings env file = s) : Holds env (loadSettings env file) ⟨s, s.app.uiTheme⟩ := by
  subst h
  exact holds_loadSettings file

/-- After the signal the copy is what a start would load. -/
theorem settingsChanged_eq (w : SettingsState ρ) :
    w.settingsChanged env = loadSettings env w.file := rfl

theorem holds_settingsChanged (h : env.Lawful) (w : SettingsState ρ) (s : CombinedSettings ρ) :
    Holds env (({ w with file := saveCombinedSettings env w.file s } : SettingsState ρ).settingsChanged env)
      ⟨s.kept env, (s.kept env).app.uiTheme⟩ := by
  rw [settingsChanged_eq]
  exact holds_of_load (loadCombinedSettings_saveCombinedSettings w.file h s)

theorem Holds.step (h : env.Lawful) (hold : Holds env w r) (e : SettingsEvent ρ) :
    Holds env (settingsStep env q w e) (registerStep env q r e) := by
  cases e with
  | preferences toSave =>
    exact holds_settingsChanged h w toSave
  | cookies header rules =>
    have hchanged := holds_settingsChanged h w ((loadCombinedSettings env w.file).withCookies header rules)
    have hkept : ((loadCombinedSettings env w.file).withCookies header rules).kept env =
        r.settings.withCookies header rules := by
      rw [CombinedSettings.kept_withCookies, hold.file, hold.kept h]
    rw [hkept] at hchanged
    exact hchanged
  | theme word =>
    have happ : AppSettings.load env w.file = r.settings.app :=
      congrArg CombinedSettings.app hold.file
    have hcontroller : loadControllerSettings env w.file = r.settings.controller :=
      congrArg CombinedSettings.controller hold.file
    refine ⟨?_, hold.copy, hold.seenTheme⟩
    refine (loadCombinedSettings_saveApp w.file h _).trans ?_
    rw [happ, hcontroller, AppSettings.kept_withTheme h _ word.2,
      (CombinedSettings.mk.inj (hold.kept h)).1]
    rfl
  | defaultTrackers enabled trackers =>
    have hc : r.settings.controller.kept = r.settings.controller :=
      congrArg CombinedSettings.controller (hold.kept h)
    have hclean : CleanTrackers (if enabled then sanitizeTrackers q (normalizeTrackers trackers)
        else r.settings.controller.defaultTrackers) := by
      cases enabled with
      | false => exact ControllerSettings.cleanTrackers hc
      | true => exact cleanTrackers_sanitizeTrackers q (normalizeTrackers trackers)
    have hkept := ControllerSettings.kept_withDefaultTrackers hc enabled hclean
    unfold settingsStep registerStep SettingsState.saveSettings
    dsimp only
    rw [hold.controller]
    refine ⟨hold.saveCombined h _ hkept, ?_, hold.seenTheme⟩
    show (⟨w.cachedAppSettings, _⟩ : CombinedSettings ρ) =
      ⟨(r.settings.app.withTheme r.seenTheme).withTheme r.seenTheme, _⟩
    rw [AppSettings.withTheme_withTheme, (CombinedSettings.mk.inj hold.copy).1]
  | ipFilterFileChanged =>
    have happ : AppSettings.load env w.file = r.settings.app :=
      congrArg CombinedSettings.app hold.file
    refine ⟨hold.file, ?_, ?_⟩
    · show (⟨AppSettings.load env w.file, w.controller⟩ : CombinedSettings ρ) =
        ⟨r.settings.app.withTheme r.settings.app.uiTheme, r.settings.controller⟩
      rw [happ, hold.controller, AppSettings.withTheme_uiTheme]
    · show r.settings.app.uiTheme ∈ uiThemes
      rw [← happ]
      exact AppSettings.uiTheme_load_mem w.file
  | uiState key texts =>
    exact ⟨(loadCombinedSettings_update w.file key.2 texts).trans hold.file, hold.copy, hold.seenTheme⟩
  | restart =>
    apply holds_of_load
    have hc : w.controller.kept = w.controller := by
      rw [hold.controller]
      exact congrArg CombinedSettings.controller (hold.kept h)
    refine (hold.saveCombined h w.controller hc).trans ?_
    rw [hold.controller]
    rfl

theorem Holds.foldl (h : env.Lawful) (events : List (SettingsEvent ρ)) :
    ∀ (w : SettingsState ρ) (r : SettingsRegister ρ), Holds env w r →
      Holds env (events.foldl (settingsStep env q) w) (events.foldl (registerStep env q) r) := by
  induction events with
  | nil => intro w r hold; exact hold
  | cons e events ih =>
    intro w r hold
    exact ih _ _ (hold.step h e)

/-- Along every run the file holds the settings of the register, and the copy has another theme at most. -/
theorem settingsRun_holds (h : env.Lawful) (q : QtInput) (file : SettingsFile)
    (events : List (SettingsEvent ρ)) :
    Holds env (settingsRun env q file events) (registerRun env q file events) :=
  Holds.foldl h events _ _ (holds_loadSettings file)

/-- The dark theme, chosen in the menu. -/
def darkTheme : SettingsEvent String := .theme ⟨"dark", by decide⟩

/-- The file holds the dark theme, and the copy has the system's. -/
theorem settingsRun_holds_dark :
    Holds textEnv (settingsRun textEnv cleanInput (fun _ => none) [darkTheme])
      (registerRun textEnv cleanInput (fun _ => none) [darkTheme]) :=
  settingsRun_holds textEnv_lawful cleanInput (fun _ => none) [darkTheme]

/-- `SettingsEvent.rereads e`: with `e` the controller reads the settings again; `none` where it neither
reads them nor writes its copy. -/
def SettingsEvent.rereads : SettingsEvent ρ → Option Bool
  | .preferences _ | .cookies _ _ | .ipFilterFileChanged => some true
  | .defaultTrackers _ _ | .restart => some false
  | .theme _ | .uiState _ _ => none

/-- The first event at which the controller reads or writes the file is one that reads it. -/
def readsFirst (events : List (SettingsEvent ρ)) : Bool :=
  (events.findSome? SettingsEvent.rereads).getD false

/-- An event that sets the theme. -/
def SettingsEvent.setsTheme : SettingsEvent ρ → Bool
  | .preferences _ | .theme _ => true
  | _ => false

theorem registerStep_same {theme : String} (hstored : r.settings.app.uiTheme = theme)
    (hseen : r.seenTheme = theme) {e : SettingsEvent ρ} (he : e.setsTheme = false) :
    (registerStep env q r e).settings.app.uiTheme = theme ∧ (registerStep env q r e).seenTheme = theme := by
  cases e with
  | preferences toSave => cases he
  | theme word => cases he
  | cookies header rules => exact ⟨hstored, hstored⟩
  | defaultTrackers enabled trackers => exact ⟨hseen, hseen⟩
  | ipFilterFileChanged => exact ⟨hstored, hstored⟩
  | uiState key texts => exact ⟨hstored, hseen⟩
  | restart => exact ⟨hseen, hseen⟩

theorem registerRun_same {theme : String} (events : List (SettingsEvent ρ)) :
    ∀ r : SettingsRegister ρ, r.settings.app.uiTheme = theme → r.seenTheme = theme →
      (∀ e ∈ events, e.setsTheme = false) →
      (events.foldl (registerStep env q) r).seenTheme = theme := by
  induction events with
  | nil => intro r _ hseen _; exact hseen
  | cons e events ih =>
    intro r hstored hseen hevents
    obtain ⟨hstored', hseen'⟩ : (registerStep env q r e).settings.app.uiTheme = theme ∧
        (registerStep env q r e).seenTheme = theme :=
      registerStep_same hstored hseen (hevents e List.mem_cons_self)
    exact ih _ hstored' hseen' fun e' he' => hevents e' (List.mem_cons_of_mem e he')

/-- The theme that the controller ends with. -/
theorem seenTheme_restart (events : List (SettingsEvent ρ)) :
    ∀ r : SettingsRegister ρ, (∀ e ∈ events, e.setsTheme = false) →
      ((events ++ [SettingsEvent.restart]).foldl (registerStep env q) r).seenTheme =
        if readsFirst events then r.settings.app.uiTheme else r.seenTheme := by
  induction events with
  | nil => intro r _; rfl
  | cons e events ih =>
    intro r hevents
    have hrest : ∀ e' ∈ events ++ [SettingsEvent.restart], e'.setsTheme = false := by
      intro e' he'
      rcases List.mem_append.mp he' with he' | he'
      · exact hevents e' (List.mem_cons_of_mem e he')
      · rw [List.mem_singleton.mp he']
        rfl
    rw [List.cons_append, List.foldl_cons]
    -- once the two themes are the same, they stay so
    cases e with
    | preferences toSave => cases hevents _ List.mem_cons_self
    | theme word => cases hevents _ List.mem_cons_self
    | cookies header rules => exact registerRun_same _ _ rfl rfl hrest
    | defaultTrackers enabled trackers => exact registerRun_same _ _ rfl rfl hrest
    | ipFilterFileChanged => exact registerRun_same _ _ rfl rfl hrest
    | uiState key texts => exact ih r fun e' he' => hevents e' (List.mem_cons_of_mem _ he')
    | restart => exact registerRun_same _ _ rfl rfl hrest

theorem Holds.seen (hold : Holds env w r) : w.cachedAppSettings.uiTheme = r.seenTheme := by
  rw [(CombinedSettings.mk.inj hold.copy).1]
  rfl

/-- A theme chosen in the menu is there after a restart if the controller reads the settings again before
it writes its copy. Otherwise the theme of the copy comes back. -/
theorem menuTheme_restart (h : env.Lawful) (q : QtInput) (file : SettingsFile)
    (earlier later : List (SettingsEvent ρ)) (word : { word : String // word ∈ uiThemes })
    (hlater : ∀ e ∈ later, e.setsTheme = false) :
    (settingsRun env q file (earlier ++ .theme word :: (later ++ [.restart]))).cachedAppSettings.uiTheme =
      if readsFirst later then word.1
      else (settingsRun env q file earlier).cachedAppSettings.uiTheme := by
  have hearlier := Holds.foldl (q := q) h earlier _ _ (holds_loadSettings file)
  have hlast := Holds.foldl (q := q) h (.theme word :: (later ++ [.restart])) _ _ hearlier
  unfold settingsRun
  rw [List.foldl_append, hlast.seen, hearlier.seen]
  exact seenTheme_restart later _ hlater

/-- A cookie is set, and then a tracker. -/
def beforeTheme : List (SettingsEvent String) :=
  [.cookies "a=b" "", .defaultTrackers true ["udp://tracker.example.org:80"]]

/-- A window keeps its state. -/
def windowClosed : SettingsEvent String := .uiState ⟨"ui/main_window/geometry", by decide⟩ ["x"]

/-- If the IP filter changes before the trackers do, the dark theme is there after a restart. Otherwise the
system's theme is back. -/
theorem menuTheme_restart_dark :
    (settingsRun textEnv cleanInput (fun _ => none) (beforeTheme ++ darkTheme ::
      ([windowClosed, .ipFilterFileChanged, .defaultTrackers false []] ++ [.restart])
        )).cachedAppSettings.uiTheme = "dark" ∧
    (settingsRun textEnv cleanInput (fun _ => none) (beforeTheme ++ darkTheme ::
      ([windowClosed, .defaultTrackers false []] ++ [.restart]))).cachedAppSettings.uiTheme = "system" := by
  have hearlier : (settingsRun textEnv cleanInput (fun _ => none) beforeTheme).cachedAppSettings.uiTheme =
      "system" := by
    decide +kernel
  constructor
  · exact menuTheme_restart textEnv_lawful cleanInput (fun _ => none) beforeTheme
      [windowClosed, .ipFilterFileChanged, .defaultTrackers false []] ⟨"dark", by decide⟩
      (by simp [windowClosed, SettingsEvent.setsTheme])
  · rw [darkTheme, menuTheme_restart textEnv_lawful cleanInput (fun _ => none) beforeTheme
      [windowClosed, .defaultTrackers false []] ⟨"dark", by decide⟩
      (by simp [windowClosed, SettingsEvent.setsTheme])]
    exact hearlier

end

end App

end TorrentLink
