import Mathlib.Order.Basic
import TorrentLink.Base.QString
import TorrentLink.Lib.KeyStore

/-!
# The settings of the application

One INI file holds the settings, each under a key of its own. Loading them repairs what it reads: numbers
are clamped, texts are trimmed, and a word outside its choices gives way to a fixed one. What is saved is
repaired only in part; the rest is repaired by the load that reads it back.
-/

namespace TorrentLink

open Lib (KeyStore)

/-- `QSettings`: the texts under each key, more than one where a list was stored. -/
abbrev SettingsFile := KeyStore String (List String)

/-- A value as a text: a list of other than one text has none. -/
def valueText (value : Option (List String)) (default : String) : String :=
  match value with
  | none => default
  | some [t] => t
  | some _ => ""

/-- A value as something that is read from its text. -/
def valueOf {α : Type} (read : String → α) (value : Option (List String)) (default : α) : α :=
  if value.isNone then default else read (valueText value "")

/-- `std::clamp` -/
def stdClamp {α : Type} [LT α] [DecidableLT α] (x lo hi : α) : α :=
  if x < lo then lo else if hi < x then hi else x

/-- How `QVariant` and `QString` read numbers and letters, and the standard locations. `ρ` are the
floating-point numbers. -/
structure SettingsEnv (ρ : Type) where
  toInt : String → Int32
  toLongLong : String → Int64
  toDouble : String → ρ
  ofDouble : ρ → String
  /-- 0.10, 1.00 and 100.00 -/
  minRatio : ρ
  defaultRatio : ρ
  maxRatio : ρ
  toLower : String → String
  /-- `QStandardPaths::writableLocation` of the downloads. -/
  downloadLocation : String
  /-- The folder `logs` of the local data. -/
  logLocation : String

structure AppSettings (ρ : Type) where
  defaultDownloadDir : String
  seedUnlimited : Bool
  seedTargetRatio : ρ
  seedMaxMinutes : Int32
  fileLogEnabled : Bool
  logDir : String
  logLevel : String
  logRotateMaxFileSizeBytes : Int64
  logRotateMaxBackupFiles : Int32
  downloadRateLimitKib : Int32
  uploadRateLimitKib : Int32
  connectionsLimit : Int32
  perTorrentConnectionsLimit : Int32
  uploadSlotsLimit : Int32
  perTorrentUploadSlotsLimit : Int32
  listenPort : Int32
  listenPortForwarding : Bool
  activeDownloads : Int32
  activeSeeds : Int32
  activeLimit : Int32
  maxActiveChecking : Int32
  autoManagePreferSeeds : Bool
  dontCountSlowTorrents : Bool
  slowTorrentDlRateThreshold : Int32
  slowTorrentUlRateThreshold : Int32
  slowTorrentInactiveTimer : Int32
  enableDht : Bool
  enableUpnp : Bool
  enableNatpmp : Bool
  enableLsd : Bool
  monitorPort : Int32
  builtinTrackerEnabled : Bool
  builtinTrackerPort : Int32
  builtinTrackerBindMode : String
  builtinTrackerPortForwarding : Bool
  encryptionMode : String
  ipFilterEnabled : Bool
  ipFilterPath : String
  proxyEnabled : Bool
  proxyType : String
  proxyHost : String
  proxyPort : Int32
  proxyUsername : String
  proxyPassword : String
  closeBehavior : String
  uiTheme : String
  startMinimized : Bool
  timedAction : String
  timedActionDelayMinutes : Int32
  downloadCompleteAction : String
  httpUserAgent : String
  httpAcceptLanguage : String
  httpCookieHeader : String
  httpCookieRules : String

/-- `QVariant::toBool` of a text. -/
def toBool (t : String) : Bool :=
  !(foldCase t = [] || foldCase t = ['0'] || foldCase t = "false".toList)

/-- A truth value as `QSettings` writes it. -/
def ofBool (b : Bool) : List String := [if b then "true" else "false"]

section

variable {ρ : Type} (env : SettingsEnv ρ) (file : SettingsFile)

/-- `trimmed().toLower()` -/
def SettingsEnv.lowered (t : String) : String := env.toLower (trimmed t)

def SettingsFile.text (key default : String) : String := valueText (file key) default

def SettingsFile.bool (key : String) (default : Bool) : Bool := valueOf toBool (file key) default

def SettingsEnv.int (key : String) (default : Int32) : Int32 := valueOf env.toInt (file key) default

def SettingsEnv.longLong (key : String) (default : Int64) : Int64 :=
  valueOf env.toLongLong (file key) default

def SettingsEnv.double (key : String) (default : ρ) : ρ := valueOf env.toDouble (file key) default

/-- A word outside the choices gives way to the fallback. -/
def choice (choices : List String) (fallback word : String) : String :=
  if choices.contains word then word else fallback

/-- An empty path gives way to the standard one. -/
def orLocation (path location : String) : String := if path = "" then location else path

def SettingsEnv.normalizeBuiltinTrackerBindMode (raw : String) : String :=
  if env.lowered raw = "lan" then "lan" else "localhost"

/-- A timed action that is on, and leaves no action for the end of the downloads. -/
def timedActionEnabled (timedAction : String) (delayMinutes : Int32) : Bool :=
  timedAction != "none" && decide (0 < delayMinutes)

def encryptionModes : List String := ["enabled", "forced", "disabled"]
def proxyTypes : List String := ["socks5", "http"]
def closeBehaviors : List String := ["minimize", "quit"]
def uiThemes : List String := ["light", "dark", "system"]
def timedActions : List String := ["none", "quit_app", "shutdown"]
def downloadCompleteActions : List String := ["none", "quit_app", "suspend", "hibernate", "poweroff"]

namespace AppSettings

variable [LT ρ] [DecidableLT ρ] in
def load : AppSettings ρ :=
  let timedAction := choice timedActions "none" (env.lowered (file.text "ui/timed_action" "none"))
  let timedActionDelayMinutes := stdClamp (env.int file "ui/timed_action_delay_minutes" 0) 0 10080
  let downloadCompleteAction := choice downloadCompleteActions "none"
    (env.lowered (file.text "ui/download_complete_action" "none"))
  { defaultDownloadDir := orLocation (trimmed (file.text "download/default_dir" "")) env.downloadLocation
    seedUnlimited := file.bool "seed/unlimited" false
    seedTargetRatio := stdClamp (env.double file "seed/target_ratio" env.defaultRatio)
      env.minRatio env.maxRatio
    seedMaxMinutes := stdClamp (env.int file "seed/max_minutes" 0) 0 10080
    fileLogEnabled := file.bool "log/file_enabled" true
    logDir := orLocation (trimmed (file.text "log/dir" "")) env.logLocation
    logLevel := env.lowered (file.text "log/level" "info")
    logRotateMaxFileSizeBytes := env.longLong file "log/rotate_max_file_size_bytes" 0
    logRotateMaxBackupFiles := stdClamp (env.int file "log/rotate_max_backup_files" 3) 1 50
    downloadRateLimitKib := stdClamp (env.int file "network/download_rate_limit_kib" 0) 0 (1024 * 1024)
    uploadRateLimitKib := stdClamp (env.int file "network/upload_rate_limit_kib" 0) 0 (1024 * 1024)
    connectionsLimit := stdClamp (env.int file "network/connections_limit" 200) 0 20000
    perTorrentConnectionsLimit :=
      stdClamp (env.int file "network/per_torrent_connections_limit" 0) 0 20000
    uploadSlotsLimit := stdClamp (env.int file "network/upload_slots_limit" 0) 0 20000
    perTorrentUploadSlotsLimit :=
      stdClamp (env.int file "network/per_torrent_upload_slots_limit" 0) 0 20000
    listenPort := stdClamp (env.int file "network/listen_port" 0) 0 65535
    listenPortForwarding := file.bool "network/listen_port_forwarding" true
    activeDownloads := stdClamp (env.int file "queue/active_downloads" 0) 0 20000
    activeSeeds := stdClamp (env.int file "queue/active_seeds" 0) 0 20000
    activeLimit := stdClamp (env.int file "queue/active_limit" 0) 0 20000
    maxActiveChecking := stdClamp (env.int file "queue/max_active_checking" 1) 0 100
    autoManagePreferSeeds := file.bool "queue/auto_manage_prefer_seeds" false
    dontCountSlowTorrents := file.bool "queue/dont_count_slow_torrents" true
    slowTorrentDlRateThreshold :=
      stdClamp (env.int file "queue/slow_torrent_dl_rate_threshold" 2) 0 10240
    slowTorrentUlRateThreshold :=
      stdClamp (env.int file "queue/slow_torrent_ul_rate_threshold" 2) 0 10240
    slowTorrentInactiveTimer := stdClamp (env.int file "queue/slow_torrent_inactive_timer" 60) 0 3600
    enableDht := file.bool "protocol/enable_dht" true
    enableUpnp := file.bool "protocol/enable_upnp" true
    enableNatpmp := file.bool "protocol/enable_natpmp" true
    enableLsd := file.bool "protocol/enable_lsd" true
    monitorPort := stdClamp (env.int file "protocol/monitor_port" 0) 0 65535
    builtinTrackerEnabled := file.bool "protocol/builtin_tracker_enabled" false
    builtinTrackerPort := stdClamp (env.int file "protocol/builtin_tracker_port" 0) 0 65535
    builtinTrackerBindMode := env.normalizeBuiltinTrackerBindMode
      (file.text "protocol/builtin_tracker_bind_mode" "localhost")
    builtinTrackerPortForwarding := file.bool "protocol/builtin_tracker_port_forwarding" false
    encryptionMode := choice encryptionModes "enabled"
      (env.lowered (file.text "protocol/encryption_mode" "enabled"))
    ipFilterEnabled := file.bool "network/ip_filter/enabled" false
    ipFilterPath := trimmed (file.text "network/ip_filter/path" "")
    proxyEnabled := file.bool "network/proxy/enabled" false
    proxyType := choice proxyTypes "socks5" (env.lowered (file.text "network/proxy/type" "socks5"))
    proxyHost := trimmed (file.text "network/proxy/host" "")
    proxyPort := stdClamp (env.int file "network/proxy/port" 1080) 1 65535
    proxyUsername := trimmed (file.text "network/proxy/username" "")
    proxyPassword := file.text "network/proxy/password" ""
    closeBehavior := choice closeBehaviors "minimize"
      (env.lowered (file.text "ui/close_behavior" "minimize"))
    -- a missing theme is the system's, one outside the choices the light one
    uiTheme := choice uiThemes "light" (env.lowered (file.text "ui/theme" "system"))
    startMinimized := file.bool "ui/start_minimized" false
    timedAction
    timedActionDelayMinutes
    downloadCompleteAction :=
      if timedActionEnabled timedAction timedActionDelayMinutes then "none" else downloadCompleteAction
    httpUserAgent := trimmed (file.text "http/user_agent" "TorrentLink/1.0")
    httpAcceptLanguage := trimmed (file.text "http/accept_language" "zh-CN,zh;q=0.9,en;q=0.8")
    httpCookieHeader := file.text "http/cookie_header" ""
    httpCookieRules := file.text "http/cookie_rules" "" }

/-- The values that `save` sets, in its order. -/
def entries (s : AppSettings ρ) : List (String × List String) :=
  [("download/default_dir", [trimmed s.defaultDownloadDir]),
    ("seed/unlimited", ofBool s.seedUnlimited),
    ("seed/target_ratio", [env.ofDouble s.seedTargetRatio]),
    ("seed/max_minutes", [toString s.seedMaxMinutes]),
    ("log/file_enabled", ofBool s.fileLogEnabled),
    ("log/dir", [trimmed s.logDir]),
    ("log/level", [env.lowered s.logLevel]),
    ("log/rotate_max_file_size_bytes", [toString s.logRotateMaxFileSizeBytes]),
    ("log/rotate_max_backup_files", [toString s.logRotateMaxBackupFiles]),
    ("network/download_rate_limit_kib", [toString s.downloadRateLimitKib]),
    ("network/upload_rate_limit_kib", [toString s.uploadRateLimitKib]),
    ("network/connections_limit", [toString s.connectionsLimit]),
    ("network/per_torrent_connections_limit", [toString s.perTorrentConnectionsLimit]),
    ("network/upload_slots_limit", [toString s.uploadSlotsLimit]),
    ("network/per_torrent_upload_slots_limit", [toString s.perTorrentUploadSlotsLimit]),
    ("network/listen_port", [toString s.listenPort]),
    ("network/listen_port_forwarding", ofBool s.listenPortForwarding),
    ("queue/active_downloads", [toString s.activeDownloads]),
    ("queue/active_seeds", [toString s.activeSeeds]),
    ("queue/active_limit", [toString s.activeLimit]),
    ("queue/max_active_checking", [toString s.maxActiveChecking]),
    ("queue/auto_manage_prefer_seeds", ofBool s.autoManagePreferSeeds),
    ("queue/dont_count_slow_torrents", ofBool s.dontCountSlowTorrents),
    ("queue/slow_torrent_dl_rate_threshold", [toString s.slowTorrentDlRateThreshold]),
    ("queue/slow_torrent_ul_rate_threshold", [toString s.slowTorrentUlRateThreshold]),
    ("queue/slow_torrent_inactive_timer", [toString s.slowTorrentInactiveTimer]),
    ("protocol/enable_dht", ofBool s.enableDht),
    ("protocol/enable_upnp", ofBool s.enableUpnp),
    ("protocol/enable_natpmp", ofBool s.enableNatpmp),
    ("protocol/enable_lsd", ofBool s.enableLsd),
    ("protocol/monitor_port", [toString s.monitorPort]),
    ("protocol/builtin_tracker_enabled", ofBool s.builtinTrackerEnabled),
    ("protocol/builtin_tracker_port", [toString s.builtinTrackerPort]),
    ("protocol/builtin_tracker_bind_mode", [env.normalizeBuiltinTrackerBindMode s.builtinTrackerBindMode]),
    ("protocol/builtin_tracker_port_forwarding", ofBool s.builtinTrackerPortForwarding),
    ("protocol/encryption_mode", [env.lowered s.encryptionMode]),
    ("network/ip_filter/enabled", ofBool s.ipFilterEnabled),
    ("network/ip_filter/path", [trimmed s.ipFilterPath]),
    ("network/proxy/enabled", ofBool s.proxyEnabled),
    ("network/proxy/type", [env.lowered s.proxyType]),
    ("network/proxy/host", [trimmed s.proxyHost]),
    ("network/proxy/port", [toString s.proxyPort]),
    ("network/proxy/username", [trimmed s.proxyUsername]),
    ("network/proxy/password", [s.proxyPassword]),
    ("ui/close_behavior", [env.lowered s.closeBehavior]),
    ("ui/theme", [env.lowered s.uiTheme]),
    ("ui/start_minimized", ofBool s.startMinimized),
    ("ui/timed_action", [env.lowered s.timedAction]),
    ("ui/timed_action_delay_minutes", [toString s.timedActionDelayMinutes]),
    ("ui/download_complete_action",
      [if timedActionEnabled (env.lowered s.timedAction) s.timedActionDelayMinutes then "none"
        else env.lowered s.downloadCompleteAction]),
    ("http/user_agent", [trimmed s.httpUserAgent]),
    ("http/accept_language", [trimmed s.httpAcceptLanguage]),
    ("http/cookie_header", [s.httpCookieHeader]),
    ("http/cookie_rules", [s.httpCookieRules])]

def save (s : AppSettings ρ) : SettingsFile := file.putAll (s.entries env)

end AppSettings

/-! ### What the file keeps -/

variable [LT ρ] in
/-- What the readings promise: a number is read back as it was written, small letters stay as they are,
and the standard locations have no spaces at their ends. -/
structure SettingsEnv.Lawful : Prop where
  toInt_toString : ∀ n : Int32, env.toInt (toString n) = n
  toLongLong_toString : ∀ n : Int64, env.toLongLong (toString n) = n
  toDouble_ofDouble : ∀ r : ρ, env.toDouble (env.ofDouble r) = r
  minRatio_irrefl : ¬env.minRatio < env.minRatio
  maxRatio_irrefl : ¬env.maxRatio < env.maxRatio
  ratios : ¬env.maxRatio < env.minRatio
  toLower_toLower : ∀ t : String, env.toLower (env.toLower t) = env.toLower t
  trimmed_toLower : ∀ t : String, trimmed (env.toLower t) = env.toLower (trimmed t)
  toLower_of_small : ∀ t : String, (t.toList.all fun c => c.isLower || c.isDigit || c = '_') = true →
    env.toLower t = t
  trimmed_downloadLocation : trimmed env.downloadLocation = env.downloadLocation
  trimmed_logLocation : trimmed env.logLocation = env.logLocation

namespace AppSettings

variable [LT ρ] [DecidableLT ρ] in
/-- The settings that a save of `s` leaves. -/
def kept (s : AppSettings ρ) : AppSettings ρ where
  defaultDownloadDir := orLocation (trimmed s.defaultDownloadDir) env.downloadLocation
  seedUnlimited := s.seedUnlimited
  seedTargetRatio := stdClamp s.seedTargetRatio env.minRatio env.maxRatio
  seedMaxMinutes := stdClamp s.seedMaxMinutes 0 10080
  fileLogEnabled := s.fileLogEnabled
  logDir := orLocation (trimmed s.logDir) env.logLocation
  logLevel := env.lowered s.logLevel
  logRotateMaxFileSizeBytes := s.logRotateMaxFileSizeBytes
  logRotateMaxBackupFiles := stdClamp s.logRotateMaxBackupFiles 1 50
  downloadRateLimitKib := stdClamp s.downloadRateLimitKib 0 (1024 * 1024)
  uploadRateLimitKib := stdClamp s.uploadRateLimitKib 0 (1024 * 1024)
  connectionsLimit := stdClamp s.connectionsLimit 0 20000
  perTorrentConnectionsLimit := stdClamp s.perTorrentConnectionsLimit 0 20000
  uploadSlotsLimit := stdClamp s.uploadSlotsLimit 0 20000
  perTorrentUploadSlotsLimit := stdClamp s.perTorrentUploadSlotsLimit 0 20000
  listenPort := stdClamp s.listenPort 0 65535
  listenPortForwarding := s.listenPortForwarding
  activeDownloads := stdClamp s.activeDownloads 0 20000
  activeSeeds := stdClamp s.activeSeeds 0 20000
  activeLimit := stdClamp s.activeLimit 0 20000
  maxActiveChecking := stdClamp s.maxActiveChecking 0 100
  autoManagePreferSeeds := s.autoManagePreferSeeds
  dontCountSlowTorrents := s.dontCountSlowTorrents
  slowTorrentDlRateThreshold := stdClamp s.slowTorrentDlRateThreshold 0 10240
  slowTorrentUlRateThreshold := stdClamp s.slowTorrentUlRateThreshold 0 10240
  slowTorrentInactiveTimer := stdClamp s.slowTorrentInactiveTimer 0 3600
  enableDht := s.enableDht
  enableUpnp := s.enableUpnp
  enableNatpmp := s.enableNatpmp
  enableLsd := s.enableLsd
  monitorPort := stdClamp s.monitorPort 0 65535
  builtinTrackerEnabled := s.builtinTrackerEnabled
  builtinTrackerPort := stdClamp s.builtinTrackerPort 0 65535
  builtinTrackerBindMode := env.normalizeBuiltinTrackerBindMode s.builtinTrackerBindMode
  builtinTrackerPortForwarding := s.builtinTrackerPortForwarding
  encryptionMode := choice encryptionModes "enabled" (env.lowered s.encryptionMode)
  ipFilterEnabled := s.ipFilterEnabled
  ipFilterPath := trimmed s.ipFilterPath
  proxyEnabled := s.proxyEnabled
  proxyType := choice proxyTypes "socks5" (env.lowered s.proxyType)
  proxyHost := trimmed s.proxyHost
  proxyPort := stdClamp s.proxyPort 1 65535
  proxyUsername := trimmed s.proxyUsername
  proxyPassword := s.proxyPassword
  closeBehavior := choice closeBehaviors "minimize" (env.lowered s.closeBehavior)
  uiTheme := choice uiThemes "light" (env.lowered s.uiTheme)
  startMinimized := s.startMinimized
  timedAction := choice timedActions "none" (env.lowered s.timedAction)
  timedActionDelayMinutes := stdClamp s.timedActionDelayMinutes 0 10080
  downloadCompleteAction :=
    if timedActionEnabled (env.lowered s.timedAction) s.timedActionDelayMinutes then "none"
    else choice downloadCompleteActions "none" (env.lowered s.downloadCompleteAction)
  httpUserAgent := trimmed s.httpUserAgent
  httpAcceptLanguage := trimmed s.httpAcceptLanguage
  httpCookieHeader := s.httpCookieHeader
  httpCookieRules := s.httpCookieRules

end AppSettings

section

variable {α : Type} [LT α] [DecidableLT α] {x lo hi : α}

/-- Clamping again changes nothing. -/
theorem stdClamp_stdClamp (hlo : ¬lo < lo) (hhi : ¬hi < hi) (hle : ¬hi < lo) :
    stdClamp (stdClamp x lo hi) lo hi = stdClamp x lo hi := by
  unfold stdClamp
  by_cases hx : x < lo
  · simp [hx, hlo, hle]
  · by_cases hx' : hi < x
    · simp [hx, hx', hhi, hle]
    · simp [hx, hx']

end

theorem choice_choice (choices : List String) (fallback word : String) :
    choice choices fallback (choice choices fallback word) = choice choices fallback word := by
  by_cases hchoice : choices.contains word = true
  · have hword : choice choices fallback word = word := if_pos hchoice
    rw [hword, hword]
  · rw [show choice choices fallback word = fallback from if_neg hchoice]
    apply ite_self

@[simp]
theorem valueText_some (t default : String) : valueText (some [t]) default = t := rfl

@[simp]
theorem valueOf_some {α : Type} (read : String → α) (t : String) (default : α) :
    valueOf read (some [t]) default = read t := rfl

theorem toBool_ofBool (b : Bool) : toBool (if b then "true" else "false") = b := by
  cases b <;> decide

theorem trimmed_orLocation {path location : String} (h : trimmed location = location) :
    orLocation (trimmed (orLocation (trimmed path) location)) location =
      orLocation (trimmed path) location := by
  unfold orLocation
  by_cases hpath : trimmed path = ""
  · rw [if_pos hpath, h]
    by_cases hlocation : location = ""
    · rw [if_pos hlocation]
    · rw [if_neg hlocation]
  · rw [if_neg hpath, trimmed_trimmed, if_neg hpath]

variable {env}

namespace SettingsEnv.Lawful

variable [LT ρ] (h : env.Lawful)
include h

theorem lowered_lowered (t : String) : env.lowered (env.lowered t) = env.lowered t := by
  unfold lowered
  rw [h.trimmed_toLower, trimmed_trimmed, h.toLower_toLower]

/-- A small word without spaces at its ends stays. -/
theorem lowered_of_small {t : String} (htrimmed : trimmed t = t)
    (hsmall : (t.toList.all fun c => c.isLower || c.isDigit || c = '_') = true) : env.lowered t = t := by
  unfold lowered
  rw [htrimmed, h.toLower_of_small t hsmall]

theorem lowered_choice {fallback : String} (hfallback : env.lowered fallback = fallback)
    (choices : List String) (t : String) :
    env.lowered (choice choices fallback (env.lowered t)) = choice choices fallback (env.lowered t) := by
  unfold choice
  by_cases hchoice : choices.contains (env.lowered t) = true
  · rw [if_pos hchoice, h.lowered_lowered]
  · rw [if_neg hchoice, hfallback]

theorem bindMode_bindMode (raw : String) :
    env.normalizeBuiltinTrackerBindMode (env.normalizeBuiltinTrackerBindMode raw) =
      env.normalizeBuiltinTrackerBindMode raw := by
  have hlan : env.lowered "lan" = "lan" := h.lowered_of_small (by decide) (by decide)
  have hlocalhost : env.lowered "localhost" = "localhost" := h.lowered_of_small (by decide) (by decide)
  unfold normalizeBuiltinTrackerBindMode
  by_cases hraw : env.lowered raw = "lan"
  · rw [if_pos hraw, if_pos hlan]
  · rw [if_neg hraw, hlocalhost, if_neg (by decide)]

end SettingsEnv.Lawful

namespace AppSettings

/-- Every value has a key of its own. -/
theorem nodup_entries (s : AppSettings ρ) : ((s.entries env).map Prod.fst).Nodup := by
  simp [entries]

theorem save_eq (file : SettingsFile) (s : AppSettings ρ) :
    ∀ e ∈ s.entries env, save env file s e.1 = some e.2 :=
  fun _ he => KeyStore.putAll_of_mem (nodup_entries s) he

/-- A timed action that is repaired away was on before. -/
theorem timedActionEnabled_of_repaired {word : String} {delay : Int32}
    (h : timedActionEnabled (choice timedActions "none" word) (stdClamp delay 0 10080) = true) :
    timedActionEnabled word delay = true := by
  unfold timedActionEnabled at h ⊢
  rw [Bool.and_eq_true] at h ⊢
  obtain ⟨hword, hdelay⟩ := h
  constructor
  · by_cases hchoice : timedActions.contains word = true
    · rwa [choice, if_pos hchoice] at hword
    · rw [choice, if_neg hchoice] at hword
      simp at hword
  · rw [decide_eq_true_eq] at hdelay ⊢
    unfold stdClamp at hdelay
    split at hdelay
    · exact absurd hdelay (by decide)
    · split at hdelay
      · exact Int32.lt_trans hdelay ‹_›
      · exact hdelay

variable [LT ρ]

theorem downloadCompleteAction_repaired (h : env.Lawful) (timed complete : String) (delay : Int32) :
    (if timedActionEnabled (choice timedActions "none" timed) (stdClamp delay 0 10080) then "none"
      else choice downloadCompleteActions "none" (env.lowered
        (if timedActionEnabled timed delay then "none" else env.lowered complete))) =
      if timedActionEnabled timed delay then "none"
      else choice downloadCompleteActions "none" (env.lowered complete) := by
  have hnone : env.lowered "none" = "none" := h.lowered_of_small (by decide) (by decide)
  by_cases hon : timedActionEnabled timed delay = true
  · have hchoice : choice downloadCompleteActions "none" "none" = "none" := by decide
    simp only [hon, if_true, hnone, hchoice, ite_self]
  · have hoff : ¬timedActionEnabled (choice timedActions "none" timed) (stdClamp delay 0 10080) = true :=
      fun hrepaired => hon (timedActionEnabled_of_repaired hrepaired)
    rw [if_neg hoff, if_neg hon, if_neg hon, h.lowered_lowered]

variable [DecidableLT ρ]

/-- What is saved comes back repaired. -/
theorem load_save (h : env.Lawful) (file : SettingsFile) (s : AppSettings ρ) :
    load env (save env file s) = s.kept env := by
  have stored : ∀ e ∈ s.entries env, save env file s e.1 = some e.2 := save_eq file s
  simp only [entries, List.forall_mem_cons] at stored
  unfold load kept
  simp only [SettingsFile.bool, SettingsFile.text, SettingsEnv.int, SettingsEnv.longLong,
    SettingsEnv.double, ofBool, stored, valueText_some, valueOf_some, toBool_ofBool, trimmed_trimmed, h.toInt_toString,
    h.toLongLong_toString, h.toDouble_ofDouble, h.lowered_lowered, h.bindMode_bindMode,
    downloadCompleteAction_repaired h]

/-- What was loaded needs no repair. -/
theorem kept_load (h : env.Lawful) (file : SettingsFile) : (load env file).kept env = load env file := by
  have small : ∀ word ∈ ["none", "enabled", "socks5", "minimize", "light"],
      env.lowered word = word := fun word hword =>
    h.lowered_of_small (by revert word; decide) (by revert word; decide)
  simp only [List.forall_mem_cons] at small
  obtain ⟨hnone, henabled, hsocks, hminimize, hlight, -⟩ := small
  have hcomplete (on : Prop) [Decidable on] (t : String) :
      (if on then "none" else choice downloadCompleteActions "none" (env.lowered
        (if on then "none" else choice downloadCompleteActions "none" (env.lowered t)))) =
      if on then "none" else choice downloadCompleteActions "none" (env.lowered t) := by
    by_cases hon : on
    · rw [if_pos hon, if_pos hon]
    · rw [if_neg hon, if_neg hon, h.lowered_choice hnone, choice_choice]
  unfold load kept
  simp (disch := decide) only [trimmed_orLocation h.trimmed_downloadLocation,
    trimmed_orLocation h.trimmed_logLocation, stdClamp_stdClamp h.minRatio_irrefl h.maxRatio_irrefl h.ratios,
    stdClamp_stdClamp, h.lowered_lowered, h.bindMode_bindMode, trimmed_trimmed, h.lowered_choice hnone,
    h.lowered_choice henabled, h.lowered_choice hsocks, h.lowered_choice hminimize,
    h.lowered_choice hlight, choice_choice, hcomplete]

/-- Loading looks at the keys of the settings only. -/
theorem load_congr {file file' : SettingsFile} {s : AppSettings ρ}
    (h : ∀ e ∈ s.entries env, file e.1 = file' e.1) : load env file = load env file' := by
  simp only [entries, List.forall_mem_cons] at h
  unfold load
  simp only [SettingsFile.bool, SettingsFile.text, SettingsEnv.int, SettingsEnv.longLong,
    SettingsEnv.double, h]
  rfl

/-! ### Changes of one setting -/

def withTheme (s : AppSettings ρ) (theme : String) : AppSettings ρ := { s with uiTheme := theme }

def withCookies (s : AppSettings ρ) (header rules : String) : AppSettings ρ :=
  { s with httpCookieHeader := header, httpCookieRules := rules }

omit [LT ρ] [DecidableLT ρ]

@[simp]
theorem uiTheme_withTheme (s : AppSettings ρ) (theme : String) : (s.withTheme theme).uiTheme = theme := rfl

@[simp]
theorem withTheme_withTheme (s : AppSettings ρ) (theme theme' : String) :
    (s.withTheme theme).withTheme theme' = s.withTheme theme' := rfl

@[simp]
theorem withTheme_uiTheme (s : AppSettings ρ) : s.withTheme s.uiTheme = s := by
  cases s
  rfl

@[simp]
theorem uiTheme_withCookies (s : AppSettings ρ) (header rules : String) :
    (s.withCookies header rules).uiTheme = s.uiTheme := rfl

variable [LT ρ] [DecidableLT ρ]

/-- A theme of the menu is kept as it is. -/
theorem kept_withTheme (h : env.Lawful) (s : AppSettings ρ) {theme : String} (htheme : theme ∈ uiThemes) :
    (s.withTheme theme).kept env = (s.kept env).withTheme theme := by
  have hlowered : ∀ word ∈ uiThemes, env.lowered word = word := fun word hword =>
    h.lowered_of_small (by revert word; decide) (by revert word; decide)
  have hchoice : choice uiThemes "light" (env.lowered theme) = theme := by
    rw [hlowered theme htheme]
    exact if_pos (by simpa using htheme)
  unfold kept withTheme
  simp only [hchoice]

/-- Cookies are kept as they are. -/
theorem kept_withCookies (s : AppSettings ρ) (header rules : String) :
    (s.withCookies header rules).kept env = (s.kept env).withCookies header rules := by
  unfold kept withCookies
  dsimp only

theorem uiTheme_load_mem (file : SettingsFile) : (load env file).uiTheme ∈ uiThemes := by
  show choice uiThemes "light" _ ∈ uiThemes
  unfold choice
  split
  · next hword => simpa using hword
  · decide

-- the settings are many: what is needed of these is in the lemmas above
attribute [irreducible] load kept

end AppSettings

end

/-- The number that a decimal text stands for. -/
def decimalInt (t : String) : Int :=
  match t.toList with
  | '-' :: digits => -(Nat.ofDigitChars 10 digits 0 : Int)
  | digits => Nat.ofDigitChars 10 digits 0

theorem decimalInt_toString (n : Int) : decimalInt (toString n) = n := by
  cases n with
  | ofNat n =>
    have hdigits : (toString (Int.ofNat n)).toList = Nat.toDigits 10 n := Nat.toList_repr
    unfold decimalInt
    split
    · next digits htext =>
      rw [hdigits] at htext
      have hmem : '-' ∈ Nat.toDigits 10 n := by simp [htext]
      exact absurd (Nat.isDigit_of_mem_toDigits (by decide) (by decide) hmem) (by decide)
    · rw [hdigits, Nat.ofDigitChars_ten_toDigits]
      rfl
  | negSucc n =>
    have hdigits : (toString (Int.negSucc n)).toList = '-' :: Nat.toDigits 10 (n + 1) := by
      show ("-" ++ Nat.repr (n + 1)).toList = _
      rw [String.toList_append, Nat.toList_repr]
      rfl
    unfold decimalInt
    rw [hdigits]
    show -((Nat.ofDigitChars 10 (Nat.toDigits 10 (n + 1)) 0 : Nat) : Int) = Int.negSucc n
    rw [Nat.ofDigitChars_ten_toDigits]
    rfl

/-- Ratios as their texts, and texts in small letters. -/
def textEnv : SettingsEnv String where
  toInt t := Int32.ofInt (decimalInt t)
  toLongLong t := Int64.ofInt (decimalInt t)
  toDouble := id
  ofDouble := id
  minRatio := "0.1"
  defaultRatio := "1"
  maxRatio := "100"
  toLower := id
  downloadLocation := "/home/u/Downloads"
  logLocation := "/home/u/.local/share/TorrentLink/logs"

theorem textEnv_lawful : textEnv.Lawful where
  toInt_toString n := by
    show Int32.ofInt (decimalInt (toString n.toInt)) = n
    rw [decimalInt_toString, Int32.ofInt_toInt]
  toLongLong_toString n := by
    show Int64.ofInt (decimalInt (toString n.toInt)) = n
    rw [decimalInt_toString, Int64.ofInt_toInt]
  toDouble_ofDouble _ := rfl
  minRatio_irrefl := by decide
  maxRatio_irrefl := by decide
  ratios := by decide
  toLower_toLower _ := rfl
  trimmed_toLower _ := rfl
  toLower_of_small _ _ := rfl
  trimmed_downloadLocation := by decide
  trimmed_logLocation := by decide

end TorrentLink
