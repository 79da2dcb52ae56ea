import TorrentLink.Base.Io
import TorrentLink.Base.Json
import TorrentLink.Core.Rss.Types

/-!
# The repository of the RSS service

`RssRepository`: four files of JSON, each with its backups. Lists are kept in an envelope whose checksum
is written but, when it is read back, only logged if it is wrong.
-/

namespace TorrentLink.Rss

/-- What the repository takes from Qt: JSON texts, the digest and ISO dates. -/
structure RepositoryText where
  fromJson : Bytes → JsonDocument
  toJsonCompact : List Json → Bytes
  toJsonIndented : JsonObject → Bytes
  sha256Hex : Bytes → String
  /-- `QDateTime::toString(Qt::ISODate)`: seconds, an empty text for an invalid time. -/
  toIsoDate : QDateTime → String
  fromIsoDate : String → QDateTime

/-- The four files. -/
structure RssFiles where
  feeds : Copies := {}
  items : Copies := {}
  rules : Copies := {}
  settings : Copies := {}

variable (q : RepositoryText)

def kRssJsonVersion : Int := 1

/-! ### Records -/

def feedToJson (f : RssFeed) : JsonObject :=
  [("id", .str f.id),
    ("title", .str f.title),
    ("url", .str f.url),
    ("enabled", .bool f.enabled),
    ("auto_download_enabled", .bool f.autoDownloadEnabled),
    ("last_refreshed_at", .str (q.toIsoDate f.lastRefreshedAt)),
    ("last_success_refreshed_at", .str (q.toIsoDate f.lastSuccessRefreshedAt)),
    ("last_error", .str f.lastError)]

def feedFromJson (o : JsonObject) : RssFeed where
  id := (o.value "id").toText
  title := (o.value "title").toText
  url := (o.value "url").toText
  enabled := (o.value "enabled").toBool true
  autoDownloadEnabled := (o.value "auto_download_enabled").toBool false
  lastRefreshedAt := q.fromIsoDate (o.value "last_refreshed_at").toText
  lastSuccessRefreshedAt := q.fromIsoDate (o.value "last_success_refreshed_at").toText
  lastError := (o.value "last_error").toText

def AutoDownloadDecision.toInt : AutoDownloadDecision → Int
  | .unknown => 0
  | .queued => 1
  | .skipped => 2
  | .succeeded => 3
  | .failed => 4

/-- The cast back; a number that is no decision is taken for the unknown one. -/
def AutoDownloadDecision.ofInt (n : Int) : AutoDownloadDecision :=
  if n = 1 then .queued
  else if n = 2 then .skipped
  else if n = 3 then .succeeded
  else if n = 4 then .failed
  else .unknown

def itemToJson (it : RssItem) : JsonObject :=
  [("id", .str it.id),
    ("feed_id", .str it.feedId),
    ("title", .str it.title),
    ("link", .str it.link),
    ("guid", .str it.guid),
    ("summary", .str it.summary),
    ("published_at", .str (q.toIsoDate it.publishedAt)),
    ("magnet", .str it.magnet),
    ("torrent_url", .str it.torrentUrl),
    ("read", .bool it.read),
    ("ignored", .bool it.ignored),
    ("downloaded", .bool it.downloaded),
    ("accepted", .bool it.accepted),
    ("last_auto_decision", .num it.lastAutoDecision.toInt),
    ("last_auto_reason_code", .str it.lastAutoReasonCode),
    ("last_auto_reason_text", .str it.lastAutoReasonText),
    ("last_attempt_at", .str (q.toIsoDate it.lastAttemptAt)),
    ("last_success_at", .str (q.toIsoDate it.lastSuccessAt)),
    ("retry_count", .num it.retryCount)] ++
  if it.downloadSavePath ≠ "" then [("download_save_path", .str it.downloadSavePath)] else []

/-- What is transient, `queued` and `rssAutoWaitlisted`, is never restored. -/
def itemFromJson (o : JsonObject) : RssItem where
  id := (o.value "id").toText
  feedId := (o.value "feed_id").toText
  title := (o.value "title").toText
  link := (o.value "link").toText
  guid := (o.value "guid").toText
  summary := (o.value "summary").toText
  publishedAt := q.fromIsoDate (o.value "published_at").toText
  magnet := (o.value "magnet").toText
  torrentUrl := (o.value "torrent_url").toText
  read := (o.value "read").toBool false
  ignored := (o.value "ignored").toBool false
  downloaded := (o.value "downloaded").toBool false
  accepted := (o.value "accepted").toBool false
  queued := false
  rssAutoWaitlisted := false
  lastAutoDecision := .ofInt ((o.value "last_auto_decision").toInt 0)
  lastAutoReasonCode := (o.value "last_auto_reason_code").toText
  lastAutoReasonText := (o.value "last_auto_reason_text").toText
  lastAttemptAt := q.fromIsoDate (o.value "last_attempt_at").toText
  lastSuccessAt := q.fromIsoDate (o.value "last_success_at").toText
  retryCount := (o.value "retry_count").toInt 0
  downloadSavePath := (o.value "download_save_path").toText

def stringArray (values : List String) : Json := .arr (values.map .str)

def ruleToJson (r : RssRule) : JsonObject :=
  [("id", .str r.id),
    ("name", .str r.name),
    ("feed_ids", stringArray r.feedIds),
    ("include_keywords", stringArray r.includeKeywords),
    ("exclude_keywords", stringArray r.excludeKeywords),
    ("use_regex", .bool r.useRegex),
    ("enabled", .bool r.enabled),
    ("save_path", .str r.savePath),
    ("category", .str r.category),
    ("tags_csv", .str r.tagsCsv)]

def textArray (o : JsonObject) (key : String) : List String := (o.value key).toArray.map Json.toText

def ruleFromJson (o : JsonObject) : RssRule where
  id := (o.value "id").toText
  name := (o.value "name").toText
  feedIds := textArray o "feed_ids"
  includeKeywords := textArray o "include_keywords"
  excludeKeywords := textArray o "exclude_keywords"
  useRegex := (o.value "use_regex").toBool false
  enabled := (o.value "enabled").toBool false
  savePath := (o.value "save_path").toText
  category := (o.value "category").toText
  tagsCsv := (o.value "tags_csv").toText

/-! ### Envelopes -/

/-- `saveEnvelope`. `failure` is what the write reports. -/
def saveEnvelope (c : Copies) (values : List JsonObject) (failure : Option Error) : Copies :=
  let arr := values.map Json.obj
  (writeWholeFileWithBackup c (q.toJsonIndented
    [("version", .num kRssJsonVersion),
      ("checksum", .str (q.sha256Hex (q.toJsonCompact arr))),
      ("data", .arr arr)]) failure).1

/-- `loadEnvelope`: the objects of the array. -/
def loadEnvelope (path : String) (c : Copies) : List JsonObject :=
  let result := readWholeFileWithRecovery path c
  if result.error ≠ none ∨ result.data = [] then []
  else
    let arr :=
      match q.fromJson result.data with
      | .object env => (JsonObject.value env "data").toArray
      | .array arr => arr
      | .null => []
    arr.filterMap Json.object?

/-! ### The four files -/

def loadFeeds (files : RssFiles) : List RssFeed :=
  (loadEnvelope q "rss_feeds.json" files.feeds).map (feedFromJson q)

def loadItems (files : RssFiles) : List RssItem :=
  (loadEnvelope q "rss_items.json" files.items).map (itemFromJson q)

def loadRules (files : RssFiles) : List RssRule :=
  (loadEnvelope q "rss_rules.json" files.rules).map ruleFromJson

/-- `std::clamp` -/
def clamp (x lo hi : Int) : Int := max lo (min x hi)

/-- The bounds of the settings, which loading and applying them share. -/
def RssSettings.clamped (s : RssSettings) : RssSettings where
  globalAutoDownload := s.globalAutoDownload
  refreshIntervalMinutes := clamp s.refreshIntervalMinutes 5 1440
  maxAutoDownloadsPerRefresh := clamp s.maxAutoDownloadsPerRefresh 1 100
  maxConcurrentAutoDownloads := clamp s.maxConcurrentAutoDownloads 1 50
  maxAutoDownloadBacklog := clamp s.maxAutoDownloadBacklog 1 500
  historyMaxItems := clamp s.historyMaxItems 100 100000
  historyMaxAgeDays := clamp s.historyMaxAgeDays 0 3650
  externalPlayerCommand := trimmed s.externalPlayerCommand

def settingsToJson (s : RssSettings) : JsonObject :=
  [("global_auto_download", .bool s.globalAutoDownload),
    ("refresh_interval_minutes", .num s.refreshIntervalMinutes),
    ("max_auto_downloads_per_refresh", .num s.maxAutoDownloadsPerRefresh),
    ("max_concurrent_auto_downloads", .num s.maxConcurrentAutoDownloads),
    ("max_auto_download_backlog", .num s.maxAutoDownloadBacklog),
    ("history_max_items", .num s.historyMaxItems),
    ("history_max_age_days", .num s.historyMaxAgeDays),
    ("external_player_command", .str (trimmed s.externalPlayerCommand))]

def settingsFromJson (o : JsonObject) : RssSettings :=
  RssSettings.clamped {
    globalAutoDownload := (o.value "global_auto_download").toBool false
    refreshIntervalMinutes := (o.value "refresh_interval_minutes").toInt 30
    maxAutoDownloadsPerRefresh :=
      (o.value "max_auto_downloads_per_refresh").toInt kAutoDownloadMaxPerRefresh
    maxConcurrentAutoDownloads :=
      (o.value "max_concurrent_auto_downloads").toInt kRssDefaultConcurrentAutoDownloads
    maxAutoDownloadBacklog :=
      (o.value "max_auto_download_backlog").toInt kRssDefaultAutoDownloadBacklog
    historyMaxItems := (o.value "history_max_items").toInt 5000
    historyMaxAgeDays := (o.value "history_max_age_days").toInt 90
    externalPlayerCommand := (o.value "external_player_command").toText }

def loadSettings (files : RssFiles) : RssSettings :=
  let result := readWholeFileWithRecovery "rss_settings.json" files.settings
  if result.error ≠ none ∨ result.data = [] then {}
  else
    match q.fromJson result.data with
    | .object o => settingsFromJson o
    | _ => {}

/-- What the writes of the four files report. -/
structure SaveFailures where
  feeds : Option Error := none
  items : Option Error := none
  rules : Option Error := none
  settings : Option Error := none

/-- The four saves, each into its own file. -/
def saveFiles (files : RssFiles) (feeds : List RssFeed) (items : List RssItem)
    (rules : List RssRule) (settings : RssSettings) (failures : SaveFailures) : RssFiles where
  feeds := saveEnvelope q files.feeds (feeds.map (feedToJson q)) failures.feeds
  items := saveEnvelope q files.items (items.map (itemToJson q)) failures.items
  rules := saveEnvelope q files.rules (rules.map ruleToJson) failures.rules
  settings :=
    (writeWholeFileWithBackup files.settings (q.toJsonIndented (settingsToJson settings))
      failures.settings).1

end TorrentLink.Rss
