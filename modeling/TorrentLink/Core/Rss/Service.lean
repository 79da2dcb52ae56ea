import TorrentLink.Core.Rss.Dedup
import TorrentLink.Core.Rss.Parser
import TorrentLink.Core.Rss.Repository
import TorrentLink.Core.Rss.RuleEngine
import TorrentLink.Lib.KeyedList

/-!
# The RSS service

`RssService`: feeds, items and rules, the refresh of a feed, the retention of items, and automatic
downloads with their diagnosis, limits and settlement. `now` is the clock of a call and `uuid` the fresh
id it would draw. A download is requested by handing a request to the callback, so a call returns the
requests it hands out. A refresh parses what it fetched, so its result is a `Bounded` one.

The positions that `auto_backlog_scratch_` keeps between calls are never read, so it is a local value
here.
-/

namespace TorrentLink.Rss

open Lib

/-- What the service takes from its libraries. -/
structure ServiceEnv where
  text : FeedText
  rule : RuleText
  repository : RepositoryText
  history : HistoryEnv

/-- `FetchResult`, without the HTTP status, which nobody reads. -/
structure FetchResult where
  ok : Bool := false
  body : Bytes := []
  error : String := ""

structure Service where
  files : RssFiles := {}
  dedup : RssDedup := {}
  feeds : List RssFeed := []
  items : List RssItem := []
  rules : List RssRule := []
  autoDownloadEnabled : Bool := false
  maxAutoPerRefresh : Int := kAutoDownloadMaxPerRefresh
  historyPolicy : HistoryPolicy := {}
  settings : RssSettings := {}
  /-- Whether `on_download_request_` is set. -/
  hasDownloadCallback : Bool := false
  lastRefreshNewItemIds : Finset String := ∅

variable (env : ServiceEnv)

def markItemDecision (item : RssItem) (decision : AutoDownloadDecision) (code text : String) :
    RssItem :=
  { item with
    lastAutoDecision := decision
    lastAutoReasonCode := code
    lastAutoReasonText := text }

def isDiagnosticAutoEligible (code : String) : Bool := code = "diagnostic_rule_eligible"

/-! ### State, settings and rules -/

/-- What `pruneItemsWithoutMatchingFeed` keeps: an item with a feed id needs its feed, one without a
feed id is kept only if there are no feeds. -/
def hasMatchingFeed (feeds : List RssFeed) (it : RssItem) : Bool :=
  if it.feedId = "" then feeds.isEmpty else feeds.any fun f => f.id = it.feedId

def pruneItemsWithoutMatchingFeed (s : Service) : Service :=
  { s with items := s.items.filter (hasMatchingFeed s.feeds) }

/-- `dedup_.buildIndex(items_)` -/
def rebuildIndex (s : Service) : Service :=
  { s with dedup := buildIndex env.text.toLower s.items }

def applySettings (s : Service) (settings : RssSettings) : Service :=
  let settings := settings.clamped
  { s with
    settings := settings
    autoDownloadEnabled := settings.globalAutoDownload
    maxAutoPerRefresh := settings.maxAutoDownloadsPerRefresh
    historyPolicy :=
      { maxItems := settings.historyMaxItems, maxAgeDays := settings.historyMaxAgeDays } }

def loadState (s : Service) : Service :=
  let items := (loadItems env.repository s.files).map fun it =>
    { it with queued := false, rssAutoWaitlisted := false }
  let s := { s with
    feeds := loadFeeds env.repository s.files
    items := items
    rules := loadRules env.repository s.files }
  rebuildIndex env
    (pruneItemsWithoutMatchingFeed (applySettings s (loadSettings env.repository s.files)))

def saveState (s : Service) (failures : SaveFailures) : Service :=
  { s with
    files := saveFiles env.repository s.files s.feeds s.items s.rules s.settings failures }

def setAutoDownloadEnabled (s : Service) (enabled : Bool) : Service :=
  { s with
    autoDownloadEnabled := enabled
    settings := { s.settings with globalAutoDownload := enabled } }

def setMaxAutoDownloadsPerRefresh (s : Service) (max : Int) : Service :=
  { s with
    maxAutoPerRefresh := clamp max 1 100
    settings := { s.settings with maxAutoDownloadsPerRefresh := clamp max 1 100 } }

def setDownloadRequestCallback (s : Service) (isSet : Bool) : Service :=
  { s with hasDownloadCallback := isSet }

def setHistoryPolicy (s : Service) (policy : HistoryPolicy) : Service :=
  { s with historyPolicy := policy }

def upsertRule (uuid : String) (s : Service) (rule : RssRule) : Service :=
  { s with
    rules :=
      if s.rules.any fun x => x.id = rule.id then
        modifyFirst (fun x => x.id = rule.id) (fun _ => rule) s.rules
      else s.rules ++ [{ rule with id := if rule.id = "" then uuid else rule.id }] }

def removeRule (s : Service) (ruleId : String) : Service :=
  { s with rules := s.rules.filter fun x => x.id ≠ ruleId }

/-! ### Feeds -/

/-- The position of the first feed with the id. -/
def feedIndex (feeds : List RssFeed) (id : String) : Option Nat :=
  feeds.findIdx? fun x => x.id = id

/-- The position `upsertFeed` updates: the feed with the id, or else the one with the URL. -/
def upsertIndex (feeds : List RssFeed) (feed : RssFeed) : Option Nat :=
  let byId := if feed.id ≠ "" then feedIndex feeds feed.id else none
  byId.or (if feed.url ≠ "" then feeds.findIdx? fun x => x.url = feed.url else none)

/-- The record that replaces a found one. A feed without an id keeps the id and the switches of the
record it is merged into. -/
def mergeFeed (uuid : String) (previous feed : RssFeed) : RssFeed :=
  if feed.id = "" then
    { feed with
      id := if previous.id ≠ "" then previous.id else uuid
      enabled := previous.enabled
      autoDownloadEnabled := previous.autoDownloadEnabled
      lastRefreshedAt := previous.lastRefreshedAt
      lastSuccessRefreshedAt := previous.lastSuccessRefreshedAt
      lastError := previous.lastError }
  else feed

def upsertFeed (uuid : String) (s : Service) (feed : RssFeed) : Service :=
  { s with
    feeds :=
      match upsertIndex s.feeds feed with
      | none => s.feeds ++ [{ feed with id := if feed.id = "" then uuid else feed.id }]
      | some i => s.feeds.modify i fun previous => mergeFeed uuid previous feed }

def removeFeed (s : Service) (feedId : String) : Service :=
  let s := { s with
    feeds := s.feeds.filter fun x => x.id ≠ feedId
    items := s.items.filter fun x => x.feedId ≠ feedId }
  rebuildIndex env (pruneItemsWithoutMatchingFeed s)

def clearItemsForFeed (s : Service) (feedId : String) : Service :=
  rebuildIndex env { s with items := s.items.filter fun x => x.feedId ≠ feedId }

def clearItemsForFeeds (s : Service) (feedIds : List String) : Service :=
  if feedIds = [] then s
  else rebuildIndex env { s with items := s.items.filter fun x => x.feedId ∉ feedIds }

/-! ### Refresh -/

/-- The items of a feed that are not known yet are appended, and indexed. -/
def addIncoming (s : Service) (incoming : List RssItem) : Service :=
  let (unique, dedup) := dedupIncoming env.text.toLower s.dedup incoming
  { s with
    dedup := dedup
    items := s.items ++ unique
    lastRefreshNewItemIds := s.lastRefreshNewItemIds ∪ (unique.map (·.id)).toFinset }

/-- A change of the record at a position, the target of `fit`. -/
def modifyFeed (s : Service) (i : Nat) (f : RssFeed → RssFeed) : Service :=
  { s with feeds := s.feeds.modify i f }

/-- What the parse of a fetched body does. -/
def applyParse (s : Service) (i : Nat) (result : ParseResult) : Service :=
  if result.ok then
    let s := modifyFeed s i fun fit =>
      if fit.title = "" ∧ result.items ≠ [] then
        { fit with title := "Feed (" ++ toString result.items.length ++ " items)" }
      else fit
    addIncoming env s result.items
  else modifyFeed s i fun fit => { fit with lastError := result.error }

/-- The rest of `refreshFeedImpl` once the fetch has returned, up to the scope guard: `i` is the
position of `fit`. -/
def applyFetch (now : Int) (s : Service) (i : Nat) (feedId : String) (fetchResult : FetchResult) :
    Bounded Service :=
  if fetchResult.ok then
    let s := modifyFeed s i fun fit =>
      { fit with
        lastRefreshedAt := some now
        lastError := ""
        lastSuccessRefreshedAt := some now }
    (parse env.text feedId fetchResult.body).andThen fun result => always (applyParse env s i result)
  else
    always (modifyFeed s i fun fit =>
      { fit with lastRefreshedAt := some now, lastError := fetchResult.error })

/-- The scope guard of `refreshFeedImpl`. -/
def onRefreshExit (s : Service) : Service := rebuildIndex env (pruneItemsWithoutMatchingFeed s)

/-- What fetching a URL gives, for the feed with an id. -/
abbrev Fetch := String → String → FetchResult

/-- `refreshFeedImpl`. Nothing else happens while it waits for the fetch. -/
def refreshFeedImpl (now : Int) (fetch : Fetch) (s : Service) (feedId : String) :
    Bounded Service :=
  match feedIndex s.feeds feedId with
  | none => always s
  | some i =>
    let url := ((s.feeds[i]?).map (·.url)).getD ""
    (applyFetch env now s i feedId (fetch feedId url)).andThen fun s => always (onRefreshExit env s)

/-- `RssService::refreshFeed`, which looks for the feed once more. -/
def refreshFeed (now : Int) (fetch : Fetch) (s : Service) (feedId : String) :
    Bounded Service := refreshFeedImpl env now fetch s feedId

/-- The loop of `refreshAllFeeds` over the feeds that are enabled. -/
def refreshEnabled (now : Int) (fetch : Fetch) : List RssFeed → Service →
    Bounded Service
  | [], s => always s
  | feed :: rest, s =>
    if feed.enabled then
      (refreshFeedImpl env now fetch s feed.id).andThen fun s => refreshEnabled now fetch rest s
    else refreshEnabled now fetch rest s

/-- `RssService::pruneHistory` -/
def Service.pruneHistory (now : Int) (s : Service) : Service :=
  let items := Rss.pruneHistory env.history now s.historyPolicy s.items
  if items.length < s.items.length then rebuildIndex env { s with items := items }
  else { s with items := items }

def refreshAllFeeds (now : Int) (fetch : Fetch) (s : Service) : Bounded Service :=
  (refreshEnabled env now fetch s.feeds { s with lastRefreshNewItemIds := ∅ }).andThen fun s =>
    always (rebuildIndex env (pruneItemsWithoutMatchingFeed (s.pruneHistory env now)))

/-- The items of all enabled feeds are dropped first. -/
def reloadItemStreamFromEnabledFeeds (now : Int) (fetch : Fetch) (s : Service) :
    Bounded Service :=
  let enabledIds := (s.feeds.filter (·.enabled)).map (·.id)
  let s :=
    if enabledIds = [] then s
    else rebuildIndex env { s with items := s.items.filter fun x => x.feedId ∉ enabledIds }
  refreshAllFeeds env now fetch s

/-! ### Items -/

def markItemRead (s : Service) (itemId : String) : Service :=
  { s with items := modifyFirst (fun it => it.id = itemId) (fun it => { it with read := true }) s.items }

def markItemIgnored (s : Service) (itemId : String) : Service :=
  { s with
    items := modifyFirst (fun it => it.id = itemId) (fun it => { it with ignored := true }) s.items }

def markItemsIgnored (s : Service) (itemIds : List String) : Service :=
  { s with
    items := s.items.map fun it => if it.id ∈ itemIds then { it with ignored := true } else it }

/-- The item after its settlement. -/
def settledItem (now : Int) (pathToStore : String) (success : Bool) (it : RssItem) : RssItem :=
  let it := { it with queued := false, lastAttemptAt := some now }
  if success then
    markItemDecision
      { it with
        accepted := true
        downloaded := true
        retryCount := 0
        downloadSavePath := pathToStore
        lastSuccessAt := some now }
      .succeeded "settlement_success" "Request accepted by download pipeline."
  else
    markItemDecision { it with retryCount := it.retryCount + 1 } .failed "settlement_failed"
      "Request failed or cancelled."

/-- `applyRssDownloadSettlement`. With `persist`, the state is saved, with these failures. -/
def applyRssDownloadSettlement (now : Int) (s : Service) (settlement : RssDownloadSettlement)
    (success : Bool) (resolvedSaveOverride : String) (persist : Option SaveFailures) : Service :=
  if settlement.itemId = "" then s
  else
    let pathToStore :=
      if trimmed resolvedSaveOverride = "" then settlement.recordSavePath else resolvedSaveOverride
    let touched := s.items.any fun it => it.id = settlement.itemId
    let s := { s with
      items := modifyFirst (fun it => it.id = settlement.itemId)
        (settledItem now pathToStore success) s.items }
    match persist with
    | some failures => if touched then saveState env s failures else s
    | none => s

/-! ### Downloads -/

/-- The rule whose save path, category and tags a download gets. -/
def matchingRule (s : Service) (it : RssItem) : Option RssRule :=
  match findFirstEnabledMatch env.rule s.rules it with
  | none => none
  | some result => s.rules.find? fun r => r.id = result.ruleId

/-- The request that downloads an item. -/
def downloadRequest (s : Service) (it : RssItem) : AutoDownloadRequest :=
  let savePath := ((matchingRule env s it).map (·.savePath)).getD ""
  { magnet := it.magnet
    torrentUrl := it.torrentUrl
    savePath := savePath
    category := ((matchingRule env s it).map (·.category)).getD ""
    tagsCsv := ((matchingRule env s it).map (·.tagsCsv)).getD ""
    itemId := it.id
    feedId := it.feedId
    itemTitle := it.title
    refererUrl := ((s.feeds.find? fun x => x.id = it.feedId).map (·.url)).getD ""
    rssSettlement := { itemId := it.id, recordSavePath := savePath }
    addWithoutInteractiveConfirm := true }

/-- What `downloadItem` makes of the item. -/
def downloadAttempt (now : Int) (s : Service) (it : RssItem) :
    RssItem × Option AutoDownloadRequest :=
  if it.magnet = "" ∧ it.torrentUrl = "" then
    (markItemDecision it .skipped "no_resource" "No magnet or torrent URL.", none)
  else if it.queued then
    (markItemDecision it .skipped "already_queued" "Item is already queued.", none)
  else if !s.hasDownloadCallback then
    (markItemDecision it .failed "no_callback" "Download callback is not set.", none)
  else
    (markItemDecision { it with queued := true, lastAttemptAt := some now } .queued "manual_queued"
      "Manual download queued.", some (downloadRequest env s it))

/-- `downloadItem`: it returns true when it hands out a request. -/
def downloadItem (now : Int) (s : Service) (itemId : String) :
    Service × Option AutoDownloadRequest :=
  match s.items.find? fun it => it.id = itemId with
  | none => (s, none)
  | some it =>
    ({ s with
      items := modifyFirst (fun it => it.id = itemId) (fun it => (downloadAttempt env now s it).1)
        s.items }, (downloadAttempt env now s it).2)

/-! ### Diagnosis -/

/-- `diagnoseRuleAutoDownloadState`: the decision, its code and its text. -/
def diagnoseRule (s : Service) (it : RssItem) : AutoDownloadDecision × String × String :=
  match s.feeds.find? fun x => x.id = it.feedId with
  | none =>
    (.skipped, "unknown_feed", "条目的 feed_id 与当前订阅列表不一致（可能为历史数据或合并订阅导致）。")
  | some fit =>
    if !fit.autoDownloadEnabled then (.skipped, "feed_auto_off", "该订阅源已关闭「自动下载」。")
    else
      match findFirstEnabledMatch env.rule s.rules it with
      | none => (.skipped, "no_rule_match", "No rule matched.")
      | some result =>
        if (s.rules.find? fun r => r.id = result.ruleId) = none then
          (.failed, "rule_missing", "Matched rule not found.")
        else if !s.hasDownloadCallback then
          (.failed, "no_callback", "Download callback is not set.")
        else
          (.skipped, "diagnostic_rule_eligible", "Rule would auto-download (diagnostic only).")

def diagnosis (s : Service) (it : RssItem) : AutoDownloadDecision × String × String :=
  if !s.autoDownloadEnabled then
    (.skipped, "global_disabled", "Global auto download is disabled.")
  else if it.magnet = "" ∧ it.torrentUrl = "" then
    (.skipped, "no_resource", "No magnet or torrent URL.")
  else if it.downloaded || it.ignored || it.queued then
    (.skipped, "state_blocked", "Item is downloaded/ignored/queued.")
  else diagnoseRule env s it

def diagnoseItemAutoDownloadState (s : Service) (it : RssItem) : RssItem :=
  markItemDecision it (diagnosis env s it).1 (diagnosis env s it).2.1 (diagnosis env s it).2.2

def itemMatchesAutoDownloadScope (s : Service) (it : RssItem) (scope : RssAutoDownloadScope) :
    Bool :=
  match scope with
  | .newItemsOnly => it.id ∈ s.lastRefreshNewItemIds
  | .allEligible => true

/-- What keeps an item out of the backlog whatever its diagnosis. -/
def RssItem.isBlocked (it : RssItem) : Bool := it.queued || it.downloaded || it.ignored

/-- The conditions of `rebuildAutoBacklogScratch`. -/
def isBacklogCandidate (s : Service) (scope : RssAutoDownloadScope) (it : RssItem) : Bool :=
  itemMatchesAutoDownloadScope s it scope && !it.isBlocked &&
    !(it.magnet = "" && it.torrentUrl = "") && isDiagnosticAutoEligible it.lastAutoReasonCode

def effectiveAutoDownloadBacklogCap (s : Service) : Int :=
  clamp s.settings.maxAutoDownloadBacklog 1 500

/-- The time the backlog is ordered by: the epoch for an item without a valid one. -/
def publishedOrEpoch (items : List RssItem) (i : Nat) : Int :=
  ((items[i]?).bind (·.publishedAt)).getD 0

/-- `publishedDesc` -/
def publishedDesc (items : List RssItem) (ia ib : Nat) : Bool :=
  publishedOrEpoch items ib < publishedOrEpoch items ia

/-- The positions of the candidates, in their order. -/
def candidatePositions (s : Service) (scope : RssAutoDownloadScope) : List Nat :=
  (List.range s.items.length).filter fun i => (s.items[i]?).any (isBacklogCandidate s scope)

/-- `rebuildAutoBacklogScratch`: the newest candidates, as many as the cap allows. -/
def rebuildAutoBacklogScratch (s : Service) (scope : RssAutoDownloadScope) : List Nat :=
  (env.history.std.sort (publishedDesc s.items) (candidatePositions s scope)).take
    (effectiveAutoDownloadBacklogCap s).toNat

/-- The number of items in flight. -/
def inflight (items : List RssItem) : Int := items.countP (·.queued)

def applyAutoDownloadBacklogOverflowMarkers (s : Service) : Service :=
  if !s.autoDownloadEnabled then s
  else
    let tracked := (rebuildAutoBacklogScratch env s .allEligible).filterMap fun i =>
      (s.items[i]?).map (·.id)
    { s with
      items := s.items.map fun it =>
        if it.isBlocked || !isDiagnosticAutoEligible it.lastAutoReasonCode || it.id ∈ tracked then it
        else markItemDecision it .skipped "auto_backlog_overflow"
          "符合条件但超出自动下载排队上限，将随进度陆续入队。" }

/-- The mark of the item at each of the positions. -/
def setWaitlisted (items : List RssItem) (positions : List Nat) : List RssItem :=
  positions.foldl (fun items i => items.modify i fun it => { it with rssAutoWaitlisted := true }) items

def maxConcurrent (s : Service) : Int := clamp s.settings.maxConcurrentAutoDownloads 1 50

def syncRssAutoWaitlistMarkers (s : Service) (scope : RssAutoDownloadScope) : Service :=
  let s := { s with
    items := s.items.map fun it =>
      if itemMatchesAutoDownloadScope s it scope then { it with rssAutoWaitlisted := false } else it }
  if !s.autoDownloadEnabled then s
  else
    let freeSlots := max 0 (maxConcurrent s - inflight s.items)
    { s with
      items := setWaitlisted s.items
        ((rebuildAutoBacklogScratch env s scope).drop freeSlots.toNat) }

def refreshAutoDownloadDiagnostics (s : Service) : Service :=
  let s := { s with items := s.items.map (diagnoseItemAutoDownloadState env s) }
  syncRssAutoWaitlistMarkers env (applyAutoDownloadBacklogOverflowMarkers env s) .allEligible

def refreshAutoDownloadDiagnosticsForFeed (s : Service) (feedId : String) : Service :=
  if feedId = "" then s
  else
    let s := { s with
      items := s.items.map fun it =>
        if it.feedId = feedId then diagnoseItemAutoDownloadState env s it else it }
    syncRssAutoWaitlistMarkers env (applyAutoDownloadBacklogOverflowMarkers env s) .allEligible

/-! ### Dispatch -/

/-- The loop of `dispatchDeferredAutoDownloads` over the positions of the backlog. -/
def dispatchLoop (now cap maxConc : Int) : List Nat → Int → Int → Service →
    Service × List AutoDownloadRequest
  | [], _, _, s => (s, [])
  | i :: rest, started, inflight, s =>
    if started < cap ∧ inflight < maxConc then
      match s.items[i]? with
      | none => dispatchLoop now cap maxConc rest started inflight s
      | some it =>
        if it.isBlocked || !isDiagnosticAutoEligible it.lastAutoReasonCode then
          dispatchLoop now cap maxConc rest started inflight s
        else
          match downloadItem env now s it.id with
          | (s, none) => dispatchLoop now cap maxConc rest started inflight s
          | (s, some request) =>
            let (s, requests) := dispatchLoop now cap maxConc rest (started + 1) (inflight + 1) s
            (s, request :: requests)
    else (s, [])

/-- What the dispatch diagnoses first, if it is asked to. -/
def diagnoseAll (s : Service) (refreshDiagnosis : Bool) : Service :=
  if refreshDiagnosis then { s with items := s.items.map (diagnoseItemAutoDownloadState env s) } else s

/-- `dispatchDeferredAutoDownloads`: it returns how many requests it hands out. -/
def dispatchDeferredAutoDownloads (now : Int) (s : Service) (maxBatch : Int)
    (refreshDiagnosis : Bool) (scope : RssAutoDownloadScope) :
    Service × List AutoDownloadRequest :=
  if !s.autoDownloadEnabled then (s, [])
  else
    let s := diagnoseAll env s refreshDiagnosis
    let (s, requests) := dispatchLoop env now (clamp maxBatch 1 100) (maxConcurrent s)
      (rebuildAutoBacklogScratch env s scope) 0 (inflight s.items) s
    (syncRssAutoWaitlistMarkers env (applyAutoDownloadBacklogOverflowMarkers env s) scope, requests)

end TorrentLink.Rss
