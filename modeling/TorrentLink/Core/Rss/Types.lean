import TorrentLink.Base.QString

/-!
# Records of the RSS service

Feeds, items, rules, settings and download requests, with the defaults of the source.
-/

namespace TorrentLink.Rss

inductive AutoDownloadDecision
  | unknown | queued | skipped | succeeded | failed
  deriving DecidableEq, Repr

structure RssFeed where
  id : String := ""
  title : String := ""
  url : String := ""
  enabled : Bool := true
  autoDownloadEnabled : Bool := false
  lastRefreshedAt : QDateTime := none
  lastSuccessRefreshedAt : QDateTime := none
  lastError : String := ""
  deriving DecidableEq, Repr

structure RssItem where
  id : String := ""
  feedId : String := ""
  title : String := ""
  link : String := ""
  guid : String := ""
  summary : String := ""
  publishedAt : QDateTime := none
  magnet : String := ""
  torrentUrl : String := ""
  read : Bool := false
  ignored : Bool := false
  downloaded : Bool := false
  accepted : Bool := false
  queued : Bool := false
  rssAutoWaitlisted : Bool := false
  lastAutoDecision : AutoDownloadDecision := .unknown
  lastAutoReasonCode : String := ""
  lastAutoReasonText : String := ""
  lastAttemptAt : QDateTime := none
  lastSuccessAt : QDateTime := none
  retryCount : Int := 0
  downloadSavePath : String := ""
  deriving DecidableEq, Repr

structure RssRule where
  id : String := ""
  name : String := ""
  feedIds : List String := []
  includeKeywords : List String := []
  excludeKeywords : List String := []
  useRegex : Bool := false
  enabled : Bool := false
  savePath : String := ""
  category : String := ""
  tagsCsv : String := ""
  deriving DecidableEq, Repr

structure RuleMatchResult where
  ruleId : String := ""
  ruleName : String := ""
  isMatch : Bool := false
  reason : String := ""
  deriving DecidableEq, Repr

/-- With a non-empty `itemId` the controller reports the outcome of the download back. -/
structure RssDownloadSettlement where
  itemId : String := ""
  recordSavePath : String := ""
  deriving DecidableEq, Repr

structure AutoDownloadRequest where
  magnet : String := ""
  torrentUrl : String := ""
  savePath : String := ""
  category : String := ""
  tagsCsv : String := ""
  ruleId : String := ""
  itemId : String := ""
  feedId : String := ""
  itemTitle : String := ""
  refererUrl : String := ""
  rssSettlement : RssDownloadSettlement := {}
  addWithoutInteractiveConfirm : Bool := false
  deriving DecidableEq, Repr

def kAutoDownloadMaxPerRefresh : Int := 10
def kRssDefaultConcurrentAutoDownloads : Int := 3
def kRssDefaultAutoDownloadBacklog : Int := 50
def kRssDefaultRefreshIntervalMinutes : Int := 30

inductive RssAutoDownloadScope
  | allEligible | newItemsOnly
  deriving DecidableEq, Repr

structure RssSettings where
  globalAutoDownload : Bool := false
  refreshIntervalMinutes : Int := kRssDefaultRefreshIntervalMinutes
  maxAutoDownloadsPerRefresh : Int := kAutoDownloadMaxPerRefresh
  maxConcurrentAutoDownloads : Int := kRssDefaultConcurrentAutoDownloads
  maxAutoDownloadBacklog : Int := kRssDefaultAutoDownloadBacklog
  historyMaxItems : Int := 5000
  historyMaxAgeDays : Int := 90
  externalPlayerCommand : String := ""
  deriving DecidableEq, Repr

structure HistoryPolicy where
  maxItems : Int := 5000
  maxAgeDays : Int := 90
  deriving DecidableEq, Repr

end TorrentLink.Rss
