import TorrentLink.Lib.Loop
import TorrentLink.Base.CrashSafety
import TorrentLink.Base.InputSanitizer
import TorrentLink.Base.RingBufferRuns
import TorrentLink.App.PreparedMagnet
import TorrentLink.App.TaskRecovery
import TorrentLink.App.RssDownloads
import TorrentLink.App.RssMetadata
import TorrentLink.Lt.PendingPromises
import TorrentLink.Lt.PausedIntent
import TorrentLink.Lt.CancelSafety
import TorrentLink.Lt.AddOptions
import TorrentLink.Lt.ConnectionLimits
import TorrentLink.Lt.SingleAdd
import TorrentLink.Lt.ResumeSaves
import TorrentLink.Lt.TaskIdentity
import TorrentLink.Core.Rss.ParserTermination
import TorrentLink.Core.Rss.FeedDiagnostics
import TorrentLink.Core.Rss.SingleStart
import TorrentLink.Core.Rss.FeedIdentity
import TorrentLink.Core.Rss.SuspendedRefresh
import TorrentLink.Core.SnapshotFields
import TorrentLink.App.RemovedTasks
import TorrentLink.App.RssDownloadOrchestrator
import TorrentLink.Core.Tracker.TableRuns
import TorrentLink.Core.Tracker.SplitReads
import TorrentLink.Lt.IpFilterRules
import TorrentLink.Core.Rss.RepositoryRoundTrip
import TorrentLink.Core.Rss.DedupRuns
import TorrentLink.Core.Rss.Retention
import TorrentLink.Core.Rss.BatchDedup
import TorrentLink.Core.Rss.InfoHash
import TorrentLink.Core.Rss.EntryIds
import TorrentLink.Core.Rss.RuleSettings
import TorrentLink.Lt.TaskTrackers
import TorrentLink.Ui.ContentTree
import TorrentLink.Lt.FilePriorities
import TorrentLink.App.StatusLocks
import TorrentLink.Core.Tracker.CompactPeers
import TorrentLink.Core.Tracker.QueryDecoding
import TorrentLink.Core.Tracker.Replies
import TorrentLink.Core.LogStore
import TorrentLink.Core.LogFile
import TorrentLink.Core.Logger
import TorrentLink.App.PostDownloadAction
import TorrentLink.Lib.CircularBuffer
import TorrentLink.Ui.SpeedChartModel
import TorrentLink.Lib.PrefixCode
import TorrentLink.Lib.Utf8
import TorrentLink.Base.TextEncoding
import TorrentLink.Core.Rss.CookieRules
import TorrentLink.Core.Rss.Opml
import TorrentLink.Ui.RssFeedsPage
import TorrentLink.Lib.Visits
import TorrentLink.Ui.SearchFilter
import TorrentLink.Core.SaveFolder
import TorrentLink.Ui.ContentTotals
import TorrentLink.Core.Rss.InFlight
import TorrentLink.App.RssLoop
import TorrentLink.Core.AppSettings
import TorrentLink.Core.ConfigService
import TorrentLink.App.SettingsSync
import TorrentLink.App.OncePerTask
import TorrentLink.Ui.ContentPriorities
import TorrentLink.App.TaskRestart
import TorrentLink.App.UiRefresh
import TorrentLink.App.SettlementSaves
