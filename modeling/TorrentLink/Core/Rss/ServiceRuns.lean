import TorrentLink.Core.Rss.ServiceItems
import TorrentLink.Lib.Runs

/-!
# Runs of the RSS service

The calls of the service, one at a time. A call that parses what it fetched is given a bound for the
parse; if the parse has not returned within it, the call has not either, and the run does not count it.
-/

namespace TorrentLink.Rss

open Lib

inductive ServiceOp
  | loadState
  | saveState (failures : SaveFailures)
  | setAutoDownloadEnabled (enabled : Bool)
  | setMaxAutoDownloadsPerRefresh (max : Int)
  | setDownloadRequestCallback (isSet : Bool)
  | setHistoryPolicy (policy : HistoryPolicy)
  | applySettings (settings : RssSettings)
  | upsertRule (uuid : String) (rule : RssRule)
  | removeRule (ruleId : String)
  | upsertFeed (uuid : String) (feed : RssFeed)
  | removeFeed (feedId : String)
  | clearItemsForFeed (feedId : String)
  | clearItemsForFeeds (feedIds : List String)
  | refreshFeed (now : Int) (fetch : Fetch) (feedId : String) (bound : Nat)
  | refreshAllFeeds (now : Int) (fetch : Fetch) (bound : Nat)
  | reloadItemStream (now : Int) (fetch : Fetch) (bound : Nat)
  | pruneHistory (now : Int)
  | markItemRead (itemId : String)
  | markItemIgnored (itemId : String)
  | markItemsIgnored (itemIds : List String)
  | settle (now : Int) (settlement : RssDownloadSettlement) (success : Bool)
      (resolvedSaveOverride : String) (persist : Option SaveFailures)
  | downloadItem (now : Int) (itemId : String)
  | refreshDiagnostics
  | refreshDiagnosticsForFeed (feedId : String)
  | dispatch (now : Int) (maxBatch : Int) (refreshDiagnosis : Bool) (scope : RssAutoDownloadScope)

variable (env : ServiceEnv)

def serviceStep (s : Service) : ServiceOp → Service
  | .loadState => loadState env s
  | .saveState failures => saveState env s failures
  | .setAutoDownloadEnabled enabled => setAutoDownloadEnabled s enabled
  | .setMaxAutoDownloadsPerRefresh max => setMaxAutoDownloadsPerRefresh s max
  | .setDownloadRequestCallback isSet => setDownloadRequestCallback s isSet
  | .setHistoryPolicy policy => setHistoryPolicy s policy
  | .applySettings settings => applySettings s settings
  | .upsertRule uuid rule => upsertRule uuid s rule
  | .removeRule ruleId => removeRule s ruleId
  | .upsertFeed uuid feed => upsertFeed uuid s feed
  | .removeFeed feedId => removeFeed env s feedId
  | .clearItemsForFeed feedId => clearItemsForFeed env s feedId
  | .clearItemsForFeeds feedIds => clearItemsForFeeds env s feedIds
  | .refreshFeed now fetch feedId bound => (refreshFeed env now fetch s feedId bound).getD s
  | .refreshAllFeeds now fetch bound => (refreshAllFeeds env now fetch s bound).getD s
  | .reloadItemStream now fetch bound =>
    (reloadItemStreamFromEnabledFeeds env now fetch s bound).getD s
  | .pruneHistory now => s.pruneHistory env now
  | .markItemRead itemId => markItemRead s itemId
  | .markItemIgnored itemId => markItemIgnored s itemId
  | .markItemsIgnored itemIds => markItemsIgnored s itemIds
  | .settle now settlement success resolvedSaveOverride persist =>
    applyRssDownloadSettlement env now s settlement success resolvedSaveOverride persist
  | .downloadItem now itemId => (downloadItem env now s itemId).1
  | .refreshDiagnostics => refreshAutoDownloadDiagnostics env s
  | .refreshDiagnosticsForFeed feedId => refreshAutoDownloadDiagnosticsForFeed env s feedId
  | .dispatch now maxBatch refreshDiagnosis scope =>
    (dispatchDeferredAutoDownloads env now s maxBatch refreshDiagnosis scope).1

/-- A load reads items with distinct ids, none of them empty. -/
def LoadOk (s : Service) : ServiceOp → Prop
  | .loadState =>
    ((loadItems env.repository s.files).map (·.id)).Nodup ∧
      ∀ it ∈ loadItems env.repository s.files, it.id ≠ ""
  | _ => True

/-! ### Downloads and settlements keep the ids -/

variable {env}

/-- A part of an item that a download does not touch either. -/
structure Unattempted {κ : Type} (key : RssItem → κ) : Prop extends Unmarked key where
  attempt : ∀ it b t, key { it with queued := b, lastAttemptAt := t } = key it

theorem unattempted_id : Unattempted (·.id : RssItem → String) where
  decision _ _ _ _ := rfl
  waitlist _ _ := rfl
  attempt _ _ _ := rfl

section Attempts

variable {κ : Type} {key : RssItem → κ} (hkey : Unattempted key)

include hkey

theorem key_downloadAttempt (now : Int) (s : Service) (it : RssItem) :
    key (downloadAttempt env now s it).1 = key it := by
  unfold downloadAttempt
  split
  · exact hkey.decision it _ _ _
  · split
    · exact hkey.decision it _ _ _
    · split
      · exact hkey.decision it _ _ _
      · exact (hkey.decision _ _ _ _).trans (hkey.attempt it _ _)

variable (env) in
theorem keeps_downloadItem (now : Int) (s : Service) (itemId : String) :
    KeepsItems key s (downloadItem env now s itemId).1 := by
  unfold downloadItem
  split
  · exact KeepsItems.refl s
  · exact keeps_modifyFirst s _ fun it => key_downloadAttempt hkey now s it

variable (env) in
theorem keeps_dispatchLoop (now cap maxConc : Int) (positions : List Nat) (started inflight : Int)
    (s : Service) :
    KeepsItems key s (dispatchLoop env now cap maxConc positions started inflight s).1 := by
  induction positions generalizing started inflight s with
  | nil => exact KeepsItems.refl s
  | cons i rest ih =>
    rw [dispatchLoop]
    split
    · cases s.items[i]? with
      | none => exact ih started inflight s
      | some it =>
        dsimp only
        split
        · exact ih started inflight s
        · have hdownload := keeps_downloadItem env hkey now s it.id
          generalize downloadItem env now s it.id = result at hdownload
          obtain ⟨s', request⟩ := result
          cases request with
          | none => exact hdownload.trans (ih started inflight s')
          | some request => exact hdownload.trans (ih (started + 1) (inflight + 1) s')
    · exact KeepsItems.refl s

variable (env) in
theorem keeps_dispatch (now : Int) (s : Service) (maxBatch : Int) (refreshDiagnosis : Bool)
    (scope : RssAutoDownloadScope) :
    KeepsItems key s
      (dispatchDeferredAutoDownloads env now s maxBatch refreshDiagnosis scope).1 := by
  unfold dispatchDeferredAutoDownloads
  split
  · exact KeepsItems.refl s
  · exact (((keeps_diagnoseAll env hkey.toUnmarked s refreshDiagnosis).trans
      (keeps_dispatchLoop env hkey now _ _ _ _ _ _)).trans
        (keeps_overflow env hkey.toUnmarked _)).trans (keeps_sync env hkey.toUnmarked _ scope)

end Attempts

theorem id_downloadAttempt (now : Int) (s : Service) (it : RssItem) :
    (downloadAttempt env now s it).1.id = it.id := key_downloadAttempt unattempted_id now s it

variable (env) in
theorem ids_downloadItem (now : Int) (s : Service) (itemId : String) :
    ∃ items, (downloadItem env now s itemId).1 = { s with items := items } ∧
      items.map (·.id) = s.items.map (·.id) := keeps_downloadItem env unattempted_id now s itemId

theorem Indexed.keeps {s s' : Service} (h : Indexed s) (hkeeps : KeepsItems (·.id) s s') :
    Indexed s' := by
  obtain ⟨items, rfl, hids⟩ := hkeeps
  exact h.of_ids hids rfl

theorem Indexed.dispatch {s : Service} (h : Indexed s) (now maxBatch : Int)
    (refreshDiagnosis : Bool) (scope : RssAutoDownloadScope) :
    Indexed (dispatchDeferredAutoDownloads env now s maxBatch refreshDiagnosis scope).1 :=
  h.keeps (keeps_dispatch env unattempted_id now s maxBatch refreshDiagnosis scope)

theorem core_settledItem (now : Int) (path : String) (success : Bool) (it : RssItem) :
    (settledItem now path success it).core = (it.id, false, it.downloaded || success) := by
  unfold settledItem
  cases success with
  | true => simp [RssItem.core, markItemDecision]
  | false => simp [RssItem.core, markItemDecision]

variable (env) in
/-- What a settlement does to the items. -/
theorem settle_items (now : Int) (s : Service) (settlement : RssDownloadSettlement) (success : Bool)
    (resolvedSaveOverride : String) (persist : Option SaveFailures) (hid : settlement.itemId ≠ "") :
    ∃ path files,
      applyRssDownloadSettlement env now s settlement success resolvedSaveOverride persist =
        { s with
          items := modifyFirst (fun it => it.id = settlement.itemId)
            (settledItem now path success) s.items
          files := files } := by
  unfold applyRssDownloadSettlement
  rw [if_neg hid]
  cases persist with
  | none => exact ⟨_, s.files, rfl⟩
  | some failures =>
    dsimp only
    split
    · exact ⟨_, _, rfl⟩
    · exact ⟨_, s.files, rfl⟩

variable (env) in
theorem Indexed.settle {s : Service} (h : Indexed s) (now : Int) (settlement : RssDownloadSettlement)
    (success : Bool) (resolvedSaveOverride : String) (persist : Option SaveFailures) :
    Indexed (applyRssDownloadSettlement env now s settlement success resolvedSaveOverride persist) := by
  by_cases hid : settlement.itemId = ""
  · unfold applyRssDownloadSettlement
    rw [if_pos hid]
    exact h
  · obtain ⟨path, files, hs⟩ := settle_items env now s settlement success
      resolvedSaveOverride persist hid
    rw [hs]
    refine h.of_ids (map_modifyFirst (fun it => ?_) s.items) rfl
    exact congrArg Prod.fst (core_settledItem now path success it)

/-! ### Refreshes and loads -/

theorem ensures_refreshAllFeeds (hdigest : ∀ text, env.text.sha256Hex text ≠ "") (now : Int)
    (fetch : Fetch) {s : Service} (h : Indexed s) :
    Ensures (refreshAllFeeds env now fetch s) Indexed := by
  have hstart : Indexed { s with lastRefreshNewItemIds := ∅ } := h.frame rfl rfl
  exact (ensures_refreshEnabled hdigest now fetch s.feeds _).andThen fun s' hs' =>
    ensures_always (((hs'.indexed hstart).pruneHistory env now).pruneOrphans.rebuild env)

theorem ensures_reloadItemStream (hdigest : ∀ text, env.text.sha256Hex text ≠ "") (now : Int)
    (fetch : Fetch) {s : Service} (h : Indexed s) :
    Ensures (reloadItemStreamFromEnabledFeeds env now fetch s) Indexed := by
  unfold reloadItemStreamFromEnabledFeeds
  dsimp only
  split
  · exact ensures_refreshAllFeeds hdigest now fetch h
  · exact ensures_refreshAllFeeds hdigest now fetch ((h.filter _).rebuild env)

theorem indexed_getD {f : Bounded Service} {s : Service} (h : Indexed s) (hf : Ensures f Indexed)
    (bound : Nat) : Indexed ((f bound).getD s) := by
  cases hr : f bound with
  | none => exact h
  | some s' => exact hf bound s' hr

theorem indexed_loadState {s : Service} (hok : LoadOk env s .loadState) :
    Indexed (loadState env s) := by
  obtain ⟨hnodup, hnamed⟩ := hok
  have hids : ((loadItems env.repository s.files).map fun it =>
      { it with queued := false, rssAutoWaitlisted := false }).map (·.id) =
        (loadItems env.repository s.files).map (·.id) := by
    rw [List.map_map]
    rfl
  refine indexed_rebuildIndex env ?_ ?_
  · exact nodup_of_subperm (hids ▸ hnodup) List.filter_sublist.subperm
  · intro it hit
    obtain ⟨it', hit', rfl⟩ := List.mem_map.mp (List.mem_of_mem_filter hit)
    exact hnamed it' hit'

theorem indexed_step (hdigest : ∀ text, env.text.sha256Hex text ≠ "") (s : Service) (op : ServiceOp)
    (h : Indexed s) (hok : LoadOk env s op) : Indexed (serviceStep env s op) := by
  cases op with
  | loadState => exact indexed_loadState hok
  | saveState failures => exact h.frame rfl rfl
  | setAutoDownloadEnabled enabled => exact h.frame rfl rfl
  | setMaxAutoDownloadsPerRefresh max => exact h.frame rfl rfl
  | setDownloadRequestCallback isSet => exact h.frame rfl rfl
  | setHistoryPolicy policy => exact h.frame rfl rfl
  | applySettings settings => exact h.frame rfl rfl
  | upsertRule uuid rule => exact h.frame rfl rfl
  | removeRule ruleId => exact h.frame rfl rfl
  | upsertFeed uuid feed => exact h.frame rfl rfl
  | removeFeed feedId =>
    have hfilter := h.filter fun x => x.feedId ≠ feedId
    have hfeeds : Indexed { s with
        feeds := s.feeds.filter fun x => x.id ≠ feedId
        items := s.items.filter fun x => x.feedId ≠ feedId } := hfilter.frame rfl rfl
    exact hfeeds.pruneOrphans.rebuild env
  | clearItemsForFeed feedId => exact (h.filter _).rebuild env
  | clearItemsForFeeds feedIds =>
    show Indexed (clearItemsForFeeds env s feedIds)
    unfold clearItemsForFeeds
    split
    · exact h
    · exact (h.filter _).rebuild env
  | refreshFeed now fetch feedId bound =>
    refine indexed_getD h (fun n r hr => ?_) bound
    exact (ensures_refreshFeedImpl hdigest now fetch s feedId n r hr).indexed h
  | refreshAllFeeds now fetch bound =>
    exact indexed_getD h (ensures_refreshAllFeeds hdigest now fetch h) bound
  | reloadItemStream now fetch bound =>
    exact indexed_getD h (ensures_reloadItemStream hdigest now fetch h) bound
  | pruneHistory now => exact h.pruneHistory env now
  | markItemRead itemId => exact h.marks (marks_modifyFirst s _ fun _ => rfl)
  | markItemIgnored itemId => exact h.marks (marks_modifyFirst s _ fun _ => rfl)
  | markItemsIgnored itemIds =>
    refine h.marks (marks_map s fun it => ?_)
    split
    · rfl
    · rfl
  | settle now settlement success resolvedSaveOverride persist =>
    exact h.settle _ now settlement success resolvedSaveOverride persist
  | downloadItem now itemId => exact h.keeps (keeps_downloadItem env unattempted_id now s itemId)
  | refreshDiagnostics => exact h.marks (marks_refreshDiagnostics env s)
  | refreshDiagnosticsForFeed feedId => exact h.marks (marks_refreshDiagnosticsForFeed env s feedId)
  | dispatch now maxBatch refreshDiagnosis scope =>
    exact h.dispatch now maxBatch refreshDiagnosis scope

/-- The service before its first load. -/
theorem indexed_start (files : RssFiles) : Indexed { files := files } :=
  ⟨List.nodup_nil, by simp, by simp⟩

/-- A refresh whose body parses applies what the parse gives. -/
theorem refreshFeedImpl_of_parse {now : Int} {fetch : Fetch} {s : Service}
    {i bound : Nat} {feedId : String} {result : ParseResult} (hi : feedIndex s.feeds feedId = some i)
    (hok : ∀ url, (fetch feedId url).ok = true)
    (hparse : ∀ url, parse env.text feedId (fetch feedId url).body bound = some result) :
    refreshFeedImpl env now fetch s feedId bound =
      some (onRefreshExit env (applyParse env (modifyFeed s i fun fit =>
        { fit with
          lastRefreshedAt := some now
          lastError := ""
          lastSuccessRefreshedAt := some now }) i result)) := by
  unfold refreshFeedImpl
  rw [hi]
  refine Option.bind_eq_some_iff.mpr ⟨_, ?_, rfl⟩
  unfold applyFetch
  rw [if_pos (hok _)]
  exact Option.bind_eq_some_iff.mpr ⟨result, hparse _, rfl⟩

/-! ### A feed of one entry -/

def oneEntryFeed : Bytes :=
  ("<rss><channel><item><guid>e</guid><pubDate>Sat, 01 Jan 2000 00:00:00 +0000</pubDate>" ++
    "<link>magnet:?xt=urn:btih:0123456789abcdef0123456789abcdef01234567</link></item></channel></rss>"
  ).toList.map fun c => c.toNat.toUInt8

/-- The libraries on that feed, fetched for the feed id `feed`. -/
def oneEntryEnv : ServiceEnv where
  text :=
    { tokenize := fun bytes =>
        if bytes = oneEntryFeed then
          { tokens := [.startDocument, .startElement "rss" [], .startElement "channel" [],
              .startElement "item" [],
              .startElement "guid" [], .characters "e", .endElement "guid",
              .startElement "pubDate" [], .characters "Sat, 01 Jan 2000 00:00:00 +0000",
              .endElement "pubDate",
              .startElement "link" [],
              .characters "magnet:?xt=urn:btih:0123456789abcdef0123456789abcdef01234567",
              .endElement "link",
              .endElement "item", .endElement "channel", .endElement "rss"]
            ending := .endDocument }
        else { tokens := [], ending := .error "Premature end of document." }
      matchMagnet := fun _ => none
      matchTorrentUrl := fun _ => none
      fromRfc2822Date := fun text =>
        if text = "Sat, 01 Jan 2000 00:00:00 +0000" then some 946684800000 else none
      fromIsoDate := fun _ => none
      fromPlainDate := fun _ => none
      url := fun _ => none
      toLower := fun text => String.ofList (foldCase text)
      sha256Hex := fun text =>
        if text = "feed|e" then "5871f5b0118f600917ea63dfda2dbe0ba820d3cbf1714d0ba12603b95e314524"
        else "e3b0c44298fc1c149afbf4c8996fb92427ae41e4649b934ca495991b7852b855" }
  rule := { hasMatch := fun _ _ => false, containsCI := containsText }
  repository :=
    { fromJson := fun _ => .null
      toJsonCompact := fun _ => []
      toJsonIndented := fun _ => []
      sha256Hex := fun _ => ""
      toIsoDate := fun _ => ""
      fromIsoDate := fun _ => none }
  history := { addDays := fun now days => now + days * 86400000, std := insertionStdSort }

theorem oneEntryEnv_digest (text : String) : oneEntryEnv.text.sha256Hex text ≠ "" := by
  show (if text = "feed|e" then _ else _) ≠ _
  split
  · decide
  · decide

/-- Fetching the feed succeeds. -/
def fetchOneEntry : Fetch := fun _ _ => { ok := true, body := oneEntryFeed }

/-- The entry, as it is parsed. -/
def oneEntry : RssItem :=
  { id := "5871f5b0118f600917ea63dfda2dbe0b", feedId := "feed", guid := "e"
    publishedAt := some 946684800000
    magnet := "magnet:?xt=urn:btih:0123456789abcdef0123456789abcdef01234567" }

theorem oneEntryFeed_ne_nil : oneEntryFeed ≠ [] := by
  unfold oneEntryFeed
  rw [String.toList_append, List.map_append]
  refine List.append_ne_nil_of_left_ne_nil ?_ _
  rw [ne_eq, List.map_eq_nil_iff, String.toList_eq_nil_iff]
  decide

/-- The bytes are compared as a whole, and not read. -/
theorem tokenize_oneEntryFeed : oneEntryEnv.text.tokenize oneEntryFeed =
    { tokens := [.startDocument, .startElement "rss" [], .startElement "channel" [],
        .startElement "item" [],
        .startElement "guid" [], .characters "e", .endElement "guid",
        .startElement "pubDate" [], .characters "Sat, 01 Jan 2000 00:00:00 +0000",
        .endElement "pubDate",
        .startElement "link" [],
        .characters "magnet:?xt=urn:btih:0123456789abcdef0123456789abcdef01234567",
        .endElement "link",
        .endElement "item", .endElement "channel", .endElement "rss"]
      ending := .endDocument } := by
  unfold oneEntryEnv
  generalize oneEntryFeed = bytes
  exact if_pos rfl

theorem parse_oneEntryFeed :
    parse oneEntryEnv.text "feed" oneEntryFeed 100 = some { ok := true, items := [oneEntry] } := by
  unfold parse
  rw [if_neg oneEntryFeed_ne_nil, tokenize_oneEntryFeed]
  decide +kernel

/-- The service once the feed at a position has given its entry. -/
def oneEntryRefreshed (now : Int) (s : Service) (i : Nat) : Service :=
  onRefreshExit oneEntryEnv (applyParse oneEntryEnv (modifyFeed s i fun fit =>
    { fit with
      lastRefreshedAt := some now
      lastError := ""
      lastSuccessRefreshedAt := some now }) i { ok := true, items := [oneEntry] })

theorem refreshFeedImpl_oneEntry (now : Int) {s : Service} {i : Nat}
    (hi : feedIndex s.feeds "feed" = some i) :
    refreshFeedImpl oneEntryEnv now fetchOneEntry s "feed" 100 = some (oneEntryRefreshed now s i) := by
  refine refreshFeedImpl_of_parse hi (fun _ => ?_) fun _ => ?_
  · dsimp only [fetchOneEntry]
  · dsimp only [fetchOneEntry]
    exact parse_oneEntryFeed

theorem serviceStep_refreshFeed (now : Int) {s : Service} {i : Nat}
    (hi : feedIndex s.feeds "feed" = some i) :
    serviceStep oneEntryEnv s (.refreshFeed now fetchOneEntry "feed" 100) =
      oneEntryRefreshed now s i := by
  rw [serviceStep, refreshFeed, refreshFeedImpl_oneEntry now hi, Option.getD_some]

theorem refreshEnabled_oneEntry (now : Int) {feeds : List RssFeed} {s : Service} {i : Nat}
    (hids : feeds.map (·.id) = ["feed"]) (hon : ∀ feed ∈ feeds, feed.enabled = true)
    (hi : feedIndex s.feeds "feed" = some i) :
    refreshEnabled oneEntryEnv now fetchOneEntry feeds s 100 = some (oneEntryRefreshed now s i) := by
  obtain ⟨feed, rest, rfl, hid, hrest⟩ := List.map_eq_cons_iff.mp hids
  obtain rfl := List.map_eq_nil_iff.mp hrest
  unfold refreshEnabled
  rw [if_pos (hon feed (by simp)), hid]
  exact Option.bind_eq_some_iff.mpr ⟨_, refreshFeedImpl_oneEntry now hi, rfl⟩

/-- The service once all feeds, one only, have been refreshed. -/
def oneEntryRefreshedAll (now : Int) (s : Service) (i : Nat) : Service :=
  rebuildIndex oneEntryEnv (pruneItemsWithoutMatchingFeed
    ((oneEntryRefreshed now { s with lastRefreshNewItemIds := ∅ } i).pruneHistory oneEntryEnv now))

theorem serviceStep_refreshAllFeeds (now : Int) {s : Service} {i : Nat}
    (hids : s.feeds.map (·.id) = ["feed"]) (hon : ∀ feed ∈ s.feeds, feed.enabled = true)
    (hi : feedIndex s.feeds "feed" = some i) :
    serviceStep oneEntryEnv s (.refreshAllFeeds now fetchOneEntry 100) =
      oneEntryRefreshedAll now s i := by
  have hall : refreshAllFeeds oneEntryEnv now fetchOneEntry s 100 =
      some (oneEntryRefreshedAll now s i) :=
    Option.bind_eq_some_iff.mpr ⟨_, refreshEnabled_oneEntry now hids hon hi, rfl⟩
  rw [serviceStep, hall, Option.getD_some]

/-- The feed is added, and a rule that asks for everything. -/
def addFeed : List ServiceOp :=
  [.setDownloadRequestCallback true, .setAutoDownloadEnabled true,
    .upsertFeed "feed" { url := "http://example.org/rss", autoDownloadEnabled := true },
    .upsertRule "rule" { enabled := true }]

def feedAdded : Service := run (serviceStep oneEntryEnv) {} addFeed

theorem feedIndex_feedAdded : feedIndex feedAdded.feeds "feed" = some 0 := by
  decide +kernel

end TorrentLink.Rss
