import Mathlib.Data.List.Flatten
import TorrentLink.Core.Rss.Backlog
import TorrentLink.Core.Rss.SingleStart

/-!
# The items in flight

An item is in flight while its flag `queued` is set. Only a download sets it, and for each item it sets it
for a request is handed out; every other call leaves the items in flight or drops some of them
(`startsOnly_step`), and a settlement takes its item out (`settle_takesOut`). So the number of items in
flight stays within the limit, and a manual download, which does not look at the limit, adds one to it
(`inflight_le_peakLimit`).
-/

namespace TorrentLink.Rss

open Lib

variable (env : ServiceEnv)

def RssItem.inFlightId (it : RssItem) : List String := if it.queued then [it.id] else []

/-- The ids of the items in flight. -/
def inFlightIds (items : List RssItem) : List String := items.flatMap RssItem.inFlightId

/-- The requests a call hands out. -/
def requestsOf (s : Service) : ServiceOp → List AutoDownloadRequest
  | .downloadItem now itemId => (downloadItem env now s itemId).2.toList
  | .dispatch now maxBatch refreshDiagnosis scope =>
    (dispatchDeferredAutoDownloads env now s maxBatch refreshDiagnosis scope).2
  | _ => []

/-- After the call no items are in flight but those that were, and the started ones. -/
def StartsOnly (started : List String) (s s' : Service) : Prop :=
  (inFlightIds s'.items).Subperm (inFlightIds s.items ++ started)

theorem mem_inFlightIds {items : List RssItem} {id : String} :
    id ∈ inFlightIds items ↔ ∃ it ∈ items, it.queued = true ∧ it.id = id := by
  unfold inFlightIds RssItem.inFlightId
  rw [List.mem_flatMap]
  refine exists_congr fun it => and_congr_right fun _ => ?_
  split
  · rename_i hqueued
    rw [List.mem_singleton]
    exact ⟨fun h => ⟨hqueued, h.symm⟩, fun h => h.2.symm⟩
  · rename_i hqueued
    exact iff_of_false List.not_mem_nil fun h => hqueued h.1

theorem length_inFlightIds (items : List RssItem) :
    ((inFlightIds items).length : Int) = inflight items := by
  unfold inFlightIds inflight
  induction items with
  | nil => rfl
  | cons it rest ih =>
    rw [List.flatMap_cons, List.length_append, List.countP_cons, Nat.cast_add, ih]
    unfold RssItem.inFlightId
    cases it.queued with
    | true => simp [Int.add_comm]
    | false => simp

theorem inFlightIds_append (items items' : List RssItem) :
    inFlightIds (items ++ items') = inFlightIds items ++ inFlightIds items' := List.flatMap_append

theorem inFlightIds_eq_nil {items : List RssItem} (h : ∀ it ∈ items, it.queued = false) :
    inFlightIds items = [] := by
  refine List.flatMap_eq_nil_iff.mpr fun it hit => ?_
  unfold RssItem.inFlightId
  rw [if_neg (by simp [h it hit])]

theorem subperm_inFlightIds {items items' : List RssItem} (h : items'.Subperm items) :
    (inFlightIds items').Subperm (inFlightIds items) := by
  obtain ⟨l, hperm, hsub⟩ := h
  exact ⟨inFlightIds l, hperm.flatMap fun _ _ => List.Perm.refl _, hsub.flatMap _⟩

/-! ### Calls that start nothing -/

variable {env} {s s' s'' : Service}

theorem StartsOnly.trans {a b : List String} (h : StartsOnly a s s') (h' : StartsOnly b s' s'') :
    StartsOnly (a ++ b) s s'' := by
  unfold StartsOnly at *
  rw [← List.append_assoc]
  exact h'.trans ((List.subperm_append_right b).mpr h)

theorem StartsOnly.of_subperm (h : s'.items.Subperm s.items) : StartsOnly [] s s' := by
  unfold StartsOnly
  rw [List.append_nil]
  exact subperm_inFlightIds h

theorem StartsOnly.of_items (h : s'.items = s.items) : StartsOnly [] s s' :=
  .of_subperm (h ▸ List.Subperm.refl _)

theorem StartsOnly.trans_nil (h : StartsOnly [] s s') (h' : StartsOnly [] s' s'') :
    StartsOnly [] s s'' := h.trans h'

theorem Marks.startsOnly (h : Marks s s') : StartsOnly [] s s' := by
  obtain ⟨items, rfl, hcore⟩ := h
  have hids : ∀ l : List RssItem, inFlightIds l =
      (l.map RssItem.core).flatMap fun c => if c.2.1 then [c.1] else [] := by
    intro l
    rw [List.flatMap_map]
    rfl
  unfold StartsOnly
  rw [List.append_nil, hids, hids, hcore]

theorem startsOnly_pruneOrphans (s : Service) :
    StartsOnly [] s (pruneItemsWithoutMatchingFeed s) := .of_subperm List.filter_sublist.subperm

variable (env) in
theorem startsOnly_pruneHistory (now : Int) (s : Service) :
    StartsOnly [] s (s.pruneHistory env now) := by
  have hsub := pruneHistory_subperm env.history now s.historyPolicy s.items
  unfold Service.pruneHistory
  dsimp only
  split
  · exact .of_subperm hsub
  · exact .of_subperm hsub

theorem startsOnly_addIncoming (s : Service) {incoming : List RssItem}
    (h : ∀ it ∈ incoming, it.queued = false) : StartsOnly [] s (addIncoming env s incoming) := by
  have hnew : inFlightIds (dedupIncoming env.text.toLower s.dedup incoming).1 = [] :=
    inFlightIds_eq_nil fun it hit => h it (mem_of_mem_dedupIncoming _ hit)
  unfold StartsOnly addIncoming
  dsimp only
  rw [inFlightIds_append, hnew]

theorem ensures_applyFetch_startsOnly (now : Int) (s : Service) (i : Nat) (feedId : String)
    (fetchResult : FetchResult) :
    Ensures (applyFetch env now s i feedId fetchResult) (StartsOnly [] s) := by
  unfold applyFetch
  split
  · refine (ensures_parse env.text feedId fetchResult.body).andThen fun result hresult =>
      ensures_always ?_
    unfold applyParse
    split
    · exact startsOnly_addIncoming _ fun it hit => (hresult it hit).queued
    · exact .of_items rfl
  · exact ensures_always (.of_items rfl)

theorem ensures_refreshFeedImpl_startsOnly (now : Int) (fetch : Fetch) (s : Service)
    (feedId : String) :
    Ensures (refreshFeedImpl env now fetch s feedId) (StartsOnly [] s) := by
  unfold refreshFeedImpl
  split
  · exact ensures_always (.of_items rfl)
  · exact (ensures_applyFetch_startsOnly now s _ feedId _).andThen fun s' hs' =>
      ensures_always (hs'.trans_nil (startsOnly_pruneOrphans s'))

theorem ensures_refreshEnabled_startsOnly (now : Int) (fetch : Fetch)
    (feeds : List RssFeed) (s : Service) :
    Ensures (refreshEnabled env now fetch feeds s) (StartsOnly [] s) := by
  induction feeds generalizing s with
  | nil => exact ensures_always (.of_items rfl)
  | cons feed rest ih =>
    rw [refreshEnabled]
    split
    · refine (ensures_refreshFeedImpl_startsOnly now fetch s feed.id).andThen fun s' hs' => ?_
      intro n r hr
      exact hs'.trans_nil (ih s' n r hr)
    · exact ih s

theorem ensures_refreshAllFeeds_startsOnly (now : Int) (fetch : Fetch) (s : Service) :
    Ensures (refreshAllFeeds env now fetch s) (StartsOnly [] s) := by
  have hclear : StartsOnly [] s { s with lastRefreshNewItemIds := ∅ } := .of_items rfl
  refine (ensures_refreshEnabled_startsOnly now fetch s.feeds _).andThen fun s' hs' =>
    ensures_always ?_
  have hpruned := (hclear.trans_nil hs').trans_nil (startsOnly_pruneHistory env now s')
  exact hpruned.trans_nil (startsOnly_pruneOrphans _)

theorem startsOnly_getD {f : Bounded Service} (hf : Ensures f (StartsOnly [] s)) (bound : Nat) :
    StartsOnly [] s ((f bound).getD s) := by
  cases hr : f bound with
  | none => exact .of_items rfl
  | some s' => exact hf bound s' hr

/-! ### Settlements and downloads -/

theorem inFlightId_settledItem (now : Int) (path : String) (success : Bool) (it : RssItem) :
    (settledItem now path success it).inFlightId = [] := by
  have hcore := congrArg (·.2.1) (core_settledItem now path success it)
  unfold RssItem.inFlightId
  exact if_neg (by simpa [RssItem.core] using hcore)

variable (env) in
theorem startsOnly_settle (now : Int) (s : Service) (settlement : RssDownloadSettlement)
    (success : Bool) (resolvedSaveOverride : String) (persist : Option SaveFailures) :
    StartsOnly [] s
      (applyRssDownloadSettlement env now s settlement success resolvedSaveOverride persist) := by
  by_cases hid : settlement.itemId = ""
  · unfold applyRssDownloadSettlement
    rw [if_pos hid]
    exact .of_items rfl
  · obtain ⟨path, files, hs⟩ := settle_items env now s settlement success resolvedSaveOverride
      persist hid
    rw [hs]
    unfold StartsOnly
    rw [List.append_nil]
    refine (sublist_flatMap_modifyFirst _ (fun it => ?_) s.items).subperm
    rw [inFlightId_settledItem]
    exact List.nil_sublist _

variable (env) in
/-- A settlement takes its item out. -/
theorem settle_takesOut {s : Service} (h : Indexed s) (now : Int) (settlement : RssDownloadSettlement)
    (success : Bool) (resolvedSaveOverride : String) (persist : Option SaveFailures) :
    settlement.itemId ∉ inFlightIds
      (applyRssDownloadSettlement env now s settlement success resolvedSaveOverride persist).items := by
  have hindexed := h.settle env now settlement success resolvedSaveOverride persist
  rintro hmem
  obtain ⟨it, hit, hqueued, hid⟩ := mem_inFlightIds.mp hmem
  have hne : settlement.itemId ≠ "" := hid ▸ hindexed.named it hit
  obtain ⟨path, files, hs⟩ := settle_items env now s settlement success resolvedSaveOverride
    persist hne
  rw [hs] at hit hindexed
  have hids : (modifyFirst (fun it => it.id = settlement.itemId) (settledItem now path success)
      s.items).map (·.id) = s.items.map (·.id) :=
    map_modifyFirst (fun it => congrArg (·.1) (core_settledItem now path success it)) s.items
  have hold : ∃ it ∈ s.items, decide (it.id = settlement.itemId) = true := by
    obtain ⟨it', hit', hid'⟩ := List.mem_map.mp (hids ▸ List.mem_map_of_mem hit)
    exact ⟨it', hit', by simpa using hid'.trans hid⟩
  obtain ⟨old, -, hold, hnew⟩ := exists_mem_modifyFirst (f := settledItem now path success) hold
  have hcore := core_settledItem now path success old
  have hsame : it = settledItem now path success old := by
    refine eq_of_key_eq hindexed.nodup hit hnew ?_
    exact hid.trans ((of_decide_eq_true hold).symm.trans (congrArg Prod.fst hcore).symm)
  have hidle := congrArg (·.2.1) hcore
  rw [hsame] at hqueued
  simp [RssItem.core, hqueued] at hidle

/-- A request settles the item it is for, and says what to download. -/
structure RequestOk (request : AutoDownloadRequest) : Prop where
  settles : request.rssSettlement.itemId = request.itemId
  resource : request.magnet ≠ "" ∨ request.torrentUrl ≠ ""

variable (env) in
/-- An attempt either leaves the item in flight or not, as it was, or puts it in flight. -/
theorem inFlightId_downloadAttempt (now : Int) (s : Service) (it : RssItem) :
    ((downloadAttempt env now s it).2 = none ∧
        (downloadAttempt env now s it).1.inFlightId = it.inFlightId) ∨
      ((downloadAttempt env now s it).2 = some (downloadRequest env s it) ∧
        (downloadAttempt env now s it).1.inFlightId = [it.id] ∧ it.inFlightId = [] ∧
        (it.magnet ≠ "" ∨ it.torrentUrl ≠ "")) := by
  unfold downloadAttempt
  split
  · exact .inl ⟨rfl, rfl⟩
  · rename_i hresource
    split
    · exact .inl ⟨rfl, rfl⟩
    · rename_i hqueued
      split
      · exact .inl ⟨rfl, rfl⟩
      · exact .inr ⟨rfl, rfl, if_neg hqueued, not_and_or.mp hresource⟩

variable (env) in
/-- A download starts its item, or nothing. -/
theorem startsOnly_downloadItem (now : Int) (s : Service) (itemId : String) :
    StartsOnly ((downloadItem env now s itemId).2.toList.map (·.itemId)) s
        (downloadItem env now s itemId).1 ∧
      ∀ request ∈ (downloadItem env now s itemId).2.toList, RequestOk request := by
  unfold downloadItem
  cases hfind : s.items.find? fun it => it.id = itemId with
  | none => exact ⟨.of_items rfl, by simp⟩
  | some it =>
    have hperm := perm_flatMap_modifyFirst (f := fun it => (downloadAttempt env now s it).1) hfind
      RssItem.inFlightId
    dsimp only
    unfold StartsOnly
    rcases inFlightId_downloadAttempt env now s it with ⟨hnone, hid⟩ | ⟨hsome, hid, hidle, hresource⟩
    · rw [hid] at hperm
      rw [hnone]
      refine ⟨?_, by simp⟩
      simpa [inFlightIds] using ((List.perm_append_right_iff _).mp hperm).subperm
    · rw [hid, hidle, List.append_nil] at hperm
      rw [hsome]
      refine ⟨hperm.subperm, fun request hrequest => ?_⟩
      obtain rfl := List.mem_singleton.mp hrequest
      exact ⟨rfl, hresource⟩

variable (env) in
theorem startsOnly_dispatchLoop (now cap maxConc : Int) (positions : List Nat) (started n : Int)
    (s : Service) :
    StartsOnly ((dispatchLoop env now cap maxConc positions started n s).2.map (·.itemId)) s
        (dispatchLoop env now cap maxConc positions started n s).1 ∧
      ∀ request ∈ (dispatchLoop env now cap maxConc positions started n s).2, RequestOk request := by
  induction positions generalizing started n s with
  | nil => exact ⟨.of_items rfl, by simp [dispatchLoop]⟩
  | cons i rest ih =>
    rw [dispatchLoop]
    split
    · cases s.items[i]? with
      | none => exact ih started n s
      | some it =>
        dsimp only
        split
        · exact ih started n s
        · have hdownload := startsOnly_downloadItem env now s it.id
          generalize downloadItem env now s it.id = result at hdownload
          obtain ⟨s', request⟩ := result
          cases request with
          | none =>
            obtain ⟨hrest, hok⟩ := ih started n s'
            exact ⟨hdownload.1.trans hrest, hok⟩
          | some request =>
            obtain ⟨hrest, hok⟩ := ih (started + 1) (n + 1) s'
            refine ⟨hdownload.1.trans hrest, fun r hr => ?_⟩
            rcases List.mem_cons.mp hr with rfl | hr
            · exact hdownload.2 r List.mem_cons_self
            · exact hok r hr
    · exact ⟨.of_items rfl, by simp⟩

variable (env) in
theorem startsOnly_dispatch (now : Int) (s : Service) (maxBatch : Int) (refreshDiagnosis : Bool)
    (scope : RssAutoDownloadScope) :
    StartsOnly ((dispatchDeferredAutoDownloads env now s maxBatch refreshDiagnosis scope).2.map
        (·.itemId)) s (dispatchDeferredAutoDownloads env now s maxBatch refreshDiagnosis scope).1 ∧
      ∀ request ∈ (dispatchDeferredAutoDownloads env now s maxBatch refreshDiagnosis scope).2,
        RequestOk request := by
  unfold dispatchDeferredAutoDownloads
  split
  · exact ⟨.of_items rfl, by simp⟩
  · have hdiagnosed := (marks_diagnoseAll env s refreshDiagnosis).startsOnly
    obtain ⟨hloop, hok⟩ := startsOnly_dispatchLoop env now (clamp maxBatch 1 100)
      (maxConcurrent (diagnoseAll env s refreshDiagnosis))
      (rebuildAutoBacklogScratch env (diagnoseAll env s refreshDiagnosis) scope) 0
      (inflight (diagnoseAll env s refreshDiagnosis).items) (diagnoseAll env s refreshDiagnosis)
    have hmarked (t : Service) : StartsOnly [] t
        (syncRssAutoWaitlistMarkers env (applyAutoDownloadBacklogOverflowMarkers env t) scope) :=
      ((marks_overflow env t).trans (marks_sync env _ scope)).startsOnly
    have hall := (hdiagnosed.trans hloop).trans (hmarked _)
    rw [List.nil_append, List.append_nil] at hall
    exact ⟨hall, hok⟩

variable (env)

/-- A call that hands out no request. -/
theorem StartsOnly.quiet {s s' : Service} (h : StartsOnly [] s s') :
    StartsOnly [] s s' ∧ ∀ request ∈ ([] : List AutoDownloadRequest), RequestOk request :=
  ⟨h, by simp⟩

/-- A call puts nothing in flight but what it hands out requests for, and these name their item and say
what to download. -/
theorem startsOnly_step (s : Service) (op : ServiceOp) :
    StartsOnly ((requestsOf env s op).map (·.itemId)) s (serviceStep env s op) ∧
      ∀ request ∈ requestsOf env s op, RequestOk request := by
  cases op with
  | downloadItem now itemId => exact startsOnly_downloadItem env now s itemId
  | dispatch now maxBatch refreshDiagnosis scope =>
    exact startsOnly_dispatch env now s maxBatch refreshDiagnosis scope
  | settle now settlement success resolvedSaveOverride persist =>
    exact (startsOnly_settle env now s settlement success resolvedSaveOverride persist).quiet
  | loadState =>
    have hloaded : inFlightIds (loadState env s).items = [] := by
      refine inFlightIds_eq_nil fun it hit => ?_
      obtain ⟨it', -, rfl⟩ := List.mem_map.mp (List.mem_of_mem_filter hit)
      rfl
    refine StartsOnly.quiet ?_
    show (inFlightIds (loadState env s).items).Subperm _
    rw [hloaded]
    exact List.nil_subperm
  | removeFeed feedId =>
    have hfilter : StartsOnly [] s { s with
        feeds := s.feeds.filter fun x => x.id ≠ feedId
        items := s.items.filter fun x => x.feedId ≠ feedId } :=
      .of_subperm List.filter_sublist.subperm
    exact (hfilter.trans_nil (startsOnly_pruneOrphans _)).quiet
  | clearItemsForFeed feedId =>
    exact StartsOnly.quiet (.of_subperm List.filter_sublist.subperm)
  | clearItemsForFeeds feedIds =>
    refine StartsOnly.quiet ?_
    show StartsOnly [] s (clearItemsForFeeds env s feedIds)
    unfold clearItemsForFeeds
    split
    · exact .of_items rfl
    · exact .of_subperm List.filter_sublist.subperm
  | refreshFeed now fetch feedId bound =>
    exact (startsOnly_getD (ensures_refreshFeedImpl_startsOnly now fetch s feedId) bound).quiet
  | refreshAllFeeds now fetch bound =>
    exact (startsOnly_getD (ensures_refreshAllFeeds_startsOnly now fetch s) bound).quiet
  | reloadItemStream now fetch bound =>
    refine StartsOnly.quiet (startsOnly_getD ?_ bound)
    unfold reloadItemStreamFromEnabledFeeds
    dsimp only
    split
    · exact ensures_refreshAllFeeds_startsOnly now fetch s
    · have hfilter : StartsOnly [] s (rebuildIndex env { s with
          items := s.items.filter fun x => x.feedId ∉ (s.feeds.filter (·.enabled)).map (·.id) }) :=
        .of_subperm List.filter_sublist.subperm
      exact fun n r hr => hfilter.trans_nil (ensures_refreshAllFeeds_startsOnly now fetch _ n r hr)
  | pruneHistory now => exact (startsOnly_pruneHistory env now s).quiet
  | markItemRead itemId =>
    have hmarks : Marks s (markItemRead s itemId) := marks_modifyFirst s _ fun _ => rfl
    exact hmarks.startsOnly.quiet
  | markItemIgnored itemId =>
    have hmarks : Marks s (markItemIgnored s itemId) := marks_modifyFirst s _ fun _ => rfl
    exact hmarks.startsOnly.quiet
  | markItemsIgnored itemIds =>
    have hmarks : Marks s (markItemsIgnored s itemIds) := by
      refine marks_map s fun it => ?_
      split
      · rfl
      · rfl
    exact hmarks.startsOnly.quiet
  | refreshDiagnostics => exact (marks_refreshDiagnostics env s).startsOnly.quiet
  | refreshDiagnosticsForFeed feedId =>
    exact (marks_refreshDiagnosticsForFeed env s feedId).startsOnly.quiet
  | saveState failures => exact StartsOnly.quiet (.of_items rfl)
  | setAutoDownloadEnabled enabled => exact StartsOnly.quiet (.of_items rfl)
  | setMaxAutoDownloadsPerRefresh max => exact StartsOnly.quiet (.of_items rfl)
  | setDownloadRequestCallback isSet => exact StartsOnly.quiet (.of_items rfl)
  | setHistoryPolicy policy => exact StartsOnly.quiet (.of_items rfl)
  | applySettings settings => exact StartsOnly.quiet (.of_items rfl)
  | upsertRule uuid rule => exact StartsOnly.quiet (.of_items rfl)
  | removeRule ruleId => exact StartsOnly.quiet (.of_items rfl)
  | upsertFeed uuid feed => exact StartsOnly.quiet (.of_items rfl)

/-! ### Runs -/

/-- The largest number of concurrent downloads that was allowed when a dispatch began. -/
def peakLimit (s : Service) : List ServiceOp → Int
  | [] => 0
  | .dispatch now maxBatch refreshDiagnosis scope :: ops =>
    max (maxConcurrent s)
      (peakLimit (serviceStep env s (.dispatch now maxBatch refreshDiagnosis scope)) ops)
  | op :: ops => peakLimit (serviceStep env s op) ops

/-- How many downloads were started by hand. -/
def manualStarts (s : Service) : List ServiceOp → Nat
  | [] => 0
  | .downloadItem now itemId :: ops =>
    (downloadItem env now s itemId).2.toList.length +
      manualStarts (serviceStep env s (.downloadItem now itemId)) ops
  | op :: ops => manualStarts (serviceStep env s op) ops

theorem StartsOnly.inflight_le {started : List String} {s s' : Service}
    (h : StartsOnly started s s') : inflight s'.items ≤ inflight s.items + started.length := by
  have hlength := List.Subperm.length_le h
  rw [List.length_append] at hlength
  rw [← length_inFlightIds, ← length_inFlightIds]
  omega

/-- A dispatch stops at the limit. -/
theorem length_dispatchLoop_le (now cap maxConc : Int) (positions : List Nat) (started n : Int)
    (s : Service) :
    ((dispatchLoop env now cap maxConc positions started n s).2.length : Int) ≤
      max 0 (maxConc - n) := by
  induction positions generalizing started n s with
  | nil => simp [dispatchLoop]
  | cons i rest ih =>
    rw [dispatchLoop]
    split
    · rename_i hroom
      cases s.items[i]? with
      | none => exact ih started n s
      | some it =>
        dsimp only
        split
        · exact ih started n s
        · generalize downloadItem env now s it.id = result
          obtain ⟨s', request⟩ := result
          cases request with
          | none => exact ih started n s'
          | some request =>
            have hrest := ih (started + 1) (n + 1) s'
            simp only [List.length_cons, Nat.cast_add, Nat.cast_one]
            omega
    · simp

theorem inflight_dispatch_le (now : Int) (s : Service) (maxBatch : Int) (refreshDiagnosis : Bool)
    (scope : RssAutoDownloadScope) :
    inflight (dispatchDeferredAutoDownloads env now s maxBatch refreshDiagnosis scope).1.items ≤
      max (inflight s.items) (maxConcurrent s) := by
  have hstarts := (startsOnly_dispatch env now s maxBatch refreshDiagnosis scope).1.inflight_le
  have hlimit : ((dispatchDeferredAutoDownloads env now s maxBatch refreshDiagnosis scope).2.length :
      Int) ≤ max 0 (maxConcurrent s - inflight s.items) := by
    unfold dispatchDeferredAutoDownloads
    split
    · simp
    · have hmarks := marks_diagnoseAll env s refreshDiagnosis
      have hloop := length_dispatchLoop_le env now (clamp maxBatch 1 100)
        (maxConcurrent (diagnoseAll env s refreshDiagnosis))
        (rebuildAutoBacklogScratch env (diagnoseAll env s refreshDiagnosis) scope) 0
        (inflight (diagnoseAll env s refreshDiagnosis).items) (diagnoseAll env s refreshDiagnosis)
      have hsettings : maxConcurrent (diagnoseAll env s refreshDiagnosis) = maxConcurrent s := by
        obtain ⟨items, hs, -⟩ := hmarks
        rw [hs]
        rfl
      rw [inflight_congr hmarks, hsettings] at hloop
      dsimp only
      rw [inflight_congr hmarks, hsettings]
      exact hloop
  rw [List.length_map] at hstarts
  omega

/-- Along every run no more items are in flight than were at its start or than the limit allowed at one of
its dispatches, but for the downloads started by hand. -/
theorem inflight_le_peakLimit (s : Service) (ops : List ServiceOp) :
    inflight (run (serviceStep env) s ops).items ≤
      max (inflight s.items) (peakLimit env s ops) + manualStarts env s ops := by
  induction ops generalizing s with
  | nil => simp [manualStarts]
  | cons op ops ih =>
    rw [run_cons]
    have hrest := ih (serviceStep env s op)
    have hstep := (startsOnly_step env s op).1.inflight_le
    cases op with
    | downloadItem now itemId =>
      rw [manualStarts, peakLimit]
      · simp only [requestsOf, List.length_map] at hstep
        push_cast
        omega
      · simp
    | dispatch now maxBatch refreshDiagnosis scope =>
      have hdispatch := inflight_dispatch_le env now s maxBatch refreshDiagnosis scope
      rw [peakLimit, manualStarts]
      · rw [serviceStep] at hrest ⊢
        omega
      · simp
    | _ =>
      rw [manualStarts, peakLimit]
      · simp only [requestsOf, List.map_nil, List.length_nil] at hstep
        omega
      · simp
      · simp

end TorrentLink.Rss
