import TorrentLink.Core.Rss.Dispatch
import TorrentLink.Lib.Jobs

/-!
# One automatic start for each entry

A run is recorded with its automatic starts and its settlements, each under the id of its item. An entry
is not started again while its item record says that it is in flight or downloaded. So no entry is
restarted in a run in which those records last: no refresh finds them without their feed, retention does
not discard them, and a load brings the downloaded ones back.
-/

namespace TorrentLink.Rss

open Lib

variable (env : ServiceEnv)

/-- What a call adds to the record: the automatic starts, or the settlement of an item. -/
def eventsOf (s : Service) : ServiceOp → List (JobEvent String)
  | .dispatch now maxBatch refreshDiagnosis scope =>
    (dispatchDeferredAutoDownloads env now s maxBatch refreshDiagnosis scope).2.map fun request =>
      .started request.itemId
  | .settle _ settlement success _ _ =>
    if settlement.itemId = "" then [] else [.settled settlement.itemId success]
  | _ => []

/-- A call, with its record. -/
def recordStep (s : Service × List (JobEvent String)) (op : ServiceOp) :
    Service × List (JobEvent String) :=
  (serviceStep env s.1 op, s.2 ++ eventsOf env s.1 op)

/-- The calls that leave the history to retention: no explicit removal, no manual download, and no
restart while a request is in flight. -/
def Automatic (s : Service) : ServiceOp → Prop
  | .loadState => ∀ it ∈ s.items, it.queued = false
  | .removeFeed _ | .clearItemsForFeed _ | .clearItemsForFeeds _ | .reloadItemStream _ _ _
  | .downloadItem _ _ => False
  | _ => True

/-- An item whose record must not get lost. -/
def RssItem.isBusy (it : RssItem) : Bool := it.queued || it.downloaded

/-- Retention keeps the records of the busy items. -/
def RetentionKeeps (now : Int) (s : Service) : Prop :=
  ∀ it ∈ s.items, it.isBusy = true → it ∈ Rss.pruneHistory env.history now s.historyPolicy s.items

/-- The busy items belong to feeds. -/
def FeedsKeep (s : Service) : Prop :=
  ∀ it ∈ s.items, it.isBusy = true → hasMatchingFeed s.feeds it = true

/-- The step loses no record of a busy item. -/
def RecordsLast (s : Service) : ServiceOp → Prop
  | .loadState =>
    LoadOk env s .loadState ∧
      ∀ it ∈ s.items, it.downloaded = true → ∃ it' ∈ loadItems env.repository s.files,
        it'.id = it.id ∧ it'.downloaded = true ∧
          hasMatchingFeed (loadFeeds env.repository s.files) it' = true
  | .refreshFeed _ _ _ _ => FeedsKeep s
  | .refreshAllFeeds now fetch bound =>
    FeedsKeep s ∧
      ∀ s' ∈ refreshEnabled env now fetch s.feeds { s with lastRefreshNewItemIds := ∅ } bound,
        RetentionKeeps env now s'
  | .pruneHistory now => RetentionKeeps env now s
  | _ => True

/-! ### The invariant -/

/-- The record agrees with the items, and restarts nothing. -/
structure Recorded (s : Service) (log : List (JobEvent String)) : Prop where
  indexed : Indexed s
  single : ∀ id, NeverRestarted id log
  inFlight : ∀ id, standing id log = .running → ∃ it ∈ s.items, it.id = id ∧ it.queued = true
  settled : ∀ id, standing id log = .done → ∃ it ∈ s.items, it.id = id ∧ it.downloaded = true

/-- The busy items keep their place and their core. -/
def BusyKept (s s' : Service) : Prop :=
  ∀ it ∈ s.items, it.isBusy = true → ∃ it' ∈ s'.items, it'.core = it.core

theorem RssItem.isBusy_queued {it : RssItem} (h : it.queued = true) : it.isBusy = true := by
  simp [RssItem.isBusy, h]

theorem RssItem.isBusy_downloaded {it : RssItem} (h : it.downloaded = true) : it.isBusy = true := by
  simp [RssItem.isBusy, h]

theorem RssItem.core_eq {it it' : RssItem} (h : it'.core = it.core) :
    it'.id = it.id ∧ it'.queued = it.queued ∧ it'.downloaded = it.downloaded := by
  obtain ⟨hid, hflags⟩ := Prod.mk.inj h
  obtain ⟨hqueued, hdownloaded⟩ := Prod.mk.inj hflags
  exact ⟨hid, hqueued, hdownloaded⟩

theorem Recorded.kept {s s' : Service} {log : List (JobEvent String)} (h : Recorded s log)
    (hkept : BusyKept s s') (hi : Indexed s') : Recorded s' log := by
  refine ⟨hi, h.single, fun id hid => ?_, fun id hid => ?_⟩
  · obtain ⟨it, hit, rfl, hqueued⟩ := h.inFlight id hid
    obtain ⟨it', hit', hcore⟩ := hkept it hit (RssItem.isBusy_queued hqueued)
    obtain ⟨hid', hqueued', -⟩ := RssItem.core_eq hcore
    exact ⟨it', hit', hid', hqueued'.trans hqueued⟩
  · obtain ⟨it, hit, rfl, hdownloaded⟩ := h.settled id hid
    obtain ⟨it', hit', hcore⟩ := hkept it hit (RssItem.isBusy_downloaded hdownloaded)
    obtain ⟨hid', -, hdownloaded'⟩ := RssItem.core_eq hcore
    exact ⟨it', hit', hid', hdownloaded'.trans hdownloaded⟩

theorem Marks.busyKept {s s' : Service} (h : Marks s s') : BusyKept s s' :=
  fun _ hit _ => h.mem hit

theorem busyKept_of_items {s s' : Service} (h : s'.items = s.items) : BusyKept s s' :=
  fun it hit _ => ⟨it, h ▸ hit, rfl⟩

theorem Recorded.marks {s s' : Service} {log : List (JobEvent String)} (h : Recorded s log)
    (hmarks : Marks s s') : Recorded s' log :=
  h.kept hmarks.busyKept (h.indexed.marks hmarks)

/-! ### Starts -/

variable {env}

/-- What a download does, if the ids are distinct: it changes the item and nothing else. -/
theorem downloadItem_found (now : Int) {s : Service} (hids : (s.items.map (·.id)).Nodup)
    {it : RssItem} (hit : it ∈ s.items) :
    downloadItem env now s it.id =
      ({ s with
        items := modifyFirst (fun x => x.id = it.id) (fun x => (downloadAttempt env now s x).1)
          s.items }, (downloadAttempt env now s it).2) := by
  have hfind : s.items.find? (fun x => x.id = it.id) = some it := find?_of_nodup hids hit
  unfold downloadItem
  rw [hfind]

variable (env) in
/-- An attempt either marks the item, or hands out the request for it. -/
theorem downloadAttempt_cases (now : Int) (s : Service) (it : RssItem) :
    ((downloadAttempt env now s it).2 = none ∧ (downloadAttempt env now s it).1.core = it.core) ∨
      ((downloadAttempt env now s it).2 = some (downloadRequest env s it) ∧
        (downloadAttempt env now s it).1.core = (it.id, true, it.downloaded)) := by
  unfold downloadAttempt
  split
  · exact .inl ⟨rfl, rfl⟩
  · split
    · exact .inl ⟨rfl, rfl⟩
    · split
      · exact .inl ⟨rfl, rfl⟩
      · exact .inr ⟨rfl, rfl⟩

/-- An unblocked item is in no job. -/
theorem Recorded.standing_idle {s : Service} {log : List (JobEvent String)} (h : Recorded s log)
    {it : RssItem} (hit : it ∈ s.items) (hblocked : it.isBlocked = false) :
    standing it.id log = .idle := by
  obtain ⟨⟨hqueued, hdownloaded⟩, -⟩ : (it.queued = false ∧ it.downloaded = false) ∧
      it.ignored = false := by
    simpa [RssItem.isBlocked] using hblocked
  cases hs : standing it.id log with
  | idle => rfl
  | running =>
    obtain ⟨it', hit', hid, hqueued'⟩ := h.inFlight _ hs
    obtain rfl := eq_of_key_eq h.indexed.nodup hit' hit hid
    exact absurd (hqueued.symm.trans hqueued') (by decide)
  | done =>
    obtain ⟨it', hit', hid, hdownloaded'⟩ := h.settled _ hs
    obtain rfl := eq_of_key_eq h.indexed.nodup hit' hit hid
    exact absurd (hdownloaded.symm.trans hdownloaded') (by decide)

/-- The start of an unblocked item. -/
theorem Recorded.start {s : Service} {log : List (JobEvent String)} (h : Recorded s log)
    {it it' : RssItem} (hit : it ∈ s.items) (hblocked : it.isBlocked = false)
    (hcore : it'.core = (it.id, true, it.downloaded)) {items : List RssItem}
    (hids : items.map (·.id) = s.items.map (·.id)) (hnew : it' ∈ items)
    (hother : ∀ x ∈ s.items, x.id ≠ it.id → x ∈ items) :
    Recorded { s with items := items } (log ++ [.started it.id]) := by
  have hqueue : it'.core = ({ it with queued := true } : RssItem).core := hcore
  obtain ⟨hid', hqueued', -⟩ : it'.id = it.id ∧ it'.queued = true ∧ it'.downloaded = it.downloaded :=
    RssItem.core_eq hqueue
  refine ⟨h.indexed.of_ids hids rfl, fun id => ?_, fun id hid => ?_, fun id hid => ?_⟩
  · refine neverRestarted_snoc (h.single id) fun he => ?_
    obtain rfl : it.id = id := (JobEvent.started.inj he)
    exact h.standing_idle hit hblocked
  · rw [standing_snoc, Job.next_started] at hid
    by_cases hsame : it.id = id
    · exact ⟨it', hnew, hid'.trans hsame, hqueued'⟩
    · rw [if_neg hsame] at hid
      obtain ⟨x, hx, rfl, hqueued⟩ := h.inFlight id hid
      exact ⟨x, hother x hx (Ne.symm hsame), rfl, hqueued⟩
  · rw [standing_snoc, Job.next_started] at hid
    by_cases hsame : it.id = id
    · rw [if_pos hsame] at hid
      cases hid
    · rw [if_neg hsame] at hid
      obtain ⟨x, hx, rfl, hdownloaded⟩ := h.settled id hid
      exact ⟨x, hother x hx (Ne.symm hsame), rfl, hdownloaded⟩

variable (env) in
theorem Recorded.downloadItem {s : Service} {log : List (JobEvent String)} (h : Recorded s log)
    (now : Int) {it : RssItem} (hit : it ∈ s.items) (hblocked : it.isBlocked = false) :
    Recorded (downloadItem env now s it.id).1
      (log ++ ((downloadItem env now s it.id).2.map fun request =>
        JobEvent.started request.itemId).toList) := by
  have hids := h.indexed.nodup
  rw [downloadItem_found now hids hit]
  have hsame : ∀ x ∈ s.items, decide (x.id = it.id) = true → x = it := fun x hx hid =>
    eq_of_key_eq hids hx hit (of_decide_eq_true hid)
  rcases downloadAttempt_cases env now s it with ⟨hnone, hcore⟩ | ⟨hsome, hcore⟩
  · rw [hnone]
    refine (List.append_nil log).symm ▸ h.marks ⟨_, rfl, map_modifyFirst_of_mem fun x hx hid => ?_⟩
    rw [hsame x hx hid]
    exact hcore
  · rw [hsome]
    obtain ⟨x, hx, hid, hnew⟩ := exists_mem_modifyFirst (p := fun x : RssItem => x.id = it.id)
      (f := fun x => (downloadAttempt env now s x).1) ⟨it, hit, decide_eq_true rfl⟩
    rw [hsame x hx hid] at hnew
    refine h.start hit hblocked hcore ?_ hnew fun y hy hne => ?_
    · exact map_modifyFirst (fun x => id_downloadAttempt now s x) s.items
    · exact mem_modifyFirst_of_mem hy (decide_eq_false hne)

variable (env) in
theorem Recorded.dispatchLoop (now cap maxConc : Int) (positions : List Nat)
    (started inflight : Int) {s : Service} {log : List (JobEvent String)} (h : Recorded s log) :
    Recorded (dispatchLoop env now cap maxConc positions started inflight s).1
      (log ++ (dispatchLoop env now cap maxConc positions started inflight s).2.map fun request =>
        .started request.itemId) := by
  induction positions generalizing started inflight s log with
  | nil => exact (List.append_nil log).symm ▸ h
  | cons i rest ih =>
    rw [Rss.dispatchLoop]
    split
    · cases hi : s.items[i]? with
      | none => exact ih started inflight h
      | some it =>
        dsimp only
        split
        · exact ih started inflight h
        · rename_i hcheck
          have hblocked : it.isBlocked = false := by
            cases hb : it.isBlocked with
            | false => rfl
            | true => simp [hb] at hcheck
          have hstep := h.downloadItem env now (List.mem_of_getElem? hi) hblocked
          generalize Rss.downloadItem env now s it.id = result at hstep
          obtain ⟨s', request⟩ := result
          cases request with
          | none => exact ih started inflight ((List.append_nil log) ▸ hstep)
          | some request =>
            have hrest := ih (started + 1) (inflight + 1) hstep
            rw [List.append_assoc] at hrest
            exact hrest
    · exact (List.append_nil log).symm ▸ h

theorem Recorded.dispatch {s : Service} {log : List (JobEvent String)} (h : Recorded s log)
    (now maxBatch : Int) (refreshDiagnosis : Bool) (scope : RssAutoDownloadScope) :
    Recorded (dispatchDeferredAutoDownloads env now s maxBatch refreshDiagnosis scope).1
      (log ++ (dispatchDeferredAutoDownloads env now s maxBatch refreshDiagnosis scope).2.map
        fun request => .started request.itemId) := by
  unfold dispatchDeferredAutoDownloads
  split
  · exact (List.append_nil log).symm ▸ h
  · have hdiag := h.marks (marks_diagnoseAll env s refreshDiagnosis)
    have hloop := hdiag.dispatchLoop env now (clamp maxBatch 1 100)
      (maxConcurrent (diagnoseAll env s refreshDiagnosis))
      (rebuildAutoBacklogScratch env (diagnoseAll env s refreshDiagnosis) scope) 0
      (inflight (diagnoseAll env s refreshDiagnosis).items)
    exact (hloop.marks (marks_overflow env _)).marks (marks_sync env _ scope)

/-! ### Settlements -/

theorem Recorded.settle {s : Service} {log : List (JobEvent String)} (h : Recorded s log)
    (now : Int) (settlement : RssDownloadSettlement) (success : Bool)
    (resolvedSaveOverride : String) (persist : Option SaveFailures) (hid : settlement.itemId ≠ "") :
    Recorded (applyRssDownloadSettlement env now s settlement success resolvedSaveOverride persist)
      (log ++ [.settled settlement.itemId success]) := by
  have hindexed := h.indexed.settle env now settlement success resolvedSaveOverride persist
  obtain ⟨path, files, hs⟩ := settle_items env now s settlement success
    resolvedSaveOverride persist hid
  rw [hs] at hindexed ⊢
  have hother : ∀ x ∈ s.items, x.id ≠ settlement.itemId →
      x ∈ modifyFirst (fun it => it.id = settlement.itemId) (settledItem now path success) s.items :=
    fun x hx hne => mem_modifyFirst_of_mem hx (decide_eq_false hne)
  have hhit : ∀ x ∈ s.items, x.id = settlement.itemId → settledItem now path success x ∈
      modifyFirst (fun it => it.id = settlement.itemId) (settledItem now path success) s.items := by
    intro x hx hxid
    obtain ⟨y, hy, hyid, hnew⟩ := exists_mem_modifyFirst
      (p := fun it : RssItem => it.id = settlement.itemId) (f := settledItem now path success)
      ⟨x, hx, decide_eq_true hxid⟩
    obtain rfl := eq_of_key_eq h.indexed.nodup hy hx ((of_decide_eq_true hyid).trans hxid.symm)
    exact hnew
  have hdownloaded : ∀ x ∈ s.items, x.id = settlement.itemId →
      x.downloaded = true ∨ success = true →
        ∃ it ∈ modifyFirst (fun it => it.id = settlement.itemId) (settledItem now path success)
          s.items, it.id = settlement.itemId ∧ it.downloaded = true := by
    intro x hx hxid hdone
    have hcore : (settledItem now path success x).core =
        ({ x with queued := false, downloaded := x.downloaded || success } : RssItem).core :=
      core_settledItem now path success x
    obtain ⟨hid', -, hdone'⟩ := RssItem.core_eq hcore
    exact ⟨_, hhit x hx hxid, hid'.trans hxid, hdone'.trans (Bool.or_eq_true_iff.mpr hdone)⟩
  refine ⟨hindexed, fun id => neverRestarted_settled (h.single id) _ _, fun id hrun => ?_,
    fun id hdone => ?_⟩
  · rw [standing_snoc, Job.next_settled] at hrun
    by_cases hkey : settlement.itemId = id
    · split_ifs at hrun with hboth
      exact absurd ⟨hkey, hrun⟩ hboth
    · rw [if_neg fun hboth => hkey hboth.1] at hrun
      obtain ⟨x, hx, rfl, hqueued⟩ := h.inFlight id hrun
      exact ⟨x, hother x hx (Ne.symm hkey), rfl, hqueued⟩
  · rw [standing_snoc, Job.next_settled] at hdone
    by_cases hkey : settlement.itemId = id
    · subst hkey
      split_ifs at hdone with hboth hsuccess
      · obtain ⟨x, hx, hxid, -⟩ := h.inFlight _ hboth.2
        exact hdownloaded x hx hxid (.inr hsuccess)
      · obtain ⟨x, hx, hxid, hx'⟩ := h.settled _ hdone
        exact hdownloaded x hx hxid (.inl hx')
    · rw [if_neg fun hboth => hkey hboth.1] at hdone
      obtain ⟨x, hx, rfl, hx'⟩ := h.settled id hdone
      exact ⟨x, hother x hx (Ne.symm hkey), rfl, hx'⟩

/-! ### Refreshes and loads -/

theorem Refreshed.busyKept {s s' : Service} (h : Refreshed s s') (hfeeds : FeedsKeep s) :
    BusyKept s s' :=
  fun it hit hbusy => ⟨it, h.kept it hit (hfeeds it hit hbusy), rfl⟩

theorem busyKept_refreshAllFeeds (hdigest : ∀ text, env.text.sha256Hex text ≠ "") (now : Int)
    (fetch : Fetch) (s : Service) (bound : Nat)
    (hlast : RecordsLast env s (.refreshAllFeeds now fetch bound)) :
    ∀ s' ∈ refreshAllFeeds env now fetch s bound, BusyKept s s' := by
  intro s' hs'
  obtain ⟨hfeeds, hretention⟩ := hlast
  obtain ⟨s₁, hs₁, hrest⟩ := Option.bind_eq_some_iff.mp hs'
  obtain rfl := Option.some.inj hrest
  have hrefreshed := ensures_refreshEnabled hdigest now fetch s.feeds _ bound s₁ hs₁
  intro it hit hbusy
  have hkept : it ∈ s₁.items := hrefreshed.kept it hit (hfeeds it hit hbusy)
  have hpruned : it ∈ (s₁.pruneHistory env now).items := by
    have hmem := hretention s₁ hs₁ it hkept hbusy
    unfold Service.pruneHistory
    dsimp only
    split
    · exact hmem
    · exact hmem
  have hfeedIds : (s₁.pruneHistory env now).feeds.map (·.id) = s.feeds.map (·.id) := by
    refine Eq.trans ?_ hrefreshed.feedIds
    unfold Service.pruneHistory
    dsimp only
    split
    · rfl
    · rfl
  refine ⟨it, List.mem_filter.mpr ⟨hpruned, ?_⟩, rfl⟩
  exact (hasMatchingFeed_congr hfeedIds it).trans (hfeeds it hit hbusy)

theorem busyKept_loadState {s : Service} (hidle : Automatic s .loadState)
    (hlast : RecordsLast env s .loadState) : BusyKept s (loadState env s) := by
  intro it hit hbusy
  have hqueued : it.queued = false := hidle it hit
  have hdownloaded : it.downloaded = true := by simpa [RssItem.isBusy, hqueued] using hbusy
  obtain ⟨it', hit', hid, hdone, hfeed⟩ := hlast.2 it hit hdownloaded
  refine ⟨{ it' with queued := false, rssAutoWaitlisted := false },
    List.mem_filter.mpr ⟨List.mem_map.mpr ⟨it', hit', rfl⟩, hfeed⟩, ?_⟩
  show (it'.id, false, it'.downloaded) = (it.id, it.queued, it.downloaded)
  rw [hid, hqueued, hdone, hdownloaded]

theorem busyKept_pruneHistory {s : Service} {now : Int} (h : RetentionKeeps env now s) :
    BusyKept s (s.pruneHistory env now) := by
  intro it hit hbusy
  refine ⟨it, ?_, rfl⟩
  unfold Service.pruneHistory
  dsimp only
  split
  · exact h it hit hbusy
  · exact h it hit hbusy

/-! ### Runs -/

theorem busyKept_getD {f : Option Service} {s : Service} (h : ∀ s' ∈ f, BusyKept s s') :
    BusyKept s (f.getD s) := by
  cases f with
  | none => exact busyKept_of_items rfl
  | some s' => exact h s' rfl

theorem recorded_step (hdigest : ∀ text, env.text.sha256Hex text ≠ "") (s : Service)
    (log : List (JobEvent String)) (op : ServiceOp) (h : Recorded s log) (hop : Automatic s op)
    (hlast : RecordsLast env s op) :
    Recorded (serviceStep env s op) (log ++ eventsOf env s op) := by
  have hload : LoadOk env s op := by
    cases op with
    | loadState => exact hlast.1
    | _ => trivial
  have hindexed := indexed_step hdigest s op h.indexed hload
  have hquiet : BusyKept s (serviceStep env s op) → Recorded (serviceStep env s op) (log ++ []) :=
    fun hkept => (List.append_nil log).symm ▸ h.kept hkept hindexed
  cases op with
  | dispatch now maxBatch refreshDiagnosis scope =>
    exact h.dispatch now maxBatch refreshDiagnosis scope
  | settle now settlement success resolvedSaveOverride persist =>
    by_cases hid : settlement.itemId = ""
    · have hevents : eventsOf env s (.settle now settlement success resolvedSaveOverride persist) =
          [] := if_pos hid
      rw [hevents]
      refine hquiet (busyKept_of_items ?_)
      show (applyRssDownloadSettlement env now s settlement success resolvedSaveOverride
        persist).items = s.items
      unfold applyRssDownloadSettlement
      rw [if_pos hid]
    · have hevents : eventsOf env s (.settle now settlement success resolvedSaveOverride persist) =
          [.settled settlement.itemId success] := if_neg hid
      rw [hevents]
      exact h.settle now settlement success resolvedSaveOverride persist hid
  | loadState => exact hquiet (busyKept_loadState hop hlast)
  | refreshFeed now fetch feedId bound =>
    exact hquiet (busyKept_getD fun s' hs' =>
      (ensures_refreshFeedImpl hdigest now fetch s feedId bound s' hs').busyKept hlast)
  | refreshAllFeeds now fetch bound =>
    exact hquiet (busyKept_getD (busyKept_refreshAllFeeds hdigest now fetch s bound hlast))
  | pruneHistory now => exact hquiet (busyKept_pruneHistory hlast)
  | markItemRead itemId => exact hquiet (Marks.busyKept (marks_modifyFirst s _ fun _ => rfl))
  | markItemIgnored itemId => exact hquiet (Marks.busyKept (marks_modifyFirst s _ fun _ => rfl))
  | markItemsIgnored itemIds =>
    refine hquiet (Marks.busyKept (marks_map s fun it => ?_))
    split
    · rfl
    · rfl
  | refreshDiagnostics => exact hquiet (marks_refreshDiagnostics env s).busyKept
  | refreshDiagnosticsForFeed feedId =>
    exact hquiet (marks_refreshDiagnosticsForFeed env s feedId).busyKept
  | removeFeed feedId => exact hop.elim
  | clearItemsForFeed feedId => exact hop.elim
  | clearItemsForFeeds feedIds => exact hop.elim
  | reloadItemStream now fetch bound => exact hop.elim
  | downloadItem now itemId => exact hop.elim
  | saveState failures => exact hquiet (busyKept_of_items rfl)
  | setAutoDownloadEnabled enabled => exact hquiet (busyKept_of_items rfl)
  | setMaxAutoDownloadsPerRefresh max => exact hquiet (busyKept_of_items rfl)
  | setDownloadRequestCallback isSet => exact hquiet (busyKept_of_items rfl)
  | setHistoryPolicy policy => exact hquiet (busyKept_of_items rfl)
  | applySettings settings => exact hquiet (busyKept_of_items rfl)
  | upsertRule uuid rule => exact hquiet (busyKept_of_items rfl)
  | removeRule ruleId => exact hquiet (busyKept_of_items rfl)
  | upsertFeed uuid feed => exact hquiet (busyKept_of_items rfl)

variable (env)

/-- In every run of automatic calls whose records last, no entry is started again while it is in flight
or after it succeeded, and each succeeds at most once. -/
theorem single_start (hdigest : ∀ text, env.text.sha256Hex text ≠ "") (files : RssFiles)
    (ops : List ServiceOp)
    (hops : RunOk (recordStep env) (fun s op => Automatic s.1 op) ({ files := files }, []) ops)
    (hlast : RunOk (recordStep env) (fun s op => RecordsLast env s.1 op) ({ files := files }, []) ops)
    (id : String) :
    NeverRestarted id (run (recordStep env) ({ files := files }, []) ops).2 ∧
      completions id (run (recordStep env) ({ files := files }, []) ops).2 ≤ 1 := by
  have hstart : Recorded { files := files } [] :=
    ⟨indexed_start files, fun _ => neverRestarted_nil, fun id h => by simp at h,
      fun id h => by simp at h⟩
  have hrun := RunOk.invariant (P := fun s => Recorded s.1 s.2)
    (fun s op hs hok => recorded_step hdigest s.1 s.2 op hs hok.1 hok.2) hstart (hops.and hlast)
  exact ⟨hrun.single id, (hrun.single id).completions_le_one⟩

theorem recordStep_quiet {s : Service} (log : List (JobEvent String)) {op : ServiceOp}
    (h : eventsOf env s op = []) : recordStep env (s, log) op = (serviceStep env s op, log) := by
  rw [recordStep, h, List.append_nil]

/-- Calls that neither start nor settle anything leave the record as it is. -/
theorem run_recordStep_quiet (s : Service) (log : List (JobEvent String)) {ops : List ServiceOp}
    (h : ∀ op ∈ ops, ∀ s, eventsOf env s op = []) :
    run (recordStep env) (s, log) ops = (run (serviceStep env) s ops, log) := by
  induction ops generalizing s with
  | nil => rfl
  | cons op ops ih =>
    rw [run_cons, recordStep_quiet env log (h op (by simp) s), run_cons]
    exact ih _ fun op hop => h op (List.mem_cons_of_mem _ hop)

/-- An entry of the feed is started and, at the time `now`, its feed is refreshed with all the others. -/
def refreshedInFlight (now : Int) : List ServiceOp :=
  [.setDownloadRequestCallback true, .setAutoDownloadEnabled true,
    .upsertFeed "feed" { url := "http://example.org/rss", autoDownloadEnabled := true },
    .upsertRule "rule" { enabled := true },
    .refreshFeed now fetchOneEntry "feed" 100,
    .dispatch now 10 true .allEligible,
    .refreshAllFeeds now fetchOneEntry 100]

/-- The service while the request for the entry is in flight. -/
def entryInFlight (now : Int) : Service :=
  serviceStep oneEntryEnv (oneEntryRefreshed now feedAdded 0) (.dispatch now 10 true .allEligible)

theorem run_entryInFlight (now : Int) :
    run (recordStep oneEntryEnv) ({}, []) (addFeed ++
        [.refreshFeed now fetchOneEntry "feed" 100, .dispatch now 10 true .allEligible]) =
      (entryInFlight now, eventsOf oneEntryEnv (oneEntryRefreshed now feedAdded 0)
        (.dispatch now 10 true .allEligible)) := by
  have hadd : run (recordStep oneEntryEnv) ({}, []) addFeed = (feedAdded, []) :=
    run_recordStep_quiet oneEntryEnv {} [] fun op hop s => by
      simp only [addFeed, List.mem_cons, List.not_mem_nil, or_false] at hop
      rcases hop with rfl | rfl | rfl | rfl <;> rfl
  rw [run_append, hadd, run_cons, recordStep_quiet _ _ rfl, serviceStep_refreshFeed now feedIndex_feedAdded,
    run_cons, run_nil, recordStep, List.nil_append, entryInFlight]

/-- On the day of its publication the record of the entry lasts. -/
theorem single_start_fresh :
    NeverRestarted "5871f5b0118f600917ea63dfda2dbe0b"
        (run (recordStep oneEntryEnv) ({}, []) (refreshedInFlight 946684800000)).2 ∧
      completions "5871f5b0118f600917ea63dfda2dbe0b"
        (run (recordStep oneEntryEnv) ({}, []) (refreshedInFlight 946684800000)).2 ≤ 1 := by
  refine single_start oneEntryEnv oneEntryEnv_digest {} (refreshedInFlight 946684800000) ?_ ?_
    "5871f5b0118f600917ea63dfda2dbe0b"
  · simp [refreshedInFlight, Automatic]
  · have hfeeds : ∀ s : Service, s.items = [] → FeedsKeep s := by
      intro s hs it hit
      rw [hs] at hit
      cases hit
    have hsplit : refreshedInFlight 946684800000 = (addFeed ++
        [.refreshFeed 946684800000 fetchOneEntry "feed" 100,
          .dispatch 946684800000 10 true .allEligible]) ++
        [.refreshAllFeeds 946684800000 fetchOneEntry 100] := rfl
    have hids : (entryInFlight 946684800000).feeds.map (·.id) = ["feed"] := by decide +kernel
    have hon : ∀ feed ∈ (entryInFlight 946684800000).feeds, feed.enabled = true := by decide +kernel
    have hfirst : feedIndex (entryInFlight 946684800000).feeds "feed" = some 0 := by decide +kernel
    rw [hsplit, runOk_append, run_entryInFlight]
    refine ⟨⟨trivial, trivial, trivial, trivial, hfeeds _ rfl, trivial, trivial⟩,
      runOk_cons.mpr ⟨?_, trivial⟩⟩
    have hall := refreshEnabled_oneEntry 946684800000
      (s := { entryInFlight 946684800000 with lastRefreshNewItemIds := ∅ }) hids hon hfirst
    refine ⟨?_, fun s' hs' => ?_⟩
    · unfold FeedsKeep
      decide +kernel
    · obtain rfl := Option.some.inj (hall.symm.trans hs')
      unfold RetentionKeeps
      decide +kernel

/-- Years later the entry, still listed, is retained for no longer than it takes to start it. -/
theorem entry_started_twice :
    RunOk (recordStep oneEntryEnv) (fun s op => Automatic s.1 op) ({}, [])
        (refreshedInFlight 1704067200000 ++ [.refreshFeed 1704067200000 fetchOneEntry "feed" 100,
          .dispatch 1704067200000 10 true .allEligible]) ∧
      ¬NeverRestarted "5871f5b0118f600917ea63dfda2dbe0b"
        (run (recordStep oneEntryEnv) ({}, []) (refreshedInFlight 1704067200000 ++
          [.refreshFeed 1704067200000 fetchOneEntry "feed" 100,
            .dispatch 1704067200000 10 true .allEligible])).2 := by
  refine ⟨by simp [refreshedInFlight, Automatic], ?_⟩
  have hlog : (run (recordStep oneEntryEnv) ({}, []) (refreshedInFlight 1704067200000 ++
      [.refreshFeed 1704067200000 fetchOneEntry "feed" 100,
        .dispatch 1704067200000 10 true .allEligible])).2 =
      [.started "5871f5b0118f600917ea63dfda2dbe0b", .started "5871f5b0118f600917ea63dfda2dbe0b"] := by
    have hsplit : refreshedInFlight 1704067200000 ++ [.refreshFeed 1704067200000 fetchOneEntry "feed" 100,
        .dispatch 1704067200000 10 true .allEligible] = (addFeed ++
          [.refreshFeed 1704067200000 fetchOneEntry "feed" 100,
            .dispatch 1704067200000 10 true .allEligible]) ++
          [.refreshAllFeeds 1704067200000 fetchOneEntry 100,
            .refreshFeed 1704067200000 fetchOneEntry "feed" 100,
            .dispatch 1704067200000 10 true .allEligible] := rfl
    have hids : (entryInFlight 1704067200000).feeds.map (·.id) = ["feed"] := by decide +kernel
    have hon : ∀ feed ∈ (entryInFlight 1704067200000).feeds, feed.enabled = true := by decide +kernel
    have hfirst : feedIndex (entryInFlight 1704067200000).feeds "feed" = some 0 := by decide +kernel
    have hagain : feedIndex (oneEntryRefreshedAll 1704067200000 (entryInFlight 1704067200000) 0).feeds
        "feed" = some 0 := by decide +kernel
    rw [hsplit, run_append, run_entryInFlight, run_cons, recordStep_quiet _ _ rfl,
      serviceStep_refreshAllFeeds _ hids hon hfirst, run_cons, recordStep_quiet _ _ rfl,
      serviceStep_refreshFeed _ hagain]
    decide +kernel
  rw [hlog]
  intro h
  exact absurd (h [.started "5871f5b0118f600917ea63dfda2dbe0b"] [] rfl) (by decide)

end TorrentLink.Rss
