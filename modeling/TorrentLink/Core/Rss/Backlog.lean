import TorrentLink.Core.Rss.Eligibility
import TorrentLink.Lib.Positions
import TorrentLink.Lib.Ranking

/-!
# The backlog of automatic downloads

The backlog holds the newest of the candidates, as many as its cap allows. After a diagnosis of all items
the candidates are the eligible items. A dispatch starts the first items of the backlog, as many as the
batch and the free slots allow (`dispatch_startsNewest`).
-/

namespace TorrentLink.Rss

open Lib

variable (env : ServiceEnv)

/-! ### Eligible items -/

instance (s : Service) : DecidablePred (s.Wanted env) := fun it =>
  decidable_of_iff
    ((s.feeds.find? fun x => x.id = it.feedId).any (·.autoDownloadEnabled) = true ∧
      ∃ rule ∈ s.rules, rule.enabled = true ∧ (evaluate env.rule rule it).isMatch = true)
    ⟨fun h => ⟨(Option.any_eq_true _ _).mp h.1, h.2⟩,
      fun h => ⟨(Option.any_eq_true _ _).mpr h.feedOn, h.ruleMatches⟩⟩

instance (s : Service) : DecidablePred (s.Eligible env) := fun it =>
  decidable_of_iff
    (s.autoDownloadEnabled = true ∧ s.Wanted env it ∧ it.isBlocked = false ∧
      ¬(it.magnet = "" ∧ it.torrentUrl = ""))
    ⟨fun h => ⟨h.1, h.2.1, h.2.2.1, h.2.2.2⟩,
      fun h => ⟨h.globalOn, h.wanted, h.notBlocked, h.hasResource⟩⟩

/-- The number of eligible items. -/
def eligibleCount (s : Service) : Nat := s.items.countP fun it => decide (s.Eligible env it)

/-- The time an item is ordered by. -/
def RssItem.publishTime (it : RssItem) : Int := it.publishedAt.getD 0

/-- The downloads that may still be started. -/
def freeSlots (s : Service) : Int := max 0 (maxConcurrent s - inflight s.items)

variable {env}

/-! ### What the backlog depends on -/

/-- What `rebuildAutoBacklogScratch` reads of an item. -/
def RssItem.backlogKey (it : RssItem) :
    String × Bool × (String × String) × String × QDateTime :=
  (it.id, it.isBlocked, (it.magnet, it.torrentUrl), it.lastAutoReasonCode, it.publishedAt)

theorem publishedOrEpoch_of_getElem? {items : List RssItem} {i : Nat} {it : RssItem}
    (h : items[i]? = some it) : publishedOrEpoch items i = it.publishTime := by
  unfold publishedOrEpoch RssItem.publishTime
  rw [h, Option.bind_some]

theorem publishedDesc_strictWeak (items : List RssItem) : StrictWeak (publishedDesc items) :=
  strictWeak_byKey (publishedOrEpoch items)

theorem getElem?_congr {κ : Type} {key : RssItem → κ} {items items' : List RssItem}
    (h : items'.map key = items.map key) (i : Nat) : (items'[i]?).map key = (items[i]?).map key := by
  rw [← List.getElem?_map, ← List.getElem?_map, h]

theorem publishedDesc_congr {items items' : List RssItem}
    (h : items'.map (·.publishedAt) = items.map (·.publishedAt)) :
    publishedDesc items' = publishedDesc items := by
  have htime : publishedOrEpoch items' = publishedOrEpoch items := by
    funext i
    have hmap : ∀ l : List RssItem, publishedOrEpoch l i =
        (((l[i]?).map (·.publishedAt)).bind id).getD 0 := by
      intro l
      unfold publishedOrEpoch
      cases l[i]? with
      | none => rfl
      | some it => rfl
    rw [hmap, hmap, getElem?_congr h]
  unfold publishedDesc
  rw [htime]

theorem candidatePositions_congr {s s' : Service}
    (h : s'.items.map RssItem.backlogKey = s.items.map RssItem.backlogKey)
    (hnew : s'.lastRefreshNewItemIds = s.lastRefreshNewItemIds) (scope : RssAutoDownloadScope) :
    candidatePositions s' scope = candidatePositions s scope := by
  have hlength : s'.items.length = s.items.length := by
    simpa only [List.length_map] using congrArg List.length h
  have hkey : ∀ (l : List RssItem) (i : Nat), (l[i]?).any (isBacklogCandidate s scope) =
      ((l[i]?).map RssItem.backlogKey).any fun k =>
        itemMatchesAutoDownloadScope s { id := k.1 } scope && !k.2.1 &&
          !(k.2.2.1.1 = "" && k.2.2.1.2 = "") && isDiagnosticAutoEligible k.2.2.2.1 := by
    intro l i
    cases l[i]? with
    | none => rfl
    | some it => rfl
  have hcandidate : isBacklogCandidate s' scope = isBacklogCandidate s scope := by
    funext it
    unfold isBacklogCandidate itemMatchesAutoDownloadScope
    rw [hnew]
  unfold candidatePositions
  rw [hlength, hcandidate]
  refine List.filter_congr fun i _ => ?_
  rw [hkey, hkey, getElem?_congr h]

variable (env) in
theorem rebuild_congr {s s' : Service}
    (h : s'.items.map RssItem.backlogKey = s.items.map RssItem.backlogKey)
    (hnew : s'.lastRefreshNewItemIds = s.lastRefreshNewItemIds) (hsettings : s'.settings = s.settings)
    (scope : RssAutoDownloadScope) :
    rebuildAutoBacklogScratch env s' scope = rebuildAutoBacklogScratch env s scope := by
  have htimes : s'.items.map (·.publishedAt) = s.items.map (·.publishedAt) := by
    have hmap := congrArg (List.map fun k => k.2.2.2.2) h
    rwa [List.map_map, List.map_map] at hmap
  unfold rebuildAutoBacklogScratch effectiveAutoDownloadBacklogCap
  rw [publishedDesc_congr htimes, candidatePositions_congr h hnew, hsettings]

/-! ### The backlog after a diagnosis -/

theorem mem_candidatePositions {s : Service} {scope : RssAutoDownloadScope} {i : Nat} :
    i ∈ candidatePositions s scope ↔
      ∃ it, s.items[i]? = some it ∧ isBacklogCandidate s scope it = true := mem_positions

theorem nodup_candidatePositions (s : Service) (scope : RssAutoDownloadScope) :
    (candidatePositions s scope).Nodup := nodup_positions

theorem cap_pos (s : Service) : 1 ≤ effectiveAutoDownloadBacklogCap s := by
  unfold effectiveAutoDownloadBacklogCap clamp
  omega

theorem getElem?_diagnoseAll (s : Service) (i : Nat) :
    (diagnoseAll env s true).items[i]? =
      (s.items[i]?).map (diagnoseItemAutoDownloadState env s) := List.getElem?_map

theorem publishedOrEpoch_diagnosed {s : Service} {i : Nat} {it : RssItem}
    (h : s.items[i]? = some it) :
    publishedOrEpoch (diagnoseAll env s true).items i = it.publishTime :=
  @publishedOrEpoch_of_getElem? _ _ (diagnoseItemAutoDownloadState env s it)
    (by rw [getElem?_diagnoseAll, h]; rfl)

theorem candidate_diagnosed_iff (s : Service) (it : RssItem) :
    isBacklogCandidate (diagnoseAll env s true) .allEligible (diagnoseItemAutoDownloadState env s it) =
      true ↔ s.Eligible env it ∧ s.hasDownloadCallback = true := by
  rw [← diagnosis_eligible_iff]
  constructor
  · exact fun h => (ready_of_candidate h).marked
  · intro h
    have heligible := ((diagnosis_eligible_iff env s it).mp h).1
    have hblocked : (diagnoseItemAutoDownloadState env s it).isBlocked = false := heligible.notBlocked
    have hresource : ¬(it.magnet = "" ∧ it.torrentUrl = "") := heligible.hasResource
    unfold isBacklogCandidate
    rw [hblocked]
    simp only [itemMatchesAutoDownloadScope, Bool.not_false, Bool.true_and, Bool.and_eq_true,
      Bool.not_eq_true']
    refine ⟨?_, h⟩
    by_contra hnot
    rw [Bool.not_eq_false, Bool.and_eq_true, decide_eq_true_iff, decide_eq_true_iff] at hnot
    exact hresource hnot

/-- After a diagnosis, the candidates are the eligible items. -/
theorem mem_candidates_diagnosed {s : Service} (hcallback : s.hasDownloadCallback = true) {i : Nat} :
    i ∈ candidatePositions (diagnoseAll env s true) .allEligible ↔
      ∃ it, s.items[i]? = some it ∧ s.Eligible env it := by
  rw [mem_candidatePositions, getElem?_diagnoseAll]
  constructor
  · rintro ⟨it', hit', hcandidate⟩
    obtain ⟨it, hit, rfl⟩ := Option.map_eq_some_iff.mp hit'
    exact ⟨it, hit, ((candidate_diagnosed_iff s it).mp hcandidate).1⟩
  · rintro ⟨it, hit, heligible⟩
    exact ⟨_, by rw [hit]; rfl, (candidate_diagnosed_iff s it).mpr ⟨heligible, hcallback⟩⟩

theorem length_candidates_diagnosed {s : Service} (hcallback : s.hasDownloadCallback = true) :
    (candidatePositions (diagnoseAll env s true) .allEligible).length = eligibleCount env s := by
  refine (countP_eq_length (nodup_candidatePositions _ _) fun i => ?_).symm
  rw [mem_candidates_diagnosed hcallback]
  simp only [decide_eq_true_iff]

/-- The id of an item tells its position. -/
theorem position_of_id {items : List RssItem} (hids : (items.map (·.id)).Nodup) {i j : Nat}
    {it : RssItem} (hi : items[i]? = some it) (hj : (items[j]?).map (·.id) = some it.id) : i = j := by
  have hlt : i < (items.map (·.id)).length := by
    rw [List.length_map]
    exact (List.getElem?_eq_some_iff.mp hi).1
  refine (List.getElem?_inj hlt hids).mp ?_
  rw [List.getElem?_map, List.getElem?_map, hj, hi]
  rfl

/-! ### The number of items in flight -/

theorem inflight_congr {s s' : Service} (h : Marks s s') : inflight s'.items = inflight s.items := by
  obtain ⟨items, rfl, hcore⟩ := h
  have hcount : ∀ l : List RssItem, l.countP (·.queued) = (l.map RssItem.core).countP (·.2.1) := by
    intro l
    rw [List.countP_map]
    rfl
  unfold inflight
  rw [hcount, hcount, hcore]

variable (env) in
/-- A download puts one more item in flight, if it hands out a request. -/
theorem inflight_downloadItem (now : Int) (s : Service) (itemId : String) :
    inflight (downloadItem env now s itemId).1.items =
      inflight s.items + (downloadItem env now s itemId).2.toList.length := by
  unfold downloadItem
  cases hfind : s.items.find? fun it => it.id = itemId with
  | none => simp
  | some it =>
    have hcount := countP_modifyFirst (f := fun it => (downloadAttempt env now s it).1) hfind
      (·.queued)
    dsimp only
    unfold inflight
    unfold downloadAttempt at hcount ⊢
    by_cases hresource : it.magnet = "" ∧ it.torrentUrl = ""
    · simp [hresource, markItemDecision] at hcount ⊢
      omega
    · by_cases hqueued : it.queued = true
      · simp [hresource, hqueued, markItemDecision] at hcount ⊢
        omega
      · by_cases hcallback : s.hasDownloadCallback = true
        · simp [hresource, hqueued, hcallback, markItemDecision] at hcount ⊢
          omega
        · simp [hresource, hqueued, hcallback, markItemDecision] at hcount ⊢
          omega

variable (env) in
theorem inflight_dispatchLoop (now cap maxConc : Int) (positions : List Nat) (started n : Int)
    (s : Service) :
    inflight (dispatchLoop env now cap maxConc positions started n s).1.items =
      inflight s.items + (dispatchLoop env now cap maxConc positions started n s).2.length := by
  induction positions generalizing started n s with
  | nil => simp [dispatchLoop]
  | cons i rest ih =>
    rw [dispatchLoop]
    split
    · cases s.items[i]? with
      | none => exact ih started n s
      | some it =>
        dsimp only
        split
        · exact ih started n s
        · have hdownload := inflight_downloadItem env now s it.id
          generalize downloadItem env now s it.id = result at hdownload
          obtain ⟨s', request⟩ := result
          cases request with
          | none =>
            rw [show inflight s.items = inflight s'.items by simpa using hdownload.symm]
            exact ih started n s'
          | some request =>
            have hrest := ih (started + 1) (n + 1) s'
            simp only [Option.toList_some, List.length_singleton, Nat.cast_one] at hdownload
            simp only [List.length_cons, Nat.cast_add, Nat.cast_one]
            omega
    · simp

/-! ### What a dispatch starts -/

/-- What a dispatch that diagnoses all items first does with a state `s`: `s'` is the state after it. -/
structure StartsNewest (env : ServiceEnv) (s : Service) (maxBatch : Int) (s' : Service)
    (requests : List AutoDownloadRequest) : Prop where
  count : (requests.length : Int) = min (clamp maxBatch 1 100)
    (min (freeSlots s) (min (effectiveAutoDownloadBacklogCap s) (eligibleCount env s)))
  once : (requests.map (·.itemId)).Nodup
  eligible : ∀ request ∈ requests, ∃ it ∈ s.items, it.id = request.itemId ∧ s.Eligible env it
  newest : ∀ it ∈ s.items, s.Eligible env it → it.id ∉ requests.map (·.itemId) →
    ∀ started ∈ s.items, started.id ∈ requests.map (·.itemId) → it.publishTime ≤ started.publishTime
  bounded : inflight s'.items ≤ max (inflight s.items) (maxConcurrent s)

theorem requestedItem_id {start : Service × AutoDownloadRequest} {it : RssItem}
    (h : requestedItem start = some it) : it.id = start.2.itemId := by
  simpa using List.find?_some h

theorem map_requestedItem_id {starts : List (Service × AutoDownloadRequest)} {is : List Nat}
    {items : List RssItem} (h : starts.map requestedItem = is.map (items[·]?))
    (hin : ∀ i ∈ is, ∃ it, items[i]? = some it) :
    (starts.map Prod.snd).map (fun request => some request.itemId) =
      is.map fun i => (items[i]?).map (·.id) := by
  have hids := congrArg (List.map (Option.map (·.id))) h
  rw [List.map_map, List.map_map] at hids
  rw [List.map_map]
  refine Eq.trans (List.map_congr_left fun start hstart => ?_) hids
  have hmem := List.mem_map_of_mem (f := requestedItem) hstart
  rw [h] at hmem
  obtain ⟨i, hi, hrequested⟩ := List.mem_map.mp hmem
  obtain ⟨it, hit⟩ := hin i hi
  have hsome : requestedItem start = some it := hrequested.symm.trans hit
  simp only [Function.comp_apply, hsome, Option.map_some, requestedItem_id hsome]

/-- The first positions of the backlog after a diagnosis, as many as a call may start. -/
def startPositions (env : ServiceEnv) (s : Service) (maxBatch : Int) : List Nat :=
  (rebuildAutoBacklogScratch env (diagnoseAll env s true) .allEligible).take (batchSize s maxBatch)

theorem batchSize_diagnoseAll (s : Service) (maxBatch : Int) :
    batchSize (diagnoseAll env s true) maxBatch = batchSize s maxBatch := by
  have hinflight := inflight_congr (marks_diagnoseAll env s true)
  unfold batchSize
  rw [hinflight]
  rfl

/-- The requests of a call are for the items at these positions, in their order. -/
theorem dispatch_requests {s : Service} (hids : (s.items.map (·.id)).Nodup)
    (hglobal : s.autoDownloadEnabled = true) (hcallback : s.hasDownloadCallback = true)
    (now maxBatch : Int) :
    (dispatchDeferredAutoDownloads env now s maxBatch true .allEligible).2.map
        (fun request => some request.itemId) =
      (startPositions env s maxBatch).map fun i => (s.items[i]?).map (·.id) := by
  have hids' : ((diagnoseAll env s true).items.map (·.id)).Nodup :=
    (marks_diagnoseAll env s true).ids ▸ hids
  have hready : ∀ i ∈ rebuildAutoBacklogScratch env (diagnoseAll env s true) .allEligible, ∃ it,
      (diagnoseAll env s true).items[i]? = some it ∧ it.Ready := by
    intro i hi
    obtain ⟨it, hit, hcandidate⟩ := candidate_of_mem_backlog hi
    exact ⟨it, hit, ready_of_candidate hcandidate⟩
  have hstarts := @dispatchStarts_ready env now (clamp maxBatch 1 100)
    (maxConcurrent (diagnoseAll env s true)) _ 0 (inflight (diagnoseAll env s true).items)
    (diagnoseAll env s true) hids' hcallback (nodup_backlog _ .allEligible) hready
  have hcount : (min (clamp maxBatch 1 100 - 0) (maxConcurrent (diagnoseAll env s true) -
      inflight (diagnoseAll env s true).items)).toNat = batchSize s maxBatch := by
    rw [← @batchSize_diagnoseAll env, Int.sub_zero]
    rfl
  rw [hcount] at hstarts
  have hmap := map_requestedItem_id hstarts fun i hi => by
    obtain ⟨it, hit, -⟩ := hready i (List.mem_of_mem_take hi)
    exact ⟨it, hit⟩
  rw [map_snd_dispatchStarts] at hmap
  unfold dispatchDeferredAutoDownloads
  rw [if_neg (by simp [hglobal])]
  refine hmap.trans (List.map_congr_left fun i _ => ?_)
  rw [getElem?_diagnoseAll, Option.map_map]
  rfl

theorem length_startPositions {s : Service} (hcallback : s.hasDownloadCallback = true)
    (maxBatch : Int) : ((startPositions env s maxBatch).length : Int) = min (clamp maxBatch 1 100)
      (min (freeSlots s) (min (effectiveAutoDownloadBacklogCap s) (eligibleCount env s))) := by
  have hcap := cap_pos s
  have hbatch : 1 ≤ clamp maxBatch 1 100 := by
    unfold clamp
    omega
  have hlength : (startPositions env s maxBatch).length = min (batchSize s maxBatch)
      (min (effectiveAutoDownloadBacklogCap s).toNat (eligibleCount env s)) := by
    unfold startPositions rebuildAutoBacklogScratch
    rw [List.length_take, length_take_sort, length_candidates_diagnosed hcallback]
    rfl
  rw [hlength]
  unfold batchSize freeSlots
  omega

/-- An item is started exactly if its position is one of these. -/
theorem mem_requests_iff {s : Service} (hids : (s.items.map (·.id)).Nodup)
    (hglobal : s.autoDownloadEnabled = true) (hcallback : s.hasDownloadCallback = true)
    (now maxBatch : Int) {i : Nat} {it : RssItem} (hi : s.items[i]? = some it) :
    it.id ∈ (dispatchDeferredAutoDownloads env now s maxBatch true .allEligible).2.map (·.itemId) ↔
      i ∈ startPositions env s maxBatch := by
  have hmem : it.id ∈ (dispatchDeferredAutoDownloads env now s maxBatch true .allEligible).2.map
      (·.itemId) ↔ some it.id ∈ (startPositions env s maxBatch).map
        fun i => (s.items[i]?).map (·.id) := by
    rw [← dispatch_requests hids hglobal hcallback now maxBatch, List.mem_map, List.mem_map]
    simp only [Option.some.injEq]
  rw [hmem, List.mem_map]
  constructor
  · rintro ⟨j, hj, hid⟩
    exact position_of_id hids hi hid ▸ hj
  · intro hmem
    exact ⟨i, hmem, by rw [hi]; rfl⟩

/-- A position that is left out is that of an item that is no newer. -/
theorem not_newer_of_left_out {s : Service} (hcallback : s.hasDownloadCallback = true)
    (maxBatch : Int) {i j : Nat} {it started : RssItem} (hi : s.items[i]? = some it)
    (hj : s.items[j]? = some started) (heligible : s.Eligible env it)
    (hout : i ∉ startPositions env s maxBatch) (hin : j ∈ startPositions env s maxBatch) :
    it.publishTime ≤ started.publishTime := by
  unfold startPositions rebuildAutoBacklogScratch at hout hin
  rw [List.take_take] at hout hin
  have hcandidate := (mem_candidates_diagnosed hcallback).mpr ⟨it, hi, heligible⟩
  have hdrop := (mem_take_or_drop_sort env.history.std _ _ hcandidate).resolve_left hout
  have hnot := not_lt_of_left_out (publishedDesc_strictWeak _) hin hdrop
  unfold publishedDesc at hnot
  rw [decide_eq_false_iff_not, publishedOrEpoch_diagnosed hi, publishedOrEpoch_diagnosed hj] at hnot
  omega

theorem eligible_startPositions {s : Service} (hcallback : s.hasDownloadCallback = true) (maxBatch : Int)
    {i : Nat} (hi : i ∈ startPositions env s maxBatch) : ∃ it, s.items[i]? = some it ∧ s.Eligible env it :=
  (mem_candidates_diagnosed hcallback).mp (mem_take_sort env.history.std _ _ (List.mem_of_mem_take hi))

/-- Distinct positions of items with distinct ids. -/
theorem nodup_requests {s : Service} (hids : (s.items.map (·.id)).Nodup)
    (hglobal : s.autoDownloadEnabled = true) (hcallback : s.hasDownloadCallback = true)
    (now maxBatch : Int) :
    ((dispatchDeferredAutoDownloads env now s maxBatch true .allEligible).2.map (·.itemId)).Nodup := by
  have hpositions : (startPositions env s maxBatch).Nodup :=
    (List.take_sublist _ _).nodup (nodup_backlog _ .allEligible)
  have hnodup : ((startPositions env s maxBatch).map fun i => (s.items[i]?).map (·.id)).Nodup := by
    refine List.Nodup.map_on (fun i hi j hj hsame => ?_) hpositions
    obtain ⟨it, hit, -⟩ := eligible_startPositions hcallback maxBatch hi
    rw [hit] at hsame
    exact position_of_id hids hit hsame.symm
  rw [← dispatch_requests hids hglobal hcallback now maxBatch] at hnodup
  have hsome : ((dispatchDeferredAutoDownloads env now s maxBatch true .allEligible).2.map
      (·.itemId)).map some = (dispatchDeferredAutoDownloads env now s maxBatch true
        .allEligible).2.map fun request => some request.itemId := List.map_map
  rw [← hsome] at hnodup
  exact List.Nodup.of_map _ hnodup

theorem eligible_of_request {s : Service} (hids : (s.items.map (·.id)).Nodup)
    (hglobal : s.autoDownloadEnabled = true) (hcallback : s.hasDownloadCallback = true)
    (now maxBatch : Int) {request : AutoDownloadRequest}
    (h : request ∈ (dispatchDeferredAutoDownloads env now s maxBatch true .allEligible).2) :
    ∃ it ∈ s.items, it.id = request.itemId ∧ s.Eligible env it := by
  have hmem : some request.itemId ∈ (startPositions env s maxBatch).map
      fun i => (s.items[i]?).map (·.id) := by
    rw [← dispatch_requests hids hglobal hcallback now maxBatch]
    exact List.mem_map.mpr ⟨request, h, rfl⟩
  obtain ⟨i, hi, hid⟩ := List.mem_map.mp hmem
  obtain ⟨it, hit, heligible⟩ := eligible_startPositions hcallback maxBatch hi
  rw [hit] at hid
  exact ⟨it, List.mem_of_getElem? hit, Option.some.inj hid, heligible⟩

theorem inflight_dispatch {s : Service} (hglobal : s.autoDownloadEnabled = true) (now maxBatch : Int) :
    inflight (dispatchDeferredAutoDownloads env now s maxBatch true .allEligible).1.items =
      inflight s.items +
        (dispatchDeferredAutoDownloads env now s maxBatch true .allEligible).2.length := by
  unfold dispatchDeferredAutoDownloads
  rw [if_neg (by simp [hglobal])]
  dsimp only
  rw [inflight_congr ((marks_overflow env _).trans (marks_sync env _ .allEligible)),
    inflight_dispatchLoop, inflight_congr (marks_diagnoseAll env s true)]

/-- A dispatch with a fresh diagnosis starts the newest eligible items, as many as the batch, the free
slots and the cap allow, and puts no more than allowed in flight. -/
theorem dispatch_startsNewest (env : ServiceEnv) (s : Service) (now maxBatch : Int)
    (hids : (s.items.map (·.id)).Nodup) (hglobal : s.autoDownloadEnabled = true)
    (hcallback : s.hasDownloadCallback = true) :
    StartsNewest env s maxBatch
      (dispatchDeferredAutoDownloads env now s maxBatch true .allEligible).1
      (dispatchDeferredAutoDownloads env now s maxBatch true .allEligible).2 := by
  have hlength := congrArg List.length (@dispatch_requests env _ hids hglobal hcallback now maxBatch)
  rw [List.length_map, List.length_map] at hlength
  have hcount := @length_startPositions env _ hcallback maxBatch
  constructor
  case count => rw [hlength, hcount]
  case once => exact nodup_requests hids hglobal hcallback now maxBatch
  case eligible => exact fun request h => eligible_of_request hids hglobal hcallback now maxBatch h
  case newest =>
    intro it hit heligible hout started hstarted hin
    obtain ⟨i, hi⟩ := List.getElem?_of_mem hit
    obtain ⟨j, hj⟩ := List.getElem?_of_mem hstarted
    rw [mem_requests_iff hids hglobal hcallback now maxBatch hi] at hout
    rw [mem_requests_iff hids hglobal hcallback now maxBatch hj] at hin
    exact not_newer_of_left_out hcallback maxBatch hi hj heligible hout hin
  case bounded =>
    rw [inflight_dispatch hglobal, hlength, hcount]
    unfold freeSlots
    omega

/-- A feed with three entries and a rule for all of them, one slot, and room for two in the backlog. -/
def threeItems : Service where
  feeds := [{ id := "feed", autoDownloadEnabled := true }]
  rules := [{ id := "rule", enabled := true }]
  autoDownloadEnabled := true
  hasDownloadCallback := true
  settings := { maxConcurrentAutoDownloads := 1, maxAutoDownloadBacklog := 2 }
  items :=
    [{ id := "a", feedId := "feed", magnet := "magnet:?a", publishedAt := some 1000 },
      { id := "b", feedId := "feed", magnet := "magnet:?b", publishedAt := some 3000 },
      { id := "c", feedId := "feed", magnet := "magnet:?c", publishedAt := some 2000 }]

theorem dispatch_startsNewest_threeItems :
    StartsNewest oneEntryEnv threeItems 10
        (dispatchDeferredAutoDownloads oneEntryEnv 5000 threeItems 10 true .allEligible).1
        (dispatchDeferredAutoDownloads oneEntryEnv 5000 threeItems 10 true .allEligible).2 ∧
      (dispatchDeferredAutoDownloads oneEntryEnv 5000 threeItems 10 true .allEligible).2.map
        (·.itemId) = ["b"] := by
  refine ⟨?_, by decide +kernel⟩
  exact dispatch_startsNewest oneEntryEnv threeItems 5000 10 (by decide) rfl rfl

end TorrentLink.Rss
