import TorrentLink.Core.Rss.Backlog

/-!
# The waiting list

`refreshAutoDownloadDiagnostics` diagnoses all items, marks those over the cap of the backlog, and puts
on the waiting list those of the backlog that find no free slot. The backlog is computed twice, before
and after the items over the cap are marked: the second time it holds the same items, in an order of its
own (`refreshDiagnostics_splits`).
-/

namespace TorrentLink.Rss

open Lib

variable (env : ServiceEnv)

/-! ### The marks -/

/-- What both refreshes of the diagnosis end with. -/
def remark (s : Service) : Service :=
  syncRssAutoWaitlistMarkers env (applyAutoDownloadBacklogOverflowMarkers env s) .allEligible

theorem refreshDiagnostics_eq (s : Service) :
    refreshAutoDownloadDiagnostics env s = remark env (diagnoseAll env s true) := rfl

/-- The ids that `applyAutoDownloadBacklogOverflowMarkers` collects. -/
def trackedIds (s : Service) : List String :=
  (rebuildAutoBacklogScratch env s .allEligible).filterMap fun i => (s.items[i]?).map (·.id)

def RssItem.isMarkedEligible (it : RssItem) : Bool := isDiagnosticAutoEligible it.lastAutoReasonCode

def RssItem.isOverflow (it : RssItem) : Bool := it.lastAutoReasonCode = "auto_backlog_overflow"

/-- An item whose id is not tracked loses the mark of an eligible one. -/
def markOverflow (tracked : List String) (it : RssItem) : RssItem :=
  if it.isBlocked || !isDiagnosticAutoEligible it.lastAutoReasonCode || it.id ∈ tracked then it
  else markItemDecision it .skipped "auto_backlog_overflow"
    "符合条件但超出自动下载排队上限，将随进度陆续入队。"

variable {env}

theorem overflow_eq {s : Service} (hglobal : s.autoDownloadEnabled = true) :
    applyAutoDownloadBacklogOverflowMarkers env s =
      { s with items := s.items.map (markOverflow (trackedIds env s)) } := by
  unfold applyAutoDownloadBacklogOverflowMarkers
  rw [if_neg (by simp [hglobal])]
  rfl

theorem overflow_off {s : Service} (hglobal : s.autoDownloadEnabled = false) :
    applyAutoDownloadBacklogOverflowMarkers env s = s := by
  unfold applyAutoDownloadBacklogOverflowMarkers
  rw [if_pos (by simp [hglobal])]

/-- The items without the marks of the waiting list. -/
def clearWaitlist (items : List RssItem) : List RssItem :=
  items.map fun it => { it with rssAutoWaitlisted := false }

theorem getElem?_setWaitlisted (items : List RssItem) (is : List Nat) (j : Nat) :
    (setWaitlisted items is)[j]? = (items[j]?).map fun it =>
      { it with rssAutoWaitlisted := it.rssAutoWaitlisted || decide (j ∈ is) } := by
  unfold setWaitlisted
  induction is generalizing items with
  | nil =>
    rw [List.foldl_nil]
    cases items[j]? <;> simp
  | cons i is ih =>
    rw [List.foldl_cons, ih, List.getElem?_modify]
    by_cases hij : i = j
    · subst hij
      cases items[i]? <;> simp
    · have hne : ¬j = i := fun h => hij h.symm
      cases items[j]? <;> simp [hij, hne]

/-- The positions that the waiting list is made of: those of the backlog beyond the free slots. -/
def waitingPositions (env : ServiceEnv) (s : Service) : List Nat :=
  (rebuildAutoBacklogScratch env s .allEligible).drop (freeSlots s).toNat

theorem sync_eq {s : Service} (hglobal : s.autoDownloadEnabled = true) :
    syncRssAutoWaitlistMarkers env s .allEligible =
      { s with items := setWaitlisted (clearWaitlist s.items) (waitingPositions env s) } := by
  have hkeys : (clearWaitlist s.items).map RssItem.backlogKey = s.items.map RssItem.backlogKey := by
    unfold clearWaitlist
    rw [List.map_map]
    rfl
  have hbacklog := @rebuild_congr env s { s with items := clearWaitlist s.items }
    hkeys rfl rfl .allEligible
  have hflight : inflight (clearWaitlist s.items) = inflight s.items := by
    unfold inflight clearWaitlist
    rw [List.countP_map]
    rfl
  have hclear : (s.items.map fun it =>
      if itemMatchesAutoDownloadScope s it .allEligible then { it with rssAutoWaitlisted := false }
      else it) = clearWaitlist s.items := rfl
  unfold syncRssAutoWaitlistMarkers
  dsimp only
  rw [hclear, if_neg (by simp [hglobal]), hbacklog, hflight]
  rfl

theorem sync_off {s : Service} (hglobal : s.autoDownloadEnabled = false) :
    syncRssAutoWaitlistMarkers env s .allEligible = { s with items := clearWaitlist s.items } := by
  unfold syncRssAutoWaitlistMarkers
  dsimp only
  rw [if_pos (by simp [hglobal])]
  rfl

/-- An item after both passes: `overflow s` is the state between them. -/
theorem getElem?_remark {s : Service} (hglobal : s.autoDownloadEnabled = true) (i : Nat) :
    (remark env s).items[i]? = (s.items[i]?).map fun it =>
      { markOverflow (trackedIds env s) it with
        rssAutoWaitlisted := decide
          (i ∈ waitingPositions env (applyAutoDownloadBacklogOverflowMarkers env s)) } := by
  have hafter : (applyAutoDownloadBacklogOverflowMarkers env s).autoDownloadEnabled = true := by
    rw [overflow_eq hglobal]
    exact hglobal
  unfold remark
  rw [sync_eq hafter]
  dsimp only
  rw [getElem?_setWaitlisted]
  unfold clearWaitlist
  rw [List.getElem?_map]
  generalize waitingPositions env (applyAutoDownloadBacklogOverflowMarkers env s) = is
  rw [overflow_eq hglobal, List.getElem?_map]
  cases s.items[i]? with
  | none => rfl
  | some it => simp

/-! ### One item -/

theorem mem_trackedIds {s : Service} (hids : (s.items.map (·.id)).Nodup) {i : Nat} {it : RssItem}
    (hi : s.items[i]? = some it) :
    it.id ∈ trackedIds env s ↔ i ∈ rebuildAutoBacklogScratch env s .allEligible := by
  unfold trackedIds
  rw [List.mem_filterMap]
  constructor
  · rintro ⟨j, hj, hid⟩
    exact position_of_id hids hi hid ▸ hj
  · intro hmem
    exact ⟨i, hmem, by rw [hi]; rfl⟩

theorem diagnosis_ne_overflow (env : ServiceEnv) (s : Service) (it : RssItem) :
    (diagnosis env s it).2.1 ≠ "auto_backlog_overflow" := by
  unfold diagnosis diagnoseRule
  repeat' split
  all_goals decide

/-- After a diagnosis, an eligible item is over the cap or keeps its mark. -/
theorem markOverflow_diagnosed {s : Service} (hcallback : s.hasDownloadCallback = true)
    (tracked : List String) (it : RssItem) :
    ((markOverflow tracked (diagnoseItemAutoDownloadState env s it)).isMarkedEligible = true ↔
      s.Eligible env it ∧ it.id ∈ tracked) ∧
    ((markOverflow tracked (diagnoseItemAutoDownloadState env s it)).isOverflow = true ↔
      s.Eligible env it ∧ it.id ∉ tracked) := by
  have hdiagnosis := diagnosis_eligible_iff env s it
  have hcode : (diagnoseItemAutoDownloadState env s it).lastAutoReasonCode =
      (diagnosis env s it).2.1 := rfl
  by_cases heligible : s.Eligible env it
  · have hmarked := hdiagnosis.mpr ⟨heligible, hcallback⟩
    have hblocked : (diagnoseItemAutoDownloadState env s it).isBlocked = false := heligible.notBlocked
    have hid : (diagnoseItemAutoDownloadState env s it).id = it.id := rfl
    unfold markOverflow
    rw [hblocked, hcode, hmarked, hid]
    by_cases htracked : it.id ∈ tracked
    · rw [if_pos (by simp [htracked])]
      refine ⟨iff_of_true hmarked ⟨heligible, htracked⟩, iff_of_false ?_ fun h => h.2 htracked⟩
      unfold RssItem.isOverflow
      rw [decide_eq_true_iff]
      exact diagnosis_ne_overflow env s it
    · rw [if_neg (by simp [htracked])]
      exact ⟨iff_of_false (by simp [RssItem.isMarkedEligible, isDiagnosticAutoEligible,
        markItemDecision]) fun h => htracked h.2, iff_of_true rfl ⟨heligible, htracked⟩⟩
  · have hmarked : isDiagnosticAutoEligible (diagnosis env s it).2.1 = false :=
      Bool.eq_false_iff.mpr fun h => heligible (hdiagnosis.mp h).1
    unfold markOverflow
    rw [hcode, hmarked, if_pos (by simp)]
    refine ⟨iff_of_false ?_ fun h => heligible h.1, iff_of_false ?_ fun h => heligible h.1⟩
    · unfold RssItem.isMarkedEligible
      rw [hcode, hmarked]
      decide
    · unfold RssItem.isOverflow
      rw [decide_eq_true_iff]
      exact diagnosis_ne_overflow env s it

/-! ### The second backlog -/

/-- The state between the two passes of a full refresh. -/
def overflowed (env : ServiceEnv) (s : Service) : Service :=
  applyAutoDownloadBacklogOverflowMarkers env (diagnoseAll env s true)

/-- The positions of the backlog, as the first pass computes it. -/
def backlogPositions (env : ServiceEnv) (s : Service) : List Nat :=
  rebuildAutoBacklogScratch env (diagnoseAll env s true) .allEligible

section Marked

variable {s : Service} (hids : (s.items.map (·.id)).Nodup) (hglobal : s.autoDownloadEnabled = true)
  (hcallback : s.hasDownloadCallback = true)

include hcallback in
theorem eligible_of_mem_backlog {i : Nat} (h : i ∈ backlogPositions env s) :
    ∃ it, s.items[i]? = some it ∧ s.Eligible env it :=
  (mem_candidates_diagnosed hcallback).mp (mem_take_sort env.history.std _ _ h)

include hglobal in
theorem getElem?_overflowed (i : Nat) : (overflowed env s).items[i]? = (s.items[i]?).map fun it =>
    markOverflow (trackedIds env (diagnoseAll env s true)) (diagnoseItemAutoDownloadState env s it) := by
  unfold overflowed
  rw [overflow_eq (s := diagnoseAll env s true) hglobal, List.getElem?_map, getElem?_diagnoseAll,
    Option.map_map]
  rfl

include hids in
theorem mem_trackedIds_diagnosed {i : Nat} {it : RssItem} (hi : s.items[i]? = some it) :
    it.id ∈ trackedIds env (diagnoseAll env s true) ↔ i ∈ backlogPositions env s := by
  have hids' : ((diagnoseAll env s true).items.map (·.id)).Nodup :=
    (marks_diagnoseAll env s true).ids ▸ hids
  exact @mem_trackedIds _ _ hids' _ (diagnoseItemAutoDownloadState env s it)
    (by rw [getElem?_diagnoseAll, hi]; rfl)

include hids hglobal hcallback

/-- The second backlog is computed from the items of the first. -/
theorem mem_candidates_overflowed {i : Nat} :
    i ∈ candidatePositions (overflowed env s) .allEligible ↔ i ∈ backlogPositions env s := by
  rw [mem_candidatePositions, getElem?_overflowed hglobal]
  constructor
  · rintro ⟨it', hit', hcandidate⟩
    obtain ⟨it, hit, rfl⟩ := Option.map_eq_some_iff.mp hit'
    have hmarked := (ready_of_candidate hcandidate).marked
    have htracked := ((markOverflow_diagnosed hcallback _ it).1.mp hmarked).2
    exact (mem_trackedIds_diagnosed hids hit).mp htracked
  · intro hi
    obtain ⟨it, hit, heligible⟩ := eligible_of_mem_backlog hcallback hi
    have htracked := (@mem_trackedIds_diagnosed env _ hids _ _ hit).mpr hi
    have hsame : markOverflow (trackedIds env (diagnoseAll env s true))
        (diagnoseItemAutoDownloadState env s it) = diagnoseItemAutoDownloadState env s it := by
      unfold markOverflow
      rw [if_pos]
      simp only [Bool.or_eq_true, decide_eq_true_iff]
      exact .inr htracked
    refine ⟨_, by rw [hit]; rfl, ?_⟩
    dsimp only
    rw [hsame]
    exact (candidate_diagnosed_iff s it).mpr ⟨heligible, hcallback⟩

theorem candidates_overflowed_perm :
    (candidatePositions (overflowed env s) .allEligible).Perm (backlogPositions env s) :=
  (List.perm_ext_iff_of_nodup (nodup_candidatePositions _ _) (nodup_backlog _ _)).mpr fun _ =>
    mem_candidates_overflowed hids hglobal hcallback

theorem rebuild_overflowed : rebuildAutoBacklogScratch env (overflowed env s) .allEligible =
    env.history.std.sort (publishedDesc (overflowed env s).items)
      (candidatePositions (overflowed env s) .allEligible) := by
  have hcap : effectiveAutoDownloadBacklogCap (overflowed env s) =
      effectiveAutoDownloadBacklogCap (diagnoseAll env s true) := by
    unfold overflowed
    rw [overflow_eq (s := diagnoseAll env s true) hglobal]
    rfl
  have hlength : (backlogPositions env s).length ≤
      (effectiveAutoDownloadBacklogCap (diagnoseAll env s true)).toNat := by
    unfold backlogPositions rebuildAutoBacklogScratch
    rw [length_take_sort]
    exact Nat.min_le_left _ _
  unfold rebuildAutoBacklogScratch
  refine List.take_of_length_le ?_
  rw [(env.history.std.perm _ _).length_eq,
    (candidates_overflowed_perm hids hglobal hcallback).length_eq, hcap]
  exact hlength

end Marked

/-! ### The whole refresh -/

/-- The rest of an item, which the diagnosis leaves alone. -/
def RssItem.unmarked (it : RssItem) : RssItem :=
  { markItemDecision it .unknown "" "" with rssAutoWaitlisted := false }

theorem unmarked_unmarked : Unmarked RssItem.unmarked where
  decision _ _ _ _ := rfl
  waitlist _ _ := rfl

theorem eligible_of_unmarked {s : Service} {it it' : RssItem} (h : it'.unmarked = it.unmarked) :
    s.Eligible env it' ↔ s.Eligible env it := by
  have hclear : ∀ x : RssItem, s.Eligible env x.unmarked ↔ s.Eligible env x := by
    intro x
    constructor
    · rintro ⟨hon, ⟨hfeed, hrule⟩, hblocked, hresource⟩
      exact ⟨hon, ⟨hfeed, hrule⟩, hblocked, hresource⟩
    · rintro ⟨hon, ⟨hfeed, hrule⟩, hblocked, hresource⟩
      exact ⟨hon, ⟨hfeed, hrule⟩, hblocked, hresource⟩
  rw [← hclear it', h, hclear]

/-- What a full refresh of the diagnosis makes of a state `s`, with automatic downloads on. -/
structure BacklogSplit (env : ServiceEnv) (s s' : Service) : Prop where
  kept : s'.items.map RssItem.unmarked = s.items.map RssItem.unmarked
  marked : ∀ it ∈ s'.items, s.Eligible env it ↔ it.isMarkedEligible = true ∨ it.isOverflow = true
  capped : (s'.items.countP (·.isMarkedEligible) : Int) ≤ effectiveAutoDownloadBacklogCap s
  full : (∃ it ∈ s'.items, it.isOverflow = true) →
    (s'.items.countP (·.isMarkedEligible) : Int) = effectiveAutoDownloadBacklogCap s
  newest : ∀ older ∈ s'.items, older.isOverflow = true → ∀ it ∈ s'.items, it.isMarkedEligible = true →
    older.publishTime ≤ it.publishTime
  waiting : (s'.items.countP (·.rssAutoWaitlisted) : Int) =
    max 0 (s'.items.countP (·.isMarkedEligible) - freeSlots s)
  waits_marked : ∀ it ∈ s'.items, it.rssAutoWaitlisted = true → it.isMarkedEligible = true
  waits_oldest : ∀ waiting ∈ s'.items, waiting.rssAutoWaitlisted = true → ∀ it ∈ s'.items,
    it.isMarkedEligible = true → it.rssAutoWaitlisted = false →
      waiting.publishTime ≤ it.publishTime

/-- What it makes of one with automatic downloads off. -/
structure NothingMarked (s' : Service) : Prop where
  noneMarked : ∀ it ∈ s'.items, it.isMarkedEligible = false
  noneWaits : ∀ it ∈ s'.items, it.rssAutoWaitlisted = false

/-- The item at a position after a full refresh. -/
structure RefreshedAt (env : ServiceEnv) (s : Service) (i : Nat) (it it' : RssItem) : Prop where
  place : s.items[i]? = some it
  unmarked : it'.unmarked = it.unmarked
  marked : it'.isMarkedEligible = true ↔ i ∈ backlogPositions env s
  overflow : it'.isOverflow = true ↔ s.Eligible env it ∧ i ∉ backlogPositions env s
  waits : it'.rssAutoWaitlisted = true ↔ i ∈ waitingPositions env (overflowed env s)

section Refreshed

variable {s : Service} (hids : (s.items.map (·.id)).Nodup) (hglobal : s.autoDownloadEnabled = true)
  (hcallback : s.hasDownloadCallback = true)

include hids hglobal hcallback

theorem refreshedAt {i : Nat} {it' : RssItem}
    (h : (refreshAutoDownloadDiagnostics env s).items[i]? = some it') :
    ∃ it, RefreshedAt env s i it it' := by
  rw [refreshDiagnostics_eq, getElem?_remark (s := diagnoseAll env s true) hglobal,
    getElem?_diagnoseAll, Option.map_map] at h
  obtain ⟨it, hit, rfl⟩ := Option.map_eq_some_iff.mp h
  obtain ⟨hmarked, hoverflow⟩ := @markOverflow_diagnosed env _ hcallback
    (trackedIds env (diagnoseAll env s true)) it
  rw [mem_trackedIds_diagnosed hids hit] at hmarked hoverflow
  refine ⟨it, hit, ?_, hmarked.trans ⟨fun h => h.2, fun hi => ⟨?_, hi⟩⟩, hoverflow,
    decide_eq_true_iff⟩
  · dsimp only [Function.comp_apply]
    unfold markOverflow
    split
    · rfl
    · rfl
  · obtain ⟨x, hx, heligible⟩ := eligible_of_mem_backlog hcallback hi
    obtain rfl := Option.some.inj (hit.symm.trans hx)
    exact heligible

omit hids in
theorem exists_refreshed {i : Nat} (hi : i ∈ backlogPositions env s) :
    ∃ it', (refreshAutoDownloadDiagnostics env s).items[i]? = some it' := by
  obtain ⟨it, hit, -⟩ := eligible_of_mem_backlog hcallback hi
  rw [refreshDiagnostics_eq, getElem?_remark (s := diagnoseAll env s true) hglobal,
    getElem?_diagnoseAll, hit]
  exact ⟨_, rfl⟩

theorem countP_marked : (refreshAutoDownloadDiagnostics env s).items.countP (·.isMarkedEligible) =
    (backlogPositions env s).length := by
  refine countP_eq_length (nodup_backlog _ _) fun i => ⟨fun hi => ?_, ?_⟩
  · obtain ⟨it', hit'⟩ := exists_refreshed hglobal hcallback hi
    obtain ⟨it, hat⟩ := refreshedAt hids hglobal hcallback hit'
    exact ⟨it', hit', hat.marked.mpr hi⟩
  · rintro ⟨it', hit', hmarked⟩
    obtain ⟨it, hat⟩ := refreshedAt hids hglobal hcallback hit'
    exact hat.marked.mp hmarked

theorem waiting_subset : waitingPositions env (overflowed env s) ⊆ backlogPositions env s := by
  intro i hi
  have hmem := mem_take_sort env.history.std _ _ (List.mem_of_mem_drop hi)
  exact (mem_candidates_overflowed hids hglobal hcallback).mp hmem

theorem countP_waiting : (refreshAutoDownloadDiagnostics env s).items.countP (·.rssAutoWaitlisted) =
    (waitingPositions env (overflowed env s)).length := by
  have hnodup : (waitingPositions env (overflowed env s)).Nodup :=
    (List.drop_sublist _ _).nodup (nodup_backlog _ _)
  refine countP_eq_length hnodup fun i => ⟨fun hi => ?_, ?_⟩
  · have hback := waiting_subset hids hglobal hcallback hi
    obtain ⟨it', hit'⟩ := exists_refreshed hglobal hcallback hback
    obtain ⟨it, hat⟩ := refreshedAt hids hglobal hcallback hit'
    exact ⟨it', hit', hat.waits.mpr hi⟩
  · rintro ⟨it', hit', hwaits⟩
    obtain ⟨it, hat⟩ := refreshedAt hids hglobal hcallback hit'
    exact hat.waits.mp hwaits

theorem length_waiting : ((waitingPositions env (overflowed env s)).length : Int) =
    max 0 ((backlogPositions env s).length - freeSlots s) := by
  have hslots : freeSlots (overflowed env s) = freeSlots s := by
    have hmarks := (marks_diagnoseAll env s true).trans (marks_overflow env _)
    unfold freeSlots overflowed
    rw [inflight_congr hmarks, overflow_eq (s := diagnoseAll env s true) hglobal]
    rfl
  have hlength := (@candidates_overflowed_perm env _ hids hglobal hcallback).length_eq
  unfold waitingPositions
  rw [rebuild_overflowed hids hglobal hcallback, List.length_drop,
    (env.history.std.perm _ _).length_eq, hlength, hslots]
  unfold freeSlots
  omega

end Refreshed

theorem publishTime_of_unmarked {it it' : RssItem} (h : it'.unmarked = it.unmarked) :
    it'.publishTime = it.publishTime := by
  show it'.unmarked.publishTime = it.unmarked.publishTime
  rw [h]

/-- An item over the cap is no newer than one of the backlog. -/
theorem RefreshedAt.not_newer {s : Service} (hcallback : s.hasDownloadCallback = true) {i j : Nat}
    {it it' older older' : RssItem} (hover : RefreshedAt env s i older older') (hit : RefreshedAt env s j it it')
    (hoverflow : older'.isOverflow = true) (hmarked : it'.isMarkedEligible = true) :
    older'.publishTime ≤ it'.publishTime := by
  obtain ⟨heligible, hout⟩ := hover.overflow.mp hoverflow
  have hcandidate := (mem_candidates_diagnosed hcallback).mpr ⟨older, hover.place, heligible⟩
  have hdrop := (mem_take_or_drop_sort env.history.std _ _ hcandidate).resolve_left hout
  have hnot := not_lt_of_left_out (publishedDesc_strictWeak _) (hit.marked.mp hmarked) hdrop
  unfold publishedDesc at hnot
  rw [decide_eq_false_iff_not, publishedOrEpoch_diagnosed hover.place,
    publishedOrEpoch_diagnosed hit.place] at hnot
  rw [publishTime_of_unmarked hover.unmarked, publishTime_of_unmarked hit.unmarked]
  omega

/-- An item that waits is no newer than one of the backlog that does not. -/
theorem RefreshedAt.waits_not_newer {s : Service} (hids : (s.items.map (·.id)).Nodup)
    (hglobal : s.autoDownloadEnabled = true) (hcallback : s.hasDownloadCallback = true) {i j : Nat}
    {it it' waiting waiting' : RssItem} (hwaiting : RefreshedAt env s i waiting waiting')
    (hit : RefreshedAt env s j it it') (hwaits : waiting'.rssAutoWaitlisted = true)
    (hmarked : it'.isMarkedEligible = true) (hfree : it'.rssAutoWaitlisted = false) :
    waiting'.publishTime ≤ it'.publishTime := by
  have hdrop := hwaiting.waits.mp hwaits
  have hin : j ∉ waitingPositions env (overflowed env s) := by
    rw [← hit.waits, hfree]
    decide
  have hcandidate := (mem_candidates_overflowed hids hglobal hcallback).mpr (hit.marked.mp hmarked)
  unfold waitingPositions at hdrop hin
  rw [rebuild_overflowed hids hglobal hcallback] at hdrop hin
  have htake := (mem_take_or_drop_sort env.history.std _ _ hcandidate).resolve_right hin
  have hnot := not_lt_of_left_out (publishedDesc_strictWeak _) htake hdrop
  have htime : ∀ {k : Nat} {x : RssItem}, s.items[k]? = some x →
      publishedOrEpoch (overflowed env s).items k = x.publishTime := by
    intro k x hx
    have hsame : (markOverflow (trackedIds env (diagnoseAll env s true))
        (diagnoseItemAutoDownloadState env s x)).publishTime = x.publishTime := by
      unfold markOverflow
      split
      · rfl
      · rfl
    rw [← hsame]
    exact publishedOrEpoch_of_getElem? (by rw [getElem?_overflowed hglobal, hx]; rfl)
  unfold publishedDesc at hnot
  rw [decide_eq_false_iff_not, htime hwaiting.place, htime hit.place] at hnot
  rw [publishTime_of_unmarked hwaiting.unmarked, publishTime_of_unmarked hit.unmarked]
  omega

theorem length_backlogPositions {s : Service} (hcallback : s.hasDownloadCallback = true) :
    (backlogPositions env s).length =
      min (effectiveAutoDownloadBacklogCap s).toNat (eligibleCount env s) := by
  unfold backlogPositions rebuildAutoBacklogScratch
  rw [length_take_sort, length_candidates_diagnosed hcallback]
  rfl

/-- An eligible item that is left out leaves no room in the backlog. -/
theorem backlog_full {s : Service} (hcallback : s.hasDownloadCallback = true) {i : Nat} {it : RssItem}
    (hi : s.items[i]? = some it) (heligible : s.Eligible env it) (hout : i ∉ backlogPositions env s) :
    (backlogPositions env s).length = (effectiveAutoDownloadBacklogCap s).toNat := by
  have hcandidate := (mem_candidates_diagnosed hcallback).mpr ⟨it, hi, heligible⟩
  have hdrop := (mem_take_or_drop_sort env.history.std _ _ hcandidate).resolve_left hout
  have hpos := List.length_pos_of_mem hdrop
  rw [List.length_drop, (env.history.std.perm _ _).length_eq,
    length_candidates_diagnosed hcallback] at hpos
  have hcap : effectiveAutoDownloadBacklogCap (diagnoseAll env s true) =
      effectiveAutoDownloadBacklogCap s := rfl
  rw [hcap] at hpos
  rw [length_backlogPositions hcallback]
  omega

theorem split_refreshed {s : Service} (hids : (s.items.map (·.id)).Nodup)
    (hglobal : s.autoDownloadEnabled = true) (hcallback : s.hasDownloadCallback = true) :
    BacklogSplit env s (refreshAutoDownloadDiagnostics env s) := by
  have hat : ∀ it' ∈ (refreshAutoDownloadDiagnostics env s).items, ∃ i it,
      RefreshedAt env s i it it' := by
    intro it' hit'
    obtain ⟨i, hi⟩ := List.getElem?_of_mem hit'
    obtain ⟨it, h⟩ := refreshedAt hids hglobal hcallback hi
    exact ⟨i, it, h⟩
  have hcount := @countP_marked env _ hids hglobal hcallback
  have hlength := @length_backlogPositions env _ hcallback
  have hcap := cap_pos s
  constructor
  case kept =>
    obtain ⟨items, hs, hitems⟩ := keeps_refreshDiagnostics env unmarked_unmarked s
    rw [hs]
    exact hitems
  case marked =>
    intro it' hit'
    obtain ⟨i, it, h⟩ := hat it' hit'
    rw [eligible_of_unmarked h.unmarked, h.marked, h.overflow]
    by_cases hi : i ∈ backlogPositions env s
    · obtain ⟨x, hx, heligible⟩ := eligible_of_mem_backlog hcallback hi
      obtain rfl := Option.some.inj (h.place.symm.trans hx)
      exact iff_of_true heligible (.inl hi)
    · simp [hi]
  case capped =>
    rw [hcount, hlength]
    omega
  case full =>
    rintro ⟨older', hover', hoverflow⟩
    obtain ⟨i, older, h⟩ := hat older' hover'
    obtain ⟨heligible, hout⟩ := h.overflow.mp hoverflow
    rw [hcount, backlog_full hcallback h.place heligible hout]
    omega
  case newest =>
    intro older' hover' hoverflow it' hit' hmarked
    obtain ⟨i, older, hi⟩ := hat older' hover'
    obtain ⟨j, it, hj⟩ := hat it' hit'
    exact hi.not_newer hcallback hj hoverflow hmarked
  case waiting =>
    rw [countP_waiting hids hglobal hcallback, length_waiting hids hglobal hcallback, hcount]
  case waits_marked =>
    intro it' hit' hwaits
    obtain ⟨i, it, h⟩ := hat it' hit'
    exact h.marked.mpr (waiting_subset hids hglobal hcallback (h.waits.mp hwaits))
  case waits_oldest =>
    intro waiting' hwaiting' hwaits it' hit' hmarked hfree
    obtain ⟨i, waiting, hi⟩ := hat waiting' hwaiting'
    obtain ⟨j, it, hj⟩ := hat it' hit'
    exact hi.waits_not_newer hids hglobal hcallback hj hwaits hmarked hfree

theorem nothingMarked_refreshed {s : Service} (hglobal : s.autoDownloadEnabled = false) :
    NothingMarked (refreshAutoDownloadDiagnostics env s) := by
  have hitems : (refreshAutoDownloadDiagnostics env s).items =
      clearWaitlist (s.items.map (diagnoseItemAutoDownloadState env s)) := by
    rw [refreshDiagnostics_eq]
    unfold remark
    rw [overflow_off (s := diagnoseAll env s true) hglobal,
      sync_off (s := diagnoseAll env s true) hglobal]
    rfl
  rw [clearWaitlist, List.map_map] at hitems
  constructor
  · intro it' hit'
    rw [hitems] at hit'
    obtain ⟨it, -, rfl⟩ := List.mem_map.mp hit'
    refine Bool.eq_false_iff.mpr fun hmarked => ?_
    have heligible := ((diagnosis_eligible_iff env s it).mp hmarked).1
    exact absurd (heligible.globalOn.symm.trans hglobal) (by decide)
  · intro it' hit'
    rw [hitems] at hit'
    obtain ⟨it, -, rfl⟩ := List.mem_map.mp hit'
    rfl

/-- A full refresh divides the eligible items into the backlog and those over its cap, and puts the
oldest of the backlog that find no free slot on the waiting list. -/
theorem refreshDiagnostics_splits (env : ServiceEnv) (s : Service) :
    ((s.items.map (·.id)).Nodup → s.hasDownloadCallback = true → s.autoDownloadEnabled = true →
      BacklogSplit env s (refreshAutoDownloadDiagnostics env s)) ∧
    (s.autoDownloadEnabled = false → NothingMarked (refreshAutoDownloadDiagnostics env s)) := by
  refine ⟨fun hids hcallback hglobal => ?_, fun hglobal => ?_⟩
  · exact split_refreshed hids hglobal hcallback
  · exact nothingMarked_refreshed hglobal

/-- Of the three items, the oldest is over the cap of two, and the second newest waits for the only
slot. -/
theorem refreshDiagnostics_splits_threeItems :
    BacklogSplit oneEntryEnv threeItems (refreshAutoDownloadDiagnostics oneEntryEnv threeItems) ∧
      NothingMarked (refreshAutoDownloadDiagnostics oneEntryEnv {}) ∧
      (refreshAutoDownloadDiagnostics oneEntryEnv threeItems).items.map
          (fun it => (it.id, it.lastAutoReasonCode, it.rssAutoWaitlisted)) =
        [("a", "auto_backlog_overflow", false), ("b", "diagnostic_rule_eligible", false),
          ("c", "diagnostic_rule_eligible", true)] := by
  refine ⟨?_, ?_, by decide +kernel⟩
  · exact (refreshDiagnostics_splits oneEntryEnv threeItems).1 (by decide) rfl rfl
  · exact (refreshDiagnostics_splits oneEntryEnv {}).2 rfl

end TorrentLink.Rss
