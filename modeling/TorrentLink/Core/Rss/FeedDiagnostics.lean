import TorrentLink.Core.Rss.WaitingList

/-!
# The refresh of one feed's diagnosis

After a change of one feed, `refreshAutoDownloadDiagnosticsForFeed` diagnoses the items of that feed and
then looks at the cap of the backlog and the waiting list for all feeds. An item of another feed can lose
its place in the backlog so, but an item over the cap never gets one. The result is that of a full
refresh exactly if no item of another feed that was over the cap would have a place now
(`refreshForFeed_iff`).
-/

namespace TorrentLink.Rss

open Lib

variable {env : ServiceEnv}

/-! ### A change of one feed -/

/-- Only the settings and the items of feed `f` differ. -/
structure ConfinedTo (f : String) (s s' : Service) : Prop where
  feeds : s'.feeds.filter (fun x => x.id ≠ f) = s.feeds.filter fun x => x.id ≠ f
  items : s'.items.filter (fun it => it.feedId ≠ f) = s.items.filter fun it => it.feedId ≠ f
  rules : s'.rules = s.rules
  settings : s'.settings = s.settings
  autoDownloadEnabled : s'.autoDownloadEnabled = s.autoDownloadEnabled
  hasDownloadCallback : s'.hasDownloadCallback = s.hasDownloadCallback

theorem ConfinedTo.find? {f g : String} {s s' : Service} (h : ConfinedTo f s s') (hg : g ≠ f) :
    s'.feeds.find? (fun x => x.id = g) = s.feeds.find? fun x => x.id = g := by
  have hskip : ∀ feeds : List RssFeed, (feeds.filter fun x => x.id ≠ f).find? (fun x => x.id = g) =
      feeds.find? fun x => x.id = g := by
    intro feeds
    rw [List.find?_filter]
    congr 1
    funext x
    by_cases hx : x.id = g
    · simp [hx, hg]
    · simp [hx]
  rw [← hskip, h.feeds, hskip]

theorem ConfinedTo.mem {f : String} {s s' : Service} (h : ConfinedTo f s s') {it : RssItem}
    (hit : it ∈ s'.items) (hfeed : it.feedId ≠ f) : it ∈ s.items := by
  have hmem : it ∈ s'.items.filter fun it => it.feedId ≠ f :=
    List.mem_filter.mpr ⟨hit, decide_eq_true hfeed⟩
  rw [h.items] at hmem
  exact List.mem_of_mem_filter hmem

/-! ### What the diagnosis of an item depends on -/

theorem findFirstEnabledMatch_unmarked (q : RuleText) (rules : List RssRule) (it : RssItem) :
    findFirstEnabledMatch q rules it.unmarked = findFirstEnabledMatch q rules it := by
  induction rules with
  | nil => rfl
  | cons rule rest ih =>
    have hevaluate : evaluate q rule it.unmarked = evaluate q rule it := rfl
    rw [findFirstEnabledMatch, findFirstEnabledMatch, hevaluate, ih]

theorem diagnosis_unmarked (s : Service) (it : RssItem) :
    diagnosis env s it.unmarked = diagnosis env s it := by
  have hrule : diagnoseRule env s it.unmarked = diagnoseRule env s it := by
    unfold diagnoseRule
    rw [findFirstEnabledMatch_unmarked]
    rfl
  unfold diagnosis
  rw [hrule]
  rfl

/-- A change of another feed does not change the diagnosis of an item. -/
theorem ConfinedTo.diagnosis {f : String} {s s' : Service} (h : ConfinedTo f s s') {it : RssItem}
    (hfeed : it.feedId ≠ f) : diagnosis env s' it = Rss.diagnosis env s it := by
  unfold Rss.diagnosis diagnoseRule
  rw [h.find? hfeed, h.rules, h.autoDownloadEnabled, h.hasDownloadCallback]

/-! ### The items of the other feeds -/

/-- The mark of an item over the cap. -/
def overflowItem (it : RssItem) : RssItem :=
  markItemDecision it .skipped "auto_backlog_overflow"
    "符合条件但超出自动下载排队上限，将随进度陆续入队。"

/-- An item as a full refresh leaves it, if its diagnosis has not changed: with its diagnosis, or over
the cap. -/
def LeftByRefresh (env : ServiceEnv) (s : Service) (it : RssItem) : Prop :=
  diagnoseItemAutoDownloadState env s it = it ∨
    overflowItem it = it ∧ isDiagnosticAutoEligible (diagnosis env s it).2.1 = true

/-- An item with the diagnosis of another one that only differs in the marks. -/
theorem diagnosed_of_unmarked (s : Service) (it : RssItem) {x : RssItem} {b : Bool}
    (hx : x = { diagnoseItemAutoDownloadState env s it with rssAutoWaitlisted := b }) :
    diagnoseItemAutoDownloadState env s x = x := by
  have hsame : diagnosis env s x = diagnosis env s it := by
    rw [← diagnosis_unmarked, hx]
    exact diagnosis_unmarked s it
  unfold diagnoseItemAutoDownloadState
  rw [hsame, hx]
  rfl

theorem leftByRefresh_of_markOverflow (s : Service) (tracked : List String) (it : RssItem) (b : Bool) :
    LeftByRefresh env s { markOverflow tracked (diagnoseItemAutoDownloadState env s it) with
      rssAutoWaitlisted := b } := by
  unfold LeftByRefresh markOverflow
  split
  · exact .inl (diagnosed_of_unmarked s it rfl)
  · rename_i hover
    simp only [Bool.or_eq_true, not_or, Bool.not_eq_true', Bool.not_eq_false] at hover
    refine .inr ⟨rfl, ?_⟩
    rw [← diagnosis_unmarked]
    exact (congrArg (fun d => isDiagnosticAutoEligible d.2.1) (diagnosis_unmarked s it)).trans hover.1.2

/-- Every item that a full refresh leaves. -/
theorem leftByRefresh_of_mem (s : Service) {it : RssItem}
    (hit : it ∈ (refreshAutoDownloadDiagnostics env s).items) : LeftByRefresh env s it := by
  obtain ⟨i, hi⟩ := List.getElem?_of_mem hit
  rw [refreshDiagnostics_eq] at hi
  cases hglobal : s.autoDownloadEnabled with
  | true =>
    rw [getElem?_remark (s := diagnoseAll env s true) hglobal, getElem?_diagnoseAll,
      Option.map_map] at hi
    obtain ⟨x, -, rfl⟩ := Option.map_eq_some_iff.mp hi
    exact leftByRefresh_of_markOverflow s _ x _
  | false =>
    unfold remark at hi
    rw [overflow_off (s := diagnoseAll env s true) hglobal,
      sync_off (s := diagnoseAll env s true) hglobal] at hi
    dsimp only at hi
    unfold clearWaitlist at hi
    rw [List.getElem?_map, getElem?_diagnoseAll, Option.map_map] at hi
    obtain ⟨x, -, rfl⟩ := Option.map_eq_some_iff.mp hi
    exact .inl (diagnosed_of_unmarked s x rfl)

/-- What a refresh left before the change of another feed, it would leave now. -/
theorem ConfinedTo.leftByRefresh {f : String} {s₀ s : Service}
    (h : ConfinedTo f (refreshAutoDownloadDiagnostics env s₀) s) {it : RssItem} (hit : it ∈ s.items)
    (hfeed : it.feedId ≠ f) : LeftByRefresh env s it := by
  have hbefore := leftByRefresh_of_mem s₀ (h.mem hit hfeed)
  obtain ⟨items, hs, -⟩ := keeps_refreshDiagnostics env unmarked_core s₀
  have hdiagnosis : Rss.diagnosis env s it = Rss.diagnosis env s₀ it := by
    rw [h.diagnosis hfeed, hs]
    rfl
  unfold LeftByRefresh diagnoseItemAutoDownloadState at hbefore ⊢
  rw [hdiagnosis]
  exact hbefore

/-! ### A place in the backlog -/

/-- The number of eligible items that are newer. -/
def newerCount (env : ServiceEnv) (s : Service) (it : RssItem) : Nat :=
  s.items.countP fun x => decide (s.Eligible env x) && decide (it.publishTime < x.publishTime)

theorem noTies_candidates {s : Service} (htimes : (s.items.map (·.publishTime)).Nodup) :
    NoTies (publishedDesc (diagnoseAll env s true).items)
      (candidatePositions (diagnoseAll env s true) .allEligible) := by
  have hplace : ∀ i ∈ candidatePositions (diagnoseAll env s true) .allEligible, ∃ it,
      s.items[i]? = some it := by
    intro i hi
    obtain ⟨it', hit', -⟩ := mem_candidatePositions.mp hi
    rw [getElem?_diagnoseAll] at hit'
    obtain ⟨it, hit, -⟩ := Option.map_eq_some_iff.mp hit'
    exact ⟨it, hit⟩
  intro i hi j hj hne
  obtain ⟨it, hit⟩ := hplace i hi
  obtain ⟨it', hit'⟩ := hplace j hj
  have hlt : i < (s.items.map (·.publishTime)).length := by
    rw [List.length_map]
    exact (List.getElem?_eq_some_iff.mp hit).1
  have htime : it.publishTime ≠ it'.publishTime := by
    intro hsame
    refine hne ((List.getElem?_inj hlt htimes).mp ?_)
    rw [List.getElem?_map, List.getElem?_map, hit, hit', Option.map_some, Option.map_some, hsame]
  unfold publishedDesc
  rw [publishedOrEpoch_diagnosed hit, publishedOrEpoch_diagnosed hit', decide_eq_true_iff,
    decide_eq_true_iff]
  omega

theorem countP_newer {s : Service} (hcallback : s.hasDownloadCallback = true) {j : Nat} {it : RssItem}
    (hj : s.items[j]? = some it) :
    (candidatePositions (diagnoseAll env s true) .allEligible).countP
      (publishedDesc (diagnoseAll env s true).items · j) = newerCount env s it := by
  have hany : ∀ i ∈ candidatePositions (diagnoseAll env s true) .allEligible,
      publishedDesc (diagnoseAll env s true).items i j = true ↔
        ((diagnoseAll env s true).items[i]?).any (fun x => decide (it.publishTime < x.publishTime)) =
          true := by
    intro i hi
    obtain ⟨x, hx, -⟩ := mem_candidatePositions.mp hi
    unfold publishedDesc
    rw [publishedOrEpoch_diagnosed hj, publishedOrEpoch_of_getElem? hx, hx]
    rfl
  rw [List.countP_congr hany]
  refine (countP_positions _).trans ?_
  have hitems : (diagnoseAll env s true).items =
      s.items.map (diagnoseItemAutoDownloadState env s) := rfl
  unfold newerCount
  rw [hitems, List.countP_map]
  refine List.countP_congr fun x _ => ?_
  simp only [Function.comp_apply, Bool.and_eq_true, decide_eq_true_iff]
  exact and_congr_left fun _ => (candidate_diagnosed_iff s x).trans (and_iff_left hcallback)

/-- An item has a place in the backlog if fewer eligible items are newer than the cap allows. -/
theorem mem_backlog_iff {s : Service} (htimes : (s.items.map (·.publishTime)).Nodup)
    (hcallback : s.hasDownloadCallback = true) {j : Nat} {it : RssItem} (hj : s.items[j]? = some it) :
    j ∈ backlogPositions env s ↔
      s.Eligible env it ∧ (newerCount env s it : Int) < effectiveAutoDownloadBacklogCap s := by
  have hcap := cap_pos s
  have hmem : j ∈ candidatePositions (diagnoseAll env s true) .allEligible ↔ s.Eligible env it := by
    rw [mem_candidates_diagnosed hcallback, hj]
    constructor
    · rintro ⟨x, hx, heligible⟩
      exact Option.some.inj hx ▸ heligible
    · exact fun heligible => ⟨it, rfl, heligible⟩
  unfold backlogPositions rebuildAutoBacklogScratch
  rw [mem_take_sort_iff (publishedDesc_strictWeak _) (nodup_candidatePositions _ _)
    (noTies_candidates htimes), hmem, countP_newer hcallback hj]
  refine and_congr_right fun _ => ?_
  have hsame : effectiveAutoDownloadBacklogCap (diagnoseAll env s true) =
      effectiveAutoDownloadBacklogCap s := rfl
  rw [hsame]
  omega

/-- No item of another feed that is over the cap has a place in the backlog now. -/
def NoneRegainsPlace (env : ServiceEnv) (f : String) (s : Service) : Prop :=
  ∀ older ∈ s.items, older.feedId ≠ f → older.isOverflow = true →
    ∀ it ∈ s.items, it.id = older.id → s.Eligible env it →
      effectiveAutoDownloadBacklogCap s ≤ newerCount env s it

/-- The ids of the backlog are those of the items at its positions. -/
theorem tracked_iff {s s' : Service} (hids : s'.items.map (·.id) = s.items.map (·.id)) {id : String} :
    id ∈ trackedIds env s' ↔
      ∃ j ∈ rebuildAutoBacklogScratch env s' .allEligible, (s.items[j]?).map (·.id) = some id := by
  unfold trackedIds
  rw [List.mem_filterMap]
  refine exists_congr fun j => and_congr_right fun _ => ?_
  rw [getElem?_congr hids]

theorem not_tracked_iff {s : Service} (htimes : (s.items.map (·.publishTime)).Nodup)
    (hcallback : s.hasDownloadCallback = true) (id : String) :
    id ∉ trackedIds env (diagnoseAll env s true) ↔ ∀ it ∈ s.items, it.id = id → s.Eligible env it →
      effectiveAutoDownloadBacklogCap s ≤ newerCount env s it := by
  rw [tracked_iff (marks_diagnoseAll env s true).ids]
  constructor
  · intro hout it hit hid heligible
    obtain ⟨j, hj⟩ := List.getElem?_of_mem hit
    by_contra hfew
    exact hout ⟨j, (mem_backlog_iff htimes hcallback hj).mpr ⟨heligible, by omega⟩,
      by rw [hj, Option.map_some, hid]⟩
  · rintro hmany ⟨j, hj, hid⟩
    obtain ⟨it, hit, hit'⟩ := Option.map_eq_some_iff.mp hid
    obtain ⟨heligible, hfew⟩ := (mem_backlog_iff htimes hcallback hit).mp hj
    have hle := hmany it (List.mem_of_getElem? hit) hit' heligible
    omega

/-! ### The two refreshes -/

/-- What `refreshAutoDownloadDiagnosticsForFeed` diagnoses. -/
def diagnosedFeed (env : ServiceEnv) (s : Service) (f : String) (it : RssItem) : RssItem :=
  if it.feedId = f then diagnoseItemAutoDownloadState env s it else it

def diagnoseFeed (env : ServiceEnv) (s : Service) (f : String) : Service :=
  { s with items := s.items.map (diagnosedFeed env s f) }

theorem refreshForFeed_eq {f : String} (hf : f ≠ "") (s : Service) :
    refreshAutoDownloadDiagnosticsForFeed env s f = remark env (diagnoseFeed env s f) := by
  unfold refreshAutoDownloadDiagnosticsForFeed
  rw [if_neg hf]
  rfl

/-- The items have the same reason codes and the same marks of the waiting list. -/
def SameMarks (s s' : Service) : Prop :=
  s.items.map (fun it => (it.lastAutoReasonCode, it.rssAutoWaitlisted)) =
    s'.items.map fun it => (it.lastAutoReasonCode, it.rssAutoWaitlisted)

theorem SameMarks.code {s s' : Service} (h : SameMarks s s') {i : Nat} {it it' : RssItem}
    (hi : s.items[i]? = some it) (hi' : s'.items[i]? = some it') :
    it.lastAutoReasonCode = it'.lastAutoReasonCode := by
  have hat := getElem?_congr h i
  rw [hi, hi'] at hat
  exact congrArg Prod.fst (Option.some.inj hat)

/-! ### The items that the two passes start from -/

section Changed

variable {f : String} {s : Service} (hleft : ∀ it ∈ s.items, it.feedId ≠ f → LeftByRefresh env s it)

include hleft in
/-- What the diagnosis of one feed leaves undone is the mark of an item of another feed over the cap. -/
theorem diagnosedFeed_eq {it : RssItem} (hit : it ∈ s.items)
    (hnot : ¬(it.feedId ≠ f ∧ it.isOverflow = true)) :
    diagnosedFeed env s f it = diagnoseItemAutoDownloadState env s it := by
  unfold diagnosedFeed
  by_cases hfeed : it.feedId = f
  · rw [if_pos hfeed]
  · rw [if_neg hfeed]
    rcases hleft it hit hfeed with hsame | ⟨hover, -⟩
    · exact hsame.symm
    · exact absurd ⟨hfeed, by rw [← hover]; rfl⟩ hnot

include hleft in
/-- An item over the cap has stayed eligible. -/
theorem eligible_of_overflow {it : RssItem} (hit : it ∈ s.items) (hfeed : it.feedId ≠ f)
    (hoverflow : it.isOverflow = true) :
    overflowItem it = it ∧ s.Eligible env it ∧ s.hasDownloadCallback = true := by
  rcases hleft it hit hfeed with hsame | ⟨hover, hmarked⟩
  · have hcode : (diagnosis env s it).2.1 = it.lastAutoReasonCode :=
      congrArg RssItem.lastAutoReasonCode hsame
    unfold RssItem.isOverflow at hoverflow
    rw [decide_eq_true_iff, ← hcode] at hoverflow
    exact absurd hoverflow (diagnosis_ne_overflow env s it)
  · exact ⟨hover, (diagnosis_eligible_iff env s it).mp hmarked⟩

end Changed

/-! ### The backlog after either pass -/

theorem publishTimes_diagnoseFeed (s : Service) (f : String) :
    (diagnoseFeed env s f).items.map (·.publishedAt) =
      (diagnoseAll env s true).items.map (·.publishedAt) := by
  show (s.items.map _).map _ = (s.items.map _).map _
  rw [List.map_map, List.map_map]
  refine List.map_congr_left fun it _ => ?_
  unfold diagnosedFeed
  simp only [Function.comp_apply]
  split
  · rfl
  · rfl

theorem getElem?_diagnoseFeed (s : Service) (f : String) (i : Nat) :
    (diagnoseFeed env s f).items[i]? = (s.items[i]?).map (diagnosedFeed env s f) := List.getElem?_map

section Regained

variable {f : String} {s : Service} (hleft : ∀ it ∈ s.items, it.feedId ≠ f → LeftByRefresh env s it)

include hleft in
/-- An item over the cap is no candidate, whatever its feed. -/
theorem candidates_diagnoseFeed_subset : candidatePositions (diagnoseFeed env s f) .allEligible ⊆
    candidatePositions (diagnoseAll env s true) .allEligible := by
  intro i hi
  obtain ⟨it', hit', hcandidate⟩ := mem_candidatePositions.mp hi
  rw [getElem?_diagnoseFeed] at hit'
  obtain ⟨it, hit, rfl⟩ := Option.map_eq_some_iff.mp hit'
  refine mem_candidatePositions.mpr ⟨_, by rw [getElem?_diagnoseAll, hit]; rfl, ?_⟩
  rw [← diagnosedFeed_eq hleft (List.mem_of_getElem? hit)]
  · exact hcandidate
  · rintro ⟨hfeed, hoverflow⟩
    have hmarked := (ready_of_candidate hcandidate).marked
    unfold diagnosedFeed at hmarked
    rw [if_neg hfeed] at hmarked
    unfold RssItem.isOverflow isDiagnosticAutoEligible at *
    rw [decide_eq_true_iff] at hmarked hoverflow
    exact absurd (hmarked.symm.trans hoverflow) (by decide)

include hleft in
/-- If no item over the cap has a place, either pass computes the backlog with the same items. -/
theorem mem_rebuild_diagnoseFeed (htimes : (s.items.map (·.publishTime)).Nodup)
    (hout : ∀ i it, s.items[i]? = some it → it.feedId ≠ f → it.isOverflow = true →
      i ∉ backlogPositions env s) {i : Nat} :
    i ∈ rebuildAutoBacklogScratch env (diagnoseFeed env s f) .allEligible ↔
      i ∈ backlogPositions env s := by
  have hkept : backlogPositions env s ⊆ candidatePositions (diagnoseFeed env s f) .allEligible := by
    intro j hj
    obtain ⟨it', hit', hcandidate⟩ := mem_candidatePositions.mp (mem_take_sort env.history.std _ _ hj)
    rw [getElem?_diagnoseAll] at hit'
    obtain ⟨it, hit, rfl⟩ := Option.map_eq_some_iff.mp hit'
    refine mem_candidatePositions.mpr ⟨_, by rw [getElem?_diagnoseFeed, hit]; rfl, ?_⟩
    rw [diagnosedFeed_eq hleft (List.mem_of_getElem? hit) fun h => hout j it hit h.1 h.2 hj]
    exact hcandidate
  unfold rebuildAutoBacklogScratch
  rw [publishedDesc_congr (publishTimes_diagnoseFeed s f)]
  exact mem_take_sort_of_kept (publishedDesc_strictWeak _) (nodup_candidatePositions _ _)
    (noTies_candidates htimes) (nodup_candidatePositions _ _)
    (candidates_diagnoseFeed_subset hleft) hkept

end Regained

/-! ### When the two refreshes agree -/

theorem ids_diagnoseFeed (s : Service) (f : String) :
    (diagnoseFeed env s f).items.map (·.id) = s.items.map (·.id) := by
  show (s.items.map _).map _ = _
  rw [List.map_map]
  refine List.map_congr_left fun it _ => ?_
  unfold diagnosedFeed
  simp only [Function.comp_apply]
  split
  · rfl
  · rfl

/-- If no item over the cap regains a place, the items over the cap are the same after either pass. -/
theorem overflow_diagnoseFeed {f : String} {s : Service}
    (hleft : ∀ it ∈ s.items, it.feedId ≠ f → LeftByRefresh env s it)
    (htimes : (s.items.map (·.publishTime)).Nodup) (hglobal : s.autoDownloadEnabled = true)
    (hcallback : s.hasDownloadCallback = true) (hnone : NoneRegainsPlace env f s) :
    applyAutoDownloadBacklogOverflowMarkers env (diagnoseFeed env s f) =
      applyAutoDownloadBacklogOverflowMarkers env (diagnoseAll env s true) := by
  have hlost : ∀ it ∈ s.items, it.feedId ≠ f → it.isOverflow = true →
      it.id ∉ trackedIds env (diagnoseAll env s true) := fun it hit hfeed hoverflow =>
    (not_tracked_iff htimes hcallback it.id).mpr (hnone it hit hfeed hoverflow)
  have hbacklog : ∀ i, i ∈ rebuildAutoBacklogScratch env (diagnoseFeed env s f) .allEligible ↔
      i ∈ backlogPositions env s := by
    intro i
    refine mem_rebuild_diagnoseFeed hleft htimes fun j it hj hfeed hoverflow hin => ?_
    refine hlost it (List.mem_of_getElem? hj) hfeed hoverflow ?_
    rw [tracked_iff (marks_diagnoseAll env s true).ids]
    exact ⟨j, hin, by rw [hj, Option.map_some]⟩
  have htracked : ∀ id, id ∈ trackedIds env (diagnoseFeed env s f) ↔
      id ∈ trackedIds env (diagnoseAll env s true) := by
    intro id
    rw [tracked_iff (marks_diagnoseAll env s true).ids, tracked_iff (ids_diagnoseFeed s f)]
    exact exists_congr fun i => and_congr_left fun _ => hbacklog i
  have hitems : (diagnoseFeed env s f).items.map (markOverflow (trackedIds env (diagnoseFeed env s f))) =
      (diagnoseAll env s true).items.map
        (markOverflow (trackedIds env (diagnoseAll env s true))) := by
    show (s.items.map _).map _ = (s.items.map _).map _
    rw [List.map_map, List.map_map]
    refine List.map_congr_left fun it hit => ?_
    simp only [Function.comp_apply]
    have hmark : ∀ x, markOverflow (trackedIds env (diagnoseFeed env s f)) x =
        markOverflow (trackedIds env (diagnoseAll env s true)) x := by
      intro x
      unfold markOverflow
      simp only [htracked]
    rw [hmark]
    by_cases hover : it.feedId ≠ f ∧ it.isOverflow = true
    · obtain ⟨hsame, heligible, -⟩ := eligible_of_overflow hleft hit hover.1 hover.2
      have hmarked := (diagnosis_eligible_iff env s it).mpr ⟨heligible, hcallback⟩
      have hstays : diagnosedFeed env s f it = it := if_neg hover.1
      have hunmarked : isDiagnosticAutoEligible it.lastAutoReasonCode = false := by
        rw [← hsame]
        rfl
      have hblocked : (diagnoseItemAutoDownloadState env s it).isBlocked = false :=
        heligible.notBlocked
      have hcode : isDiagnosticAutoEligible
          (diagnoseItemAutoDownloadState env s it).lastAutoReasonCode = true := hmarked
      have hid : (diagnoseItemAutoDownloadState env s it).id = it.id := rfl
      unfold markOverflow
      rw [hstays, if_pos (by simp [hunmarked]), hblocked, hcode, hid,
        if_neg (by simp [hlost it hit hover.1 hover.2])]
      exact hsame.symm
    · rw [diagnosedFeed_eq hleft hit hover]
  rw [overflow_eq (s := diagnoseFeed env s f) hglobal, overflow_eq (s := diagnoseAll env s true) hglobal,
    hitems]
  rfl

/-- An item over the cap keeps its mark in the refresh of another feed. -/
theorem code_refreshForFeed {f : String} (hf : f ≠ "") {s : Service}
    (hglobal : s.autoDownloadEnabled = true) {i : Nat} {older : RssItem} (hi : s.items[i]? = some older)
    (hfeed : older.feedId ≠ f) (hoverflow : older.isOverflow = true) :
    ((refreshAutoDownloadDiagnosticsForFeed env s f).items[i]?).map (·.lastAutoReasonCode) =
      some "auto_backlog_overflow" := by
  have hcode : older.lastAutoReasonCode = "auto_backlog_overflow" := of_decide_eq_true hoverflow
  have hstays : diagnosedFeed env s f older = older := if_neg hfeed
  rw [refreshForFeed_eq hf, getElem?_remark (s := diagnoseFeed env s f) hglobal, getElem?_diagnoseFeed,
    hi, Option.map_some, Option.map_some, Option.map_some, hstays]
  unfold markOverflow
  rw [if_pos (by rw [hcode]; simp [isDiagnosticAutoEligible])]
  exact congrArg some hcode

/-- After a change of one feed, its refresh gives all items the marks of a full one exactly if no item of
another feed regains a place in the backlog. -/
theorem refreshForFeed_iff (env : ServiceEnv) (s₀ s : Service) (f : String) (hf : f ≠ "")
    (h : ConfinedTo f (refreshAutoDownloadDiagnostics env s₀) s)
    (htimes : (s.items.map (·.publishTime)).Nodup) :
    SameMarks (refreshAutoDownloadDiagnosticsForFeed env s f) (refreshAutoDownloadDiagnostics env s) ↔
      NoneRegainsPlace env f s := by
  have hleft : ∀ it ∈ s.items, it.feedId ≠ f → LeftByRefresh env s it :=
    fun it hit hfeed => h.leftByRefresh hit hfeed
  rw [refreshDiagnostics_eq]
  by_cases hany : ∃ older ∈ s.items, older.feedId ≠ f ∧ older.isOverflow = true
  · obtain ⟨older₀, hover₀, hfeed₀, hoverflow₀⟩ := hany
    obtain ⟨-, heligible, hcallback⟩ := eligible_of_overflow hleft hover₀ hfeed₀ hoverflow₀
    have hglobal := heligible.globalOn
    constructor
    · intro hsame older hover hfeed hoverflow
      obtain ⟨i, hi⟩ := List.getElem?_of_mem hover
      have hstays : ((refreshAutoDownloadDiagnosticsForFeed env s f).items[i]?).map (·.lastAutoReasonCode) =
          some "auto_backlog_overflow" := code_refreshForFeed hf hglobal hi hfeed hoverflow
      obtain ⟨x, hx, hcode⟩ := Option.map_eq_some_iff.mp hstays
      have hfull := @getElem?_remark env (diagnoseAll env s true) hglobal i
      rw [getElem?_diagnoseAll, hi] at hfull
      have hmarked : (markOverflow (trackedIds env (diagnoseAll env s true))
          (diagnoseItemAutoDownloadState env s older)).isOverflow = true :=
        decide_eq_true ((hsame.code hx hfull).symm.trans hcode)
      exact (not_tracked_iff htimes hcallback older.id).mp
        ((markOverflow_diagnosed hcallback _ older).2.mp hmarked).2
    · intro hnone
      rw [refreshForFeed_eq hf]
      unfold remark
      rw [overflow_diagnoseFeed hleft htimes hglobal hcallback hnone]
      exact rfl
  · have hnone : ∀ it ∈ s.items, ¬(it.feedId ≠ f ∧ it.isOverflow = true) :=
      fun it hit hover => hany ⟨it, hit, hover⟩
    have hdiagnosed : diagnoseFeed env s f = diagnoseAll env s true := by
      unfold diagnoseFeed diagnoseAll
      rw [if_pos rfl, List.map_congr_left fun it hit => diagnosedFeed_eq hleft hit (hnone it hit)]
    refine iff_of_true ?_ fun older hover hfeed hoverflow => absurd ⟨hfeed, hoverflow⟩ (hnone older hover)
    rw [refreshForFeed_eq hf, hdiagnosed]
    exact rfl

/-- Two feeds with one entry each, and room for one in the backlog. -/
def twoFeeds : Service where
  feeds := [{ id := "a", autoDownloadEnabled := true }, { id := "b", autoDownloadEnabled := true }]
  rules := [{ id := "rule", enabled := true }]
  autoDownloadEnabled := true
  hasDownloadCallback := true
  settings := { maxConcurrentAutoDownloads := 1, maxAutoDownloadBacklog := 1 }
  items :=
    [{ id := "newer", feedId := "a", magnet := "magnet:?a", publishedAt := some 2000 },
      { id := "older", feedId := "b", magnet := "magnet:?b", publishedAt := some 1000 }]

/-- The state after a full refresh, with the automatic downloads of one feed off. -/
def oneFeedOff (f : String) : Service :=
  { refreshAutoDownloadDiagnostics oneEntryEnv twoFeeds with
    feeds := twoFeeds.feeds.map fun feed =>
      if feed.id = f then { feed with autoDownloadEnabled := false } else feed }

theorem confinedTo_oneFeedOff {f : String} (h : f = "a" ∨ f = "b") :
    ConfinedTo f (refreshAutoDownloadDiagnostics oneEntryEnv twoFeeds) (oneFeedOff f) where
  feeds := by rcases h with rfl | rfl <;> decide +kernel
  items := rfl
  rules := rfl
  settings := rfl
  autoDownloadEnabled := rfl
  hasDownloadCallback := rfl

instance (s s' : Service) : Decidable (SameMarks s s') := inferInstanceAs (Decidable (_ = _))

/-- The item over the cap is of the feed that is switched off. -/
theorem refreshForFeed_iff_oneFeedOff :
    (SameMarks (refreshAutoDownloadDiagnosticsForFeed oneEntryEnv (oneFeedOff "b") "b")
        (refreshAutoDownloadDiagnostics oneEntryEnv (oneFeedOff "b")) ↔
      NoneRegainsPlace oneEntryEnv "b" (oneFeedOff "b")) ∧
    SameMarks (refreshAutoDownloadDiagnosticsForFeed oneEntryEnv (oneFeedOff "b") "b")
      (refreshAutoDownloadDiagnostics oneEntryEnv (oneFeedOff "b")) := by
  refine ⟨?_, by decide +kernel⟩
  exact refreshForFeed_iff oneEntryEnv twoFeeds (oneFeedOff "b") "b" (by decide)
    (confinedTo_oneFeedOff (.inr rfl)) (by decide +kernel)

/-- With the feed of the newer item off, the older one stays over the cap until a full refresh. -/
theorem refreshForFeed_differs :
    ConfinedTo "a" (refreshAutoDownloadDiagnostics oneEntryEnv twoFeeds) (oneFeedOff "a") ∧
      ((oneFeedOff "a").items.map (·.publishTime)).Nodup ∧
      (refreshAutoDownloadDiagnosticsForFeed oneEntryEnv (oneFeedOff "a") "a").items.map
          (fun it => (it.id, it.lastAutoReasonCode)) =
        [("newer", "feed_auto_off"), ("older", "auto_backlog_overflow")] ∧
      (refreshAutoDownloadDiagnostics oneEntryEnv (oneFeedOff "a")).items.map
          (fun it => (it.id, it.lastAutoReasonCode)) =
        [("newer", "feed_auto_off"), ("older", "diagnostic_rule_eligible")] ∧
      ¬SameMarks (refreshAutoDownloadDiagnosticsForFeed oneEntryEnv (oneFeedOff "a") "a")
        (refreshAutoDownloadDiagnostics oneEntryEnv (oneFeedOff "a")) :=
  ⟨confinedTo_oneFeedOff (.inl rfl), by decide +kernel, by decide +kernel, by decide +kernel,
    by decide +kernel⟩

end TorrentLink.Rss
