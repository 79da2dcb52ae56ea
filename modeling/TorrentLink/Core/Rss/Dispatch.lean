import TorrentLink.Core.Rss.ServiceRuns

/-!
# What a dispatch starts

`dispatchDeferredAutoDownloads` goes through its backlog and starts one download after another. The
starts of a call are recorded with the state each of them finds (`dispatchStarts`). If the items have
distinct ids, the call starts exactly the first `batchSize` items of the backlog, in its order, and each
of them as the diagnosis left it (`dispatchStarts_items`).
-/

namespace TorrentLink.Rss

open Lib

variable (env : ServiceEnv)

/-! ### Eligible items -/

theorem evaluate_ruleId (q : RuleText) (rule : RssRule) (it : RssItem) :
    (evaluate q rule it).ruleId = rule.id := by
  unfold evaluate
  dsimp only
  split
  · rfl
  · split
    · rfl
    · split
      · rfl
      · split
        · rfl
        · rfl

theorem findFirstEnabledMatch_eq_some {q : RuleText} {rules : List RssRule} {it : RssItem}
    {result : RuleMatchResult} (h : findFirstEnabledMatch q rules it = some result) :
    ∃ rule ∈ rules, rule.enabled = true ∧ (evaluate q rule it).isMatch = true ∧
      rule.id = result.ruleId := by
  induction rules with
  | nil => simp [findFirstEnabledMatch] at h
  | cons rule rest ih =>
    rw [findFirstEnabledMatch] at h
    by_cases hrule : (rule.enabled && (evaluate q rule it).isMatch) = true
    · rw [if_pos hrule] at h
      obtain ⟨henabled, hmatch⟩ := Bool.and_eq_true_iff.mp hrule
      obtain rfl := Option.some.inj h
      exact ⟨rule, List.mem_cons_self, henabled, hmatch, (evaluate_ruleId q rule it).symm⟩
    · rw [if_neg hrule] at h
      obtain ⟨rule', hmem, hrest⟩ := ih h
      exact ⟨rule', List.mem_cons_of_mem _ hmem, hrest⟩

theorem findFirstEnabledMatch_eq_none {q : RuleText} {rules : List RssRule} {it : RssItem}
    (h : findFirstEnabledMatch q rules it = none) :
    ∀ rule ∈ rules, ¬(rule.enabled = true ∧ (evaluate q rule it).isMatch = true) := by
  induction rules with
  | nil => simp
  | cons rule rest ih =>
    rw [findFirstEnabledMatch] at h
    by_cases hrule : (rule.enabled && (evaluate q rule it).isMatch) = true
    · rw [if_pos hrule] at h
      cases h
    · rw [if_neg hrule] at h
      rintro rule' hmem ⟨henabled, hmatch⟩
      rcases List.mem_cons.mp hmem with rfl | hmem
      · exact hrule (Bool.and_eq_true_iff.mpr ⟨henabled, hmatch⟩)
      · exact ih h rule' hmem ⟨henabled, hmatch⟩

/-- The feed of the item allows automatic downloads, and a rule asks for one. -/
structure Service.Wanted (s : Service) (it : RssItem) : Prop where
  feedOn : ∃ feed, s.feeds.find? (fun x => x.id = it.feedId) = some feed ∧
    feed.autoDownloadEnabled = true
  ruleMatches : ∃ rule ∈ s.rules, rule.enabled = true ∧ (evaluate env.rule rule it).isMatch = true

theorem diagnoseRule_eligible_iff (s : Service) (it : RssItem) :
    isDiagnosticAutoEligible (diagnoseRule env s it).2.1 = true ↔
      s.Wanted env it ∧ s.hasDownloadCallback = true := by
  unfold isDiagnosticAutoEligible diagnoseRule
  rw [decide_eq_true_iff]
  split
  · rename_i hfeed
    refine iff_of_false (by decide) fun h => ?_
    obtain ⟨feed, hfind, -⟩ := h.1.feedOn
    exact absurd (hfeed.symm.trans hfind) (by simp)
  · rename_i feed hfeed
    by_cases hauto : feed.autoDownloadEnabled = true
    · rw [if_neg (by simp [hauto])]
      split
      · rename_i hmatch
        refine iff_of_false (by decide) fun h => ?_
        obtain ⟨rule, hmem, hrule⟩ := h.1.ruleMatches
        exact findFirstEnabledMatch_eq_none hmatch rule hmem hrule
      · rename_i result hmatch
        obtain ⟨rule, hmem, henabled, hrule, hid⟩ := findFirstEnabledMatch_eq_some hmatch
        have hfind : ¬(s.rules.find? fun r => r.id = result.ruleId) = none := by
          intro hnone
          simpa [hid] using List.find?_eq_none.mp hnone rule hmem
        rw [if_neg hfind]
        by_cases hcallback : s.hasDownloadCallback = true
        · rw [if_neg (by simp [hcallback])]
          exact iff_of_true rfl
            ⟨⟨⟨feed, hfeed, hauto⟩, ⟨rule, hmem, henabled, hrule⟩⟩, hcallback⟩
        · rw [if_pos (by simp [hcallback])]
          exact iff_of_false (by decide) fun h => hcallback h.2
    · rw [if_pos (by simp [hauto])]
      refine iff_of_false (by decide) fun h => ?_
      obtain ⟨feed', hfind, hon⟩ := h.1.feedOn
      obtain rfl := Option.some.inj (hfeed.symm.trans hfind)
      exact hauto hon

/-- An item that may be downloaded automatically in a state. -/
structure Service.Eligible (s : Service) (it : RssItem) : Prop where
  globalOn : s.autoDownloadEnabled = true
  wanted : s.Wanted env it
  notBlocked : it.isBlocked = false
  hasResource : ¬(it.magnet = "" ∧ it.torrentUrl = "")

/-- The code of the diagnosis marks exactly the eligible items, as long as the callback is set. -/
theorem diagnosis_eligible_iff (s : Service) (it : RssItem) :
    isDiagnosticAutoEligible (diagnosis env s it).2.1 = true ↔
      s.Eligible env it ∧ s.hasDownloadCallback = true := by
  have hblocked : (it.downloaded || it.ignored || it.queued) = it.isBlocked := by
    unfold RssItem.isBlocked
    cases it.downloaded <;> cases it.ignored <;> cases it.queued <;> rfl
  unfold diagnosis
  rw [hblocked]
  by_cases hglobal : s.autoDownloadEnabled = true
  · rw [if_neg (by simp [hglobal])]
    by_cases hresource : it.magnet = "" ∧ it.torrentUrl = ""
    · rw [if_pos hresource]
      exact iff_of_false (by decide) fun h => h.1.hasResource hresource
    · rw [if_neg hresource]
      by_cases hb : it.isBlocked = true
      · rw [if_pos hb]
        exact iff_of_false (by decide) fun h => Bool.eq_false_iff.mp h.1.notBlocked hb
      · rw [if_neg hb, diagnoseRule_eligible_iff]
        exact and_congr_left fun _ =>
          ⟨fun h => ⟨hglobal, h, Bool.eq_false_iff.mpr hb, hresource⟩, fun h => h.wanted⟩
  · rw [if_pos (by simp [hglobal])]
    exact iff_of_false (by decide) fun h => hglobal h.1.globalOn

/-! ### The backlog -/

variable {env}

theorem candidate_of_mem_backlog {s : Service} {scope : RssAutoDownloadScope} {i : Nat}
    (h : i ∈ rebuildAutoBacklogScratch env s scope) :
    ∃ it, s.items[i]? = some it ∧ isBacklogCandidate s scope it = true := by
  have hsorted := List.mem_of_mem_take h
  have hmem := (env.history.std.perm (publishedDesc s.items) _).mem_iff.mp hsorted
  exact Option.any_eq_true _ _ |>.mp (List.mem_filter.mp hmem).2

theorem nodup_backlog (s : Service) (scope : RssAutoDownloadScope) :
    (rebuildAutoBacklogScratch env s scope).Nodup := by
  have hcandidates : (candidatePositions s scope).Nodup := List.nodup_range.filter _
  have hsorted := (env.history.std.perm (publishedDesc s.items) _).nodup_iff.mpr hcandidates
  exact (List.take_sublist _ _).nodup hsorted

/-- An item that the loop of the dispatch starts when it gets to it. -/
structure RssItem.Ready (it : RssItem) : Prop where
  notBlocked : it.isBlocked = false
  hasResource : ¬(it.magnet = "" ∧ it.torrentUrl = "")
  marked : isDiagnosticAutoEligible it.lastAutoReasonCode = true

theorem ready_of_candidate {s : Service} {scope : RssAutoDownloadScope} {it : RssItem}
    (h : isBacklogCandidate s scope it = true) : it.Ready := by
  unfold isBacklogCandidate at h
  simp only [Bool.and_eq_true, Bool.not_eq_true'] at h
  obtain ⟨⟨⟨-, hblocked⟩, hresource⟩, hmarked⟩ := h
  refine ⟨hblocked, ?_, hmarked⟩
  rintro ⟨hmagnet, hurl⟩
  simp [hmagnet, hurl] at hresource

/-! ### The starts of a loop -/

variable (env)

/-- The starts of `dispatchLoop`: each request, with the state in which it is handed out. -/
def dispatchStarts (now cap maxConc : Int) : List Nat → Int → Int → Service →
    List (Service × AutoDownloadRequest)
  | [], _, _, _ => []
  | i :: rest, started, inflight, s =>
    if started < cap ∧ inflight < maxConc then
      match s.items[i]? with
      | none => dispatchStarts now cap maxConc rest started inflight s
      | some it =>
        if it.isBlocked || !isDiagnosticAutoEligible it.lastAutoReasonCode then
          dispatchStarts now cap maxConc rest started inflight s
        else
          match downloadItem env now s it.id with
          | (s', none) => dispatchStarts now cap maxConc rest started inflight s'
          | (s', some request) =>
            (s, request) :: dispatchStarts now cap maxConc rest (started + 1) (inflight + 1) s'
    else []

/-- The loop hands out the requests of its starts. -/
theorem map_snd_dispatchStarts (now cap maxConc : Int) (positions : List Nat)
    (started inflight : Int) (s : Service) :
    (dispatchStarts env now cap maxConc positions started inflight s).map Prod.snd =
      (dispatchLoop env now cap maxConc positions started inflight s).2 := by
  induction positions generalizing started inflight s with
  | nil => rfl
  | cons i rest ih =>
    rw [dispatchStarts, dispatchLoop]
    split
    · cases s.items[i]? with
      | none => exact ih started inflight s
      | some it =>
        dsimp only
        split
        · exact ih started inflight s
        · obtain ⟨s', request⟩ := downloadItem env now s it.id
          cases request with
          | none => exact ih started inflight s'
          | some request =>
            exact congrArg (request :: ·) (ih (started + 1) (inflight + 1) s')
    · rfl

/-- The item a request is for. -/
def requestedItem (start : Service × AutoDownloadRequest) : Option RssItem :=
  start.1.items.find? fun it => it.id = start.2.itemId

variable {env}

theorem downloadAttempt_ready (now : Int) {s : Service} {it : RssItem} (h : it.Ready)
    (hcallback : s.hasDownloadCallback = true) :
    downloadAttempt env now s it =
      (markItemDecision { it with queued := true, lastAttemptAt := some now } .queued
        "manual_queued" "Manual download queued.", some (downloadRequest env s it)) := by
  have hqueued : ¬it.queued = true := by
    intro hqueued
    have hblocked := h.notBlocked
    simp [RssItem.isBlocked, hqueued] at hblocked
  unfold downloadAttempt
  rw [if_neg h.hasResource, if_neg hqueued, if_neg (by simp [hcallback])]

/-- A download of a ready item changes its position alone. -/
theorem downloadItem_ready (now : Int) {s : Service} (hids : (s.items.map (·.id)).Nodup)
    (hcallback : s.hasDownloadCallback = true) {i : Nat} {it : RssItem}
    (hi : s.items[i]? = some it) (h : it.Ready) :
    downloadItem env now s it.id =
      ({ s with items := s.items.modify i fun it => (downloadAttempt env now s it).1 },
        some (downloadRequest env s it)) := by
  have hfind : s.items.find? (fun x => x.id = it.id) = some it :=
    find?_of_nodup hids (List.mem_of_getElem? hi)
  unfold downloadItem
  rw [hfind]
  dsimp only
  rw [modifyFirst_eq_modify RssItem.id hids hi, downloadAttempt_ready now h hcallback]

theorem frame_dispatchStarts (now cap maxConc : Int) (positions : List Nat)
    (started inflight : Int) (s : Service) :
    ∀ start ∈ dispatchStarts env now cap maxConc positions started inflight s,
      ∃ items, start.1 = { s with items := items } := by
  induction positions generalizing started inflight s with
  | nil => simp [dispatchStarts]
  | cons i rest ih =>
    rw [dispatchStarts]
    split
    · cases s.items[i]? with
      | none => exact ih started inflight s
      | some it =>
        dsimp only
        split
        · exact ih started inflight s
        · obtain ⟨items, hs, -⟩ := ids_downloadItem env now s it.id
          generalize downloadItem env now s it.id = result at hs
          obtain ⟨s', request⟩ := result
          obtain rfl : s' = { s with items := items } := hs
          cases request with
          | none => exact ih started inflight { s with items := items }
          | some request =>
            intro start hstart
            rcases List.mem_cons.mp hstart with rfl | hstart
            · exact ⟨s.items, rfl⟩
            · exact ih (started + 1) (inflight + 1) { s with items := items } start hstart
    · simp

/-- From distinct positions of ready items, the loop starts as many as its limits allow. -/
theorem dispatchStarts_ready (now cap maxConc : Int) (positions : List Nat) (started inflight : Int)
    (s : Service) (hids : (s.items.map (·.id)).Nodup) (hcallback : s.hasDownloadCallback = true)
    (hnodup : positions.Nodup)
    (hready : ∀ i ∈ positions, ∃ it : RssItem, s.items[i]? = some it ∧ it.Ready) :
    (dispatchStarts env now cap maxConc positions started inflight s).map requestedItem =
      (positions.take (min (cap - started) (maxConc - inflight)).toNat).map (s.items[·]?) := by
  induction positions generalizing started inflight s with
  | nil => rw [dispatchStarts, List.take_nil]; rfl
  | cons i rest ih =>
    obtain ⟨it, hi, hit⟩ := hready i List.mem_cons_self
    obtain ⟨hnotin, hrest⟩ := List.nodup_cons.mp hnodup
    rw [dispatchStarts]
    by_cases hroom : started < cap ∧ inflight < maxConc
    · rw [if_pos hroom, hi]
      dsimp only
      rw [if_neg (by simp [hit.notBlocked, hit.marked]),
        downloadItem_ready now hids hcallback hi hit]
      dsimp only
      have hcount : (min (cap - started) (maxConc - inflight)).toNat =
          (min (cap - (started + 1)) (maxConc - (inflight + 1))).toNat + 1 := by omega
      have hkeep : (s.items.modify i fun it => (downloadAttempt env now s it).1).map (·.id) =
          s.items.map (·.id) := map_modify (fun it => id_downloadAttempt now s it) s.items i
      have hother : ∀ j ∈ rest,
          (s.items.modify i fun it => (downloadAttempt env now s it).1)[j]? = s.items[j]? := by
        intro j hj
        have hne : i ≠ j := by
          rintro rfl
          exact hnotin hj
        exact List.getElem?_modify_ne _ s.items hne
      generalize (s.items.modify i fun it => (downloadAttempt env now s it).1) = items at hkeep hother
      have hloop := ih (started + 1) (inflight + 1) { s with items := items } (hkeep ▸ hids) hcallback
        hrest fun j hj => by
          obtain ⟨it', hj', hit'⟩ := hready j (List.mem_cons_of_mem _ hj)
          exact ⟨it', (hother j hj).trans hj', hit'⟩
      have hsame : (rest.take (min (cap - (started + 1)) (maxConc - (inflight + 1))).toNat).map
          (items[·]?) = (rest.take (min (cap - (started + 1)) (maxConc - (inflight + 1))).toNat).map
            (s.items[·]?) := List.map_congr_left fun j hj => hother j (List.mem_of_mem_take hj)
      rw [hcount, List.take_succ_cons, List.map_cons, List.map_cons, hloop, hsame]
      refine congrArg (· :: _) ?_
      show s.items.find? (fun x => x.id = it.id) = s.items[i]?
      rw [hi]
      exact find?_of_nodup hids (List.mem_of_getElem? hi)
    · have hnone : (min (cap - started) (maxConc - inflight)).toNat = 0 := by omega
      rw [if_neg hroom, hnone]
      rfl

variable (env) in
theorem downloadItem_no_callback (now : Int) {s : Service} (h : s.hasDownloadCallback = false)
    (itemId : String) : (downloadItem env now s itemId).2 = none := by
  unfold downloadItem
  split
  · rfl
  · dsimp only
    unfold downloadAttempt
    split
    · rfl
    · split
      · rfl
      · rw [if_pos (by simp [h])]

/-- Without a callback nothing is started. -/
theorem dispatchStarts_no_callback (now cap maxConc : Int) (positions : List Nat)
    (started inflight : Int) (s : Service) (h : s.hasDownloadCallback = false) :
    dispatchStarts env now cap maxConc positions started inflight s = [] := by
  induction positions generalizing started inflight s with
  | nil => rfl
  | cons i rest ih =>
    rw [dispatchStarts]
    split
    · cases s.items[i]? with
      | none => exact ih started inflight s h
      | some it =>
        dsimp only
        split
        · exact ih started inflight s h
        · obtain ⟨items, hs, -⟩ := ids_downloadItem env now s it.id
          have hnone := downloadItem_no_callback env now h it.id
          generalize downloadItem env now s it.id = result at hs hnone
          obtain ⟨s', request⟩ := result
          obtain rfl : s' = { s with items := items } := hs
          obtain rfl : request = none := hnone
          exact ih started inflight { s with items := items } h
    · rfl

end TorrentLink.Rss
