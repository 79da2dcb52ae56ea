import TorrentLink.Core.Rss.ParsedItems
import TorrentLink.Core.Rss.Service

/-!
# What the service does to its items

Most calls only mark items: they change neither the identity of an item nor whether it is in flight or
downloaded (`Marks`). The others discard items, append new ones or reload them. In all cases the ids stay
distinct and indexed (`Indexed`), if what is loaded from the disk has distinct ids.
-/

namespace TorrentLink.Rss

open Lib

variable (env : ServiceEnv)

/-! ### Marks -/

section Keeps

variable {κ : Type} {key : RssItem → κ}

/-- A part of an item that is neither a decision nor the mark of the waiting list. -/
structure Unmarked (key : RssItem → κ) : Prop where
  decision : ∀ it d code text, key (markItemDecision it d code text) = key it
  waitlist : ∀ it b, key { it with rssAutoWaitlisted := b } = key it

/-- A call that changes the items alone, and none of them in this part. -/
def KeepsItems (key : RssItem → κ) (s s' : Service) : Prop :=
  ∃ items, s' = { s with items := items } ∧ items.map key = s.items.map key

theorem KeepsItems.refl (s : Service) : KeepsItems key s s := ⟨s.items, rfl, rfl⟩

theorem KeepsItems.trans {s s' s'' : Service} (h : KeepsItems key s s')
    (h' : KeepsItems key s' s'') : KeepsItems key s s'' := by
  obtain ⟨items, rfl, hitems⟩ := h
  obtain ⟨items', rfl, hitems'⟩ := h'
  exact ⟨items', rfl, hitems'.trans hitems⟩

theorem keeps_map (s : Service) {f : RssItem → RssItem} (hf : ∀ it, key (f it) = key it) :
    KeepsItems key s { s with items := s.items.map f } := by
  refine ⟨s.items.map f, rfl, ?_⟩
  rw [List.map_map]
  exact List.map_congr_left fun it _ => hf it

theorem keeps_modifyFirst (s : Service) (p : RssItem → Bool) {f : RssItem → RssItem}
    (hf : ∀ it, key (f it) = key it) :
    KeepsItems key s { s with items := modifyFirst p f s.items } :=
  ⟨_, rfl, map_modifyFirst hf s.items⟩

theorem keeps_diagnoseAll (hkey : Unmarked key) (s : Service) (refreshDiagnosis : Bool) :
    KeepsItems key s (diagnoseAll env s refreshDiagnosis) := by
  unfold diagnoseAll
  split
  · exact keeps_map s fun it => hkey.decision it _ _ _
  · exact KeepsItems.refl s

theorem keeps_overflow (hkey : Unmarked key) (s : Service) :
    KeepsItems key s (applyAutoDownloadBacklogOverflowMarkers env s) := by
  unfold applyAutoDownloadBacklogOverflowMarkers
  split
  · exact KeepsItems.refl s
  · refine keeps_map s fun it => ?_
    split
    · rfl
    · exact hkey.decision it _ _ _

theorem map_setWaitlisted (hkey : Unmarked key) (items : List RssItem) (positions : List Nat) :
    (setWaitlisted items positions).map key = items.map key := by
  unfold setWaitlisted
  induction positions generalizing items with
  | nil => rfl
  | cons i positions ih =>
    rw [List.foldl_cons, ih]
    exact map_modify (fun it => hkey.waitlist it true) items i

theorem keeps_sync (hkey : Unmarked key) (s : Service) (scope : RssAutoDownloadScope) :
    KeepsItems key s (syncRssAutoWaitlistMarkers env s scope) := by
  have hclear : KeepsItems key s { s with
      items := s.items.map fun it =>
        if itemMatchesAutoDownloadScope s it scope then { it with rssAutoWaitlisted := false }
        else it } := by
    refine keeps_map s fun it => ?_
    split
    · exact hkey.waitlist it false
    · rfl
  unfold syncRssAutoWaitlistMarkers
  dsimp only
  split
  · exact hclear
  · exact hclear.trans ⟨_, rfl, map_setWaitlisted hkey _ _⟩

theorem keeps_refreshDiagnostics (hkey : Unmarked key) (s : Service) :
    KeepsItems key s (refreshAutoDownloadDiagnostics env s) :=
  ((keeps_map s fun it => hkey.decision it _ _ _).trans (keeps_overflow env hkey _)).trans
    (keeps_sync env hkey _ _)

theorem keeps_refreshDiagnosticsForFeed (hkey : Unmarked key) (s : Service) (feedId : String) :
    KeepsItems key s (refreshAutoDownloadDiagnosticsForFeed env s feedId) := by
  unfold refreshAutoDownloadDiagnosticsForFeed
  split
  · exact KeepsItems.refl s
  · refine (KeepsItems.trans (keeps_map s fun it => ?_) (keeps_overflow env hkey _)).trans
      (keeps_sync env hkey _ _)
    split
    · exact hkey.decision it _ _ _
    · rfl

end Keeps

/-- The identity of an item, and the two flags that are not a diagnosis. -/
def RssItem.core (it : RssItem) : String × Bool × Bool := (it.id, it.queued, it.downloaded)

theorem unmarked_core : Unmarked RssItem.core where
  decision _ _ _ _ := rfl
  waitlist _ _ := rfl

/-- A call that changes the items alone, and none of them in its core. -/
def Marks (s s' : Service) : Prop :=
  ∃ items, s' = { s with items := items } ∧ items.map RssItem.core = s.items.map RssItem.core

theorem Marks.trans {s s' s'' : Service} (h : Marks s s') (h' : Marks s' s'') : Marks s s'' :=
  KeepsItems.trans h h'

theorem marks_map (s : Service) {f : RssItem → RssItem} (hf : ∀ it, (f it).core = it.core) :
    Marks s { s with items := s.items.map f } := keeps_map s hf

theorem marks_modifyFirst (s : Service) (p : RssItem → Bool) {f : RssItem → RssItem}
    (hf : ∀ it, (f it).core = it.core) :
    Marks s { s with items := modifyFirst p f s.items } := keeps_modifyFirst s p hf

theorem Marks.ids {s s' : Service} (h : Marks s s') :
    s'.items.map (·.id) = s.items.map (·.id) := by
  obtain ⟨items, rfl, hitems⟩ := h
  have hfst := congrArg (List.map Prod.fst) hitems
  rw [List.map_map, List.map_map] at hfst
  exact hfst

/-- An item is marked, but keeps its place and its core. -/
theorem Marks.mem {s s' : Service} (h : Marks s s') {it : RssItem} (hit : it ∈ s.items) :
    ∃ it' ∈ s'.items, it'.core = it.core := by
  obtain ⟨items, rfl, hitems⟩ := h
  have hmem : it.core ∈ items.map RssItem.core := hitems ▸ List.mem_map_of_mem hit
  exact List.mem_map.mp hmem

theorem marks_diagnoseAll (s : Service) (refreshDiagnosis : Bool) :
    Marks s (diagnoseAll env s refreshDiagnosis) := keeps_diagnoseAll env unmarked_core s _

theorem marks_overflow (s : Service) : Marks s (applyAutoDownloadBacklogOverflowMarkers env s) :=
  keeps_overflow env unmarked_core s

theorem marks_sync (s : Service) (scope : RssAutoDownloadScope) :
    Marks s (syncRssAutoWaitlistMarkers env s scope) := keeps_sync env unmarked_core s scope

theorem marks_refreshDiagnostics (s : Service) : Marks s (refreshAutoDownloadDiagnostics env s) :=
  keeps_refreshDiagnostics env unmarked_core s

theorem marks_refreshDiagnosticsForFeed (s : Service) (feedId : String) :
    Marks s (refreshAutoDownloadDiagnosticsForFeed env s feedId) :=
  keeps_refreshDiagnosticsForFeed env unmarked_core s feedId

/-! ### Distinct and indexed ids -/

/-- The items have distinct ids, none of them empty, and the index knows them. -/
structure Indexed (s : Service) : Prop where
  nodup : (s.items.map (·.id)).Nodup
  named : ∀ it ∈ s.items, it.id ≠ ""
  known : ∀ it ∈ s.items, it.id ∈ s.dedup.knownIds

theorem Indexed.of_ids {s s' : Service} (h : Indexed s)
    (hids : s'.items.map (·.id) = s.items.map (·.id)) (hdedup : s'.dedup = s.dedup) :
    Indexed s' := by
  have hmem : ∀ it' ∈ s'.items, ∃ it ∈ s.items, it.id = it'.id := by
    intro it' hit
    have hid : it'.id ∈ s.items.map (·.id) := hids ▸ List.mem_map_of_mem hit
    exact List.mem_map.mp hid
  refine ⟨hids ▸ h.nodup, fun it' hit => ?_, fun it' hit => ?_⟩
  · obtain ⟨it, hit, hid⟩ := hmem it' hit
    exact hid ▸ h.named it hit
  · obtain ⟨it, hit, hid⟩ := hmem it' hit
    exact hid ▸ hdedup ▸ h.known it hit

theorem Indexed.marks {s s' : Service} (h : Indexed s) (hmarks : Marks s s') : Indexed s' := by
  have hdedup : s'.dedup = s.dedup := by
    obtain ⟨items, rfl, _⟩ := hmarks
    rfl
  exact h.of_ids hmarks.ids hdedup

/-- Only the items and the index matter. -/
theorem Indexed.frame {s s' : Service} (h : Indexed s) (hitems : s'.items = s.items)
    (hdedup : s'.dedup = s.dedup) : Indexed s' :=
  h.of_ids (by rw [hitems]) hdedup

theorem indexed_rebuildIndex {s : Service} (hnodup : (s.items.map (·.id)).Nodup)
    (hnamed : ∀ it ∈ s.items, it.id ≠ "") : Indexed (rebuildIndex env s) :=
  ⟨hnodup, hnamed, fun it hit =>
    (mem_knownIds_buildIndex env.text.toLower s.items (hnamed it hit)).mpr ⟨it, hit, rfl⟩⟩

theorem Indexed.of_subperm {s : Service} (h : Indexed s) {items : List RssItem}
    (hsub : items.Subperm s.items) : Indexed { s with items := items } :=
  ⟨nodup_of_subperm h.nodup hsub, fun it hit => h.named it (hsub.subset hit),
    fun it hit => h.known it (hsub.subset hit)⟩

theorem Indexed.rebuild {s : Service} (h : Indexed s) : Indexed (rebuildIndex env s) :=
  indexed_rebuildIndex env h.nodup h.named

theorem Indexed.filter {s : Service} (h : Indexed s) (p : RssItem → Bool) :
    Indexed { s with items := s.items.filter p } :=
  h.of_subperm List.filter_sublist.subperm

theorem Indexed.pruneOrphans {s : Service} (h : Indexed s) :
    Indexed (pruneItemsWithoutMatchingFeed s) := h.filter (hasMatchingFeed s.feeds)

theorem Indexed.pruneHistory {s : Service} (h : Indexed s) (now : Int) :
    Indexed (s.pruneHistory env now) := by
  have hprune := h.of_subperm (pruneHistory_subperm env.history now s.historyPolicy s.items)
  unfold Service.pruneHistory
  dsimp only
  split
  · exact hprune.rebuild env
  · exact hprune

/-! ### New items -/

theorem dedupIncoming_ids (toLower : String → String) (incoming : List RssItem) (d : RssDedup)
    (hnamed : ∀ it ∈ incoming, it.id ≠ "") :
    ((dedupIncoming toLower d incoming).1.map (·.id)).Nodup ∧
      (∀ it ∈ (dedupIncoming toLower d incoming).1,
        it.id ∈ (dedupIncoming toLower d incoming).2.knownIds) ∧
      d.knownIds ⊆ (dedupIncoming toLower d incoming).2.knownIds := by
  induction incoming generalizing d with
  | nil => exact ⟨List.nodup_nil, by simp [dedupIncoming], subset_rfl⟩
  | cons it rest ih =>
    obtain ⟨hit, hrest⟩ := List.forall_mem_cons.mp hnamed
    rw [dedupIncoming]
    by_cases hd : isDuplicate toLower d it = true
    · rw [if_pos hd]
      exact ih d hrest
    · rw [if_neg hd]
      obtain ⟨h1, h2, h3⟩ := ih (recordItem toLower d it) hrest
      have hself : it.id ∈ (recordItem toLower d it).knownIds :=
        (mem_insertKey hit).mpr (.inl rfl)
      have hgrow : d.knownIds ⊆ (recordItem toLower d it).knownIds := by
        intro id hid
        unfold recordItem insertKey
        dsimp only
        split
        · exact hid
        · exact Finset.mem_insert_of_mem hid
      refine ⟨?_, ?_, hgrow.trans h3⟩
      · rw [List.map_cons, List.nodup_cons]
        refine ⟨fun hmem => ?_, h1⟩
        obtain ⟨x, hx, hid⟩ := List.mem_map.mp hmem
        have hfresh := fresh_of_mem_dedupIncoming toLower hx (hid ▸ hit)
        exact hfresh (hid ▸ hself)
      · intro x hx
        rcases List.mem_cons.mp hx with rfl | hx
        · exact h3 hself
        · exact h2 x hx

theorem Indexed.addIncoming {s : Service} (h : Indexed s) {incoming : List RssItem}
    (hnamed : ∀ it ∈ incoming, it.id ≠ "") : Indexed (addIncoming env s incoming) := by
  obtain ⟨hnodup, hknown, hgrow⟩ := dedupIncoming_ids env.text.toLower incoming s.dedup hnamed
  have hmem : ∀ it ∈ (dedupIncoming env.text.toLower s.dedup incoming).1, it ∈ incoming :=
    fun it hit => mem_of_mem_dedupIncoming env.text.toLower hit
  refine ⟨?_, ?_, ?_⟩
  · show ((s.items ++ (dedupIncoming env.text.toLower s.dedup incoming).1).map (·.id)).Nodup
    rw [List.map_append]
    refine List.nodup_append.mpr ⟨h.nodup, hnodup, ?_⟩
    rintro id hid id' hid' rfl
    obtain ⟨it, hit, rfl⟩ := List.mem_map.mp hid
    obtain ⟨it', hit', hsame⟩ := List.mem_map.mp hid'
    have hne : it'.id ≠ "" := hnamed it' (hmem it' hit')
    have hfresh := fresh_of_mem_dedupIncoming env.text.toLower hit' hne
    exact hfresh (hsame ▸ h.known it hit)
  · intro it hit
    rcases List.mem_append.mp hit with hit | hit
    · exact h.named it hit
    · exact hnamed it (hmem it hit)
  · intro it hit
    rcases List.mem_append.mp hit with hit | hit
    · exact hgrow (h.known it hit)
    · exact hknown it hit

/-! ### Refresh -/

/-- What a refresh may do to the service, apart from discarding orphans: feeds' records change, but not
their ids, and new items of the feed are appended. -/
structure Refreshed (s s' : Service) : Prop where
  feedIds : s'.feeds.map (·.id) = s.feeds.map (·.id)
  rules : s'.rules = s.rules
  policy : s'.historyPolicy = s.historyPolicy
  files : s'.files = s.files
  indexed : Indexed s → Indexed s'
  kept : ∀ it ∈ s.items, hasMatchingFeed s.feeds it = true → it ∈ s'.items

theorem hasMatchingFeed_congr {feeds feeds' : List RssFeed}
    (h : feeds'.map (·.id) = feeds.map (·.id)) (it : RssItem) :
    hasMatchingFeed feeds' it = hasMatchingFeed feeds it := by
  have hany : ∀ fs : List RssFeed, (fs.any fun f => f.id = it.feedId) =
      (fs.map (·.id)).any fun id => id = it.feedId := by
    intro fs
    rw [List.any_map]
    rfl
  have hempty : ∀ fs : List RssFeed, fs.isEmpty = (fs.map (·.id)).isEmpty := by
    intro fs
    cases fs <;> rfl
  unfold hasMatchingFeed
  rw [hany, hany, hempty, hempty, h]

theorem Refreshed.refl (s : Service) : Refreshed s s :=
  ⟨rfl, rfl, rfl, rfl, id, fun _ hit _ => hit⟩

theorem Refreshed.trans {s s' s'' : Service} (h : Refreshed s s') (h' : Refreshed s' s'') :
    Refreshed s s'' where
  feedIds := h'.feedIds.trans h.feedIds
  rules := h'.rules.trans h.rules
  policy := h'.policy.trans h.policy
  files := h'.files.trans h.files
  indexed := fun hs => h'.indexed (h.indexed hs)
  kept it hit hfeed :=
    h'.kept it (h.kept it hit hfeed) ((hasMatchingFeed_congr h.feedIds it).trans hfeed)

theorem refreshed_modifyFeed (s : Service) (i : Nat) {f : RssFeed → RssFeed}
    (hf : ∀ feed, (f feed).id = feed.id) : Refreshed s (modifyFeed s i f) :=
  ⟨map_modify hf s.feeds i, rfl, rfl, rfl, fun h => h.frame rfl rfl, fun _ hit _ => hit⟩

theorem refreshed_addIncoming (s : Service) {incoming : List RssItem}
    (hnamed : ∀ it ∈ incoming, it.id ≠ "") : Refreshed s (addIncoming env s incoming) :=
  ⟨rfl, rfl, rfl, rfl, fun h => h.addIncoming env hnamed,
    fun _ hit _ => List.mem_append_left _ hit⟩

theorem refreshed_onExit (s : Service) : Refreshed s (onRefreshExit env s) :=
  ⟨rfl, rfl, rfl, rfl, fun h => h.pruneOrphans.rebuild env,
    fun _ hit hfeed => List.mem_filter.mpr ⟨hit, hfeed⟩⟩

theorem refreshed_applyParse (s : Service) (i : Nat) {result : ParseResult}
    (hnamed : ∀ it ∈ result.items, it.id ≠ "") : Refreshed s (applyParse env s i result) := by
  unfold applyParse
  split
  · refine (refreshed_modifyFeed s i fun feed => ?_).trans (refreshed_addIncoming env _ hnamed)
    split
    · rfl
    · rfl
  · exact refreshed_modifyFeed s i fun _ => rfl

variable {env}

theorem ensures_applyFetch (hdigest : ∀ text, env.text.sha256Hex text ≠ "") (now : Int)
    (s : Service) (i : Nat) (feedId : String) (fetchResult : FetchResult) :
    Ensures (applyFetch env now s i feedId fetchResult) (Refreshed s) := by
  unfold applyFetch
  split
  · refine (ensures_parse env.text feedId fetchResult.body).andThen fun result hresult =>
      ensures_always (Refreshed.trans (refreshed_modifyFeed s i ?_) (refreshed_applyParse env _ i ?_))
    · exact fun _ => rfl
    intro it hit
    rw [(hresult it hit).id]
    exact stableItemId_ne_empty env.text hdigest _ _ _ _
  · exact ensures_always (refreshed_modifyFeed s i fun _ => rfl)

theorem ensures_refreshFeedImpl (hdigest : ∀ text, env.text.sha256Hex text ≠ "") (now : Int)
    (fetch : Fetch) (s : Service) (feedId : String) :
    Ensures (refreshFeedImpl env now fetch s feedId) (Refreshed s) := by
  unfold refreshFeedImpl
  split
  · exact ensures_always (Refreshed.refl s)
  · exact (ensures_applyFetch hdigest now s _ feedId _).andThen fun s' hs' =>
      ensures_always (hs'.trans (refreshed_onExit env s'))

theorem ensures_refreshEnabled (hdigest : ∀ text, env.text.sha256Hex text ≠ "") (now : Int)
    (fetch : Fetch) (feeds : List RssFeed) (s : Service) :
    Ensures (refreshEnabled env now fetch feeds s) (Refreshed s) := by
  induction feeds generalizing s with
  | nil => exact ensures_always (Refreshed.refl s)
  | cons feed rest ih =>
    rw [refreshEnabled]
    split
    · refine (ensures_refreshFeedImpl hdigest now fetch s feed.id).andThen fun s' hs' => ?_
      intro n r hr
      exact hs'.trans (ih s' n r hr)
    · exact ih s

end TorrentLink.Rss
