import TorrentLink.Core.Rss.DedupIndex
import TorrentLink.Lib.KeepNew

/-!
# The two filters of a batch

`RssService::dedupIncoming` works on the index of the service, `RssDedup::filterDuplicates` on one that it
builds of the existing items. Both keep the same items of a batch: those that share no key with an
existing item or one kept before (`batch_keepsNew`).
-/

namespace TorrentLink.Rss

open Lib

variable (toLower : String → String)

/-- `RssDedup::filterDuplicates` -/
def filterDuplicates (existing incoming : List RssItem) : List RssItem :=
  (incoming.foldl (fun (dedup, unique) item =>
    if !isDuplicate toLower dedup item then (recordItem toLower dedup item, unique ++ [item])
    else (dedup, unique)) (buildIndex toLower existing, [])).2

variable {toLower}

/-! ### One filter is the other -/

theorem foldl_filterDuplicates (incoming unique : List RssItem) (d : RssDedup) :
    (incoming.foldl (fun (dedup, unique) item =>
      if !isDuplicate toLower dedup item then (recordItem toLower dedup item, unique ++ [item])
      else (dedup, unique)) (d, unique)).2 = unique ++ (dedupIncoming toLower d incoming).1 := by
  induction incoming generalizing d unique with
  | nil => simp [dedupIncoming]
  | cons it rest ih =>
    rw [List.foldl_cons, dedupIncoming]
    by_cases hd : isDuplicate toLower d it = true
    · rw [if_pos hd]
      simp only [hd, Bool.not_true]
      exact ih unique d
    · rw [if_neg hd]
      simp only [hd]
      exact (ih (unique ++ [it]) _).trans (List.append_assoc unique [it] _)

theorem filterDuplicates_eq (existing incoming : List RssItem) :
    filterDuplicates toLower existing incoming =
      (dedupIncoming toLower (buildIndex toLower existing) incoming).1 :=
  foldl_filterDuplicates incoming [] (buildIndex toLower existing)

/-- There is only one exact index. -/
theorem ExactIndex.unique {d d' : RssDedup} {items : List RssItem} (h : ExactIndex toLower d items)
    (h' : ExactIndex toLower d' items) : d = d' := by
  have hsame : ∀ {key : RssItem → Option String} {known known' : Finset String},
      Indexes key known items → Indexes key known' items → known = known' :=
    fun hknown hknown' => Finset.ext fun k => (hknown k).trans (hknown' k).symm
  cases d
  cases d'
  congr
  · exact hsame h.ids h'.ids
  · exact hsame h.guids h'.guids
  · exact hsame h.links h'.links
  · exact hsame h.torrentUrls h'.torrentUrls
  · exact hsame h.infohashes h'.infohashes

/-! ### What a filter keeps -/

/-- The items of a feed that can be identified. -/
def Identified (it : RssItem) : Prop := it.id ≠ "" ∧ IsFeedId it.feedId

instance (it : RssItem) : Decidable (Identified it) := inferInstanceAs (Decidable (_ ∧ _))

theorem ExactIndex.keepsNew {d : RssDedup} {existing : List RssItem}
    (h : ExactIndex toLower d existing) (hexisting : ∀ it ∈ existing, IsFeedId it.feedId)
    {batch : List RssItem} (hbatch : ∀ it ∈ batch, Identified it) :
    KeepsNew (SharesKey toLower) existing batch (Rss.dedupIncoming toLower d batch).1 := by
  induction batch generalizing d existing with
  | nil => exact .nil existing
  | cons it rest ih =>
    obtain ⟨hid, hfeed⟩ := hbatch it List.mem_cons_self
    have hrest : ∀ x ∈ rest, Identified x := fun x hx => hbatch x (List.mem_cons_of_mem it hx)
    have hduplicate := h.isDuplicate_iff hexisting (x := it) (fun x _ hsame => hsame ▸ hid) hfeed
    rw [Rss.dedupIncoming]
    by_cases hd : isDuplicate toLower d it = true
    · rw [if_pos hd]
      obtain ⟨x, hx, hshares⟩ := hduplicate.mp hd
      exact .drop hx hshares (ih h hexisting hrest)
    · rw [if_neg hd]
      refine .keep (fun x hx hshares => hd (hduplicate.mpr ⟨x, hx, hshares⟩)) ?_
      refine ih (h.recordItem it) (fun x hx => ?_) hrest
      rcases List.mem_append.mp hx with hx | hx
      · exact hexisting x hx
      · exact List.mem_singleton.mp hx ▸ hfeed

/-- Both filters keep the same items of a batch: the new ones. Then the batch brings nothing new. -/
theorem batch_keepsNew (toLower : String → String) (existing batch : List RssItem) (d : RssDedup)
    (hd : ExactIndex toLower d existing) (hexisting : ∀ it ∈ existing, IsFeedId it.feedId)
    (hbatch : ∀ it ∈ batch, Identified it) :
    filterDuplicates toLower existing batch = (dedupIncoming toLower d batch).1 ∧
      (dedupIncoming toLower d batch).1.Sublist batch ∧
      KeepsNew (SharesKey toLower) existing batch (dedupIncoming toLower d batch).1 ∧
      (dedupIncoming toLower (dedupIncoming toLower d batch).2 batch).1 = [] ∧
      filterDuplicates toLower (existing ++ filterDuplicates toLower existing batch) batch = [] := by
  have hsame : filterDuplicates toLower existing batch = (dedupIncoming toLower d batch).1 := by
    rw [filterDuplicates_eq, hd.unique (exactIndex_buildIndex existing)]
  have hkeeps := hd.keepsNew hexisting hbatch
  have hself : ∀ it ∈ batch, SharesKey toLower it it := fun it _ => .inl rfl
  have hknown : ∀ it ∈ existing ++ (dedupIncoming toLower d batch).1, IsFeedId it.feedId := by
    intro it hit
    rcases List.mem_append.mp hit with hit | hit
    · exact hexisting it hit
    · exact (hbatch it (hkeeps.sublist.subset hit)).2
  have hafter := hd.dedupIncoming batch
  have hagain : (dedupIncoming toLower (dedupIncoming toLower d batch).2 batch).1 = [] :=
    (hafter.keepsNew hknown hbatch).unique (hkeeps.again hself)
  refine ⟨hsame, hkeeps.sublist, hkeeps, hagain, ?_⟩
  rw [hsame, filterDuplicates_eq, ← hafter.unique (exactIndex_buildIndex _)]
  exact hagain

/-- Two entries with one guid, and a third with the link of the second. -/
def chainedBatch : List RssItem :=
  [{ id := "b", feedId := "feed", guid := "g" },
    { id := "c", feedId := "feed", guid := "h", link := "l" },
    { id := "d", feedId := "feed", guid := "i", link := "l", torrentUrl := "t" },
    { id := "e", feedId := "feed", torrentUrl := "t" }]

/-- An entry that shares something with a dropped one only is kept. -/
theorem batch_keepsNew_chained :
    KeepsNew (SharesKey id) [{ id := "a", feedId := "feed", guid := "g" }] chainedBatch
        (dedupIncoming id (buildIndex id [{ id := "a", feedId := "feed", guid := "g" }])
          chainedBatch).1 ∧
      (filterDuplicates id [{ id := "a", feedId := "feed", guid := "g" }] chainedBatch).map (·.id) =
        ["c", "e"] := by
  refine ⟨?_, by decide +kernel⟩
  exact (batch_keepsNew id [{ id := "a", feedId := "feed", guid := "g" }] chainedBatch _
    (exactIndex_buildIndex _) (by decide) (by decide)).2.2.1

end TorrentLink.Rss
