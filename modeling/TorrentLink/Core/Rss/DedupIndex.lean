import TorrentLink.Core.Rss.ServiceRuns
import TorrentLink.Lib.Indexes

/-!
# The index answers for the stored items

The index is a second copy of the items' keys. A key within a feed is the feed's id, a separator and the
key, so two of them are the same only if both parts are, as long as no feed id is empty or contains the
separator. `ExactIndex` says that each of the five sets holds the keys of the stored items and no others;
then `isDuplicate` answers exactly whether a stored item shares a key.
-/

namespace TorrentLink.Rss

open Lib

/-! ### Keys -/

/-- A key that is not empty. -/
def nonEmpty (key : String) : Option String := if key = "" then none else some key

theorem nonEmpty_eq_some {key k : String} : nonEmpty key = some k ↔ key ≠ "" ∧ key = k := by
  unfold nonEmpty
  by_cases h : key = ""
  · simp [h]
  · simp [h]

theorem insertKey_eq (key : String) (known : Finset String) :
    insertKey key known = addKey known (nonEmpty key) := by
  unfold insertKey nonEmpty
  split
  · rfl
  · rfl

/-- A feed id that can be told from the key behind it. -/
def IsFeedId (id : String) : Prop := id ≠ "" ∧ Char.ofNat 0x1e ∉ id.toList

instance (id : String) : Decidable (IsFeedId id) := inferInstanceAs (Decidable (_ ∧ _))

theorem feedScopeKey_ne_empty (feed : String) {key : String} : feedScopeKey feed key ≠ "" ↔ key ≠ "" := by
  unfold feedScopeKey
  by_cases hkey : key = ""
  · simp [hkey]
  · rw [if_neg hkey]
    split
    · rfl
    · simp [hkey]

theorem feedScopeKey_eq {feed feed' key key' : String} (hfeed : IsFeedId feed)
    (hfeed' : IsFeedId feed') (hkey : key ≠ "") (hkey' : key' ≠ "") :
    feedScopeKey feed key = feedScopeKey feed' key' ↔ feed = feed' ∧ key = key' := by
  have hparts : ∀ {f k : String}, IsFeedId f → k ≠ "" →
      (feedScopeKey f k).toList = f.toList ++ Char.ofNat 0x1e :: k.toList := by
    intro f k hf hk
    rw [feedScopeKey, if_neg hk, if_neg hf.1]
    simp
  rw [← String.toList_inj, hparts hfeed hkey, hparts hfeed' hkey',
    append_separator_eq hfeed.2 hfeed'.2]
  simp only [String.toList_inj]

/-! ### What it means to be a duplicate -/

variable (toLower : String → String)

/-- The same text, and not an empty one. -/
def Shared (a b : String) : Prop := a ≠ "" ∧ a = b

/-- `it` has the id of `x`, or it is an item of the same feed with the guid, the link, the normalised
torrent URL or the info-hash of `x`. -/
def SharesKey (x it : RssItem) : Prop :=
  it.id = x.id ∨
    it.feedId = x.feedId ∧
      (Shared it.guid x.guid ∨ Shared it.link x.link ∨
        Shared (normalizeTorrentUrl toLower it.torrentUrl)
          (normalizeTorrentUrl toLower x.torrentUrl) ∨
        Shared (extractInfoHash it.magnet) (extractInfoHash x.magnet))

/-- Each of the sets holds the keys of the items, and no others. -/
structure ExactIndex (d : RssDedup) (items : List RssItem) : Prop where
  ids : Indexes (fun it => nonEmpty it.id) d.knownIds items
  guids : Indexes (fun it => nonEmpty (feedScopeKey it.feedId it.guid)) d.knownGuids items
  links : Indexes (fun it => nonEmpty (feedScopeKey it.feedId it.link)) d.knownLinks items
  torrentUrls : Indexes (fun it => nonEmpty (it.torrentKey toLower)) d.knownTorrentUrls items
  infohashes : Indexes (fun it => nonEmpty it.infohashKey) d.knownInfohashes items

variable {toLower}

theorem knownKey_iff (key : RssItem → String) {known : Finset String} {items : List RssItem}
    (h : Indexes (fun it => nonEmpty (key it)) known items) (k : String) :
    knownKey k known = true ↔ k ≠ "" ∧ ∃ it ∈ items, key it = k := by
  unfold knownKey
  rw [Bool.and_eq_true, decide_eq_true_eq, decide_eq_true_eq, h k]
  refine and_congr_right fun hk => exists_congr fun it => and_congr_right fun _ => ?_
  rw [nonEmpty_eq_some]
  constructor
  · exact fun hit => hit.2
  · rintro rfl
    exact ⟨hk, rfl⟩

/-- A known key within the feed of an item. -/
theorem knownKey_scoped_iff (part : RssItem → String) {known : Finset String}
    {items : List RssItem}
    (h : Indexes (fun it => nonEmpty (feedScopeKey it.feedId (part it))) known items)
    (hitems : ∀ it ∈ items, IsFeedId it.feedId) {x : RssItem} (hx : IsFeedId x.feedId) :
    knownKey (feedScopeKey x.feedId (part x)) known = true ↔
      ∃ it ∈ items, it.feedId = x.feedId ∧ Shared (part it) (part x) := by
  rw [knownKey_iff (fun it => feedScopeKey it.feedId (part it)) h, feedScopeKey_ne_empty]
  constructor
  · rintro ⟨hpart, it, hit, hkey⟩
    have hpart' : part it ≠ "" := by
      rw [← feedScopeKey_ne_empty it.feedId, hkey, feedScopeKey_ne_empty]
      exact hpart
    obtain ⟨hfeed, hsame⟩ := (feedScopeKey_eq (hitems it hit) hx hpart' hpart).mp hkey
    exact ⟨it, hit, hfeed, hpart', hsame⟩
  · rintro ⟨it, hit, hfeed, hpart, hsame⟩
    exact ⟨hsame ▸ hpart, it, hit, by rw [hfeed, hsame]⟩

/-- An exact index tells the duplicates of the stored items from the other items. -/
theorem ExactIndex.isDuplicate_iff {d : RssDedup} {items : List RssItem}
    (h : ExactIndex toLower d items) (hitems : ∀ it ∈ items, IsFeedId it.feedId) {x : RssItem}
    (hids : ∀ it ∈ items, it.id = x.id → it.id ≠ "") (hx : IsFeedId x.feedId) :
    isDuplicate toLower d x = true ↔ ∃ it ∈ items, SharesKey toLower x it := by
  have hid : knownKey x.id d.knownIds = true ↔ ∃ it ∈ items, it.id = x.id := by
    rw [knownKey_iff RssItem.id h.ids]
    constructor
    · exact fun hknown => hknown.2
    · rintro ⟨it, hit, hsame⟩
      exact ⟨hsame ▸ hids it hit hsame, it, hit, hsame⟩
  have hguid := knownKey_scoped_iff RssItem.guid h.guids hitems hx
  have hlink := knownKey_scoped_iff RssItem.link h.links hitems hx
  have htorrent := knownKey_scoped_iff
    (fun it => normalizeTorrentUrl toLower it.torrentUrl) h.torrentUrls hitems hx
  have hhash := knownKey_scoped_iff (fun it => extractInfoHash it.magnet) h.infohashes
    hitems hx
  have hcases : isDuplicate toLower d x = true ↔
      (((∃ it ∈ items, it.id = x.id) ∨
        ∃ it ∈ items, it.feedId = x.feedId ∧ Shared it.guid x.guid) ∨
        ∃ it ∈ items, it.feedId = x.feedId ∧ Shared it.link x.link) ∨
        (∃ it ∈ items, it.feedId = x.feedId ∧ Shared (normalizeTorrentUrl toLower it.torrentUrl)
          (normalizeTorrentUrl toLower x.torrentUrl)) ∨
        ∃ it ∈ items, it.feedId = x.feedId ∧
          Shared (extractInfoHash it.magnet) (extractInfoHash x.magnet) := by
    rw [← hid, ← hguid, ← hlink, ← htorrent, ← hhash, isDuplicate]
    simp only [Bool.or_eq_true, or_assoc]
    rfl
  rw [hcases]
  constructor
  · rintro (((⟨it, hit, h⟩ | ⟨it, hit, hfeed, h⟩) | ⟨it, hit, hfeed, h⟩) | ⟨it, hit, hfeed, h⟩ |
      ⟨it, hit, hfeed, h⟩)
    · exact ⟨it, hit, .inl h⟩
    · exact ⟨it, hit, .inr ⟨hfeed, .inl h⟩⟩
    · exact ⟨it, hit, .inr ⟨hfeed, .inr (.inl h)⟩⟩
    · exact ⟨it, hit, .inr ⟨hfeed, .inr (.inr (.inl h))⟩⟩
    · exact ⟨it, hit, .inr ⟨hfeed, .inr (.inr (.inr h))⟩⟩
  · rintro ⟨it, hit, h | ⟨hfeed, h | h | h | h⟩⟩
    · exact .inl (.inl (.inl ⟨it, hit, h⟩))
    · exact .inl (.inl (.inr ⟨it, hit, hfeed, h⟩))
    · exact .inl (.inr ⟨it, hit, hfeed, h⟩)
    · exact .inr (.inl ⟨it, hit, hfeed, h⟩)
    · exact .inr (.inr ⟨it, hit, hfeed, h⟩)

/-! ### Recording and rebuilding -/

theorem exactIndex_empty : ExactIndex toLower {} [] :=
  ⟨indexes_nil, indexes_nil, indexes_nil, indexes_nil, indexes_nil⟩

theorem ExactIndex.recordItem {d : RssDedup} {items : List RssItem}
    (h : ExactIndex toLower d items) (it : RssItem) :
    ExactIndex toLower (recordItem toLower d it) (items ++ [it]) := by
  unfold Rss.recordItem
  simp only [insertKey_eq]
  exact ⟨h.ids.record it, h.guids.record it, h.links.record it, h.torrentUrls.record it,
    h.infohashes.record it⟩

theorem exactIndex_foldl {d : RssDedup} {items : List RssItem} (h : ExactIndex toLower d items)
    (items' : List RssItem) :
    ExactIndex toLower (items'.foldl (Rss.recordItem toLower) d) (items ++ items') := by
  induction items' generalizing d items with
  | nil => simpa using h
  | cons it items' ih =>
    have hnext := ih (h.recordItem it)
    rwa [List.append_assoc] at hnext

theorem exactIndex_buildIndex (items : List RssItem) :
    ExactIndex toLower (buildIndex toLower items) items :=
  exactIndex_foldl exactIndex_empty items

/-- Recording what `dedupIncoming` keeps. -/
theorem ExactIndex.dedupIncoming {d : RssDedup} {items : List RssItem}
    (h : ExactIndex toLower d items) (incoming : List RssItem) :
    ExactIndex toLower (dedupIncoming toLower d incoming).2
      (items ++ (Rss.dedupIncoming toLower d incoming).1) := by
  induction incoming generalizing d items with
  | nil => simpa [Rss.dedupIncoming] using h
  | cons it rest ih =>
    rw [Rss.dedupIncoming]
    split
    · exact ih h
    · have hrest := ih (h.recordItem it)
      rwa [List.append_assoc] at hrest

/-- What the index depends on. -/
def RssItem.keys (it : RssItem) : String × String × String × String × String × String :=
  (it.id, it.feedId, it.guid, it.link, it.torrentUrl, it.magnet)

theorem map_of_keys {items items' : List RssItem}
    (h : items'.map RssItem.keys = items.map RssItem.keys) {β : Type}
    (f : String × String × String × String × String × String → β) :
    items'.map (fun it => f it.keys) = items.map fun it => f it.keys := by
  have hmap := congrArg (List.map f) h
  rwa [List.map_map, List.map_map] at hmap

theorem ExactIndex.of_keys {d : RssDedup} {items items' : List RssItem}
    (h : ExactIndex toLower d items)
    (hkeys : items'.map RssItem.keys = items.map RssItem.keys) : ExactIndex toLower d items' where
  ids := h.ids.of_map_eq (map_of_keys hkeys fun k => nonEmpty k.1)
  guids := h.guids.of_map_eq (map_of_keys hkeys fun k => nonEmpty (feedScopeKey k.2.1 k.2.2.1))
  links := h.links.of_map_eq (map_of_keys hkeys fun k => nonEmpty (feedScopeKey k.2.1 k.2.2.2.1))
  torrentUrls := h.torrentUrls.of_map_eq (map_of_keys hkeys fun k =>
    nonEmpty (feedScopeKey k.2.1 (normalizeTorrentUrl toLower k.2.2.2.2.1)))
  infohashes := h.infohashes.of_map_eq (map_of_keys hkeys fun k =>
    nonEmpty (feedScopeKey k.2.1 (extractInfoHash k.2.2.2.2.2)))

theorem ExactIndex.perm {d : RssDedup} {items items' : List RssItem}
    (h : ExactIndex toLower d items) (hperm : items'.Perm items) : ExactIndex toLower d items' :=
  ⟨h.ids.perm hperm, h.guids.perm hperm, h.links.perm hperm, h.torrentUrls.perm hperm,
    h.infohashes.perm hperm⟩

end TorrentLink.Rss
