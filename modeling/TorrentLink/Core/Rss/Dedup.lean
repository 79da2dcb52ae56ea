import Mathlib.Data.Finset.Basic
import TorrentLink.Core.Rss.Types
import TorrentLink.Lib.Sorting

/-!
# The index of known items, and the retention policy

`RssDedup`: an item is a duplicate of the indexed ones if it shares its id or, within its feed, its
guid, link, torrent URL or info-hash. `pruneHistory` discards old items and then those beyond a number.
-/

namespace TorrentLink.Rss

open Lib

/-! ### Keys -/

/-- The first match of a pattern, tried at every position. -/
def firstMatch (matchAt : List Char → Option (List Char)) : List Char → Option (List Char)
  | [] => matchAt []
  | c :: cs => (matchAt (c :: cs)).or (firstMatch matchAt cs)

def btihPrefix : List Char := "xt=urn:btih:".toList

/-- The next `n` characters, if they are all in the class. -/
def capture (inClass : Char → Bool) (n : Nat) (cs : List Char) : Option (List Char) :=
  if (cs.take n).length = n ∧ (cs.take n).all inClass then some (cs.take n) else none

def isHexDigit (c : Char) : Bool :=
  ('0' ≤ c && c ≤ '9') || ('a' ≤ c && c ≤ 'f') || ('A' ≤ c && c ≤ 'F')

def isBase32Char (c : Char) : Bool :=
  ('A' ≤ c && c ≤ 'Z') || ('a' ≤ c && c ≤ 'z') || ('2' ≤ c && c ≤ '7')

/-- `xt=urn:btih:([0-9a-fA-F]{40})`, without regard to case. -/
def matchHexHash (cs : List Char) : Option (List Char) :=
  if (cs.take btihPrefix.length).map Char.toLower = btihPrefix then
    capture isHexDigit 40 (cs.drop btihPrefix.length)
  else none

/-- `xt=urn:btih:([A-Za-z2-7]{32})` -/
def matchBase32Hash (cs : List Char) : Option (List Char) :=
  if cs.take btihPrefix.length = btihPrefix then
    capture isBase32Char 32 (cs.drop btihPrefix.length)
  else none

def extractInfoHash (magnet : String) : String :=
  match (firstMatch matchHexHash magnet.toList).or (firstMatch matchBase32Hash magnet.toList) with
  | some hash => String.ofList (hash.map Char.toLower)
  | none => ""

/-- A key within a feed: other feeds may carry the same entry. -/
def feedScopeKey (feedId key : String) : String :=
  if key = "" then ""
  else if feedId = "" then key
  else feedId ++ String.singleton (Char.ofNat 0x1e) ++ key

/-! ### The index -/

structure RssDedup where
  knownIds : Finset String := ∅
  knownGuids : Finset String := ∅
  knownLinks : Finset String := ∅
  knownTorrentUrls : Finset String := ∅
  knownInfohashes : Finset String := ∅

variable (toLower : String → String)

def normalizeTorrentUrl (torrentUrl : String) : String := toLower (trimmed torrentUrl)

/-- The keys of an item: the empty ones are not indexed. -/
def RssItem.torrentKey (it : RssItem) : String :=
  feedScopeKey it.feedId (normalizeTorrentUrl toLower it.torrentUrl)

def RssItem.infohashKey (it : RssItem) : String :=
  feedScopeKey it.feedId (extractInfoHash it.magnet)

/-- `set.insert(key)` under the guard that the key is not empty. -/
def insertKey (key : String) (known : Finset String) : Finset String :=
  if key = "" then known else insert key known

def recordItem (d : RssDedup) (it : RssItem) : RssDedup where
  knownIds := insertKey it.id d.knownIds
  knownGuids := insertKey (feedScopeKey it.feedId it.guid) d.knownGuids
  knownLinks := insertKey (feedScopeKey it.feedId it.link) d.knownLinks
  knownTorrentUrls := insertKey (it.torrentKey toLower) d.knownTorrentUrls
  knownInfohashes := insertKey it.infohashKey d.knownInfohashes

def buildIndex (existing : List RssItem) : RssDedup := existing.foldl (recordItem toLower) {}

/-- A key that is not empty and known. -/
def knownKey (key : String) (known : Finset String) : Bool := key ≠ "" && key ∈ known

def isDuplicate (d : RssDedup) (it : RssItem) : Bool :=
  knownKey it.id d.knownIds || knownKey (feedScopeKey it.feedId it.guid) d.knownGuids ||
    knownKey (feedScopeKey it.feedId it.link) d.knownLinks ||
    knownKey (it.torrentKey toLower) d.knownTorrentUrls ||
    knownKey it.infohashKey d.knownInfohashes

/-- `dedupIncoming`: the items that are no duplicates of the indexed ones nor of one another, each
recorded in turn. -/
def dedupIncoming (d : RssDedup) : List RssItem → List RssItem × RssDedup
  | [] => ([], d)
  | it :: rest =>
    if isDuplicate toLower d it then dedupIncoming d rest
    else
      let (unique, d') := dedupIncoming (recordItem toLower d it) rest
      (it :: unique, d')

/-! ### Retention -/

/-- What the age limit discards: an old item that is not downloaded. -/
def isExpired (cutoff : QDateTime) (it : RssItem) : Bool :=
  it.publishedAt.isValid && it.publishedAt.before cutoff && !it.downloaded

/-- The comparison of the size limit: downloaded items first, then the newer ones. -/
def historyOrder (a b : RssItem) : Bool :=
  if a.downloaded ≠ b.downloaded then a.downloaded else b.publishedAt.before a.publishedAt

/-- The calendar arithmetic and the sort that retention takes from Qt and the standard library. -/
structure HistoryEnv where
  /-- `QDateTime::addDays` -/
  addDays : Int → Int → Int
  std : StdSort

variable (env : HistoryEnv)

def pruneByAge (now : Int) (policy : HistoryPolicy) (items : List RssItem) : List RssItem :=
  if 0 < policy.maxAgeDays then
    items.filter fun it => !isExpired (some (env.addDays now (-policy.maxAgeDays))) it
  else items

def pruneBySize (policy : HistoryPolicy) (items : List RssItem) : List RssItem :=
  if 0 < policy.maxItems ∧ policy.maxItems < items.length then
    (env.std.sort historyOrder items).take policy.maxItems.toNat
  else items

/-- `RssDedup::pruneHistory`: what is left of the items. -/
def pruneHistory (now : Int) (policy : HistoryPolicy) (items : List RssItem) : List RssItem :=
  pruneBySize env policy (pruneByAge env now policy items)

/-! ### What the index knows -/

theorem mem_insertKey {key key' : String} {known : Finset String} (h : key ≠ "") :
    key ∈ insertKey key' known ↔ key = key' ∨ key ∈ known := by
  unfold insertKey
  by_cases hk : key' = ""
  · subst hk
    simp [h]
  · rw [if_neg hk, Finset.mem_insert]

theorem mem_knownIds_foldl (items : List RssItem) (d : RssDedup) {id : String} (h : id ≠ "") :
    id ∈ (items.foldl (recordItem toLower) d).knownIds ↔
      id ∈ d.knownIds ∨ ∃ it ∈ items, it.id = id := by
  induction items generalizing d with
  | nil => simp
  | cons it items ih =>
    have hstep : id ∈ (recordItem toLower d it).knownIds ↔ id = it.id ∨ id ∈ d.knownIds :=
      mem_insertKey h
    rw [List.foldl_cons, ih, hstep]
    constructor
    · rintro ((rfl | hmem) | ⟨it', hmem, rfl⟩)
      · exact .inr ⟨it, by simp, rfl⟩
      · exact .inl hmem
      · exact .inr ⟨it', by simp [hmem], rfl⟩
    · rintro (hmem | ⟨it', hmem, rfl⟩)
      · exact .inl (.inr hmem)
      · rcases List.mem_cons.mp hmem with rfl | hmem
        · exact .inl (.inl rfl)
        · exact .inr ⟨it', hmem, rfl⟩

/-- The ids of a new index are those of its items. -/
theorem mem_knownIds_buildIndex (items : List RssItem) {id : String} (h : id ≠ "") :
    id ∈ (buildIndex toLower items).knownIds ↔ ∃ it ∈ items, it.id = id := by
  unfold buildIndex
  rw [mem_knownIds_foldl toLower items {} h]
  simp

theorem not_known_of_not_duplicate {d : RssDedup} {it : RssItem} (h : isDuplicate toLower d it = false)
    (hid : it.id ≠ "") : it.id ∉ d.knownIds := by
  intro hmem
  simp [isDuplicate, knownKey, hid, hmem] at h

/-- An item that `dedupIncoming` keeps has a new id, if it has one at all. -/
theorem fresh_of_mem_dedupIncoming {d : RssDedup} {incoming : List RssItem} {it : RssItem}
    (h : it ∈ (dedupIncoming toLower d incoming).1) (hid : it.id ≠ "") : it.id ∉ d.knownIds := by
  induction incoming generalizing d with
  | nil => simp [dedupIncoming] at h
  | cons it' rest ih =>
    rw [dedupIncoming] at h
    by_cases hd : isDuplicate toLower d it' = true
    · rw [if_pos hd] at h
      exact ih h
    · rw [if_neg hd] at h
      rcases List.mem_cons.mp h with rfl | h
      · exact not_known_of_not_duplicate toLower (Bool.eq_false_iff.mpr hd) hid
      · intro hmem
        exact ih h ((mem_insertKey hid).mpr (.inr hmem))

theorem mem_of_mem_dedupIncoming {d : RssDedup} {incoming : List RssItem} {it : RssItem}
    (h : it ∈ (dedupIncoming toLower d incoming).1) : it ∈ incoming := by
  induction incoming generalizing d with
  | nil => cases h
  | cons it' rest ih =>
    rw [dedupIncoming] at h
    by_cases hd : isDuplicate toLower d it' = true
    · rw [if_pos hd] at h
      exact List.mem_cons_of_mem _ (ih h)
    · rw [if_neg hd] at h
      rcases List.mem_cons.mp h with rfl | h
      · exact List.mem_cons_self
      · exact List.mem_cons_of_mem _ (ih h)

/-! ### What retention keeps -/

theorem pruneByAge_sublist (now : Int) (policy : HistoryPolicy) (items : List RssItem) :
    (pruneByAge env now policy items).Sublist items := by
  unfold pruneByAge
  split_ifs
  · exact List.filter_sublist
  · exact List.Sublist.refl items

theorem pruneBySize_subperm (policy : HistoryPolicy) (items : List RssItem) :
    (pruneBySize env policy items).Subperm items := by
  unfold pruneBySize
  split_ifs
  · exact (List.take_sublist _ _).subperm.trans (env.std.perm historyOrder _).subperm
  · exact List.Subperm.refl _

theorem pruneHistory_subperm (now : Int) (policy : HistoryPolicy) (items : List RssItem) :
    (pruneHistory env now policy items).Subperm items :=
  (pruneBySize_subperm env policy _).trans (pruneByAge_sublist env now policy items).subperm

end TorrentLink.Rss
