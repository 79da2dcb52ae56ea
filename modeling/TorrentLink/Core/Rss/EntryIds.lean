import TorrentLink.Core.Rss.Dedup
import TorrentLink.Core.Rss.ParsedItems
import TorrentLink.Lib.Indexes

/-!
# The ids of parsed entries

`stableItemId` is a digest of the feed's id and either the guid or the link and the title, joined by a
separator that a publisher may use in each of them. So even where the digest tells these texts apart, two
entries can have one id: exactly those of `Overlaps` (`stableItemId_separates_iff`).
-/

namespace TorrentLink.Rss

open Lib

variable (q : FeedText)

/-! ### What the id is made of -/

/-- What `stableItemId` takes the digest of, behind the feed's id and a separator. -/
def idSeed (it : RssItem) : String :=
  if it.guid ≠ "" then it.guid else it.link ++ "|" ++ it.title

/-- The digest that the id is: the first half of it. -/
def shortDigest (text : String) : String := String.ofList ((q.sha256Hex text).toList.take 32)

theorem stableItemId_eq (feedId : String) (it : RssItem) :
    stableItemId q feedId it.guid it.link it.title = shortDigest q (feedId ++ "|" ++ idSeed it) := by
  unfold stableItemId idSeed shortDigest
  by_cases hguid : it.guid ≠ ""
  · rw [if_pos hguid, if_pos hguid]
  · rw [if_neg hguid, if_neg hguid]
    simp only [String.append_assoc]

/-- The two entries are the same to the publisher. -/
def SameEntry (it it' : RssItem) : Prop :=
  (it.guid ≠ "" ∧ it.guid = it'.guid) ∨
    (it.guid = "" ∧ it'.guid = "" ∧ it.link = it'.link ∧ it.title = it'.title)

/-- A guid that reads like the link and the title of the other entry, or a link that goes on where the
other title begins. -/
inductive Overlaps (it it' : RssItem) : Prop
  | guid : it.guid ≠ "" → it'.guid = "" → it.guid = it'.link ++ "|" ++ it'.title → Overlaps it it'
  | shifted (x : String) : it.guid = "" → it'.guid = "" → it'.link = it.link ++ "|" ++ x →
      it.title = x ++ "|" ++ it'.title → Overlaps it it'

/-! ### Texts that join to the same one -/

theorem join_eq_iff {a b a' b' : String} : a ++ "|" ++ b = a' ++ "|" ++ b' ↔
    (a = a' ∧ b = b') ∨ (∃ x, a' = a ++ "|" ++ x ∧ b = x ++ "|" ++ b') ∨
      ∃ x, a = a' ++ "|" ++ x ∧ b' = x ++ "|" ++ b := by
  have hlist : ∀ s t : String, (s ++ "|" ++ t).toList = s.toList ++ '|' :: t.toList := by
    intro s t
    simp
  have hexists : ∀ {p : List Char → Prop}, (∃ zs, p zs) ↔ ∃ x : String, p x.toList :=
    ⟨fun ⟨zs, h⟩ => ⟨String.ofList zs, by rwa [String.toList_ofList]⟩, fun ⟨x, h⟩ => ⟨x.toList, h⟩⟩
  simp only [← String.toList_inj, hlist, append_separator_eq_iff, hexists]

theorem overlaps_iff (it it' : RssItem) : Overlaps it it' ↔
    (it.guid ≠ "" ∧ it'.guid = "" ∧ it.guid = it'.link ++ "|" ++ it'.title) ∨
      (it.guid = "" ∧ it'.guid = "" ∧
        ∃ x, it'.link = it.link ++ "|" ++ x ∧ it.title = x ++ "|" ++ it'.title) := by
  constructor
  · rintro (⟨hguid, hguid', hsame⟩ | ⟨x, hguid, hguid', hlink, htitle⟩)
    · exact .inl ⟨hguid, hguid', hsame⟩
    · exact .inr ⟨hguid, hguid', x, hlink, htitle⟩
  · rintro (⟨hguid, hguid', hsame⟩ | ⟨hguid, hguid', x, hlink, htitle⟩)
    · exact .guid hguid hguid' hsame
    · exact .shifted x hguid hguid' hlink htitle

/-- The texts are the same for the same entry and for entries that overlap. -/
theorem idSeed_eq_iff (it it' : RssItem) :
    idSeed it = idSeed it' ↔ SameEntry it it' ∨ Overlaps it it' ∨ Overlaps it' it := by
  rw [overlaps_iff, overlaps_iff]
  unfold idSeed SameEntry
  by_cases hguid : it.guid = ""
  · by_cases hguid' : it'.guid = ""
    · rw [if_neg (by simp [hguid]), if_neg (by simp [hguid']), join_eq_iff]
      simp only [hguid, hguid', ne_eq, not_true_eq_false, false_and, true_and, false_or]
    · rw [if_neg (by simp [hguid]), if_pos hguid']
      simp only [hguid, hguid', ne_eq, not_true_eq_false, not_false_eq_true, false_and, true_and,
        and_false, false_or, or_false]
      exact eq_comm
  · by_cases hguid' : it'.guid = ""
    · rw [if_pos hguid, if_neg (by simp [hguid'])]
      simp only [hguid, hguid', ne_eq, not_true_eq_false, not_false_eq_true, false_and, true_and,
        and_false, false_or, or_false]
    · rw [if_pos hguid, if_pos hguid']
      simp only [hguid, hguid', ne_eq, not_false_eq_true, false_and, true_and, and_false, or_false]

theorem SameEntry.symm {it it' : RssItem} (h : SameEntry it it') : SameEntry it' it := by
  rcases h with ⟨hguid, hsame⟩ | ⟨hguid, hguid', hlink, htitle⟩
  · exact .inl ⟨hsame ▸ hguid, hsame.symm⟩
  · exact .inr ⟨hguid', hguid, hlink.symm, htitle.symm⟩

/-- The other link would be longer than itself. -/
theorem not_overlaps_of_same {it it' : RssItem} (h : SameEntry it it') : ¬Overlaps it it' := by
  rintro (⟨hguid, hguid', -⟩ | ⟨x, hguid, -, hlink, -⟩)
  · rcases h with ⟨-, hsame⟩ | ⟨hempty, -⟩
    · exact hguid (hsame.trans hguid')
    · exact hguid hempty
  · rcases h with ⟨hne, -⟩ | ⟨-, -, hsame, -⟩
    · exact hne hguid
    · have hlength := congrArg (fun s => s.toList.length) (hsame.trans hlink)
      simp at hlength

/-! ### Two entries of a feed -/

theorem append_left_inj_iff {a b b' : String} : a ++ b = a ++ b' ↔ b = b' := by
  simp [← String.toList_inj]

/-- Where the digest tells the texts of two parsed entries apart, their ids do so exactly if the entries
do not overlap. -/
theorem stableItemId_separates_iff (q : FeedText) (feedId : String) (xmlData xmlData' : List UInt8)
    (result result' : ParseResult) (hresult : Lib.Returns (parse q feedId xmlData) result)
    (hresult' : Lib.Returns (parse q feedId xmlData') result') (it it' : RssItem) (hit : it ∈ result.items)
    (hit' : it' ∈ result'.items)
    (hdigest : shortDigest q (feedId ++ "|" ++ idSeed it) = shortDigest q (feedId ++ "|" ++ idSeed it') →
      feedId ++ "|" ++ idSeed it = feedId ++ "|" ++ idSeed it') :
    (it.id = it'.id → SameEntry it it') ↔ ¬(Overlaps it it' ∨ Overlaps it' it) := by
  obtain ⟨n, hn⟩ := hresult
  obtain ⟨n', hn'⟩ := hresult'
  have hid := (ensures_parse q feedId xmlData n result hn it hit).id
  have hid' := (ensures_parse q feedId xmlData' n' result' hn' it' hit').id
  have hseed : it.id = it'.id ↔ idSeed it = idSeed it' := by
    rw [hid, hid', stableItemId_eq, stableItemId_eq]
    constructor
    · exact fun hsame => append_left_inj_iff.mp (hdigest hsame)
    · exact fun hsame => by rw [hsame]
  rw [hseed, idSeed_eq_iff]
  constructor
  · intro hsame hover
    have hentry := hsame (.inr hover)
    rcases hover with hover | hover
    · exact not_overlaps_of_same hentry hover
    · exact not_overlaps_of_same hentry.symm hover
  · exact fun hnone hsame => hsame.resolve_right hnone

/-- Two entries without a guid: the separator ends the link of one and begins the title of the other. -/
def twoEntryFeed : List UInt8 :=
  ("<rss><channel><item><link>http://a.example/1|b</link><title>c</title></item>" ++
    "<item><link>http://a.example/1</link><title>b|c</title></item></channel></rss>"
  ).toList.map fun c => c.toNat.toUInt8

/-- The libraries on that feed. -/
def twoEntryText : FeedText where
  tokenize bytes :=
    if bytes = twoEntryFeed then
      { tokens := [.startDocument, .startElement "rss" [], .startElement "channel" [],
          .startElement "item" [],
          .startElement "link" [], .characters "http://a.example/1|b", .endElement "link",
          .startElement "title" [], .characters "c", .endElement "title",
          .endElement "item",
          .startElement "item" [],
          .startElement "link" [], .characters "http://a.example/1", .endElement "link",
          .startElement "title" [], .characters "b|c", .endElement "title",
          .endElement "item", .endElement "channel", .endElement "rss"]
        ending := .endDocument }
    else { tokens := [], ending := .error "Premature end of document." }
  matchMagnet _ := none
  matchTorrentUrl _ := none
  fromRfc2822Date _ := none
  fromIsoDate _ := none
  fromPlainDate _ := none
  url text :=
    if text = "http://a.example/1|b" then some ("http", "/1|b")
    else if text = "http://a.example/1" then some ("http", "/1") else none
  toLower text := String.ofList (foldCase text)
  sha256Hex text :=
    if text = "feed|http://a.example/1|b|c" then
      "b8044bb92e8a3b16768d0f3fe6612cce3961afe000db6124c128bb5e37547fdf"
    else "e3b0c44298fc1c149afbf4c8996fb92427ae41e4649b934ca495991b7852b855"

def barInLink : RssItem :=
  { id := "b8044bb92e8a3b16768d0f3fe6612cce", feedId := "feed", link := "http://a.example/1|b", title := "c" }

def barInTitle : RssItem :=
  { id := "b8044bb92e8a3b16768d0f3fe6612cce", feedId := "feed", link := "http://a.example/1", title := "b|c" }

def twoEntries : List RssItem := [barInLink, barInTitle]

theorem parse_twoEntryFeed :
    Lib.Returns (parse twoEntryText "feed" twoEntryFeed) { ok := true, items := twoEntries } :=
  ⟨40, by decide +kernel⟩

theorem stableItemId_separates_iff_twoEntryFeed :
    (barInLink.id = barInTitle.id → SameEntry barInLink barInTitle) ↔
      ¬(Overlaps barInLink barInTitle ∨ Overlaps barInTitle barInLink) :=
  stableItemId_separates_iff twoEntryText "feed" twoEntryFeed twoEntryFeed
    { ok := true, items := twoEntries } { ok := true, items := twoEntries } parse_twoEntryFeed
    parse_twoEntryFeed barInLink barInTitle (by simp [twoEntries]) (by simp [twoEntries])
    fun _ => by decide +kernel

/-- The second entry is dropped as a duplicate of the first. -/
theorem entries_share_id :
    Lib.Returns (parse twoEntryText "feed" twoEntryFeed) { ok := true, items := twoEntries } ∧
      (∀ it ∈ twoEntries, ∀ it' ∈ twoEntries, it ≠ it' → it.id = it'.id ∧ ¬SameEntry it it') ∧
      ((dedupIncoming twoEntryText.toLower {} twoEntries).1.map (·.title)) = ["c"] := by
  refine ⟨parse_twoEntryFeed, ?_, by decide +kernel⟩
  unfold SameEntry
  decide +kernel

end TorrentLink.Rss
