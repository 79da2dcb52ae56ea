import TorrentLink.Core.Rss.Parser

/-!
# The items of a parse

Whatever a parse returns, its items carry the id of the feed, the id computed from their own guid, link
and title, and none of the flags of an item that was downloaded or is in flight.
-/

namespace TorrentLink.Rss

open Lib

variable (q : FeedText)

/-- What the elements of an item never touch. -/
structure Untouched (feed : String) (it : RssItem) : Prop where
  feedId : it.feedId = feed
  queued : it.queued = false
  downloaded : it.downloaded = false
  code : it.lastAutoReasonCode = ""

/-- An item of a feed as the parser finishes it. -/
structure IsParsed (feed : String) (it : RssItem) : Prop extends Untouched feed it where
  id : it.id = stableItemId q feed it.guid it.link it.title

theorem stableItemId_ne_empty (hdigest : ∀ text, q.sha256Hex text ≠ "")
    (feedId guid link title : String) : stableItemId q feedId guid link title ≠ "" := by
  have hne : ∀ text : String, String.ofList ((q.sha256Hex text).toList.take 32) ≠ "" := by
    intro text h
    have hlist : (q.sha256Hex text).toList.take 32 = [] := by
      have h' := congrArg String.toList h
      rwa [String.toList_ofList] at h'
    rcases List.take_eq_nil_iff.mp hlist with h32 | hnil
    · omega
    · exact hdigest text (String.toList_eq_nil_iff.mp hnil)
  unfold stableItemId
  split_ifs
  · exact hne _
  · exact hne _

variable {q} {feedId : String}

theorem Untouched.of_eq {it it' : RssItem} (h : Untouched feedId it)
    (hfeed : it'.feedId = it.feedId) (hqueued : it'.queued = it.queued)
    (hdownloaded : it'.downloaded = it.downloaded)
    (hcode : it'.lastAutoReasonCode = it.lastAutoReasonCode) : Untouched feedId it' :=
  ⟨hfeed.trans h.feedId, hqueued.trans h.queued, hdownloaded.trans h.downloaded,
    hcode.trans h.code⟩

theorem Untouched.rss2Element {it : RssItem} (h : Untouched feedId it) (tag : String)
    (xml : XmlReader) : Untouched feedId (rss2Element q tag it xml).1 := by
  unfold Rss.rss2Element
  generalize xml.readElementText = r
  by_cases h1 : tag = "title"
  · rw [if_pos h1]
    exact h.of_eq rfl rfl rfl rfl
  rw [if_neg h1]
  by_cases h2 : tag = "link"
  · rw [if_pos h2]
    dsimp only
    split
    · exact h.of_eq rfl rfl rfl rfl
    · split
      · exact h.of_eq rfl rfl rfl rfl
      · exact h.of_eq rfl rfl rfl rfl
  rw [if_neg h2]
  by_cases h3 : tag = "guid"
  · rw [if_pos h3]
    exact h.of_eq rfl rfl rfl rfl
  rw [if_neg h3]
  by_cases h4 : tag = "description"
  · rw [if_pos h4]
    exact h.of_eq rfl rfl rfl rfl
  rw [if_neg h4]
  by_cases h5 : tag = "pubDate"
  · rw [if_pos h5]
    exact h.of_eq rfl rfl rfl rfl
  rw [if_neg h5]
  by_cases h6 : tag = "enclosure"
  · rw [if_pos h6]
    dsimp only
    split
    · exact h.of_eq rfl rfl rfl rfl
    · split
      · split
        · exact h.of_eq rfl rfl rfl rfl
        · exact h
      · exact h
  · rw [if_neg h6]
    exact h

theorem Untouched.atomElement {it : RssItem} (h : Untouched feedId it) (tag : String)
    (xml : XmlReader) : Untouched feedId (atomElement q tag it xml).1 := by
  unfold Rss.atomElement
  generalize xml.readElementText = r
  by_cases h1 : tag = "title"
  · rw [if_pos h1]
    exact h.of_eq rfl rfl rfl rfl
  rw [if_neg h1]
  by_cases h2 : tag = "link"
  · rw [if_pos h2]
    dsimp only
    repeat' split
    all_goals exact h.of_eq rfl rfl rfl rfl
  rw [if_neg h2]
  by_cases h3 : tag = "id"
  · rw [if_pos h3]
    exact h.of_eq rfl rfl rfl rfl
  rw [if_neg h3]
  by_cases h4 : tag = "summary" ∨ tag = "content"
  · rw [if_pos h4]
    exact h.of_eq rfl rfl rfl rfl
  rw [if_neg h4]
  by_cases h5 : tag = "published" ∨ tag = "updated"
  · rw [if_pos h5]
    split
    · exact h.of_eq rfl rfl rfl rfl
    · exact h
  · rw [if_neg h5]
    exact h

theorem Untouched.element {it : RssItem} (h : Untouched feedId it) (format : FeedFormat)
    (tag : String) (xml : XmlReader) : Untouched feedId (format.element q tag it xml).1 := by
  cases format with
  | rss2 => exact h.rss2Element tag xml
  | atom => exact h.atomElement tag xml

theorem exists_ite {c : Prop} [Decidable c] (f : String → RssItem) (a b : String) :
    ∃ x, (if c then f a else f b) = f x := by
  split
  · exact ⟨a, rfl⟩
  · exact ⟨b, rfl⟩

theorem fillTorrentUrl_eq (q : FeedText) (it : RssItem) :
    ∃ url, fillTorrentUrlFromBodyIfNeeded q it = { it with torrentUrl := url } := by
  unfold fillTorrentUrlFromBodyIfNeeded
  by_cases hurl : it.torrentUrl ≠ ""
  · exact ⟨it.torrentUrl, if_pos hurl⟩
  · rw [if_neg hurl]
    exact exists_ite (fun url => { it with torrentUrl := url }) _ it.torrentUrl

theorem fillMagnet_eq (q : FeedText) (it : RssItem) :
    ∃ magnet, (if it.magnet ≠ "" then it else
      let candidate := extractMagnetFromText q it.link
      let candidate := if candidate = "" then extractMagnetFromText q it.summary else candidate
      if candidate ≠ "" then { it with magnet := candidate } else it) =
        { it with magnet := magnet } := by
  by_cases hmagnet : it.magnet ≠ ""
  · exact ⟨it.magnet, if_pos hmagnet⟩
  · rw [if_neg hmagnet]
    exact exists_ite (fun magnet => { it with magnet := magnet }) _ it.magnet

/-- The last steps set the magnet, the torrent URL and the id. -/
theorem finishItem_eq (q : FeedText) (feedId : String) (it : RssItem) :
    ∃ magnet url, finishItem q feedId it =
      { it with
        magnet := magnet
        torrentUrl := url
        id := stableItemId q feedId it.guid it.link it.title } := by
  obtain ⟨magnet, hmagnet⟩ := fillMagnet_eq q it
  obtain ⟨url, hurl⟩ := fillTorrentUrl_eq q { it with magnet := magnet }
  refine ⟨magnet, url, ?_⟩
  unfold finishItem
  simp only [hmagnet, hurl]

theorem isParsed_finishItem {it : RssItem} (h : Untouched feedId it) :
    IsParsed q feedId (finishItem q feedId it) := by
  obtain ⟨magnet, url, heq⟩ := finishItem_eq q feedId it
  rw [heq]
  exact ⟨⟨h.feedId, h.queued, h.downloaded, h.code⟩, rfl⟩

theorem ensures_itemLoop (format : FeedFormat) {s : RssItem × XmlReader}
    (h : Untouched feedId s.1) :
    Ensures (itemLoop q format s) fun r => Untouched feedId r.1 := by
  refine Ensures.loop (P := fun r : RssItem × XmlReader => Untouched feedId r.1)
    (fun s hs => ensures_always ?_) h
  unfold itemBody
  dsimp only
  cases s.2.readNext.startName with
  | none => exact hs
  | some tag => exact hs.element format tag s.2.readNext

theorem ensures_feedLoop (format : FeedFormat) {s : List RssItem × XmlReader}
    (h : ∀ it ∈ s.1, IsParsed q feedId it) :
    Ensures (feedLoop q format feedId s) fun r => ∀ it ∈ r.1, IsParsed q feedId it := by
  refine Ensures.loop (P := fun r : List RssItem × XmlReader => ∀ it ∈ r.1, IsParsed q feedId it)
    (fun s hs => ?_) h
  unfold feedBody
  dsimp only
  split_ifs
  · have hnew : Untouched feedId { feedId := feedId } := ⟨rfl, rfl, rfl, rfl⟩
    refine (ensures_itemLoop format hnew).andThen fun r hr => ensures_always ?_
    intro it hit
    rcases List.mem_append.mp hit with hit | hit
    · exact hs it hit
    · rw [List.mem_singleton.mp hit]
      exact isParsed_finishItem hr
  · exact ensures_always hs

theorem ensures_parseFeed (format : FeedFormat) (xml : XmlReader) :
    Ensures (parseFeed q format feedId xml) fun r => ∀ it ∈ r.items, IsParsed q feedId it := by
  refine (ensures_feedLoop format (s := ([], xml)) (by simp)).andThen fun s hs => ensures_always ?_
  unfold feedResult
  split
  · exact hs
  · exact hs

/-- Every item a parse returns is an item of the feed it was asked for. -/
theorem ensures_parse (q : FeedText) (feedId : String) (xmlData : List UInt8) :
    Ensures (parse q feedId xmlData) fun r => ∀ it ∈ r.items, IsParsed q feedId it := by
  unfold parse
  split_ifs
  · exact ensures_always (by simp)
  · refine Ensures.andThen (P := fun _ => True) (fun _ _ _ => trivial) fun xml _ => ?_
    unfold parseRoot
    split
    · exact ensures_parseFeed .rss2 xml
    · exact ensures_parseFeed .atom xml
    · exact ensures_always (by simp)

end TorrentLink.Rss
