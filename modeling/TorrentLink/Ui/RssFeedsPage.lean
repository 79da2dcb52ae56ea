import TorrentLink.Core.Rss.Opml
import TorrentLink.Core.Rss.ServiceRuns

/-!
# Importing OPML

`onImportOpml` adds the imported feeds whose URL no feed of the service has. With fresh ids `upsertFeed`
appends each of them (`foldl_addImported`), so a second import of the same text adds none.
-/

namespace TorrentLink.Ui

open Lib Rss

/-- What the page shows after an import. -/
inductive ImportOutcome
  | cancelled
  | failed (error : String)
  | done (added known invalid : Nat)
  deriving DecidableEq, Repr

-- the id that `upsertFeed` would draw for a feed without one
variable (drawn : String)

/-- One turn of the loop over the imported feeds, with the number of those added. -/
def addImported (s : Service × Nat) (feed : RssFeed) : Service × Nat :=
  if s.1.feeds.any (·.url = feed.url) then s else (upsertFeed drawn s.1 feed, s.2 + 1)

/-- The rest of `onImportOpml` once the file is read. -/
def mergeImported (env : ServiceEnv) (failures : SaveFailures) (s : Service) (result : ImportResult) :
    Service × ImportOutcome :=
  if !result.ok then (s, .failed result.error)
  else
    let (s, added) := result.feeds.foldl (addImported drawn) (s, 0)
    (saveState env s failures, .done added (result.feeds.length - added) result.skipped)

/-- `RssFeedsPage::onImportOpml` with the path that is chosen, if any, and the text of that file. -/
def onImportOpml (env : ServiceEnv) (q : OpmlText) (uuid : Nat → String) (failures : SaveFailures)
    (s : Service)
    (path : String) (text : Option String) : Bounded (Service × ImportOutcome) :=
  if path = "" then always (s, .cancelled)
  else (importFromFile q uuid path text).andThen fun result =>
    always (mergeImported drawn env failures s result)

variable {drawn} {q : OpmlText} {uuid : Nat → String}

/-! ### The merge -/

/-- The service has no feed with the URL. -/
def UnknownUrl (s : Service) (feed : RssFeed) : Prop := ∀ known ∈ s.feeds, known.url ≠ feed.url

instance (s : Service) (feed : RssFeed) : Decidable (UnknownUrl s feed) :=
  inferInstanceAs (Decidable (∀ known ∈ s.feeds, _))

/-- A feed with a fresh id and an unknown URL is appended. -/
theorem upsertFeed_append {s : Service} {feed : RssFeed} (hid : feed.id ≠ "")
    (hfresh : ∀ known ∈ s.feeds, known.id ≠ feed.id)
    (hurl : UnknownUrl s feed) : (upsertFeed drawn s feed).feeds = s.feeds ++ [feed] := by
  have hbyId : feedIndex s.feeds feed.id = none := by
    rw [feedIndex, List.findIdx?_eq_none_iff]
    exact fun known hknown => decide_eq_false (hfresh known hknown)
  have hbyUrl : s.feeds.findIdx? (fun x => x.url = feed.url) = none := by
    rw [List.findIdx?_eq_none_iff]
    exact fun known hknown => decide_eq_false (hurl known hknown)
  have hindex : upsertIndex s.feeds feed = none := by
    unfold upsertIndex
    dsimp only
    rw [if_pos hid, hbyId, hbyUrl, ite_self, Option.none_or]
  unfold upsertFeed
  rw [hindex, if_neg hid]

theorem addImported_of_known {s : Service × Nat} {feed : RssFeed} (h : ¬ UnknownUrl s.1 feed) :
    addImported drawn s feed = s := by
  have hknown : ∃ known ∈ s.1.feeds, known.url = feed.url := by simpa [UnknownUrl] using h
  exact if_pos (by simpa using hknown)

theorem addImported_of_unknown {s : Service × Nat} {feed : RssFeed} (h : UnknownUrl s.1 feed) :
    addImported drawn s feed = (upsertFeed drawn s.1 feed, s.2 + 1) :=
  if_neg (by simpa [UnknownUrl] using h)

theorem foldl_addImported_of_known {feeds : List RssFeed} {s : Service × Nat}
    (h : ∀ feed ∈ feeds, ¬ UnknownUrl s.1 feed) : feeds.foldl (addImported drawn) s = s := by
  induction feeds with
  | nil => rfl
  | cons feed feeds ih =>
    rw [List.foldl_cons, addImported_of_known (h feed List.mem_cons_self)]
    exact ih fun feed' hfeed' => h feed' (List.mem_cons_of_mem _ hfeed')

/-- The ids that an import draws: no two are the same, and none is one of the service. -/
structure FreshIds (s : Service) (uuid : Nat → String) : Prop where
  nonempty : ∀ i, uuid i ≠ ""
  distinct : Function.Injective uuid
  unknown : ∀ i, ∀ known ∈ s.feeds, known.id ≠ uuid i

/-- The feeds with an unknown URL are appended in their order. -/
theorem foldl_addImported {feeds : List RssFeed} {s : Service × Nat} (hids : ∀ feed ∈ feeds, feed.id ≠ "")
    (hdistinct : feeds.Pairwise fun f g => f.id ≠ g.id ∧ f.url ≠ g.url)
    (hfresh : ∀ feed ∈ feeds, ∀ known ∈ s.1.feeds, known.id ≠ feed.id) :
    (feeds.foldl (addImported drawn) s).1.feeds = s.1.feeds ++ feeds.filter (UnknownUrl s.1) ∧
      (feeds.foldl (addImported drawn) s).2 = s.2 + feeds.countP (UnknownUrl s.1) := by
  induction feeds generalizing s with
  | nil => exact ⟨(List.append_nil _).symm, rfl⟩
  | cons feed feeds ih =>
    obtain ⟨hfeed, hdistinct⟩ := List.pairwise_cons.mp hdistinct
    obtain ⟨hid, hids⟩ := List.forall_mem_cons.mp hids
    obtain ⟨hnew, hfresh⟩ := List.forall_mem_cons.mp hfresh
    rw [List.foldl_cons]
    by_cases hurl : UnknownUrl s.1 feed
    · have happend : (upsertFeed drawn s.1 feed).feeds = s.1.feeds ++ [feed] :=
        upsertFeed_append hid hnew hurl
      -- the other feeds have other URLs than the one that is appended
      have hsame :
          ∀ other ∈ feeds, (UnknownUrl (upsertFeed drawn s.1 feed) other ↔ UnknownUrl s.1 other) := by
        intro other hother
        unfold UnknownUrl
        rw [happend, List.forall_mem_append, List.forall_mem_singleton]
        exact and_iff_left (hfeed other hother).2
      have hfresh' :
          ∀ other ∈ feeds, ∀ known ∈ (upsertFeed drawn s.1 feed).feeds, known.id ≠ other.id := by
        intro other hother known hknown
        rw [happend] at hknown
        rcases List.mem_append.mp hknown with hknown | hknown
        · exact hfresh other hother known hknown
        · rw [List.mem_singleton.mp hknown]
          exact (hfeed other hother).1
      obtain ⟨hfeeds, hadded⟩ := @ih (upsertFeed drawn s.1 feed, s.2 + 1) hids hdistinct hfresh'
      rw [addImported_of_unknown hurl, hfeeds, hadded, happend,
        List.filter_cons_of_pos (by simpa using hurl),
        List.countP_cons_of_pos (by simpa using hurl), List.append_assoc, List.singleton_append]
      refine ⟨congrArg (s.1.feeds ++ feed :: ·) (List.filter_congr fun other hother => ?_), ?_⟩
      · rw [decide_eq_decide]
        exact hsame other hother
      · have hcount :
            feeds.countP (UnknownUrl (upsertFeed drawn s.1 feed)) = feeds.countP (UnknownUrl s.1) := by
          refine List.countP_congr fun other hother => ?_
          rw [decide_eq_true_iff, decide_eq_true_iff]
          exact hsame other hother
        dsimp only
        omega
    · rw [addImported_of_known hurl, List.filter_cons_of_neg (by simpa using hurl),
        List.countP_cons_of_neg (by simpa using hurl)]
      exact ih hids hdistinct hfresh

/-! ### Importing an export -/

/-- The URLs that `exportToString` keeps: trimmed, not empty, and no two the same. -/
structure Exportable (feeds : List RssFeed) : Prop where
  urls : ∀ feed ∈ feeds, trimmed feed.url = feed.url ∧ feed.url ≠ ""
  distinct : feeds.Pairwise fun f g => f.url ≠ g.url

variable (drawn) (env : ServiceEnv) (failures : SaveFailures) {feeds : List RssFeed} {path : String}

theorem returns_onImportOpml (hfeeds : Exportable feeds) (hround : q.RoundTrips (exportCalls feeds))
    (hpath : path ≠ "") (s : Service) :
    Lib.Returns (onImportOpml drawn env q uuid failures s path (some (exportToString q feeds)))
      (mergeImported drawn env failures s
        { feeds := feeds.mapIdx fun i feed => reimported feed (uuid i) }) := by
  unfold onImportOpml
  rw [if_neg hpath]
  exact Lib.Returns.andThen (stable_importFromString q _) (fun _ => stable_always _)
    (returns_importFromString_export q hfeeds.urls hround) (returns_always _)

/-- An import of feeds with known URLs. -/
theorem mergeImported_of_known {s : Service} (hknown : ∀ feed ∈ feeds, ¬ UnknownUrl s feed) :
    mergeImported drawn env failures s { feeds := feeds.mapIdx fun i feed => reimported feed (uuid i) } =
      (saveState env s failures, .done 0 feeds.length 0) := by
  have hfold :
      (feeds.mapIdx fun i feed => reimported feed (uuid i)).foldl (addImported drawn) (s, 0) = (s, 0) := by
    refine foldl_addImported_of_known fun feed hfeed => ?_
    obtain ⟨i, hi, rfl⟩ := List.mem_mapIdx.mp hfeed
    exact hknown feeds[i] (List.getElem_mem hi)
  unfold mergeImported
  rw [if_neg (by simp [ImportResult.ok])]
  dsimp only
  rw [hfold, List.length_mapIdx]
  rfl

theorem map_url_reimported :
    (feeds.mapIdx fun i feed => reimported feed (uuid i)).map (·.url) = feeds.map (·.url) :=
  List.ext_getElem (by simp) fun i _ _ => by simp [reimported]

theorem countP_unknownUrl (s : Service) (feeds : List RssFeed) : feeds.countP (UnknownUrl s) =
    (feeds.map (·.url)).countP fun url => ∀ known ∈ s.feeds, known.url ≠ url := by
  rw [List.countP_map]
  rfl

/-- An import with fresh ids adds the feeds with an unknown URL, and then all URLs are known. -/
theorem mergeImported_of_fresh {s : Service} (hfeeds : Exportable feeds) (hfresh : FreshIds s uuid) :
    ∃ s', mergeImported drawn env failures s
        { feeds := feeds.mapIdx fun i feed => reimported feed (uuid i) } =
        (s', .done (feeds.countP (UnknownUrl s)) (feeds.length - feeds.countP (UnknownUrl s)) 0) ∧
      ∀ feed ∈ feeds, ¬ UnknownUrl s' feed := by
  have hids : ∀ feed ∈ feeds.mapIdx (fun i feed => reimported feed (uuid i)), feed.id ≠ "" := by
    intro feed hfeed
    obtain ⟨i, -, rfl⟩ := List.mem_mapIdx.mp hfeed
    exact hfresh.nonempty i
  have hdistinct :
      (feeds.mapIdx fun i feed => reimported feed (uuid i)).Pairwise fun f g =>
        f.id ≠ g.id ∧ f.url ≠ g.url := by
    rw [List.pairwise_iff_getElem]
    intro i j hi hj hlt
    rw [List.length_mapIdx] at hi hj
    simp only [List.getElem_mapIdx]
    exact ⟨fun hsame => hlt.ne (hfresh.distinct hsame),
      List.pairwise_iff_getElem.mp hfeeds.distinct i j hi hj hlt⟩
  have hnew :
      ∀ feed ∈ feeds.mapIdx (fun i feed => reimported feed (uuid i)),
        ∀ known ∈ s.feeds, known.id ≠ feed.id := by
    intro feed hfeed
    obtain ⟨i, -, rfl⟩ := List.mem_mapIdx.mp hfeed
    exact hfresh.unknown i
  obtain ⟨hmerged, hadded⟩ := @foldl_addImported drawn _ (s, 0) hids hdistinct hnew
  rw [countP_unknownUrl, map_url_reimported, ← countP_unknownUrl, Nat.zero_add] at hadded
  have hresult : mergeImported drawn env failures s
        { feeds := feeds.mapIdx fun i feed => reimported feed (uuid i) } =
      (saveState env
        ((feeds.mapIdx fun i feed => reimported feed (uuid i)).foldl (addImported drawn) (s, 0)).1 failures,
        .done (feeds.countP (UnknownUrl s)) (feeds.length - feeds.countP (UnknownUrl s)) 0) := by
    unfold mergeImported
    rw [if_neg (by simp [ImportResult.ok])]
    dsimp only
    rw [hadded, List.length_mapIdx]
  refine ⟨_, hresult, fun feed hfeed hunknown => ?_⟩
  obtain ⟨i, hi, rfl⟩ := List.getElem_of_mem hfeed
  have hnone : ∀ known ∈
        s.feeds ++ (feeds.mapIdx fun i feed => reimported feed (uuid i)).filter (UnknownUrl s),
      known.url ≠ feeds[i].url := hmerged ▸ hunknown
  by_cases hknown : UnknownUrl s (reimported feeds[i] (uuid i))
  · refine hnone (reimported feeds[i] (uuid i)) (List.mem_append_right _ (List.mem_filter.mpr ⟨?_, ?_⟩)) rfl
    · exact List.mem_mapIdx.mpr ⟨i, hi, rfl⟩
    · exact decide_eq_true hknown
  · exact hknown fun known hmem => hnone known (List.mem_append_left _ hmem)

/-- The import keeps the outlines with a URL, in their order. What is exported is imported with the same
URLs; it adds the feeds whose URLs are not known yet, and none a second time. -/
theorem opml_import (q : OpmlText) :
    (∀ uuid xml doc, (q.tokenize xml).Describes doc → Lib.Returns (importFromString q uuid xml)
        { feeds := outlineFeeds uuid doc.items, skipped := outlinesWithoutUrl doc.items }) ∧
      ∀ feeds, Exportable feeds → q.RoundTrips (exportCalls feeds) →
        (∀ uuid, ∃ result, Lib.Returns (importFromString q uuid (exportToString q feeds)) result ∧
          result.feeds.map (·.url) = feeds.map (·.url) ∧
          result.feeds.map (·.title) =
            feeds.map (fun feed => if trimmed feed.title = "" then feed.url else trimmed feed.title) ∧
          result.skipped = 0 ∧ result.ok = true) ∧
        ∀ drawn env failures s path, path ≠ "" →
          ((∀ feed ∈ feeds, ∃ known ∈ s.feeds, known.url = feed.url) → ∀ uuid, ∃ s',
            Lib.Returns (onImportOpml drawn env q uuid failures s path (some (exportToString q feeds)))
              (s', .done 0 feeds.length 0) ∧ s'.feeds = s.feeds) ∧
          ∀ uuid, FreshIds s uuid → ∃ s',
            Lib.Returns (onImportOpml drawn env q uuid failures s path (some (exportToString q feeds)))
                (s', .done (feeds.countP (UnknownUrl s)) (feeds.length - feeds.countP (UnknownUrl s)) 0) ∧
              ∀ uuid', ∃ s'',
                Lib.Returns (onImportOpml drawn env q uuid' failures s' path (some (exportToString q feeds)))
                  (s'', .done 0 feeds.length 0) ∧ s''.feeds = s'.feeds := by
  refine ⟨fun uuid xml doc hdoc => returns_importFromString_document q hdoc,
    fun feeds hfeeds hround => ⟨?_, ?_⟩⟩
  · intro uuid
    refine ⟨_, returns_importFromString_export q hfeeds.urls hround, ?_, ?_, rfl, ?_⟩
    · exact map_url_reimported
    · exact List.ext_getElem (by simp) fun i _ _ => by simp [reimported]
    · simp [ImportResult.ok]
  · intro drawn env failures s path hpath
    -- an import where the URLs are known
    have hagain : ∀ s : Service, (∀ feed ∈ feeds, ¬ UnknownUrl s feed) → ∀ uuid, ∃ s',
        Lib.Returns (onImportOpml drawn env q uuid failures s path (some (exportToString q feeds)))
          (s', .done 0 feeds.length 0) ∧ s'.feeds = s.feeds := by
      intro s hknown uuid
      have hreturns := @returns_onImportOpml drawn q uuid env failures feeds path hfeeds hround hpath s
      rw [mergeImported_of_known drawn env failures hknown] at hreturns
      exact ⟨_, hreturns, rfl⟩
    refine ⟨fun hknown => hagain s fun feed hfeed hunknown => ?_, fun uuid hfresh => ?_⟩
    · obtain ⟨known, hmem, hurl⟩ := hknown feed hfeed
      exact hunknown known hmem hurl
    · obtain ⟨s', hmerged, hknown⟩ := mergeImported_of_fresh drawn env failures hfeeds hfresh
      have hreturns := @returns_onImportOpml drawn q uuid env failures feeds path hfeeds hround hpath s
      rw [hmerged] at hreturns
      exact ⟨s', hreturns, hagain s' hknown⟩

/-- Two feeds, one with blanks around its title and one without a title. -/
def twoFeeds : List RssFeed :=
  [{ id := "1", title := " A ", url := "http://example.org/a" },
    { id := "2", url := "http://example.org/b" }]

def twoFeedsText : String := "<?xml version=\"1.0\"?>
<opml version=\"2.0\">
    <head>
        <title>P2P File Downloader RSS Feeds</title>
    </head>
    <body>
        <outline type=\"rss\" text=\" A \" title=\" A \" xmlUrl=\"http://example.org/a\"/>
        <outline type=\"rss\" text=\"\" title=\"\" xmlUrl=\"http://example.org/b\"/>
    </body>
</opml>
"

/-- A folder with a feed that has another one inside. -/
def nestedText : String := "<opml version=\"2.0\"><body><outline text=\"Linux\">
<outline text=\" Releases \" xmlUrl=\" http://example.org/a\"><outline xmlUrl=\"http://example.org/b\"/></outline>
</outline></body></opml>"

def nestedDocument : Forest XmlElement :=
  let inner : XmlElement := { name := "outline", attributes := [("xmlUrl", "http://example.org/b")] }
  let outer : XmlElement :=
    { name := "outline", attributes := [("text", " Releases "), ("xmlUrl", " http://example.org/a")] }
  let folder : XmlElement := { name := "outline", attributes := [("text", "Linux")] }
  .node { name := "opml", attributes := [("version", "2.0")] }
    (.node { name := "body" } (.node folder (.node outer (.node inner .nil .nil) .nil) .nil) .nil) .nil

/-- The writer and the reader on these texts. -/
def twoFeedsOpml : OpmlText where
  write calls := if calls = exportCalls twoFeeds then twoFeedsText else ""
  tokenize text :=
    if text = twoFeedsText then
      { tokens := [.startDocument, .startElement "opml" [("version", "2.0")], .characters "\n    ",
          .startElement "head" [], .characters "\n        ", .startElement "title" [],
          .characters "P2P File Downloader RSS Feeds", .endElement "title", .characters "\n    ",
          .endElement "head",
          .characters "\n    ", .startElement "body" [], .characters "\n        ",
          .startElement "outline"
            [("type", "rss"), ("text", " A "), ("title", " A "), ("xmlUrl", "http://example.org/a")],
          .endElement "outline", .characters "\n        ",
          .startElement "outline"
            [("type", "rss"), ("text", ""), ("title", ""), ("xmlUrl", "http://example.org/b")],
          .endElement "outline", .characters "\n    ", .endElement "body", .characters "\n",
          .endElement "opml"]
        ending := .endDocument }
    else if text = nestedText then
      { tokens := [.startDocument, .startElement "opml" [("version", "2.0")], .startElement "body" [],
          .startElement "outline" [("text", "Linux")], .characters "\n",
          .startElement "outline" [("text", " Releases "), ("xmlUrl", " http://example.org/a")],
          .startElement "outline" [("xmlUrl", "http://example.org/b")],
          .endElement "outline", .endElement "outline", .characters "\n", .endElement "outline",
          .endElement "body", .endElement "opml"]
        ending := .endDocument }
    else { tokens := [], ending := .error "Premature end of document." }

theorem exportable_twoFeeds : Exportable twoFeeds where
  urls := by decide
  distinct := by decide

theorem roundTrips_twoFeeds : twoFeedsOpml.RoundTrips (exportCalls twoFeeds) := by
  have htext : twoFeedsOpml.write (exportCalls twoFeeds) = twoFeedsText := by simp [twoFeedsOpml]
  unfold OpmlText.RoundTrips
  rw [htext]
  unfold twoFeedsOpml
  dsimp only
  rw [if_pos rfl]
  exact ⟨rfl, rfl⟩

theorem describes_nestedText : (twoFeedsOpml.tokenize nestedText).Describes nestedDocument := by
  have hother : nestedText ≠ twoFeedsText := by decide +kernel
  unfold twoFeedsOpml XmlTokens.Describes
  dsimp only
  rw [if_neg hother, if_pos rfl]
  exact ⟨rfl, rfl⟩

/-- Ids of `x`s. -/
def drawnIds (i : Nat) : String := String.ofList (List.replicate (i + 1) 'x')

theorem freshIds_drawnIds : FreshIds { feeds := twoFeeds.take 1 } drawnIds where
  nonempty i := by simp [drawnIds]
  distinct i j h := by simpa [drawnIds] using congrArg String.length h
  unknown i known hknown := by
    rw [List.mem_singleton.mp hknown]
    intro heq
    simpa [drawnIds, List.replicate_succ] using congrArg (fun id => id.toList.head?) heq

/-- The folder is skipped, and the feeds are found in their order. Of the two that are exported one is
known, and both are when the text is imported again. -/
theorem opml_import_twoFeeds :
    Lib.Returns (importFromString twoFeedsOpml toString nestedText)
      { feeds := [{ id := "0", title := "Releases", url := "http://example.org/a" },
          { id := "1", title := "http://example.org/b", url := "http://example.org/b" }]
        skipped := 1 } ∧
    ∃ s', Lib.Returns (onImportOpml "3" oneEntryEnv twoFeedsOpml drawnIds {} { feeds := twoFeeds.take 1 }
        "feeds.opml" (some (exportToString twoFeedsOpml twoFeeds))) (s', .done 1 1 0) ∧
      ∀ uuid', ∃ s'', Lib.Returns (onImportOpml "3" oneEntryEnv twoFeedsOpml uuid' {} s' "feeds.opml"
        (some (exportToString twoFeedsOpml twoFeeds))) (s'', .done 0 2 0) ∧ s''.feeds = s'.feeds := by
  obtain ⟨himport, hexport⟩ := opml_import twoFeedsOpml
  have hnested := himport toString nestedText nestedDocument describes_nestedText
  have hcount : twoFeeds.countP (UnknownUrl { feeds := twoFeeds.take 1 }) = 1 := by decide
  have hmerge := ((hexport twoFeeds exportable_twoFeeds roundTrips_twoFeeds).2 "3" oneEntryEnv {}
    { feeds := twoFeeds.take 1 } "feeds.opml" (by decide)).2 drawnIds freshIds_drawnIds
  rw [hcount] at hmerge
  exact ⟨hnested, hmerge⟩

end TorrentLink.Ui
