import TorrentLink.Core.Rss.ParserTermination
import TorrentLink.Lib.Forest

/-!
# OPML

`importFromString` scans the tokens of a document for `outline` elements, wherever they stand, and makes
a feed of each one with an `xmlUrl`. Start elements come in the order of the elements of the document,
each before those inside it (`startElements_tags`), so the feeds do too
(`returns_importFromString_document`). `exportToString` writes one `outline` for each feed, and the tags
it writes are those of `opmlDocument`.
-/

namespace TorrentLink.Rss

open Lib

/-! ### Import -/

/-- The calls of `QXmlStreamWriter`. -/
inductive XmlCall
  | writeStartDocument
  | writeStartElement (name : String)
  | writeAttribute (name value : String)
  | writeTextElement (name text : String)
  | writeEndElement
  | writeEndDocument
  deriving DecidableEq, Repr

/-- What OPML takes from Qt. -/
structure OpmlText where
  /-- The tokens that `QXmlStreamReader` finds in the text, with local names. -/
  tokenize : String → XmlTokens
  /-- The text after the calls, with auto-formatting. -/
  write : List XmlCall → String

structure ImportResult where
  feeds : List RssFeed := []
  skipped : Nat := 0
  error : String := ""
  deriving DecidableEq, Repr

def ImportResult.ok (result : ImportResult) : Bool := result.error = ""

variable (q : OpmlText) (uuid : Nat → String)

/-- What the import does at an `outline`. The id of the feed is the next one that is drawn. -/
def importOutline (result : ImportResult) (reader : XmlReader) : ImportResult :=
  let xmlUrl := trimmed (reader.attributeValue "xmlUrl")
  if xmlUrl = "" then { result with skipped := result.skipped + 1 }
  else
    let title := trimmed (reader.attributeValue "title")
    let title := if title = "" then trimmed (reader.attributeValue "text") else title
    let title := if title = "" then xmlUrl else title
    { result with
      feeds := result.feeds ++ [{ id := uuid result.feeds.length, url := xmlUrl, title := title }] }

/-- One turn of the loop of `importFromString`. -/
def importBody (s : ImportResult × XmlReader) : ImportResult × XmlReader :=
  let reader := s.2.readNext
  if reader.startName = some "outline" then (importOutline uuid s.1 reader, reader) else (s.1, reader)

def importLoop (s : ImportResult × XmlReader) : Bounded (ImportResult × XmlReader) :=
  loop (fun s => !s.2.atEnd) (fun s => always (importBody uuid s)) s

/-- The result once the loop has ended. -/
def importFinish (s : ImportResult × XmlReader) : ImportResult :=
  match s.2.errorString with
  | some e => { s.1 with error := "XML parse error: " ++ e }
  | none => s.1

/-- `RssOpml::importFromString` -/
def importFromString (xml : String) : Bounded ImportResult :=
  (importLoop uuid ({}, .ofTokens (q.tokenize xml))).andThen fun s => always (importFinish s)

/-- `RssOpml::importFromFile`, given the text of the file, if it can be opened. -/
def importFromFile (path : String) (text : Option String) : Bounded ImportResult :=
  match text with
  | none => always { error := "Cannot open file: " ++ path }
  | some xml => importFromString q uuid xml

/-! ### Export -/

def outlineCalls (feed : RssFeed) : List XmlCall :=
  [.writeStartElement "outline", .writeAttribute "type" "rss", .writeAttribute "text" feed.title,
    .writeAttribute "title" feed.title, .writeAttribute "xmlUrl" feed.url, .writeEndElement]

def exportCalls (feeds : List RssFeed) : List XmlCall :=
  [.writeStartDocument, .writeStartElement "opml", .writeAttribute "version" "2.0",
    .writeStartElement "head", .writeTextElement "title" "P2P File Downloader RSS Feeds", .writeEndElement,
    .writeStartElement "body"] ++
  feeds.flatMap outlineCalls ++ [.writeEndElement, .writeEndElement, .writeEndDocument]

/-- `RssOpml::exportToString` -/
def exportToString (feeds : List RssFeed) : String := q.write (exportCalls feeds)

/-! ### Documents -/

structure XmlElement where
  name : String
  attributes : List (String × String) := []
  deriving DecidableEq, Repr

/-- The value of an attribute, or the empty text. -/
def XmlElement.value (e : XmlElement) (name : String) : String := (e.attributes.lookup name).getD ""

def isTag : XmlToken → Bool
  | .startElement _ _ => true
  | .endElement _ => true
  | _ => false

/-- The tags of elements and of what they contain. -/
def tags : Forest XmlElement → List XmlToken
  | .nil => []
  | .node e children siblings =>
    .startElement e.name e.attributes :: tags children ++ .endElement e.name :: tags siblings

/-- The tokens are those of the document, with any text between the tags. -/
def XmlTokens.Describes (x : XmlTokens) (doc : Forest XmlElement) : Prop :=
  x.tokens.filter isTag = tags doc ∧ x.ending = .endDocument

def startElement? : XmlToken → Option XmlElement
  | .startElement name attributes => some { name := name, attributes := attributes }
  | _ => none

/-- The elements that a scan of the tokens comes by. -/
def startElements (tokens : List XmlToken) : List XmlElement := tokens.filterMap startElement?

def outlines (elements : List XmlElement) : List XmlElement := elements.filter (·.name = "outline")

def outlineUrl (e : XmlElement) : String := trimmed (e.value "xmlUrl")

/-- The title, or else the text, or else the URL. -/
def outlineTitle (e : XmlElement) : String :=
  if trimmed (e.value "title") ≠ "" then trimmed (e.value "title")
  else if trimmed (e.value "text") ≠ "" then trimmed (e.value "text")
  else outlineUrl e

/-- One feed for each outline with a URL. -/
def outlineFeeds (elements : List XmlElement) : List RssFeed :=
  ((outlines elements).filter (outlineUrl · ≠ "")).mapIdx fun i e =>
    { id := uuid i, url := outlineUrl e, title := outlineTitle e }

def outlinesWithoutUrl (elements : List XmlElement) : Nat :=
  (outlines elements).countP (outlineUrl · = "")

/-! ### The scan -/

/-- The elements of a document are met in their order. -/
theorem startElements_tags (doc : Forest XmlElement) : startElements (tags doc) = doc.items := by
  induction doc with
  | nil => rfl
  | node e children siblings hchildren hsiblings =>
    have hstart : startElement? (.startElement e.name e.attributes) = some e := rfl
    unfold startElements at hchildren hsiblings ⊢
    rw [tags, Forest.items, List.cons_append, List.filterMap_cons_some hstart, List.filterMap_append,
      List.filterMap_cons_none rfl, hchildren, hsiblings]

/-- What is no tag is passed over. -/
theorem startElements_filter (tokens : List XmlToken) :
    startElements (tokens.filter isTag) = startElements tokens := by
  unfold startElements
  rw [List.filterMap_filter]
  congr 1
  funext t
  cases t <;> rfl

/-- The effect of an element on the result. -/
def addOutline (result : ImportResult) (e : XmlElement) : ImportResult :=
  if outlineUrl e = "" then { result with skipped := result.skipped + 1 }
  else
    { result with
      feeds := result.feeds ++
        [{ id := uuid result.feeds.length, url := outlineUrl e, title := outlineTitle e }] }

variable {uuid}

theorem importOutline_eq {reader : XmlReader} {e : XmlElement}
    (hcurrent : reader.current = .token (.startElement e.name e.attributes)) (result : ImportResult) :
    importOutline uuid result reader = addOutline uuid result e := by
  have hvalue : ∀ name, reader.attributeValue name = e.value name := by
    intro name
    rw [XmlReader.attributeValue, hcurrent]
    rfl
  unfold importOutline addOutline outlineTitle outlineUrl
  simp only [hvalue]
  split
  · rfl
  · by_cases htitle : trimmed (e.value "title") = "" <;> by_cases htext : trimmed (e.value "text") = "" <;>
      simp [htitle, htext]

/-- The elements of the first tokens, and of the others. -/
theorem outlines_startElements_cons (t : XmlToken) (ts : List XmlToken) :
    outlines (startElements (t :: ts)) = outlines (startElements [t]) ++ outlines (startElements ts) := by
  unfold outlines startElements
  rw [← List.filter_append, ← List.filterMap_append, List.singleton_append]

/-- A turn of the loop takes one token. -/
theorem importBody_cons {reader : XmlReader} {t : XmlToken} {ts : List XmlToken} (hlive : ¬ Stuck reader)
    (hrest : reader.rest = t :: ts) (result : ImportResult) :
    importBody uuid (result, reader) =
      ((outlines (startElements [t])).foldl (addOutline uuid) result,
        { reader with current := .token t, rest := ts }) := by
  unfold importBody
  dsimp only
  rw [readNext_cons hlive hrest]
  cases t with
  | startElement name attributes =>
    by_cases hname : name = "outline"
    · subst hname
      let e : XmlElement := { name := "outline", attributes := attributes }
      have hstart : XmlReader.startName
          { reader with current := .token (.startElement "outline" attributes), rest := ts } =
            some "outline" := rfl
      have houtlines : outlines (startElements [.startElement "outline" attributes]) = [e] := by
        simp [outlines, startElements, startElement?, e]
      rw [if_pos hstart, importOutline_eq (e := e) rfl, houtlines, List.foldl_cons, List.foldl_nil]
    · rw [if_neg (by simpa [XmlReader.startName] using hname)]
      simp [outlines, startElements, startElement?, hname]
  | _ => rfl

theorem returns_importLoop {tokens : List XmlToken} {reader : XmlReader} (hlive : ¬ Stuck reader)
    (hrest : reader.rest = tokens) (hclean : reader.errorString = none) (result : ImportResult) :
    ∃ reader', Lib.Returns (importLoop uuid (result, reader))
        ((outlines (startElements tokens)).foldl (addOutline uuid) result, reader') ∧
      reader'.errorString = reader.readEnding.errorString := by
  induction tokens generalizing reader result with
  | nil =>
    have hend : importBody uuid (result, reader) = (result, reader.readNext) := by
      unfold importBody
      dsimp only
      rw [startName_stuck (readNext_nil hrest), if_neg (by simp)]
    refine ⟨reader.readNext, ?_, ?_⟩
    · refine Lib.Returns.loop_step (fun _ => stable_always _) ?_ (hend ▸ returns_always _)
        (Lib.Returns.loop_exit ?_)
      · simpa [← atEnd_iff] using hlive
      · simpa using (atEnd_iff _).mpr (readNext_nil hrest)
    · unfold XmlReader.readNext
      split
      · rename_i hinvalid
        exact absurd (.inl hinvalid) hlive
      · rename_i hdone
        exact absurd (.inr hdone) hlive
      · rw [hrest]
  | cons t ts ih =>
    have hbody : importBody uuid (result, reader) = _ := importBody_cons hlive hrest result
    have hlive' : ¬ Stuck { reader with current := .token t, rest := ts } := by simp [Stuck]
    obtain ⟨reader', hreturns, herror⟩ :=
      ih hlive' rfl hclean ((outlines (startElements [t])).foldl (addOutline uuid) result)
    refine ⟨reader', ?_, ?_⟩
    · rw [outlines_startElements_cons, List.foldl_append]
      refine Lib.Returns.loop_step (fun _ => stable_always _) ?_ (hbody ▸ returns_always _) hreturns
      simpa [← atEnd_iff] using hlive
    · rw [herror]
      unfold XmlReader.readEnding
      cases reader.ending <;> rfl

/-- The outlines in their order. -/
theorem foldl_addOutline (elements : List XmlElement) :
    (outlines elements).foldl (addOutline uuid) {} =
      { feeds := outlineFeeds uuid elements, skipped := outlinesWithoutUrl elements } := by
  unfold outlineFeeds outlinesWithoutUrl
  induction outlines elements using List.reverseRecOn with
  | nil => rfl
  | append_singleton es e ih =>
    rw [List.foldl_append, ih, List.foldl_cons, List.foldl_nil, List.filter_append, List.countP_append]
    unfold addOutline
    by_cases hurl : outlineUrl e = ""
    · rw [if_pos hurl, List.filter_singleton, List.countP_singleton]
      simp [hurl]
    · rw [if_neg hurl, List.filter_singleton, List.countP_singleton]
      simp [hurl, List.mapIdx_concat]

/-- The error that the end of the input stands for. -/
def endingError : XmlEnding → String
  | .endDocument => ""
  | .error message => "XML parse error: " ++ message

/-- The import of any text: the outlines before its end or its error, in their order. -/
theorem returns_importFromString (xml : String) : Lib.Returns (importFromString q uuid xml)
    { feeds := outlineFeeds uuid (startElements (q.tokenize xml).tokens)
      skipped := outlinesWithoutUrl (startElements (q.tokenize xml).tokens)
      error := endingError (q.tokenize xml).ending } := by
  have hlive : ¬ Stuck (.ofTokens (q.tokenize xml)) := by simp [Stuck, XmlReader.ofTokens]
  obtain ⟨reader, hreturns, herror⟩ := @returns_importLoop uuid _ _ hlive rfl rfl {}
  refine Lib.Returns.andThen (stable_loop (fun _ => stable_always _) _) (fun _ => stable_always _) hreturns ?_
  rw [foldl_addOutline]
  unfold importFinish
  rw [herror]
  unfold XmlReader.readEnding XmlReader.ofTokens
  dsimp only
  cases (q.tokenize xml).ending <;> exact returns_always _

theorem stable_importFromString (xml : String) : Stable (importFromString q uuid xml) :=
  Stable.andThen (stable_loop (fun _ => stable_always _) _) fun _ => stable_always _

/-- The import of a document. -/
theorem returns_importFromString_document {xml : String} {doc : Forest XmlElement}
    (hdoc : (q.tokenize xml).Describes doc) : Lib.Returns (importFromString q uuid xml)
      { feeds := outlineFeeds uuid doc.items, skipped := outlinesWithoutUrl doc.items } := by
  have himport := @returns_importFromString q uuid xml
  rwa [← startElements_filter, hdoc.1, startElements_tags, hdoc.2] at himport

/-! ### The exported document -/

def outlineElement (feed : RssFeed) : XmlElement where
  name := "outline"
  attributes := [("type", "rss"), ("text", feed.title), ("title", feed.title), ("xmlUrl", feed.url)]

def outlineForest (feeds : List RssFeed) : Forest XmlElement :=
  feeds.foldr (fun feed siblings => .node (outlineElement feed) .nil siblings) .nil

def opmlDocument (feeds : List RssFeed) : Forest XmlElement :=
  let head := Forest.node { name := "head" } (.node { name := "title" } .nil .nil)
  .node { name := "opml", attributes := [("version", "2.0")] }
    (head (.node { name := "body" } (outlineForest feeds) .nil)) .nil

/-- The attributes written right behind a start element. -/
def writtenAttributes : List XmlCall → List (String × String)
  | .writeAttribute name value :: calls => (name, value) :: writtenAttributes calls
  | _ => []

/-- The tags that the calls write, with these elements open. The end of the document closes them all. -/
def writtenTags : List String → List XmlCall → List XmlToken
  | _, [] => []
  | names, .writeStartDocument :: calls => writtenTags names calls
  | names, .writeStartElement name :: calls =>
    .startElement name (writtenAttributes calls) :: writtenTags (name :: names) calls
  | names, .writeAttribute _ _ :: calls => writtenTags names calls
  | names, .writeTextElement name _ :: calls =>
    .startElement name [] :: .endElement name :: writtenTags names calls
  | [], .writeEndElement :: calls => writtenTags [] calls
  | name :: names, .writeEndElement :: calls => .endElement name :: writtenTags names calls
  | names, .writeEndDocument :: _ => names.map .endElement

/-- What is written is well formed, and the reader finds the same tags, with the same attribute values. -/
def OpmlText.RoundTrips (q : OpmlText) (calls : List XmlCall) : Prop :=
  (q.tokenize (q.write calls)).tokens.filter isTag = writtenTags [] calls ∧
    (q.tokenize (q.write calls)).ending = .endDocument

theorem writtenTags_outlineCalls (names : List String) (feed : RssFeed) (calls : List XmlCall) :
    writtenTags names (outlineCalls feed ++ calls) =
      .startElement "outline" (outlineElement feed).attributes :: .endElement "outline" ::
        writtenTags names calls := rfl

theorem writtenTags_flatMap (names : List String) (feeds : List RssFeed) (calls : List XmlCall) :
    writtenTags names (feeds.flatMap outlineCalls ++ calls) =
      tags (outlineForest feeds) ++ writtenTags names calls := by
  induction feeds with
  | nil => rfl
  | cons feed feeds ih =>
    rw [List.flatMap_cons, List.append_assoc, writtenTags_outlineCalls, ih]
    rfl

theorem writtenTags_exportCalls (feeds : List RssFeed) :
    writtenTags [] (exportCalls feeds) = tags (opmlDocument feeds) := by
  have hbody :=
    writtenTags_flatMap ["body", "opml"] feeds [.writeEndElement, .writeEndElement, .writeEndDocument]
  -- the attributes of `body` end where its first outline starts
  have hattributes : writtenAttributes (feeds.flatMap outlineCalls ++
      [.writeEndElement, .writeEndElement, .writeEndDocument]) = [] := by
    cases feeds <;> rfl
  unfold exportCalls
  simp only [List.cons_append, List.nil_append, writtenTags, writtenAttributes]
  rw [hattributes, hbody]
  simp [opmlDocument, tags, writtenTags]

theorem outlines_opmlDocument (feeds : List RssFeed) :
    outlines (opmlDocument feeds).items = feeds.map outlineElement := by
  have hforest : (outlineForest feeds).items = feeds.map outlineElement := by
    induction feeds with
    | nil => rfl
    | cons feed feeds ih => exact congrArg (outlineElement feed :: ·) ih
  have hall : (feeds.map outlineElement).filter (·.name = "outline") = feeds.map outlineElement := by
    rw [List.filter_eq_self]
    intro e he
    obtain ⟨feed, -, rfl⟩ := List.mem_map.mp he
    rfl
  unfold outlines opmlDocument
  simp [Forest.items, hforest, hall]

theorem outlineUrl_outlineElement (feed : RssFeed) :
    outlineUrl (outlineElement feed) = trimmed feed.url := rfl

theorem outlineTitle_outlineElement (feed : RssFeed) : outlineTitle (outlineElement feed) =
    if trimmed feed.title = "" then trimmed feed.url else trimmed feed.title := by
  have htitle : (outlineElement feed).value "title" = feed.title := rfl
  have htext : (outlineElement feed).value "text" = feed.title := rfl
  unfold outlineTitle
  rw [htitle, htext, outlineUrl_outlineElement]
  by_cases hblank : trimmed feed.title = "" <;> simp [hblank]

/-- The feed that an exported one is imported as. -/
def reimported (feed : RssFeed) (id : String) : RssFeed :=
  { id := id, url := feed.url, title := if trimmed feed.title = "" then feed.url else trimmed feed.title }

/-- The import of the exported text. -/
theorem returns_importFromString_export {feeds : List RssFeed}
    (hfeeds : ∀ feed ∈ feeds, trimmed feed.url = feed.url ∧ feed.url ≠ "")
    (hround : q.RoundTrips (exportCalls feeds)) :
    Lib.Returns (importFromString q uuid (exportToString q feeds))
      { feeds := feeds.mapIdx fun i feed => reimported feed (uuid i) } := by
  have hdoc : (q.tokenize (exportToString q feeds)).Describes (opmlDocument feeds) :=
    ⟨hround.1.trans (writtenTags_exportCalls feeds), hround.2⟩
  have himport := @returns_importFromString_document q uuid _ _ hdoc
  have hurls : (feeds.map outlineElement).filter (outlineUrl · ≠ "") = feeds.map outlineElement := by
    rw [List.filter_eq_self]
    intro e he
    obtain ⟨feed, hfeed, rfl⟩ := List.mem_map.mp he
    rw [outlineUrl_outlineElement, (hfeeds feed hfeed).1]
    exact decide_eq_true (hfeeds feed hfeed).2
  have hnone : outlinesWithoutUrl (opmlDocument feeds).items = 0 := by
    rw [outlinesWithoutUrl, outlines_opmlDocument, List.countP_eq_zero]
    intro e he
    rw [← hurls] at he
    simpa using (List.mem_filter.mp he).2
  have hall :
      outlineFeeds uuid (opmlDocument feeds).items = feeds.mapIdx fun i feed => reimported feed (uuid i) := by
    rw [outlineFeeds, outlines_opmlDocument, hurls]
    refine List.ext_getElem (by simp) fun i hi hi' => ?_
    have hlt : i < feeds.length := by simpa using hi'
    have hurl : trimmed feeds[i].url = feeds[i].url := (hfeeds feeds[i] (List.getElem_mem hlt)).1
    simp only [List.getElem_mapIdx, List.getElem_map, outlineUrl_outlineElement, outlineTitle_outlineElement]
    rw [hurl]
    rfl
  rwa [hnone, hall] at himport

end TorrentLink.Rss
