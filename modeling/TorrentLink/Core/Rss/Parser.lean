import TorrentLink.Core.Rss.Types
import TorrentLink.Core.Rss.XmlStream
import TorrentLink.Lib.Loop

/-!
# The feed parser

`RssParser::parse` with its two formats. The loops over the reader are `Lib.loop`s, so a parse has a
result within a bound or none; the reader's own functions always return.
-/

namespace TorrentLink.Rss

open Lib

/-- What the parser takes from Qt: the tokenizer, regular expressions, dates, URLs and the digest. -/
structure FeedText where
  /-- The tokens `QXmlStreamReader` finds in the bytes. -/
  tokenize : List UInt8 → XmlTokens
  /-- `(magnet:\?[^\s"<>]+)`, the first match. -/
  matchMagnet : String → Option String
  /-- The first `http(s)` URL in the text whose path ends in `.torrent`, with its query. -/
  matchTorrentUrl : String → Option String
  fromRfc2822Date : String → QDateTime
  fromIsoDate : String → QDateTime
  /-- `QDateTime::fromString` with the pattern `ddd, d MMM yyyy HH:mm:ss`. -/
  fromPlainDate : String → QDateTime
  /-- `QUrl`: scheme and path of a valid URL. -/
  url : String → Option (String × String)
  toLower : String → String
  /-- SHA-256 of the UTF-8 bytes, in hexadecimal. -/
  sha256Hex : String → String

variable (q : FeedText)

/-! ### Pieces of an item -/

def stableItemId (feedId guid link title : String) : String :=
  if guid ≠ "" then
    String.ofList ((q.sha256Hex (feedId ++ "|" ++ guid)).toList.take 32)
  else
    String.ofList ((q.sha256Hex (feedId ++ "|" ++ link ++ "|" ++ title)).toList.take 32)

def extractMagnetFromText (text : String) : String := (q.matchMagnet text).getD ""

def parseDateTime (text : String) : QDateTime :=
  let dt := q.fromRfc2822Date text
  if dt.isValid then dt else
    let dt := q.fromIsoDate text
    if dt.isValid then dt else q.fromPlainDate text

def isHttpOrHttpsScheme (scheme : String) : Bool :=
  let s := q.toLower scheme
  s = "http" || s = "https"

def looksLikeTorrentHttpUrl (urlText : String) : Bool :=
  if urlText = "" then false else
    match q.url urlText with
    | none => false
    | some (scheme, path) => isHttpOrHttpsScheme q scheme && endsWithCI path ".torrent"

def mimeTypeLooksLikeTorrent (mime : String) : Bool :=
  let m := q.toLower mime
  containsText m "bittorrent" || containsText m "x-bittorrent"

def extractFirstTorrentHttpUrlFromText (text : String) : String :=
  if text = "" then "" else
    match q.matchTorrentUrl text with
    | none => ""
    | some u => if looksLikeTorrentHttpUrl q u then u else ""

def fillTorrentUrlFromBodyIfNeeded (item : RssItem) : RssItem :=
  if item.torrentUrl ≠ "" then item else
    let t := extractFirstTorrentHttpUrlFromText q item.summary
    let t := if t = "" then extractFirstTorrentHttpUrlFromText q item.link else t
    if t ≠ "" then { item with torrentUrl := t } else item

/-- What both formats do after an item's last element. -/
def finishItem (feedId : String) (item : RssItem) : RssItem :=
  let item :=
    if item.magnet ≠ "" then item else
      let candidate := extractMagnetFromText q item.link
      let candidate := if candidate = "" then extractMagnetFromText q item.summary else candidate
      if candidate ≠ "" then { item with magnet := candidate } else item
  let item := fillTorrentUrlFromBodyIfNeeded q item
  { item with id := stableItemId q feedId item.guid item.link item.title }

/-! ### One element of an item -/

/-- The body of the inner loop of `parseRss2` after `readNext`, at the start element `tag`. -/
def rss2Element (tag : String) (item : RssItem) (xml : XmlReader) : RssItem × XmlReader :=
  if tag = "title" then
    let (text, xml) := xml.readElementText
    ({ item with title := trimmed text }, xml)
  else if tag = "link" then
    let (text, xml) := xml.readElementText
    let text := trimmed text
    if startsWithCI text "magnet:" then ({ item with magnet := text }, xml)
    else if looksLikeTorrentHttpUrl q text then
      ({ item with torrentUrl := text, link := text }, xml)
    else ({ item with link := text }, xml)
  else if tag = "guid" then
    let (text, xml) := xml.readElementText
    ({ item with guid := trimmed text }, xml)
  else if tag = "description" then
    let (text, xml) := xml.readElementText
    ({ item with summary := trimmed text }, xml)
  else if tag = "pubDate" then
    let (text, xml) := xml.readElementText
    ({ item with publishedAt := parseDateTime q (trimmed text) }, xml)
  else if tag = "enclosure" then
    let url := trimmed (xml.attributeValue "url")
    let encType := trimmed (xml.attributeValue "type")
    let torrentByMime := mimeTypeLooksLikeTorrent q encType
    let item :=
      if startsWithCI url "magnet:" then { item with magnet := url }
      else if endsWithCI url ".torrent" || torrentByMime || looksLikeTorrentHttpUrl q url then
        if item.torrentUrl = "" then { item with torrentUrl := url } else item
      else item
    (item, xml.skipCurrentElement)
  else (item, xml.skipCurrentElement)

/-- The body of the inner loop of `parseAtom` after `readNext`, at the start element `tag`. -/
def atomElement (tag : String) (item : RssItem) (xml : XmlReader) : RssItem × XmlReader :=
  if tag = "title" then
    let (text, xml) := xml.readElementText
    ({ item with title := trimmed text }, xml)
  else if tag = "link" then
    let href := trimmed (xml.attributeValue "href")
    let linkType := trimmed (xml.attributeValue "type")
    let torrentByMime := mimeTypeLooksLikeTorrent q linkType
    let item :=
      if startsWithCI href "magnet:" then { item with magnet := href }
      else if endsWithCI href ".torrent" || torrentByMime || looksLikeTorrentHttpUrl q href then
        let item := if item.torrentUrl = "" then { item with torrentUrl := href } else item
        if item.link = "" then { item with link := href } else item
      else if item.link = "" then { item with link := href }
      else item
    -- the reader is still at the start element here, so the source's `isEndElement` test is false
    (item, xml.skipCurrentElement)
  else if tag = "id" then
    let (text, xml) := xml.readElementText
    ({ item with guid := trimmed text }, xml)
  else if tag = "summary" ∨ tag = "content" then
    let (text, xml) := xml.readElementText
    ({ item with summary := trimmed text }, xml)
  else if tag = "published" ∨ tag = "updated" then
    if !item.publishedAt.isValid then
      let (text, xml) := xml.readElementText
      ({ item with publishedAt := parseDateTime q (trimmed text) }, xml)
    else (item, xml.skipCurrentElement)
  else (item, xml.skipCurrentElement)

/-! ### The loops -/

/-- The two formats, which differ in the name of an item's element and in its body. -/
inductive FeedFormat
  | rss2 | atom
  deriving DecidableEq, Repr

def FeedFormat.itemTag : FeedFormat → String
  | .rss2 => "item"
  | .atom => "entry"

def FeedFormat.element (format : FeedFormat) (tag : String) (item : RssItem) (xml : XmlReader) :
    RssItem × XmlReader :=
  match format with
  | .rss2 => rss2Element q tag item xml
  | .atom => atomElement q tag item xml

structure ParseResult where
  ok : Bool := false
  items : List RssItem := []
  error : String := ""
  deriving DecidableEq, Repr

/-- One turn of the loop over the elements of an item. -/
def itemBody (format : FeedFormat) (s : RssItem × XmlReader) : RssItem × XmlReader :=
  let xml := s.2.readNext
  match xml.startName with
  | none => (s.1, xml)
  | some tag => format.element q tag s.1 xml

/-- The loop over the elements of an item, left at the item's end element only. -/
def itemLoop (format : FeedFormat) (s : RssItem × XmlReader) : Bounded (RssItem × XmlReader) :=
  loop (fun s => !s.2.atEndElement format.itemTag) (fun s => always (itemBody q format s)) s

/-- One turn of the loop over the items. -/
def feedBody (format : FeedFormat) (feedId : String) (s : List RssItem × XmlReader) :
    Bounded (List RssItem × XmlReader) :=
  let xml := s.2.readNext
  if xml.startName = some format.itemTag then
    (itemLoop q format ({ feedId := feedId }, xml)).andThen fun r =>
      always (s.1 ++ [finishItem q feedId r.1], r.2)
  else always (s.1, xml)

def feedLoop (format : FeedFormat) (feedId : String) (s : List RssItem × XmlReader) :
    Bounded (List RssItem × XmlReader) :=
  loop (fun s => !s.2.atEnd) (feedBody q format feedId) s

/-- The parse result once the items are read. -/
def feedResult (s : List RssItem × XmlReader) : ParseResult :=
  match s.2.errorString with
  | some e => { ok := !s.1.isEmpty, items := s.1, error := e }
  | none => { ok := true, items := s.1 }

/-- `parseRss2` and `parseAtom`: one function of the format. -/
def parseFeed (format : FeedFormat) (feedId : String) (xml : XmlReader) : Bounded ParseResult :=
  (feedLoop q format feedId ([], xml)).andThen fun s => always (feedResult s)

def parseRss2 (feedId : String) (xml : XmlReader) : Bounded ParseResult :=
  parseFeed q .rss2 feedId xml

def parseAtom (feedId : String) (xml : XmlReader) : Bounded ParseResult :=
  parseFeed q .atom feedId xml

/-- The format a root element stands for. -/
def rootFormat (name : String) : Option FeedFormat :=
  if name = "rss" ∨ name = "channel" then some .rss2
  else if name = "feed" then some .atom
  else none

/-- The loop that looks for the root element: it stops at one it knows, or at the end. -/
def rootLoop (xml : XmlReader) : Bounded XmlReader :=
  loop (fun xml => !xml.atEnd && (xml.startName.bind rootFormat).isNone)
    (fun xml => always xml.readNext) xml

/-- What the root element decides. -/
def parseRoot (feedId : String) (xml : XmlReader) : Bounded ParseResult :=
  match xml.startName.bind rootFormat with
  | some .rss2 => parseRss2 q feedId xml
  | some .atom => parseAtom q feedId xml
  | none => always { ok := false, error := "Unrecognized feed format (not RSS 2.0 or Atom)" }

/-- `RssParser::parse`. -/
def parse (feedId : String) (xmlData : List UInt8) : Bounded ParseResult :=
  if xmlData = [] then always { ok := false, error := "Empty XML data" } else
    (rootLoop (.ofTokens (q.tokenize xmlData))).andThen (parseRoot q feedId)

end TorrentLink.Rss
