import TorrentLink.Base.QString

/-!
# The XML stream reader

`QXmlStreamReader` over a finite token stream. The tokenizer reports the tokens of `rest` one by one
and then either the end of the document or its error (a premature end, or text that is not well
formed). Once invalid, the reader stays invalid.
-/

namespace TorrentLink.Rss

/-- What the tokenizer reports before the end of the input, with the data the parser reads. -/
inductive XmlToken
  | startDocument
  | startElement (name : String) (attributes : List (String × String))
  | endElement (name : String)
  | characters (text : String)
  | entityReference (text : String)
  | comment
  | dtd
  | processingInstruction
  deriving DecidableEq, Repr

/-- What follows the last token. -/
inductive XmlEnding
  | endDocument
  | error (message : String)
  deriving DecidableEq, Repr

/-- The tokens of one input. -/
structure XmlTokens where
  tokens : List XmlToken
  ending : XmlEnding
  deriving DecidableEq, Repr

/-- The reader's `tokenType`. -/
inductive XmlCurrent
  | noToken
  | token (t : XmlToken)
  | endDocument
  | invalid
  deriving DecidableEq, Repr

structure XmlReader where
  current : XmlCurrent := .noToken
  rest : List XmlToken
  ending : XmlEnding
  errorString : Option String := none
  deriving DecidableEq, Repr

namespace XmlReader

/-- The reader at the start of its input. -/
def ofTokens (x : XmlTokens) : XmlReader := { rest := x.tokens, ending := x.ending }

def atEnd (r : XmlReader) : Bool := r.current = .endDocument || r.current = .invalid

def hasError (r : XmlReader) : Bool := r.errorString.isSome

/-- The name of the start element the reader is at. -/
def startName (r : XmlReader) : Option String :=
  match r.current with
  | .token (.startElement n _) => some n
  | _ => none

def isStartElement (r : XmlReader) : Bool := r.startName.isSome

/-- The reader is at an end element of this name. -/
def atEndElement (r : XmlReader) (name : String) : Bool :=
  r.current = .token (.endElement name)

/-- `attributes().value(name)`: the empty string when there is none. -/
def attributeValue (r : XmlReader) (name : String) : String :=
  match r.current with
  | .token (.startElement _ attrs) => (attrs.lookup name).getD ""
  | _ => ""

def raiseError (r : XmlReader) (message : String) : XmlReader :=
  { r with current := .invalid, errorString := some message }

/-- What a read past the last token finds: the end of the document, or the tokenizer's error. -/
def readEnding (r : XmlReader) : XmlReader :=
  match r.ending with
  | .endDocument => { r with current := .endDocument }
  | .error e => r.raiseError e

def readNext (r : XmlReader) : XmlReader :=
  match r.current with
  | .invalid => r
  | .endDocument => r.raiseError "Premature end of document."
  | _ =>
    match r.rest with
    | [] => r.readEnding
    | t :: ts => { r with current := .token t, rest := ts }

/-- `readElementText()` from a start element: the text up to the next end element. Anything else than
text, a comment or a processing instruction raises an error. -/
def readText (r : XmlReader) (acc : String) : List XmlToken → String × XmlReader
  | [] =>
    let r := { r with rest := [] }.readEnding
    (acc, if r.hasError then r else r.raiseError "Expected character data.")
  | t :: ts =>
    let r := { r with current := .token t, rest := ts }
    match t with
    | .characters s | .entityReference s => readText r (acc ++ s) ts
    | .endElement _ => (acc, r)
    | .comment | .processingInstruction => readText r acc ts
    | _ => (acc, r.raiseError "Expected character data.")

def readElementText (r : XmlReader) : String × XmlReader :=
  if r.isStartElement then readText r "" r.rest else ("", r)

/-- `skipCurrentElement()` with `depth` open elements left to close. -/
def skip (r : XmlReader) (depth : Nat) : List XmlToken → XmlReader
  | [] => if depth = 0 then r else { r with rest := [] }.readEnding.readNext
  | t :: ts =>
    if depth = 0 then r else
      let r := { r with current := .token t, rest := ts }
      match t with
      | .endElement _ => skip r (depth - 1) ts
      | .startElement _ _ => skip r (depth + 1) ts
      | _ => skip r depth ts

def skipCurrentElement (r : XmlReader) : XmlReader :=
  if r.current = .invalid then r else skip r 1 r.rest

end XmlReader

end TorrentLink.Rss
