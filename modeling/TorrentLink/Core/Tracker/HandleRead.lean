import TorrentLink.Core.Tracker.Announce

/-!
# Reading a request

`TrackerWorker::handleRead`: the bytes of a socket are collected until they hold the end of a header, or
are too many; then the first line is taken as the request line. The end of the header is searched in what
has arrived, CRLF CRLF before LF LF, and the end of the line is searched against it.
-/

namespace TorrentLink.Tracker

def kMaxRequestBytes : Nat := 2 ^ 20
def kMaxHeaderBytes : Nat := 8192

def crlfcrlf : Bytes := latin1 "\r\n\r\n"
def lflf : Bytes := latin1 "\n\n"
def crlf : Bytes := latin1 "\r\n"
def lf : Bytes := latin1 "\n"

/-- `hdr_end` -/
def headerEnd (buf : Bytes) : Option Nat := (indexOf crlfcrlf buf).or (indexOf lflf buf)

/-- `req_line_end` -/
def requestLineEnd (buf : Bytes) (hdrEnd : Nat) : Option Nat :=
  match indexOf crlf buf with
  | some e => if hdrEnd < e then indexOf lf buf else some e
  | none => indexOf lf buf

/-- The bytes of the request line, `none` for a bad request. -/
def requestLine (buf : Bytes) (hdrEnd : Nat) : Option Bytes :=
  match requestLineEnd buf hdrEnd with
  | some e => if e = 0 ∨ hdrEnd < e then none else some (buf.take e)
  | none => none

inductive LineKind
  | badRequest | methodNotAllowed | badRequestLine
  | target (pathQuery : Bytes)
  deriving DecidableEq, Repr

/-- What a request line is found to be. -/
def lineKind : Option Bytes → LineKind
  | none => .badRequest
  | some line =>
    let first := trimmedBytes line
    if ¬ (latin1 "GET ").isPrefixOf first then .methodNotAllowed
    else
      match indexOfFrom (latin1 " ") 4 first with
      | none => .badRequestLine
      | some sp2 => .target ((first.drop 4).take (sp2 - 4))

/-- `writeHttp` -/
def writeHttp (r : Reply) : Bytes :=
  latin1 "HTTP/1.0 " ++ byteNumber r.code ++ latin1 (if r.code = 200 then " OK" else " Error") ++
    latin1 "\r\nContent-Type: text/plain\r\nContent-Length: " ++ byteNumber r.body.length ++
    latin1 "\r\n\r\n" ++ r.body

def tooLarge : Reply := failure 400 "request too large"

variable (env : QueryEnv) (c : Client) (t : PeerTable)

def handleLine : LineKind → Reply × PeerTable
  | .badRequest => (failure 400 "bad request", t)
  | .methodNotAllowed => (failure 400 "method not allowed", t)
  | .badRequestLine => (failure 400 "bad request line", t)
  | .target pathQuery => handlePath env c t pathQuery

/-- What `handleRead` does with the bytes that have arrived; `none` if it waits for more. -/
def handleBuffer (buf : Bytes) : Option (Reply × PeerTable) :=
  if kMaxRequestBytes < buf.length then some (tooLarge, t)
  else
    match headerEnd buf with
    | none => if kMaxHeaderBytes < buf.length then some (tooLarge, t) else none
    | some hdrEnd => some (handleLine env c t (lineKind (requestLine buf hdrEnd)))

/-- The bytes of the response, and the table as the request leaves it. -/
def respond (buf : Bytes) : Option (Bytes × PeerTable) :=
  (handleBuffer env c t buf).map fun r => (writeHttp r.1, r.2)

/-! ### A connection -/

/-- A socket: its entry of `read_buffers_`, and the first response with the change of the table. -/
structure Connection where
  buffer : Bytes := []
  response : Option (Bytes × PeerTable) := none

/-- `handleRead`; what comes in after the response belongs to no request. -/
def handleRead (s : Connection) (segment : Bytes) : Connection :=
  if s.response.isSome then s
  else
    let buf := s.buffer ++ segment
    match respond env c t buf with
    | none => { buffer := buf }
    | some response => { buffer := [], response := some response }

/-- The first response to bytes that arrive in these segments. -/
def firstResponse (segments : List Bytes) : Option (Bytes × PeerTable) :=
  (segments.foldl (handleRead env c t) {}).response

end TorrentLink.Tracker
