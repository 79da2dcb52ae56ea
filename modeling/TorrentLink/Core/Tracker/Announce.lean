import TorrentLink.Core.Tracker.PeerTable

/-!
# Announce requests

The part of `TrackerWorker::handleRead` that starts from the path and query of a request: the query is
read field by field, the first field that is wrong is named in the reply, and a complete announce changes
the peer table. `QUrlQuery` and the number parsing of Qt are arguments (`QueryEnv`).
-/

namespace TorrentLink.Tracker

/-! ### Replies -/

namespace Bencode

/-- `bencode::encodeInt` -/
def encodeInt (v : Int) : Bytes := latin1 "i" ++ byteNumber v ++ latin1 "e"

/-- `bencode::encodeString` -/
def encodeString (s : Bytes) : Bytes := byteNumber s.length ++ latin1 ":" ++ s

/-- `bencode::encodeAnnounceFailure` -/
def encodeAnnounceFailure (reason : String) : Bytes :=
  latin1 "d" ++ encodeString (latin1 "failure reason") ++ encodeString (toUtf8 reason) ++ latin1 "e"

/-- `bencode::encodeAnnounceOk` -/
def encodeAnnounceOk (intervalSec minIntervalSec complete incomplete : Int)
    (peersCompact : Bytes) : Bytes :=
  latin1 "d" ++ encodeString (latin1 "interval") ++ encodeInt intervalSec ++
    encodeString (latin1 "min interval") ++ encodeInt minIntervalSec ++
    encodeString (latin1 "complete") ++ encodeInt complete ++
    encodeString (latin1 "incomplete") ++ encodeInt incomplete ++
    encodeString (latin1 "peers") ++ encodeString peersCompact ++ latin1 "e"

end Bencode

structure Reply where
  code : Nat
  body : Bytes
  deriving DecidableEq, Repr

def failure (code : Nat) (reason : String) : Reply where
  code := code
  body := Bencode.encodeAnnounceFailure reason

/-! ### The query -/

structure QueryEnv where
  /-- `QUrlQuery::queryItemValue` of the query, read as Latin-1. -/
  queryItemValue : Bytes → String → String
  /-- `QString::toInt`, `none` where it fails. -/
  toInt : String → Option Int
  /-- `QString::toLongLong`, 0 where it fails. -/
  toLongLong : String → Int
  toLower : String → String

def hexValue (b : UInt8) : Option Nat :=
  let ch := b.toNat
  if 48 ≤ ch ∧ ch ≤ 57 then some (ch - 48)
  else if 65 ≤ ch ∧ ch ≤ 70 then some (ch - 55)
  else if 97 ≤ ch ∧ ch ≤ 102 then some (ch - 87)
  else none

/-- A byte that does not start an escape. -/
def plainByte (c : UInt8) : UInt8 := if c = 43 then 32 else c

/-- The byte that an escape stands for. -/
def escaped (c h l : UInt8) : Option UInt8 :=
  if c = 37 then
    match hexValue h, hexValue l with
    | some hi, some lo => some (UInt8.ofNat (hi * 16 + lo))
    | _, _ => none
  else none

def percentDecodeQueryValue : Bytes → Bytes
  | c :: h :: l :: rest =>
    match escaped c h l with
    | some v => v :: percentDecodeQueryValue rest
    | none => plainByte c :: percentDecodeQueryValue (h :: l :: rest)
  | c :: rest => plainByte c :: percentDecodeQueryValue rest
  | [] => []

/-- The first `&`-separated part that starts with the key; empty if there is none. -/
def queryParamRaw (qs key : Bytes) : Bytes :=
  let needle := key ++ latin1 "="
  match (qs.splitOn 38).find? (needle.isPrefixOf ·) with
  | some slice => percentDecodeQueryValue (slice.drop needle.length)
  | none => []

def kAnnounceIntervalSec : Int := 1800
def kMinAnnounceIntervalSec : Int := 900
def kDefaultNumwant : Int := 50

/-- What an announce asks for, with the address that it came from. -/
structure Announce where
  infoHash : Bytes
  peerId : Bytes
  ipv4Host : BitVec 32
  port : BitVec 16
  left : Int
  numwant : Int
  stopped : Bool
  deriving DecidableEq, Repr

variable (env : QueryEnv)

def parseNumwant (qs : Bytes) : Int :=
  let nw := env.queryItemValue qs "numwant"
  if nw ≠ "" then
    match env.toInt nw with
    | some v => if 0 ≤ v then min v kMaxPeersReturn else kDefaultNumwant
    | none => kDefaultNumwant
  else kDefaultNumwant

/-- The checks of `handleRead` from the path on, in their order; `peerAddr` is the client's IPv4 address,
if it has one. -/
def parseAnnounce (peerAddr : Option (BitVec 32)) (pathQuery : Bytes) : Except Reply Announce :=
  if ¬ (latin1 "/announce").isPrefixOf pathQuery then .error (failure 400 "unsupported path")
  else
    match indexOf (latin1 "?") pathQuery with
    | none => .error (failure 200 "missing query")
    | some qmark =>
      let qs := pathQuery.drop (qmark + 1)
      let infoHash := queryParamRaw qs (latin1 "info_hash")
      let peerId := queryParamRaw qs (latin1 "peer_id")
      let compact := env.queryItemValue qs "compact"
      if infoHash.length ≠ 20 then .error (failure 200 "invalid info_hash")
      else if peerId.length ≠ 20 then .error (failure 200 "invalid peer_id")
      else
        match env.toInt (env.queryItemValue qs "port") with
        | none => .error (failure 200 "invalid port")
        | some port =>
          if port ≤ 0 ∨ 65535 < port then .error (failure 200 "invalid port")
          else if compact ≠ "" ∧ compact ≠ "1" then .error (failure 200 "compact=1 required")
          else
            match peerAddr with
            | none => .error (failure 200 "IPv6 not supported")
            | some ipv4Host => .ok
              { infoHash := infoHash
                peerId := peerId
                ipv4Host := ipv4Host
                port := BitVec.ofInt 16 port
                left := env.toLongLong (env.queryItemValue qs "left")
                numwant := parseNumwant env qs
                stopped := env.toLower (env.queryItemValue qs "event") = "stopped" }

/-! ### The announce -/

/-- What a request meets besides its bytes: the client's address, the clock and the random generator. -/
structure Client where
  peerAddr : Option (BitVec 32)
  nowMs : Int
  shuffle : List Peer → List Peer

def Announce.peer (a : Announce) (nowMs : Int) : Peer where
  peerId := a.peerId
  ipv4Host := a.ipv4Host
  port := a.port
  left := a.left
  lastSeenMs := nowMs

/-- The change of the table. -/
def updateTable (nowMs : Int) (t : PeerTable) (a : Announce) : PeerTable :=
  if a.stopped then remove t a.infoHash a.peerId else upsert t a.infoHash (a.peer nowMs)

/-- The reply is made from the changed table. -/
def announceReply (shuffle : List Peer → List Peer) (t : PeerTable) (a : Announce) : Reply where
  code := 200
  body := Bencode.encodeAnnounceOk kAnnounceIntervalSec kMinAnnounceIntervalSec
    (countComplete t a.infoHash) (countIncomplete t a.infoHash)
    (buildCompactPeers shuffle t a.infoHash a.peerId
      (if 0 < a.numwant then a.numwant else kDefaultNumwant))

/-- `handleRead` from the path on. -/
def handlePath (c : Client) (t : PeerTable) (pathQuery : Bytes) : Reply × PeerTable :=
  match parseAnnounce env c.peerAddr pathQuery with
  | .error reply => (reply, t)
  | .ok a =>
    let t := updateTable c.nowMs t a
    (announceReply c.shuffle t a, t)

variable {env} {c : Client} {pathQuery : Bytes}

theorem handlePath_error (t : PeerTable) {reply : Reply}
    (h : parseAnnounce env c.peerAddr pathQuery = .error reply) :
    handlePath env c t pathQuery = (reply, t) := by
  unfold handlePath
  rw [h]

theorem handlePath_ok (t : PeerTable) {a : Announce}
    (h : parseAnnounce env c.peerAddr pathQuery = .ok a) :
    handlePath env c t pathQuery =
      (announceReply c.shuffle (updateTable c.nowMs t a) a, updateTable c.nowMs t a) := by
  unfold handlePath
  rw [h]

end TorrentLink.Tracker
