import Mathlib.Algebra.Ring.Int.Defs
import TorrentLink.Base.Io
import TorrentLink.Core.TaskAddBuilder

/-!
# The libtorrent session

What the worker relies on. Calls that add or remove a torrent are queued and executed in the order in
which they were made; their outcomes are posted as alerts. libtorrent itself is not in the source, so its
answers are choices: whether an add gives a torrent that is there, makes a new one or fails
(`AddOutcome`), which info-hashes metadata reveals, and which of the posted alerts is handled next. What
is proved of the worker is proved for all of them. A torrent that is given to an add keeps its flags;
flags and limits are changed by the worker's own calls only.

A torrent's handle is the number of the add that created it. Five things are kept for the statements and
are read by no operation: what an add is for (`AddPurpose`), the info-hashes that a torrent has had, the
adds that it was given to, the adds that succeeded, and the torrents that a cancelled preparation took
out.
-/

namespace TorrentLink.Lt

variable {H : Type}

/-- The flags of a torrent that the worker sets. -/
structure TorrentFlags where
  paused : Bool := false
  autoManaged : Bool := false
  uploadMode : Bool := false
  stopWhenReady : Bool := false
  sequentialDownload : Bool := false
  noVerifyFiles : Bool := false
  deriving DecidableEq, Repr

/-- `torrent_flags::default_flags`: a new torrent is paused until the queue starts it. -/
def defaultFlags : TorrentFlags := { paused := true, autoManaged := true }

/-- `torrent_info`, without the info-hashes, which stand beside it. -/
structure TorrentInfo where
  name : String := ""
  comment : String := ""
  creator : String := ""
  creationDate : Int := 0
  files : List (String × Int) := []
  numPieces : Int := 0
  pieceLength : Int := 0
  priv : Bool := false
  deriving DecidableEq, Repr

def TorrentInfo.totalSize (ti : TorrentInfo) : Int := (ti.files.map (·.2)).sum

/-- What an add is for: its number, whether it adds a task (and not the torrent of a preparation),
whether it was asked to start paused, and whether options wait for its alert. -/
structure AddPurpose where
  serial : Nat := 0
  task : Bool := true
  startPaused : Bool := false
  storesOpts : Bool := false
  deriving DecidableEq, Repr

/-- `add_torrent_params` -/
structure AddParams (H : Type) where
  infoHashes : H
  name : String := ""
  ti : Option TorrentInfo := none
  savePath : String := ""
  trackers : List String := []
  flags : TorrentFlags := defaultFlags
  filePriorities : List UInt8 := []
  maxConnections : Int := -1
  purpose : AddPurpose := {}
  deriving DecidableEq, Repr

/-- `torrent_handle` -/
abbrev Handle := Nat

structure Torrent (H : Type) where
  infoHashes : H
  flags : TorrentFlags
  hasMetadata : Bool := false
  info : Option TorrentInfo := none
  maxConnections : Int := -1
  /-- The info-hashes that it was added under or has had. -/
  had : List H := []
  /-- The numbers of the adds that it was given to. -/
  adds : List Nat := []
  asTask : Bool := false
  deriving DecidableEq, Repr

/-- The torrent that an add creates. -/
def newTorrent (p : AddParams H) : Torrent H :=
  { infoHashes := p.infoHashes
    flags := p.flags
    hasMetadata := p.ti.isSome
    info := p.ti
    maxConnections := p.maxConnections
    had := [p.infoHashes]
    adds := [p.purpose.serial]
    asTask := p.purpose.task }

/-- A torrent that is there is given to an add. -/
def Torrent.give (t : Torrent H) (p : AddParams H) : Torrent H :=
  { t with
    had := t.had ++ [p.infoHashes]
    adds := t.adds ++ [p.purpose.serial]
    asTask := t.asTask || p.purpose.task }

/-- Metadata arrives, and with it the info-hashes. -/
def Torrent.reveal (t : Torrent H) (info : Option TorrentInfo) (infoHashes : H) : Torrent H :=
  { t with
    infoHashes := infoHashes
    hasMetadata := true
    info := info
    had := t.had ++ [infoHashes] }

/-- What an add comes to. -/
inductive AddOutcome
  /-- The torrent that the session has under this handle. -/
  | found (h : Handle)
  | created
  | failed (message : String)
  deriving DecidableEq, Repr

inductive SessionOp (H : Type)
  | add (p : AddParams H)
  | remove (h : Handle) (byCancel : Bool)
  deriving DecidableEq, Repr

inductive Alert (H : Type)
  | added (p : AddParams H) (h : Handle)
  | addFailed (p : AddParams H) (message : String)
  | removed (infoHashes : H) (h : Handle)
  | metadataReceived (h : Handle)
  | metadataFailed (h : Handle)
  deriving DecidableEq, Repr

structure Session (H : Type) where
  torrents : Map Handle (Torrent H) := ∅
  /-- The queue of the session, first torrent first. -/
  queue : List Handle := []
  ops : List (SessionOp H) := []
  alerts : List (Alert H) := []
  nextSerial : Nat := 0
  /-- With the handles of their torrents. -/
  succeeded : List (AddParams H × Handle) := []
  cancelled : List (Torrent H) := []

namespace Session

/-- `async_add_torrent` -/
def asyncAddTorrent (s : Session H) (p : AddParams H) : Session H :=
  { s with
    ops := s.ops ++ [.add { p with purpose := { p.purpose with serial := s.nextSerial } }]
    nextSerial := s.nextSerial + 1 }

/-- `remove_torrent` -/
def removeTorrent (s : Session H) (h : Handle) (byCancel : Bool) : Session H :=
  { s with ops := s.ops ++ [.remove h byCancel] }

/-- `torrent_handle::is_valid` -/
def isValid (s : Session H) (h : Handle) : Bool := (s.torrents.lookup h).isSome

/-- A call on a handle; nothing happens if its torrent is gone. -/
def modify (s : Session H) (h : Handle) (f : Torrent H → Torrent H) : Session H :=
  match s.torrents.lookup h with
  | some t => { s with torrents := s.torrents.insert h (f t) }
  | none => s

def setFlags (s : Session H) (h : Handle) (f : TorrentFlags → TorrentFlags) : Session H :=
  s.modify h fun t => { t with flags := f t.flags }

def setMaxConnections (s : Session H) (h : Handle) (limit : Int) : Session H :=
  s.modify h fun t => { t with maxConnections := limit }

def queuePositionTop (s : Session H) (h : Handle) : Session H :=
  if s.isValid h then { s with queue := h :: s.queue.erase h } else s

/-- An add is answered with a torrent that is there. -/
def afterFound (s : Session H) (rest : List (SessionOp H)) (p : AddParams H) (h : Handle)
    (t : Torrent H) : Session H :=
  { s with
    ops := rest
    torrents := s.torrents.insert h (t.give p)
    alerts := s.alerts ++ [.added p h]
    succeeded := s.succeeded ++ [(p, h)] }

/-- An add is answered with a new torrent. -/
def afterAdd (s : Session H) (rest : List (SessionOp H)) (p : AddParams H) : Session H :=
  { s with
    ops := rest
    torrents := s.torrents.insert p.purpose.serial (newTorrent p)
    queue := s.queue ++ [p.purpose.serial]
    alerts := s.alerts ++ [.added p p.purpose.serial]
    succeeded := s.succeeded ++ [(p, p.purpose.serial)] }

def afterFail (s : Session H) (rest : List (SessionOp H)) (p : AddParams H) (message : String) :
    Session H :=
  { s with ops := rest, alerts := s.alerts ++ [.addFailed p message] }

def afterRemove (s : Session H) (rest : List (SessionOp H)) (h : Handle) (byCancel : Bool)
    (t : Torrent H) : Session H :=
  { s with
    ops := rest
    torrents := s.torrents.erase h
    queue := s.queue.erase h
    alerts := s.alerts ++ [.removed t.infoHashes h]
    cancelled := if byCancel then s.cancelled ++ [t] else s.cancelled }

/-- The session executes the first queued call, an add with this outcome. -/
def exec (s : Session H) (outcome : AddOutcome) : Session H :=
  match s.ops with
  | [] => s
  | .add p :: rest =>
    match outcome with
    | .found h =>
      match s.torrents.lookup h with
      | some t => s.afterFound rest p h t
      | none => s
    | .created => s.afterAdd rest p
    | .failed message => s.afterFail rest p message
  | .remove h byCancel :: rest =>
    match s.torrents.lookup h with
    | some t => s.afterRemove rest h byCancel t
    | none => { s with ops := rest }

/-- Metadata arrives for a torrent, or turns out to be bad. -/
def receiveMetadata (s : Session H) (h : Handle) (info : Option TorrentInfo) (infoHashes : H) :
    Session H :=
  match s.torrents.lookup h with
  | some t =>
    { s with
      torrents := s.torrents.insert h (t.reveal info infoHashes)
      alerts := s.alerts ++ [.metadataReceived h] }
  | none => s

def failMetadata (s : Session H) (h : Handle) : Session H :=
  if s.isValid h then { s with alerts := s.alerts ++ [.metadataFailed h] } else s

end Session

/-! ### Adds in flight -/

/-- The parameters of an add. -/
def SessionOp.params : SessionOp H → Option (AddParams H)
  | .add p => some p
  | .remove _ _ => none

/-- The add that an alert says to have succeeded. -/
def Alert.params : Alert H → Option (AddParams H)
  | .added p _ => some p
  | _ => none

/-- The adds whose alerts have not been handled, without those that failed. -/
def Session.inFlight (s : Session H) : List (AddParams H) :=
  s.ops.filterMap SessionOp.params ++ s.alerts.filterMap Alert.params

/-! ### Hashes in common -/

/-- When two info-hashes have a hash in common. -/
structure Sharing (H : Type) where
  shares : H → H → Bool
  comm : ∀ a b, shares a b = shares b a

end TorrentLink.Lt
