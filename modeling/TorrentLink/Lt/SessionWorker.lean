import TorrentLink.Lib.Runs
import TorrentLink.Lt.Session
import TorrentLink.Lt.TaskEventMapper

/-!
# The session worker

The worker thread takes commands from a queue that any caller may fill, hands them to the libtorrent
session, and handles the session's alerts. Its maps are keyed by the task id itself, where the source
uses the id's text. `step` is one atomic step of the whole system: a caller posts a command or gives up
waiting, the worker handles one command or one alert or polls, the session executes one queued call or
gets a torrent's metadata. The worker's loop is one of its schedules, and what libtorrent is documented to
answer (`Documented`) is one of the ways in which the session may answer.

Four things are kept for the statements and are read by no handler: the add that stored pending
options, the adds and torrents that a limit was set for, the intents that were expressed, and the latest
limit for each id.
-/

namespace TorrentLink.Lt

open Lib

variable {H : Type}

/-- What the worker takes from libtorrent and Qt. -/
structure WorkerEnv (H : Type) where
  qt : QtInput
  /-- `parse_magnet_uri` -/
  parseMagnetUri : String → Option (AddParams H)
  /-- The `torrent_info` of a file, with its info-hashes. -/
  loadTorrentFile : String → Option (H × TorrentInfo)
  /-- `read_resume_data` -/
  readResumeData : Bytes → Option (AddParams H)
  /-- `taskIdFromInfoHashes` -/
  taskIdFromInfoHashes : H → TaskId
  /-- `taskIdKey` -/
  taskIdKey : TaskId → String
  toHexV1 : H → String
  toHexV2 : H → String
  makeMagnetUri : H → String
  /-- The path of the exported file, empty if it could not be written. -/
  exportTorrentInfoToFile : TorrentInfo → String → String → String
  /-- The info-hashes of a handle whose torrent is gone. -/
  emptyInfoHashes : H

abbrev PromiseId := Nat

/-- `SessionWorker::MagnetMetadata` -/
structure MagnetMetadata where
  taskId : TaskId := 0
  name : String := ""
  totalBytes : Int := 0
  creationDate : Int := 0
  infoHashV1 : String := ""
  infoHashV2 : String := ""
  comment : String := ""
  filePaths : List String := []
  fileSizes : List Int := []
  exportedTorrentPath : String := ""
  deriving DecidableEq, Repr

/-- The promise of a `prepareMagnetMetadata` call: the values it was set to, and whether its caller
has stopped waiting. -/
structure Promise where
  taskId : TaskId
  values : List (Option MagnetMetadata) := []
  timedOut : Bool := false
  deriving DecidableEq, Repr

inductive Cmd
  | addMagnet (uri savePath : String) (trackers : List String)
  | prepareMagnetMetadata (uri tempSavePath : String) (trackers : List String) (done : PromiseId)
  | cancelPreparedMagnet (taskId : TaskId)
  | finalizePreparedMagnet (taskId : TaskId) (savePath : String) (trackers : List String)
      (opts : AddTorrentOptions)
  | addTorrentFile (filePath savePath : String) (trackers : List String)
      (opts : Option AddTorrentOptions)
  | addFromResumeData (resumeData : Bytes) (startPaused : Bool)
  | pause (taskId : TaskId)
  | resume (taskId : TaskId)
  | forceStart (taskId : TaskId)
  | remove (taskId : TaskId) (removeFiles : Bool)
  | setAutoManaged (taskId : TaskId) (enabled : Bool)
  | setDefaultPerTorrentConnectionsLimit (limit : Int)
  | setTaskConnectionsLimit (taskId : TaskId) (limit : Int)
  deriving DecidableEq, Repr

structure PendingMagnetMetaEntry where
  done : PromiseId
  tempSavePath : String
  magnetUri : String
  deriving DecidableEq, Repr

/-- Options waiting for the alert of an add. -/
structure PendingOpts where
  opts : AddTorrentOptions
  serial : Nat
  deriving DecidableEq, Repr

/-- A task's own limit, and the numbers of the adds it was set for: those in flight under its id, and
those that brought up the torrents known under it. -/
structure TaskLimit where
  limit : Int
  owners : List Nat
  deriving DecidableEq, Repr

/-- Whom an intent is for: the torrent that an add is answered with, or that of a task id. -/
inductive IntentFor
  | add (serial : Nat)
  | task (taskId : TaskId)
  deriving DecidableEq, Repr

/-- Someone wants a torrent to be paused, or to run. -/
structure Intent where
  whose : IntentFor
  paused : Bool
  deriving DecidableEq, Repr

structure Worker (H : Type) where
  cmds : List Cmd := []
  handlesByTaskId : Map TaskId Handle := ∅
  defaultPerTorrentConnectionsLimit : Int := 0
  perTaskConnectionsLimit : Map TaskId TaskLimit := ∅
  pendingAddOpts : Map TaskId PendingOpts := ∅
  preparedTorrentInfo : Map TaskId (H × TorrentInfo) := ∅
  pendingMagnetMeta : Map TaskId PendingMagnetMetaEntry := ∅
  session : Session H := {}
  promises : List Promise := []
  views : List LtAlertView := []
  /-- The latest first. -/
  intents : List Intent := []
  limitsSet : Map TaskId TaskLimit := ∅

variable (env : WorkerEnv H)

/-! ### Helpers of the handlers -/

/-- The task id of an add. -/
def AddParams.taskId (p : AddParams H) : TaskId := env.taskIdFromInfoHashes p.infoHashes

/-- The task id of `handle.info_hashes()`. -/
def handleTaskId (s : Session H) (h : Handle) : TaskId :=
  env.taskIdFromInfoHashes (((s.torrents.lookup h).map (·.infoHashes)).getD env.emptyInfoHashes)

/-- A command that has this id means the torrent. -/
def Torrent.knownAs (t : Torrent H) (k : TaskId) : Bool :=
  t.had.any fun ih => env.taskIdFromInfoHashes ih = k

/-- Whom a limit for this id is set for. -/
def Session.owners (s : Session H) (k : TaskId) : List Nat :=
  (s.inFlight.filter fun p => p.taskId env = k).map (·.purpose.serial) ++
    (s.torrents.entries.filter fun e => e.2.knownAs env k).map (·.1)

/-- `done->set_value(value)` -/
def Worker.setValue (s : Worker H) (done : PromiseId) (value : Option MagnetMetadata) : Worker H :=
  { s with promises := s.promises.modify done fun pr => { pr with values := pr.values ++ [value] } }

def hasActiveTaskForInfoHashes (s : Worker H) (ih : H) : Bool :=
  match s.handlesByTaskId.lookup (env.taskIdFromInfoHashes ih) with
  | some h => s.session.isValid h
  | none => false

def duplicateRejectedMessage : String := "任务已存在（相同 info-hash），已忽略重复添加"

def emitDuplicateRejected (s : Worker H) (ih : H) : Worker H :=
  { s with views := s.views ++ [
      { type := .duplicateRejected
        taskId := env.taskIdFromInfoHashes ih
        message := duplicateRejectedMessage }] }

/-- The flags and priorities that the add handlers take from the options. -/
def applyAddOptions (p : AddParams H) (opts : AddTorrentOptions) : AddParams H :=
  { p with
    flags := { p.flags with
      paused := p.flags.paused || !opts.startTorrent
      stopWhenReady := p.flags.stopWhenReady || opts.stopWhenReady
      sequentialDownload := p.flags.sequentialDownload || opts.sequentialDownload
      noVerifyFiles := p.flags.noVerifyFiles || opts.skipHashCheck }
    filePriorities := if opts.filePriorities = [] then p.filePriorities else opts.filePriorities }

/-- `ses.async_add_torrent` of a task. -/
def addTask (s : Worker H) (p : AddParams H) : Worker H :=
  { s with
    session := s.session.asyncAddTorrent p
    intents := ⟨.add s.session.nextSerial, p.purpose.startPaused⟩ :: s.intents }

/-- `pendingAddOpts[key] = opts`, then the add. -/
def addTaskWithOpts (s : Worker H) (p : AddParams H) (opts : AddTorrentOptions) : Worker H :=
  let s := { s with
    pendingAddOpts := s.pendingAddOpts.insert (p.taskId env) ⟨opts, s.session.nextSerial⟩ }
  addTask s { p with
    purpose := { task := true, startPaused := !opts.startTorrent, storesOpts := true } }

/-- `ses.remove_torrent` of the handle under a task id, if there is one. -/
def removeHandle (s : Worker H) (taskId : TaskId) (byCancel : Bool) : Worker H :=
  { s with session :=
      match s.handlesByTaskId.lookup taskId with
      | some h => s.session.removeTorrent h byCancel
      | none => s.session }

/-- A call on the handle under a task id. -/
def setHandleFlags (s : Worker H) (taskId : TaskId) (f : TorrentFlags → TorrentFlags) : Worker H :=
  { s with session :=
      match s.handlesByTaskId.lookup taskId with
      | some h => s.session.setFlags h f
      | none => s.session }

/-! ### Commands -/

def handleAddMagnet (s : Worker H) (uri savePath : String) (trackers : List String) : Worker H :=
  let uri := trimmed uri
  if (validateMagnetUri uri).isSome then s
  else
    match env.parseMagnetUri uri with
    | none => s
    | some atp =>
      if hasActiveTaskForInfoHashes env s atp.infoHashes then
        emitDuplicateRejected env s atp.infoHashes
      else
        addTask s { atp with
          savePath := savePath
          trackers := atp.trackers ++ sanitizeTrackers env.qt trackers
          flags := { atp.flags with autoManaged := true }
          purpose := {} }

def handlePrepareMagnetMetadata (s : Worker H) (uri tempSavePath : String) (trackers : List String)
    (done : PromiseId) : Worker H :=
  let uri := trimmed uri
  if (validateMagnetUri uri).isSome then s.setValue done none
  else
    match env.parseMagnetUri uri with
    | none => s.setValue done none
    | some atp =>
      if hasActiveTaskForInfoHashes env s atp.infoHashes then
        (emitDuplicateRejected env s atp.infoHashes).setValue done none
      else
        -- fetching metadata only: no data is downloaded, and the queue must not pause the torrent
        let atp := { atp with
          savePath := tempSavePath
          trackers := atp.trackers ++ sanitizeTrackers env.qt trackers
          flags := { uploadMode := true }
          purpose := { task := false } }
        { s with
          pendingMagnetMeta := s.pendingMagnetMeta.insert (atp.taskId env) ⟨done, tempSavePath, uri⟩
          session := s.session.asyncAddTorrent atp }

def handleCancelPreparedMagnet (s : Worker H) (taskId : TaskId) : Worker H :=
  let s := removeHandle s taskId true
  { s with
    handlesByTaskId := s.handlesByTaskId.erase taskId
    preparedTorrentInfo := s.preparedTorrentInfo.erase taskId
    pendingMagnetMeta := s.pendingMagnetMeta.erase taskId }

def handleFinalizePreparedMagnet (s : Worker H) (taskId : TaskId) (savePath : String)
    (trackers : List String) (opts : AddTorrentOptions) : Worker H :=
  match s.preparedTorrentInfo.lookup taskId with
  | none => s
  | some (infoHashes, ti) =>
    let s := removeHandle s taskId false
    let s := { s with handlesByTaskId := s.handlesByTaskId.erase taskId }
    let atp : AddParams H :=
      { infoHashes := infoHashes
        ti := some ti
        savePath := savePath
        trackers := sanitizeTrackers env.qt trackers
        flags := { defaultFlags with autoManaged := true } }
    let atp := { applyAddOptions atp opts with
      purpose := { task := true, startPaused := !opts.startTorrent, storesOpts := true } }
    -- the options are stored under the id of the command, not under that of the torrent
    addTask { s with
      pendingAddOpts := s.pendingAddOpts.insert taskId ⟨opts, s.session.nextSerial⟩
      preparedTorrentInfo := s.preparedTorrentInfo.erase taskId } atp

def handleAddTorrentFile (s : Worker H) (filePath savePath : String) (trackers : List String)
    (opts : Option AddTorrentOptions) : Worker H :=
  if (validateTorrentFilePath env.qt filePath).isSome then s
  else
    match env.loadTorrentFile filePath with
    | none => s
    | some (infoHashes, ti) =>
      if hasActiveTaskForInfoHashes env s infoHashes then
        emitDuplicateRejected env s infoHashes
      else
        let atp : AddParams H :=
          { infoHashes := infoHashes
            ti := some ti
            savePath := savePath
            trackers := sanitizeTrackers env.qt trackers
            flags := { defaultFlags with autoManaged := true } }
        match opts with
        | none => addTask s atp
        | some opts => addTaskWithOpts env s (applyAddOptions atp opts) opts

def handleAddFromResumeData (s : Worker H) (resumeData : Bytes) (startPaused : Bool) : Worker H :=
  if resumeData = [] then s
  else
    match env.readResumeData resumeData with
    | none => s
    | some atp =>
      if hasActiveTaskForInfoHashes env s atp.infoHashes then
        emitDuplicateRejected env s atp.infoHashes
      else
        addTask s { atp with
          flags := { atp.flags with paused := startPaused, autoManaged := !startPaused }
          purpose := { startPaused := startPaused } }

def handlePause (s : Worker H) (taskId : TaskId) : Worker H :=
  { setHandleFlags s taskId (fun f => { f with autoManaged := false, paused := true }) with
    intents := ⟨.task taskId, true⟩ :: s.intents }

def handleResume (s : Worker H) (taskId : TaskId) : Worker H :=
  let s' := setHandleFlags s taskId fun f => { f with autoManaged := true, paused := false }
  { s' with
    session := match s.handlesByTaskId.lookup taskId with
      | some h => s'.session.queuePositionTop h
      | none => s'.session
    intents := ⟨.task taskId, false⟩ :: s.intents }

def handleForceStart (s : Worker H) (taskId : TaskId) : Worker H :=
  { setHandleFlags s taskId (fun f => { f with autoManaged := false, paused := false }) with
    intents := ⟨.task taskId, false⟩ :: s.intents }

def handleSetDefaultPerTorrentConnectionsLimit (s : Worker H) (limit : Int) : Worker H :=
  let limit := max 0 (min limit 20000)
  { s with
    defaultPerTorrentConnectionsLimit := limit
    session := s.handlesByTaskId.entries.foldl
      (fun ses e => ses.setMaxConnections e.2 limit) s.session }

def handleSetTaskConnectionsLimit (s : Worker H) (taskId : TaskId) (limit : Int) : Worker H :=
  let v := max 0 (min limit 20000)
  let l : TaskLimit := ⟨v, s.session.owners env taskId⟩
  { s with
    perTaskConnectionsLimit := s.perTaskConnectionsLimit.insert taskId l
    limitsSet := s.limitsSet.insert taskId l
    session := match s.handlesByTaskId.lookup taskId with
      | some h => s.session.setMaxConnections h v
      | none => s.session }

/-- `handleCmd` -/
def handleCmd (s : Worker H) : Cmd → Worker H
  | .addMagnet uri savePath trackers => handleAddMagnet env s uri savePath trackers
  | .prepareMagnetMetadata uri tempSavePath trackers done =>
    handlePrepareMagnetMetadata env s uri tempSavePath trackers done
  | .cancelPreparedMagnet taskId => handleCancelPreparedMagnet s taskId
  | .finalizePreparedMagnet taskId savePath trackers opts =>
    handleFinalizePreparedMagnet env s taskId savePath trackers opts
  | .addTorrentFile filePath savePath trackers opts =>
    handleAddTorrentFile env s filePath savePath trackers opts
  | .addFromResumeData resumeData startPaused => handleAddFromResumeData env s resumeData startPaused
  | .pause taskId => handlePause s taskId
  | .resume taskId => handleResume s taskId
  | .forceStart taskId => handleForceStart s taskId
  | .remove taskId _ => removeHandle s taskId false
  | .setAutoManaged taskId enabled => setHandleFlags s taskId fun f => { f with autoManaged := enabled }
  | .setDefaultPerTorrentConnectionsLimit limit => handleSetDefaultPerTorrentConnectionsLimit s limit
  | .setTaskConnectionsLimit taskId limit => handleSetTaskConnectionsLimit env s taskId limit

/-! ### Metadata -/

def magnetDisplayNameFallback (magnetUri infoHashKey : String) : String :=
  let dn := match env.parseMagnetUri magnetUri with
    | some atp => trimmed atp.name
    | none => ""
  if dn ≠ "" then dn
  else if infoHashKey ≠ "" then String.ofList (infoHashKey.toList.take 16)
  else "未命名任务"

def fillMagnetMetadataFromTorrentInfo (m : MagnetMetadata) (infoHashes : H) (ti : TorrentInfo) :
    MagnetMetadata :=
  { m with
    name := trimmed ti.name
    comment := ti.comment
    creationDate := ti.creationDate
    totalBytes := ti.totalSize
    filePaths := ti.files.map (·.1)
    fileSizes := ti.files.map (·.2)
    infoHashV1 := env.toHexV1 infoHashes
    infoHashV2 := env.toHexV2 infoHashes }

def isValidMagnetMetadata (m : MagnetMetadata) : Bool :=
  m.filePaths ≠ [] && m.filePaths.length = m.fileSizes.length

def configureHandleForMagnetMetadataFetch (s : Session H) (h : Handle) : Session H :=
  s.setFlags h fun f => { f with autoManaged := false, paused := false, uploadMode := true }

/-- The answer for an entry whose torrent has this info. -/
def preparedMetadata (infoHashes : H) (key : TaskId) (entry : PendingMagnetMetaEntry)
    (ti : TorrentInfo) : Option MagnetMetadata :=
  let m : MagnetMetadata := { taskId := env.taskIdFromInfoHashes infoHashes }
  let m := fillMagnetMetadataFromTorrentInfo env m infoHashes ti
  let m := if trimmed m.name = "" then
    { m with name := magnetDisplayNameFallback env entry.magnetUri (env.taskIdKey key) } else m
  if isValidMagnetMetadata m then
    some { m with
      exportedTorrentPath := env.exportTorrentInfoToFile ti entry.tempSavePath (env.taskIdKey key) }
  else none

def tryFulfillPendingMagnetMeta (s : Worker H) (key : TaskId) (h : Handle) : Worker H :=
  match s.pendingMagnetMeta.lookup key, s.session.torrents.lookup h with
  | some entry, some t =>
    if t.hasMetadata then
      let s := { s with pendingMagnetMeta := s.pendingMagnetMeta.erase key }
      match t.info with
      | none => s.setValue entry.done none
      | some ti =>
        let s := { s with
          preparedTorrentInfo := s.preparedTorrentInfo.insert key (t.infoHashes, ti) }
        s.setValue entry.done (preparedMetadata env t.infoHashes key entry ti)
    else s
  | _, _ => s

/-- The body of the loop of `pollPendingMagnetMetadata`. -/
def pollKey (s : Worker H) (key : TaskId) : Worker H :=
  if key ∉ s.pendingMagnetMeta then s
  else
    match s.handlesByTaskId.lookup key with
    | none => s
    | some h =>
      if s.session.isValid h then
        let s := { s with session := configureHandleForMagnetMetadataFetch s.session h }
        tryFulfillPendingMagnetMeta env s key h
      else s

def pollPendingMagnetMetadata (s : Worker H) : Worker H :=
  s.pendingMagnetMeta.keys.foldl (pollKey env) s

/-! ### Alerts -/

/-- `adaptAlertToView`, on the alert of an add that succeeded. -/
def addedView (p : AddParams H) : LtAlertView :=
  let v : LtAlertView :=
    { type := .taskAdded
      taskId := p.taskId env
      name := p.name
      savePath := p.savePath
      infoHashV1 := env.toHexV1 p.infoHashes
      infoHashV2 := env.toHexV2 p.infoHashes
      category := "Default"
      status := .queued }
  match p.ti with
  | none => v
  | some ti =>
    { v with
      comment := ti.comment
      pieces := ti.numPieces
      pieceLength := ti.pieceLength
      createdBy := ti.creator
      createdOnMs := if 0 < ti.creationDate then ti.creationDate * 1000 else v.createdOnMs
      isPrivate := if ti.priv then 1 else 0
      totalBytes := ti.totalSize }

/-- The view of an added torrent, with the magnet of the handle under its id. -/
def addedViewWithMagnet (s : Worker H) (p : AddParams H) : LtAlertView :=
  let magnet := do
    let h ← s.handlesByTaskId.lookup (p.taskId env)
    let t ← s.session.torrents.lookup h
    pure (env.makeMagnetUri t.infoHashes)
  { addedView env p with magnet := magnet.getD "" }

def handleMetadataFailed (s : Worker H) (key : TaskId) : Worker H :=
  match s.pendingMagnetMeta.lookup key with
  | some entry =>
    { s with pendingMagnetMeta := s.pendingMagnetMeta.erase key }.setValue entry.done none
  | none => s

/-- What an added torrent's handle is called for: its flags, its place and its limit. -/
def configureAdded (s : Worker H) (key : TaskId) (h : Handle) : Session H :=
  let ses :=
    if key ∈ s.pendingMagnetMeta then configureHandleForMagnetMetadataFetch s.session h
    else s.session.setFlags h fun f => { f with paused := false }
  let ses :=
    match s.pendingAddOpts.lookup key with
    | some pending => if pending.opts.addToTopQueue then ses.queuePositionTop h else ses
    | none => ses
  match s.perTaskConnectionsLimit.lookup key with
  | some l => ses.setMaxConnections h l.limit
  | none =>
    if 0 < s.defaultPerTorrentConnectionsLimit then
      ses.setMaxConnections h s.defaultPerTorrentConnectionsLimit
    else ses

def handleAdded (s : Worker H) (p : AddParams H) (h : Handle) : Worker H :=
  let key := p.taskId env
  let s := { s with
    handlesByTaskId := s.handlesByTaskId.insert key h
    session := configureAdded s key h
    pendingAddOpts := s.pendingAddOpts.erase key }
  { s with views := s.views ++ [addedViewWithMagnet env s p] }

def handleAddFailed (s : Worker H) (p : AddParams H) (message : String) : Worker H :=
  { s with views := s.views ++
      [{ type := .taskError, taskId := p.taskId env, message := message }] }

def handleRemoved (s : Worker H) (ih : H) : Worker H :=
  let key := env.taskIdFromInfoHashes ih
  { s with
    handlesByTaskId := s.handlesByTaskId.erase key
    perTaskConnectionsLimit := s.perTaskConnectionsLimit.erase key
    pendingAddOpts := s.pendingAddOpts.erase key
    views := s.views ++ [{ type := .taskRemoved, taskId := key }] }

def handleAlert (s : Worker H) : Alert H → Worker H
  | .metadataReceived h => tryFulfillPendingMagnetMeta env s (handleTaskId env s.session h) h
  | .metadataFailed h => handleMetadataFailed s (handleTaskId env s.session h)
  | .added p h => handleAdded env s p h
  | .addFailed p message => handleAddFailed env s p message
  | .removed ih _ => handleRemoved env s ih

/-! ### The system -/

inductive Label (H : Type)
  /-- A caller posts a command. -/
  | enqueue (cmd : Cmd)
  /-- A caller of `prepareMagnetMetadata` posts its command and starts to wait. -/
  | prepare (uri tempSavePath : String) (trackers : List String)
  /-- The wait of a caller runs out. -/
  | timeout (done : PromiseId)
  | command
  | session (outcome : AddOutcome)
  | metadata (h : Handle) (info : Option TorrentInfo) (infoHashes : H)
  | metadataFailure (h : Handle)
  /-- The worker handles the alert at this place of those that are posted. -/
  | alert (i : Nat)
  | poll

/-- `SessionWorker::prepareMagnetMetadata`, up to its wait. -/
def prepare (s : Worker H) (uri tempSavePath : String) (trackers : List String) : Worker H :=
  match env.parseMagnetUri (trimmed uri) with
  | none => s
  | some atp =>
    { s with
      promises := s.promises ++ [{ taskId := atp.taskId env }]
      cmds := s.cmds ++ [.prepareMagnetMetadata uri tempSavePath trackers s.promises.length] }

/-- The end of the wait: the promise is not set, so the caller cancels by task id. -/
def timeout (s : Worker H) (done : PromiseId) : Worker H :=
  match s.promises[done]? with
  | some pr =>
    if pr.values = [] ∧ pr.timedOut = false then
      { s with
        promises := s.promises.modify done fun pr => { pr with timedOut := true }
        cmds := s.cmds ++ [.cancelPreparedMagnet pr.taskId] }
    else s
  | none => s

/-- The commands that callers post directly. -/
def Cmd.isPrepare : Cmd → Bool
  | .prepareMagnetMetadata .. => true
  | _ => false

def step (s : Worker H) : Label H → Worker H
  | .enqueue cmd => if cmd.isPrepare then s else { s with cmds := s.cmds ++ [cmd] }
  | .prepare uri tempSavePath trackers => prepare env s uri tempSavePath trackers
  | .timeout done => timeout s done
  | .command =>
    match s.cmds with
    | [] => s
    | cmd :: rest => handleCmd env { s with cmds := rest } cmd
  | .session outcome => { s with session := s.session.exec outcome }
  | .metadata h info infoHashes => { s with session := s.session.receiveMetadata h info infoHashes }
  | .metadataFailure h => { s with session := s.session.failMetadata h }
  | .alert i =>
    match s.session.alerts[i]? with
    | none => s
    | some a =>
      handleAlert env { s with session := { s.session with alerts := s.session.alerts.eraseIdx i } } a
  | .poll => pollPendingMagnetMetadata env s

/-! ### What libtorrent is documented to answer -/

variable (sharing : Sharing H)

/-- No torrent of the session, but for this one, has a hash in common with these. -/
def Session.Apart (s : Session H) (ih : H) (except : Option Handle) : Prop :=
  ∀ e ∈ s.torrents.entries, some e.1 ≠ except → sharing.shares e.2.infoHashes ih = false

instance (s : Session H) (ih : H) (except : Option Handle) : Decidable (s.Apart sharing ih except) := by
  unfold Session.Apart
  infer_instance

/-- The add that is executed next. -/
def Session.nextAdd (s : Session H) : Option (AddParams H) :=
  match s.ops with
  | .add p :: _ => some p
  | _ => none

/-- This is an answer to the add. -/
def Session.Answers (s : Session H) (p : AddParams H) : AddOutcome → Prop
  | .found h => ∃ t ∈ s.torrents.lookup h, sharing.shares t.infoHashes p.infoHashes = true
  | _ => s.Apart sharing p.infoHashes none

instance (s : Session H) (p : AddParams H) : ∀ o : AddOutcome, Decidable (s.Answers sharing p o)
  | .found h => inferInstanceAs (Decidable (∃ t ∈ s.torrents.lookup h, _))
  | .created => inferInstanceAs (Decidable (s.Apart sharing p.infoHashes none))
  | .failed _ => inferInstanceAs (Decidable (s.Apart sharing p.infoHashes none))

/-- An add is given the torrent that has a hash in common with it, if there is one. Metadata keeps a hash
of its torrent, and reveals none of another. Alerts come in the order in which they were posted. -/
def Documented (s : Worker H) : Label H → Prop
  | .session outcome => ∀ p ∈ s.session.nextAdd, s.session.Answers sharing p outcome
  | .metadata h _ infoHashes =>
    (∀ t ∈ s.session.torrents.lookup h, sharing.shares t.infoHashes infoHashes = true) ∧
      s.session.Apart sharing infoHashes (some h)
  | .alert i => i = 0
  | _ => True

instance (s : Worker H) : ∀ l : Label H, Decidable (Documented sharing s l)
  | .session o => inferInstanceAs (Decidable (∀ p ∈ s.session.nextAdd, s.session.Answers sharing p o))
  | .metadata h _ ih =>
    inferInstanceAs (Decidable ((∀ t ∈ s.session.torrents.lookup h, _) ∧
      s.session.Apart sharing ih (some h)))
  | .alert i => inferInstanceAs (Decidable (i = 0))
  | .enqueue _ => isTrue trivial
  | .prepare .. => isTrue trivial
  | .timeout _ => isTrue trivial
  | .command => isTrue trivial
  | .metadataFailure _ => isTrue trivial
  | .poll => isTrue trivial

end TorrentLink.Lt
