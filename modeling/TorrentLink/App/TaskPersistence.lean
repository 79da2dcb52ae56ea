import TorrentLink.App.TaskMeta
import TorrentLink.Base.Io
import TorrentLink.Base.Json
import TorrentLink.Core.TaskAddBuilder

/-!
# Persistence of the tasks

`AppController`'s start-up load from `tasks.json` and the resume directory, and the two halves of an
autosave. The resume directory, which is taken to exist, maps the base name of each `*.rd` file to
what the file holds. Hash maps and directories are walked in the order of the model's maps.
-/

namespace TorrentLink.App

open Lib Lt

/-- What the persistence takes from Qt and libtorrent, and two settings. -/
structure PersistEnv where
  fromJson : Bytes → JsonDocument
  toJsonCompact : List Json → Bytes
  toJsonIndented : JsonObject → Bytes
  sha256Hex : Bytes → String
  /-- `QUuid::toString(QUuid::WithoutBraces)` -/
  taskKey : TaskId → String
  /-- `QUuid::fromString`, on the text between braces. -/
  uuidFromKey : String → TaskId
  /-- `parse_magnet_uri`, then `taskIdFromInfoHashes`. -/
  magnetTaskId : String → Option TaskId
  qt : QtInput
  savePathPolicy : SavePathPolicy := {}
  restoreStartPaused : Bool := false
  /-- The path of `tasks.json`. -/
  filePath : String := "tasks.json"

def kTasksJsonVersion : Int := 1

/-- `static_cast<int>` of a status. -/
def statusCode : TaskStatus → Int
  | .unknown => 0
  | .queued => 1
  | .checking => 2
  | .downloading => 3
  | .seeding => 4
  | .paused => 5
  | .finished => 6
  | .error => 7

/-- What is posted to the worker while tasks are restored. -/
inductive RestoreCmd
  | addFromResumeData (data : Bytes) (startPaused : Bool)
  | addMagnet (uri savePath : String)
  | pauseTaskLater (taskId : TaskId)
  deriving DecidableEq, Repr

structure AppState where
  ingest : Ingest := {}
  knownTaskMagnets : Map String String := ∅
  lastPersistedTasksJson : Bytes := []
  copies : Copies := {}
  rd : Map String FileState := ∅
  commands : List RestoreCmd := []

variable (env : PersistEnv)

/-! ### Loading -/

/-- The body of the loop over `tasksArray`. -/
def insertMeta (metaByTaskKey : Map String JsonObject) (v : Json) : Map String JsonObject :=
  match v with
  | .obj o =>
    let key := trimmed (JsonObject.value o "task_id").toText
    if key ≠ "" then metaByTaskKey.insert key o else metaByTaskKey
  | _ => metaByTaskKey

def metaByTaskKey (tasksArray : List Json) : Map String JsonObject :=
  tasksArray.foldl insertMeta ∅

/-- Phase 1 of `loadPersistedTasks`: the metadata by task key. -/
def loadTasksMeta (copies : Copies) : Map String JsonObject :=
  let result := readWholeFileWithRecovery env.filePath copies
  if result.error ≠ none ∨ result.data = [] then ∅
  else
    match env.fromJson result.data with
    | .object envelope =>
      let tasksArray := (JsonObject.value envelope "tasks").toArray
      let storedChecksum := trimmed (JsonObject.value envelope "checksum").toText
      if storedChecksum ≠ "" ∧ env.sha256Hex (env.toJsonCompact tasksArray) ≠ storedChecksum then ∅
      else metaByTaskKey tasksArray
    | .array tasksArray => metaByTaskKey tasksArray
    | .null => metaByTaskKey []

/-- A text member of a task's metadata. -/
def metaText (o : JsonObject) (key : String) : String := trimmed (o.value key).toText

/-- Whether a task with this metadata comes back paused. -/
def restoredPaused (o : JsonObject) : Bool :=
  let savedStatus := (o.value "status").toInt (-1)
  if 0 ≤ savedStatus then
    let st := savedStatus % 256
    st = statusCode .paused || st = statusCode .finished || st = statusCode .error
  else env.restoreStartPaused

/-- One restored task: the commands for the worker, and the id under which its metadata is upserted;
no id when the resume file's name is no UUID. -/
structure Restored where
  key : String
  commands : List RestoreCmd
  taskId : Option TaskId
  data : JsonObject

/-- The body of phase 2's loop over the resume files. -/
def restoreResume (tasksMeta : Map String JsonObject) (taskKey : String) (file : FileState) :
    Option Restored :=
  match tasksMeta.lookup taskKey with
  | none => none
  | some o =>
    let (data, err) := readWholeFile taskKey file
    if err ≠ none ∨ data = [] then none
    else
      let taskId := env.uuidFromKey taskKey
      some {
        key := taskKey
        commands := [.addFromResumeData data (restoredPaused env o)]
        taskId := if taskId.isNull then none else some taskId
        data := o }

/-- The body of phase 3's loop over the metadata. -/
def restoreMagnet (restoredFromResumeData : List String) (key : String) (o : JsonObject) :
    Option Restored :=
  if key ∈ restoredFromResumeData then none
  else
    let magnet := metaText o "magnet"
    if magnet = "" then none
    else
      match env.magnetTaskId magnet with
      | none => none
      | some taskId =>
        let add := .addMagnet magnet (env.savePathPolicy.resolve env.qt (metaText o "save_path"))
        some {
          key := key
          commands := if restoredPaused env o then [add, .pauseTaskLater taskId] else [add]
          taskId := some taskId
          data := o }

def upsertKnownTaskMagnet (known : Map String String) (taskId : TaskId) (magnet : String) :
    Map String String :=
  if taskId.isNull || trimmed magnet = "" then known
  else known.insert (env.taskKey taskId) (trimmed magnet)

/-- `applyTaskMetaUpdate` -/
def applyTaskMetaUpdate (now : Clock) (s : AppState) (taskId : TaskId)
    (name savePath category tagsCsv : String) : AppState :=
  { s with ingest := { s.ingest with
      tasks := applyEvent now s.ingest.tasks (metaEvent taskId name savePath category tagsCsv) } }

/-- What the loops do with a restored task. -/
def applyRestored (now : Clock) (s : AppState) (r : Restored) : AppState :=
  let s := { s with commands := s.commands ++ r.commands }
  match r.taskId with
  | none => s
  | some taskId =>
    let s := { s with
      knownTaskMagnets := upsertKnownTaskMagnet env s.knownTaskMagnets taskId (metaText r.data "magnet") }
    applyTaskMetaUpdate now s taskId (metaText r.data "name") (metaText r.data "save_path")
      (metaText r.data "category") (metaText r.data "tags")

/-- The tasks that phases 2 and 3 restore, in their order. -/
def restoredTasks (tasksMeta : Map String JsonObject) (rd : Map String FileState) :
    List Restored :=
  let fromResumeData := rd.entries.filterMap fun e => restoreResume env tasksMeta e.1 e.2
  fromResumeData ++
    tasksMeta.entries.filterMap fun e => restoreMagnet env (fromResumeData.map (·.key)) e.1 e.2

/-- The loops over the restored tasks. -/
def restoreAll (now : Clock) (s : AppState) : List Restored → AppState
  | [] => s
  | r :: rs => restoreAll (now.after 2) (applyRestored env now s r) rs

def loadPersistedTasks (now : Clock) (s : AppState) : AppState :=
  restoreAll env now s (restoredTasks env (loadTasksMeta env s.copies) s.rd)

/-! ### Saving -/

def snapshotToJson (known : Map String String) (s : TaskSnapshot) : Json :=
  let taskKey := env.taskKey s.taskId
  .obj (
    [("task_id", .str taskKey)] ++
    (match known.lookup taskKey with
      | some magnet => if trimmed magnet ≠ "" then [("magnet", .str magnet)] else []
      | none => []) ++
    [("name", .str s.name),
      ("save_path", .str s.savePath),
      ("category", .str s.category),
      ("tags", .str s.tags),
      ("status", .num (statusCode s.status)),
      ("last_updated_ms", .num s.lastUpdatedMs)])

def tasksJson (s : AppState) : Bytes :=
  let arr := (snapshots s.ingest.tasks).map (snapshotToJson env s.knownTaskMagnets)
  env.toJsonIndented
    [("version", .num kTasksJsonVersion),
      ("checksum", .str (env.sha256Hex (env.toJsonCompact arr))),
      ("tasks", .arr arr)]

/-- `savePersistedTasks`. `failure` is what the write reports. -/
def savePersistedTasks (s : AppState) (failure : Option Error) : AppState :=
  let outBytes := tasksJson env s
  if outBytes = s.lastPersistedTasksJson then s
  else
    match writeWholeFileWithBackup s.copies outBytes failure with
    | (copies, some _) => { s with copies := copies }
    | (copies, none) => { s with copies := copies, lastPersistedTasksJson := outBytes }

/-- The cleanup of `saveResumeData`: files whose name is no active key are removed. -/
def removeStale (activeTaskKeys : List String) (rd : Map String FileState) : Map String FileState :=
  rd.keys.foldl (fun rd key => if key ∈ activeTaskKeys then rd else rd.erase key) rd

/-- `saveResumeData`. `written` are the files that `saveAllResumeData` writes. -/
def saveResumeData (s : AppState) (written : List (String × Bytes)) : AppState :=
  let snaps := snapshots s.ingest.tasks
  let rd := if snaps = [] then s.rd else written.foldl (fun rd w => rd.insert w.1 (.bytes w.2)) s.rd
  { s with rd := removeStale (snaps.map fun snap => env.taskKey snap.taskId) rd }

/-! ### Runs -/

/-- The steps of a run in which no task is removed. -/
inductive AppStep
  /-- A batch of views, none of them a removal. -/
  | views (now : Clock) (batch : List LiveView)
  /-- An event of the user's: an edit or a transitional status. -/
  | consume (now : Clock) (ev : { ev : TaskEvent // ev.type ≠ .removed })
  /-- `savePersistedTasks`, then `saveResumeData`. -/
  | autosave (failure : Option Error) (written : List (String × Bytes))

/-- `bindWorkerCallbacks`: the magnets of the views are kept, then the views are ingested. -/
def consumeViews (now : Clock) (s : AppState) (views : List LtAlertView) : AppState :=
  let known := views.foldl (fun known v =>
    if v.magnet ≠ "" then upsertKnownTaskMagnet env known v.taskId v.magnet else known)
    s.knownTaskMagnets
  let (ingested, result) := ingest now s.ingest views
  { s with
    ingest := ingested
    knownTaskMagnets := result.removedTaskIds.foldl (fun known t => known.erase (env.taskKey t)) known }

def appStep (s : AppState) : AppStep → AppState
  | .views now batch => consumeViews env now s (batch.map (·.1))
  | .consume now ev =>
    { s with ingest := { s.ingest with tasks := applyEvent now s.ingest.tasks ev.1 } }
  | .autosave failure written => saveResumeData env (savePersistedTasks env s failure) written

end TorrentLink.App
