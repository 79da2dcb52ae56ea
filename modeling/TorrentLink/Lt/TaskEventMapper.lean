import TorrentLink.Core.TaskEvent

/-!
# Alert views

`LtAlertView`, what the session worker reports about a task, and its mapping to a task event. The
mapping passes neither a category nor tags on, for no type of view.
-/

namespace TorrentLink.Lt

inductive LtAlertType
  | taskAdded | taskStateChanged | taskProgress | taskRate | taskError | duplicateRejected
  | taskRemoved | ignored
  deriving DecidableEq, Repr

structure LtAlertView where
  type : LtAlertType := .ignored
  taskId : TaskId := 0
  status : TaskStatus := .unknown
  name : String := ""
  savePath : String := ""
  message : String := ""
  totalBytes : Int := -1
  selectedBytes : Int := -1
  downloadedBytes : Int := -1
  uploadedBytes : Int := -1
  downloadRate : Int := -1
  uploadRate : Int := -1
  seeders : Int := -1
  users : Int := -1
  availability : Rat := -1
  category : String := ""
  tags : String := ""
  magnet : String := ""
  infoHashV1 : String := ""
  infoHashV2 : String := ""
  comment : String := ""
  eventMs : Int := -1
  activeTimeSec : Int := -1
  dlLimitBps : Int := -1
  ulLimitBps : Int := -1
  wastedBytes : Int := -1
  nextAnnounceSec : Int := -1
  lastSeenCompleteMs : Int := -1
  pieces : Int := -1
  pieceLength : Int := -1
  createdBy : String := ""
  createdOnMs : Int := -1
  completedOnMs : Int := -1
  isPrivate : Int := -1
  deriving DecidableEq, Repr

def mapAlertToTaskEvent (alert : LtAlertView) : Option TaskEvent :=
  if alert.type = .ignored || alert.taskId.isNull then none
  else
    match alert.type with
    | .taskAdded =>
      some {
        taskId := alert.taskId
        eventMs := alert.eventMs
        type := .upsertMeta
        name := alert.name
        savePath := alert.savePath
        infoHashV1 := alert.infoHashV1
        infoHashV2 := alert.infoHashV2
        comment := alert.comment
        totalBytes := alert.totalBytes
        selectedBytes := alert.selectedBytes
        pieces := alert.pieces
        pieceLength := alert.pieceLength
        createdBy := alert.createdBy
        createdOnMs := alert.createdOnMs
        isPrivate := alert.isPrivate }
    | .taskStateChanged =>
      some {
        taskId := alert.taskId
        eventMs := alert.eventMs
        type := .statusChanged
        status := alert.status
        errorMessage := alert.message }
    | .taskProgress =>
      some {
        taskId := alert.taskId
        eventMs := alert.eventMs
        type := .progressUpdated
        name := alert.name
        status := alert.status
        totalBytes := alert.totalBytes
        selectedBytes := alert.selectedBytes
        downloadedBytes := alert.downloadedBytes
        uploadedBytes := alert.uploadedBytes
        downloadRate := alert.downloadRate
        uploadRate := alert.uploadRate
        seeders := alert.seeders
        users := alert.users
        availability := alert.availability
        infoHashV1 := alert.infoHashV1
        infoHashV2 := alert.infoHashV2
        activeTimeSec := alert.activeTimeSec
        dlLimitBps := alert.dlLimitBps
        ulLimitBps := alert.ulLimitBps
        wastedBytes := alert.wastedBytes
        nextAnnounceSec := alert.nextAnnounceSec
        lastSeenCompleteMs := alert.lastSeenCompleteMs
        pieces := alert.pieces
        pieceLength := alert.pieceLength
        createdBy := alert.createdBy
        createdOnMs := alert.createdOnMs
        completedOnMs := alert.completedOnMs
        isPrivate := alert.isPrivate }
    | .taskRate =>
      some {
        taskId := alert.taskId
        eventMs := alert.eventMs
        type := .rateUpdated
        downloadRate := alert.downloadRate
        uploadRate := alert.uploadRate }
    | .taskError =>
      some {
        taskId := alert.taskId
        eventMs := alert.eventMs
        type := .errorOccurred
        errorMessage := alert.message }
    | .duplicateRejected =>
      some {
        taskId := alert.taskId
        eventMs := alert.eventMs
        type := .duplicateRejected
        errorMessage := alert.message }
    | .taskRemoved =>
      some { taskId := alert.taskId, eventMs := alert.eventMs, type := .removed }
    | .ignored => none

/-! ### What a mapped event carries -/

theorem mapAlertToTaskEvent_taskId {v : LtAlertView} {ev : TaskEvent}
    (h : mapAlertToTaskEvent v = some ev) : ev.taskId = v.taskId := by
  unfold mapAlertToTaskEvent at h
  split at h
  · simp at h
  · cases hv : v.type <;> simp only [hv] at h <;> cases h <;> rfl

theorem mapAlertToTaskEvent_removed {v : LtAlertView} {ev : TaskEvent}
    (h : mapAlertToTaskEvent v = some ev) : ev.type = .removed ↔ v.type = .taskRemoved := by
  unfold mapAlertToTaskEvent at h
  split at h
  · simp at h
  · cases hv : v.type <;> simp only [hv] at h <;> cases h <;> simp

/-- No view sets a category or tags. -/
theorem mapAlertToTaskEvent_category_tags {v : LtAlertView} {ev : TaskEvent}
    (h : mapAlertToTaskEvent v = some ev) : ev.category = "" ∧ ev.tags = "" := by
  unfold mapAlertToTaskEvent at h
  split at h
  · simp at h
  · cases hv : v.type <;> simp only [hv] at h <;> cases h <;> exact ⟨rfl, rfl⟩

/-- The name a view presents: only added and progress views carry one on. -/
def viewName (v : LtAlertView) : String :=
  match v.type with
  | .taskAdded | .taskProgress => v.name
  | _ => ""

theorem mapAlertToTaskEvent_name {v : LtAlertView} {ev : TaskEvent}
    (h : mapAlertToTaskEvent v = some ev) : ev.name = viewName v := by
  unfold mapAlertToTaskEvent at h
  split at h
  · simp at h
  · unfold viewName
    cases hv : v.type <;> simp only [hv] at h <;> cases h <;> rfl

/-- The save path a view presents: only added views carry one on. -/
def viewSavePath (v : LtAlertView) : String :=
  match v.type with
  | .taskAdded => v.savePath
  | _ => ""

theorem mapAlertToTaskEvent_savePath {v : LtAlertView} {ev : TaskEvent}
    (h : mapAlertToTaskEvent v = some ev) : ev.savePath = viewSavePath v := by
  unfold mapAlertToTaskEvent at h
  split at h
  · simp at h
  · unfold viewSavePath
    cases hv : v.type <;> simp only [hv] at h <;> cases h <;> rfl

/-- A view of a task with a non-null id that is not ignored is mapped. -/
theorem isSome_mapAlertToTaskEvent {v : LtAlertView} (ht : v.type ≠ .ignored)
    (hid : v.taskId ≠ 0) : (mapAlertToTaskEvent v).isSome := by
  have hguard : ¬ ((v.type = .ignored || v.taskId.isNull) = true) := by
    simp only [ht, decide_false, Bool.false_or, TaskId.isNull, decide_eq_true_eq]
    exact hid
  unfold mapAlertToTaskEvent
  rw [if_neg hguard]
  cases hv : v.type <;> first | rfl | (exact absurd hv ht)

end TorrentLink.Lt
