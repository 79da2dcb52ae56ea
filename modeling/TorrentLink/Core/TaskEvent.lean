import TorrentLink.Base.Types
import Mathlib.Algebra.Order.Ring.Rat

/-!
# Task events and task snapshots

The input and the output of the task state store, with the defaults of the source: in an event an empty
string, a negative number and the unknown status stand for a field that is not presented.
-/

namespace TorrentLink

inductive TaskEventType
  | upsertMeta | statusChanged | progressUpdated | rateUpdated | errorOccurred
  | duplicateRejected | removed
  deriving DecidableEq, Repr

structure TaskEvent where
  type : TaskEventType := .upsertMeta
  taskId : TaskId := 0
  status : TaskStatus := .unknown
  name : String := ""
  savePath : String := ""
  errorMessage : String := ""
  infoHashV1 : String := ""
  infoHashV2 : String := ""
  comment : String := ""
  totalBytes : Int := -1
  selectedBytes : Int := -1
  downloadedBytes : Int := -1
  uploadedBytes : Int := -1
  downloadRate : Int := -1
  uploadRate : Int := -1
  seeders : Int := -1
  users : Int := -1
  availability : Rat := -1
  category : String := ""
  tags : String := ""
  eventMs : Int := invalidMs
  activeTimeSec : Int := -1
  dlLimitBps : Int := -1
  ulLimitBps : Int := -1
  wastedBytes : Int := -1
  nextAnnounceSec : Int := -1
  lastSeenCompleteMs : Int := -1
  pieces : Int := -1
  pieceLength : Int := -1
  createdBy : String := ""
  createdOnMs : Int := -1
  completedOnMs : Int := -1
  isPrivate : Int := -1
  deriving DecidableEq, Repr

structure TaskSnapshot where
  taskId : TaskId := 0
  status : TaskStatus := .unknown
  name : String := ""
  savePath : String := ""
  errorMessage : String := ""
  category : String := ""
  tags : String := ""
  infoHashV1 : String := ""
  infoHashV2 : String := ""
  comment : String := ""
  totalBytes : Int := 0
  selectedBytes : Int := 0
  downloadedBytes : Int := 0
  uploadedBytes : Int := 0
  downloadRate : Int := 0
  uploadRate : Int := 0
  seeders : Int := 0
  users : Int := 0
  availability : Rat := 0
  addedAtMs : Int := invalidMs
  activeTimeSec : Int := 0
  dlLimitBps : Int := 0
  ulLimitBps : Int := 0
  wastedBytes : Int := 0
  nextAnnounceSec : Int := -1
  lastSeenCompleteMs : Int := invalidMs
  pieces : Int := 0
  pieceLength : Int := 0
  createdBy : String := ""
  createdOnMs : Int := invalidMs
  completedOnMs : Int := invalidMs
  isPrivate : Int := -1
  lastUpdatedMs : Int := invalidMs
  deriving DecidableEq, Repr

end TorrentLink
