import TorrentLink.Core.TaskStateStore
import TorrentLink.Lt.TaskEventMapper

/-!
# Ingesting alert views

`EventIngestOrchestrator`: a batch of alert views is mapped to events, the status of a locked task is
taken out of its progress events, and the events go to the store as one batch. The clock is read once for
the locks, and then by the store.
-/

namespace TorrentLink.App

open Lt

/-- The store and the orchestrator's `statusLockUntilMs_`. -/
structure Ingest where
  tasks : Tasks := ∅
  statusLockUntilMs : Map TaskId Int := ∅

structure IngestResult where
  duplicateRejectedTaskIds : List TaskId := []
  removedTaskIds : List TaskId := []
  deriving DecidableEq, Repr

/-- One turn of the loop over the events: the lock of the event's task, if it has one. -/
def applyLock (nowMs : Int) (locks : Map TaskId Int) (ev : TaskEvent) :
    TaskEvent × Map TaskId Int :=
  if ev.type = .progressUpdated then
    match locks.lookup ev.taskId with
    | some untilMs =>
      if nowMs < untilMs then ({ ev with status := .unknown }, locks)
      else (ev, locks.erase ev.taskId)
    | none => (ev, locks)
  else (ev, locks)

/-- The loop over the events. -/
def applyLocks (nowMs : Int) (locks : Map TaskId Int) :
    List TaskEvent → List TaskEvent × Map TaskId Int
  | [] => ([], locks)
  | ev :: evs =>
    let (ev, locks) := applyLock nowMs locks ev
    let (evs, locks) := applyLocks nowMs locks evs
    (ev :: evs, locks)

def ingestResult (events : List TaskEvent) : IngestResult where
  duplicateRejectedTaskIds := (events.filter (·.type = .duplicateRejected)).map (·.taskId)
  removedTaskIds := (events.filter (·.type = .removed)).map (·.taskId)

/-- `EventIngestOrchestrator::ingest` -/
def ingest (now : Clock) (s : Ingest) (views : List LtAlertView) : Ingest × IngestResult :=
  let events := views.filterMap mapAlertToTaskEvent
  if events = [] then (s, {})
  else
    let (events, locks) := applyLocks (now 0) s.statusLockUntilMs events
    ({ tasks := consumeBatch (now.after 1) s.tasks events, statusLockUntilMs := locks },
      ingestResult events)

/-! ### What the locks leave alone -/

/-- Two events that differ in their status at most. -/
def SameButStatus (ev ev' : TaskEvent) : Prop := ∃ st, ev' = { ev with status := st }

theorem sameButStatus_applyLock (nowMs : Int) (locks : Map TaskId Int) (ev : TaskEvent) :
    SameButStatus ev (applyLock nowMs locks ev).1 := by
  unfold applyLock
  split
  · split
    · split
      · exact ⟨.unknown, rfl⟩
      · exact ⟨ev.status, rfl⟩
    · exact ⟨ev.status, rfl⟩
  · exact ⟨ev.status, rfl⟩

/-- The locks change the statuses of the events and nothing else. -/
theorem sameButStatus_applyLocks (nowMs : Int) (locks : Map TaskId Int) (events : List TaskEvent) :
    List.Forall₂ SameButStatus events (applyLocks nowMs locks events).1 := by
  induction events generalizing locks with
  | nil => exact .nil
  | cons ev evs ih => exact .cons (sameButStatus_applyLock nowMs locks ev) (ih _)

/-- The store after a batch: it has consumed the mapped events, with other statuses at most. -/
theorem tasks_ingest (now : Clock) (s : Ingest) (views : List LtAlertView) :
    ∃ events, List.Forall₂ SameButStatus (views.filterMap mapAlertToTaskEvent) events ∧
      (ingest now s views).1.tasks = consumeBatch (now.after 1) s.tasks events := by
  unfold ingest
  generalize views.filterMap mapAlertToTaskEvent = events
  by_cases he : events = []
  · subst he
    exact ⟨[], .nil, rfl⟩
  · rw [if_neg he]
    exact ⟨_, sameButStatus_applyLocks (now 0) s.statusLockUntilMs events, rfl⟩

theorem tasksKeyed_ingest (now : Clock) {s : Ingest} (h : TasksKeyed s.tasks)
    (views : List LtAlertView) : TasksKeyed (ingest now s views).1.tasks := by
  obtain ⟨events, _, htasks⟩ := tasks_ingest now s views
  rw [htasks]
  exact tasksKeyed_consumeBatch (now.after 1) h events

end TorrentLink.App
