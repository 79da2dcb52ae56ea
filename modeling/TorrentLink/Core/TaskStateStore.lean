import TorrentLink.Core.TaskEvent

/-!
# The task state store

`TaskStateStore` folds task events into one snapshot a task. The clock is an argument, `now`: while an
event is applied, `now 0` is read for a snapshot that is new, and `now 1` for its last update.
-/

namespace TorrentLink

/-- `tasks_` -/
abbrev Tasks := Map TaskId TaskSnapshot

/-- What `currentMs()` returns, one reading after the other. -/
abbrev Clock := Nat → Int

/-- The clock after `n` readings. -/
def Clock.after (now : Clock) (n : Nat) : Clock := fun i => now (n + i)

/-- A clock that goes on by a millisecond from one reading to the next. -/
def clockFrom (ms : Int) : Clock := fun i => ms + i

def pickEventTimeOrNow (now eventMs : Int) : Int := if isValidMs eventMs then eventMs else now

/-- The presence rule of a text field: an empty text is not presented. -/
def textOr (new old : String) : String := if new ≠ "" then new else old

/-- The presence rule of a numeric field: a negative number is not presented. -/
def numOr (new old : Int) : Int := if 0 ≤ new then new else old

/-- The `switch` of `applyEvent`: what an event of each type writes into the task's snapshot. -/
def mergeEvent (s : TaskSnapshot) (ev : TaskEvent) : TaskSnapshot :=
  match ev.type with
  | .upsertMeta =>
    { s with
      name := textOr ev.name s.name
      savePath := textOr ev.savePath s.savePath
      category := textOr ev.category s.category
      tags := textOr ev.tags s.tags
      infoHashV1 := textOr ev.infoHashV1 s.infoHashV1
      infoHashV2 := textOr ev.infoHashV2 s.infoHashV2
      comment := textOr ev.comment s.comment
      totalBytes := numOr ev.totalBytes s.totalBytes
      selectedBytes := numOr ev.selectedBytes s.selectedBytes
      pieces := numOr ev.pieces s.pieces
      pieceLength := numOr ev.pieceLength s.pieceLength
      createdBy := textOr ev.createdBy s.createdBy
      createdOnMs := numOr ev.createdOnMs s.createdOnMs
      isPrivate := numOr ev.isPrivate s.isPrivate }
  | .statusChanged =>
    { s with
      status := ev.status
      errorMessage := textOr ev.errorMessage s.errorMessage }
  | .progressUpdated =>
    { s with
      name := textOr ev.name s.name
      status := if ev.status ≠ .unknown then ev.status else s.status
      totalBytes := numOr ev.totalBytes s.totalBytes
      selectedBytes := numOr ev.selectedBytes s.selectedBytes
      downloadedBytes := numOr ev.downloadedBytes s.downloadedBytes
      uploadedBytes := numOr ev.uploadedBytes s.uploadedBytes
      downloadRate := numOr ev.downloadRate s.downloadRate
      uploadRate := numOr ev.uploadRate s.uploadRate
      seeders := numOr ev.seeders s.seeders
      users := numOr ev.users s.users
      availability := if 0 ≤ ev.availability then ev.availability else s.availability
      category := textOr ev.category s.category
      tags := textOr ev.tags s.tags
      infoHashV1 := textOr ev.infoHashV1 s.infoHashV1
      infoHashV2 := textOr ev.infoHashV2 s.infoHashV2
      activeTimeSec := numOr ev.activeTimeSec s.activeTimeSec
      dlLimitBps := numOr ev.dlLimitBps s.dlLimitBps
      ulLimitBps := numOr ev.ulLimitBps s.ulLimitBps
      wastedBytes := numOr ev.wastedBytes s.wastedBytes
      nextAnnounceSec := numOr ev.nextAnnounceSec s.nextAnnounceSec
      lastSeenCompleteMs := numOr ev.lastSeenCompleteMs s.lastSeenCompleteMs
      pieces := numOr ev.pieces s.pieces
      pieceLength := numOr ev.pieceLength s.pieceLength
      createdBy := textOr ev.createdBy s.createdBy
      createdOnMs := numOr ev.createdOnMs s.createdOnMs
      completedOnMs := numOr ev.completedOnMs s.completedOnMs
      isPrivate := numOr ev.isPrivate s.isPrivate }
  | .rateUpdated =>
    { s with
      downloadRate := numOr ev.downloadRate s.downloadRate
      uploadRate := numOr ev.uploadRate s.uploadRate }
  | .errorOccurred => { s with status := .error, errorMessage := ev.errorMessage }
  | .duplicateRejected => s
  | .removed => s

/-- The snapshot an event finds: the task's own, or the one `try_emplace` makes. -/
def snapshotFor (now : Clock) (tasks : Tasks) (ev : TaskEvent) : TaskSnapshot :=
  match tasks.lookup ev.taskId with
  | some s => s
  | none => { taskId := ev.taskId, addedAtMs := pickEventTimeOrNow (now 0) ev.eventMs }

/-- `TaskStateStore::applyEvent` -/
def applyEvent (now : Clock) (tasks : Tasks) (ev : TaskEvent) : Tasks :=
  if ev.type = .duplicateRejected then tasks
  else if ev.type = .removed then tasks.erase ev.taskId
  else tasks.insert ev.taskId
    { mergeEvent (snapshotFor now tasks ev) ev with
      lastUpdatedMs := pickEventTimeOrNow (now 1) ev.eventMs }

/-- `TaskPipeline::consumeBatch` -/
def consumeBatch (now : Clock) (tasks : Tasks) : List TaskEvent → Tasks
  | [] => tasks
  | ev :: events => consumeBatch (now.after 2) (applyEvent now tasks ev) events

/-- `TaskStateStore::snapshots` -/
def snapshots (tasks : Tasks) : List TaskSnapshot := tasks.entries.map (·.2)

/-! ### One event, seen from one task -/

@[simp] theorem textOr_empty (old : String) : textOr "" old = old := rfl

/-- An event leaves every other task alone. -/
theorem lookup_applyEvent_ne (now : Clock) (tasks : Tasks) {ev : TaskEvent} {t : TaskId}
    (h : ev.taskId ≠ t) : (applyEvent now tasks ev).lookup t = tasks.lookup t := by
  unfold applyEvent
  split_ifs
  · rfl
  · exact AList.lookup_erase_ne h.symm
  · exact AList.lookup_insert_ne h.symm

theorem lookup_applyEvent_removed (now : Clock) (tasks : Tasks) {ev : TaskEvent}
    (h : ev.type = .removed) : (applyEvent now tasks ev).lookup ev.taskId = none := by
  unfold applyEvent
  rw [if_neg (by rw [h]; decide), if_pos h]
  exact AList.lookup_erase _ _

theorem lookup_applyEvent_duplicateRejected (now : Clock) (tasks : Tasks) {ev : TaskEvent}
    (h : ev.type = .duplicateRejected) : applyEvent now tasks ev = tasks := by
  unfold applyEvent
  rw [if_pos h]

theorem lookup_applyEvent_self (now : Clock) (tasks : Tasks) {ev : TaskEvent}
    (hd : ev.type ≠ .duplicateRejected) (hr : ev.type ≠ .removed) :
    (applyEvent now tasks ev).lookup ev.taskId =
      some { mergeEvent (snapshotFor now tasks ev) ev with
        lastUpdatedMs := pickEventTimeOrNow (now 1) ev.eventMs } := by
  unfold applyEvent
  rw [if_neg hd, if_neg hr]
  exact AList.lookup_insert _

/-- An `upsertMeta` event lists its own task, and only that. -/
theorem isSome_lookup_upsertMeta (now : Clock) (tasks : Tasks) {ev : TaskEvent}
    (h : ev.type = .upsertMeta) (t : TaskId) :
    ((applyEvent now tasks ev).lookup t).isSome ↔ ev.taskId = t ∨ (tasks.lookup t).isSome := by
  by_cases ht : ev.taskId = t
  · have hself := lookup_applyEvent_self now tasks (show ev.type ≠ _ by simp [h]) (by simp [h])
    rw [ht] at hself
    simp [hself, ht]
  · rw [lookup_applyEvent_ne now tasks ht]
    simp [ht]

/-- Every event but a removal of the task itself keeps the task's snapshot in the store. -/
theorem isSome_lookup_applyEvent (now : Clock) (tasks : Tasks) {ev : TaskEvent} {t : TaskId}
    (hr : ev.taskId = t → ev.type ≠ .removed) (h : (tasks.lookup t).isSome) :
    ((applyEvent now tasks ev).lookup t).isSome := by
  by_cases ht : ev.taskId = t
  · by_cases hd : ev.type = .duplicateRejected
    · rw [lookup_applyEvent_duplicateRejected now tasks hd]
      exact h
    · rw [← ht, lookup_applyEvent_self now tasks hd (hr ht)]
      rfl
  · rw [lookup_applyEvent_ne now tasks ht]
    exact h

/-! ### Snapshots carry the id they are stored under -/

def TasksKeyed (tasks : Tasks) : Prop := ∀ t snap, tasks.lookup t = some snap → snap.taskId = t

theorem tasksKeyed_empty : TasksKeyed ∅ := by
  intro t snap h
  simp at h

theorem taskId_mergeEvent (s : TaskSnapshot) (ev : TaskEvent) :
    (mergeEvent s ev).taskId = s.taskId := by
  unfold mergeEvent
  cases ev.type <;> rfl

theorem taskId_snapshotFor (now : Clock) {tasks : Tasks} (h : TasksKeyed tasks) (ev : TaskEvent) :
    (snapshotFor now tasks ev).taskId = ev.taskId := by
  unfold snapshotFor
  cases hs : tasks.lookup ev.taskId with
  | none => rfl
  | some s => exact h _ s hs

theorem tasksKeyed_applyEvent (now : Clock) {tasks : Tasks} (h : TasksKeyed tasks) (ev : TaskEvent) :
    TasksKeyed (applyEvent now tasks ev) := by
  intro t snap hsnap
  by_cases ht : ev.taskId = t
  · subst ht
    by_cases hd : ev.type = .duplicateRejected
    · rw [lookup_applyEvent_duplicateRejected now tasks hd] at hsnap
      exact h _ _ hsnap
    · by_cases hr : ev.type = .removed
      · rw [lookup_applyEvent_removed now tasks hr] at hsnap
        cases hsnap
      · rw [lookup_applyEvent_self now tasks hd hr] at hsnap
        cases hsnap
        exact (taskId_mergeEvent _ ev).trans (taskId_snapshotFor now h ev)
  · rw [lookup_applyEvent_ne now tasks ht] at hsnap
    exact h _ _ hsnap

theorem tasksKeyed_consumeBatch (now : Clock) {tasks : Tasks} (h : TasksKeyed tasks)
    (events : List TaskEvent) : TasksKeyed (consumeBatch now tasks events) := by
  induction events generalizing now tasks with
  | nil => exact h
  | cons ev evs ih => exact ih (now.after 2) (tasksKeyed_applyEvent now h ev)

theorem mem_snapshots {tasks : Tasks} {snap : TaskSnapshot} :
    snap ∈ snapshots tasks ↔ ∃ t, tasks.lookup t = some snap := by
  unfold snapshots
  rw [List.mem_map]
  constructor
  · rintro ⟨⟨t, s⟩, hmem, rfl⟩
    exact ⟨t, AList.mem_lookup_iff.mpr hmem⟩
  · rintro ⟨t, h⟩
    exact ⟨⟨t, snap⟩, AList.mem_lookup_iff.mp h, rfl⟩

end TorrentLink
