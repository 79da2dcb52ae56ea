import TorrentLink.Core.TaskStateStore
import TorrentLink.Lib.Runs
import Mathlib.Data.List.Induction

/-!
# The fields of a snapshot

What the store should hold for a task, said without the store: of the task's own events since its last
removal, each field has the last value that one of them presented, where an event presents a value only
if its type may set the field and the value passes the presence rule (`SnapshotField.presents`).
`store_fold`: the store holds exactly this. So events of different tasks commute, a rejected duplicate
changes nothing, and an event applied twice is applied once.
-/

namespace TorrentLink

open Lib

/-! ### Fields and their values -/

inductive SnapshotField
  | status | name | savePath | errorMessage | category | tags | infoHashV1 | infoHashV2 | comment
  | totalBytes | selectedBytes | downloadedBytes | uploadedBytes | downloadRate | uploadRate
  | seeders | users | availability | activeTimeSec | dlLimitBps | ulLimitBps | wastedBytes
  | nextAnnounceSec | lastSeenCompleteMs | pieces | pieceLength | createdBy | createdOnMs
  | completedOnMs | isPrivate
  deriving DecidableEq, Repr

inductive FieldValue
  | text (s : String)
  | num (n : Int)
  | ratio (x : Rat)
  | status (st : TaskStatus)
  deriving DecidableEq, Repr

/-- The presence rule of each kind of value. -/
def FieldValue.isPresent : FieldValue → Bool
  | .text s => s ≠ ""
  | .num n => 0 ≤ n
  | .ratio x => 0 ≤ x
  | .status st => st ≠ .unknown

def SnapshotField.ofSnapshot (s : TaskSnapshot) : SnapshotField → FieldValue
  | .status => .status s.status
  | .name => .text s.name
  | .savePath => .text s.savePath
  | .errorMessage => .text s.errorMessage
  | .category => .text s.category
  | .tags => .text s.tags
  | .infoHashV1 => .text s.infoHashV1
  | .infoHashV2 => .text s.infoHashV2
  | .comment => .text s.comment
  | .totalBytes => .num s.totalBytes
  | .selectedBytes => .num s.selectedBytes
  | .downloadedBytes => .num s.downloadedBytes
  | .uploadedBytes => .num s.uploadedBytes
  | .downloadRate => .num s.downloadRate
  | .uploadRate => .num s.uploadRate
  | .seeders => .num s.seeders
  | .users => .num s.users
  | .availability => .ratio s.availability
  | .activeTimeSec => .num s.activeTimeSec
  | .dlLimitBps => .num s.dlLimitBps
  | .ulLimitBps => .num s.ulLimitBps
  | .wastedBytes => .num s.wastedBytes
  | .nextAnnounceSec => .num s.nextAnnounceSec
  | .lastSeenCompleteMs => .num s.lastSeenCompleteMs
  | .pieces => .num s.pieces
  | .pieceLength => .num s.pieceLength
  | .createdBy => .text s.createdBy
  | .createdOnMs => .num s.createdOnMs
  | .completedOnMs => .num s.completedOnMs
  | .isPrivate => .num s.isPrivate

def SnapshotField.ofEvent (ev : TaskEvent) : SnapshotField → FieldValue
  | .status => .status ev.status
  | .name => .text ev.name
  | .savePath => .text ev.savePath
  | .errorMessage => .text ev.errorMessage
  | .category => .text ev.category
  | .tags => .text ev.tags
  | .infoHashV1 => .text ev.infoHashV1
  | .infoHashV2 => .text ev.infoHashV2
  | .comment => .text ev.comment
  | .totalBytes => .num ev.totalBytes
  | .selectedBytes => .num ev.selectedBytes
  | .downloadedBytes => .num ev.downloadedBytes
  | .uploadedBytes => .num ev.uploadedBytes
  | .downloadRate => .num ev.downloadRate
  | .uploadRate => .num ev.uploadRate
  | .seeders => .num ev.seeders
  | .users => .num ev.users
  | .availability => .ratio ev.availability
  | .activeTimeSec => .num ev.activeTimeSec
  | .dlLimitBps => .num ev.dlLimitBps
  | .ulLimitBps => .num ev.ulLimitBps
  | .wastedBytes => .num ev.wastedBytes
  | .nextAnnounceSec => .num ev.nextAnnounceSec
  | .lastSeenCompleteMs => .num ev.lastSeenCompleteMs
  | .pieces => .num ev.pieces
  | .pieceLength => .num ev.pieceLength
  | .createdBy => .text ev.createdBy
  | .createdOnMs => .num ev.createdOnMs
  | .completedOnMs => .num ev.completedOnMs
  | .isPrivate => .num ev.isPrivate

/-- The types of events that may set the field. -/
def SnapshotField.setBy : SnapshotField → List TaskEventType
  | .status => [.statusChanged, .progressUpdated, .errorOccurred]
  | .errorMessage => [.statusChanged, .errorOccurred]
  | .savePath | .comment => [.upsertMeta]
  | .name | .category | .tags | .infoHashV1 | .infoHashV2 | .totalBytes | .selectedBytes | .pieces
  | .pieceLength | .createdBy | .createdOnMs | .isPrivate => [.upsertMeta, .progressUpdated]
  | .downloadRate | .uploadRate => [.progressUpdated, .rateUpdated]
  | .downloadedBytes | .uploadedBytes | .seeders | .users | .availability | .activeTimeSec
  | .dlLimitBps | .ulLimitBps | .wastedBytes | .nextAnnounceSec | .lastSeenCompleteMs
  | .completedOnMs => [.progressUpdated]

/-- The value an event presents for the field. An error event sets the status and the message, and a
status event the status, whatever they are. -/
def SnapshotField.presents (f : SnapshotField) (ev : TaskEvent) : Option FieldValue :=
  if ev.type = .errorOccurred ∧ f = .status then some (.status .error)
  else if ev.type = .errorOccurred ∧ f = .errorMessage then some (.text ev.errorMessage)
  else if ev.type = .statusChanged ∧ f = .status then some (.status ev.status)
  else if ev.type ∈ f.setBy ∧ (f.ofEvent ev).isPresent then some (f.ofEvent ev)
  else none

/-! ### The fold -/

/-- An event, with the clock while it is applied. -/
abbrev TimedEvent := Clock × TaskEvent

/-- The event's time, as a new snapshot takes it. -/
def TimedEvent.addedMs (e : TimedEvent) : Int := pickEventTimeOrNow (e.1 0) e.2.eventMs

/-- The event's time, as the last update. -/
def TimedEvent.updatedMs (e : TimedEvent) : Int := pickEventTimeOrNow (e.1 1) e.2.eventMs

def applyTimed (tasks : Tasks) (e : TimedEvent) : Tasks := applyEvent e.1 tasks e.2

/-- The task's own events since its last removal, without those that reject a duplicate. -/
def ownEvents (t : TaskId) (events : List TimedEvent) : List TimedEvent :=
  (((events.filter fun e => e.2.taskId = t).reverse.takeWhile fun e =>
    e.2.type ≠ .removed).reverse).filter fun e => e.2.type ≠ .duplicateRejected

/-- The last value that one of the events presented, else the default. -/
def lastPresented (f : SnapshotField) (own : List TimedEvent) : FieldValue :=
  ((own.filterMap fun e => f.presents e.2).getLast?).getD (f.ofSnapshot {})

/-- The snapshot is the fold of these events of its task. -/
structure IsFold (t : TaskId) (own : List TimedEvent) (s : TaskSnapshot) : Prop where
  taskId : s.taskId = t
  fields : ∀ f : SnapshotField, f.ofSnapshot s = lastPresented f own
  addedAt : own.head?.map TimedEvent.addedMs = some s.addedAtMs
  lastUpdated : own.getLast?.map TimedEvent.updatedMs = some s.lastUpdatedMs

/-- A snapshot is its fields, its id and its two times. -/
theorem snapshot_ext {s s' : TaskSnapshot} (hid : s.taskId = s'.taskId)
    (hfields : ∀ f : SnapshotField, f.ofSnapshot s = f.ofSnapshot s')
    (hadded : s.addedAtMs = s'.addedAtMs) (hupdated : s.lastUpdatedMs = s'.lastUpdatedMs) :
    s = s' := by
  have text : ∀ {a b : String}, FieldValue.text a = .text b → a = b := FieldValue.text.inj
  have num : ∀ {a b : Int}, FieldValue.num a = .num b → a = b := FieldValue.num.inj
  cases s
  cases s'
  rw [TaskSnapshot.mk.injEq]
  exact ⟨hid, FieldValue.status.inj (hfields .status), text (hfields .name),
    text (hfields .savePath), text (hfields .errorMessage), text (hfields .category),
    text (hfields .tags), text (hfields .infoHashV1), text (hfields .infoHashV2),
    text (hfields .comment), num (hfields .totalBytes), num (hfields .selectedBytes),
    num (hfields .downloadedBytes), num (hfields .uploadedBytes), num (hfields .downloadRate),
    num (hfields .uploadRate), num (hfields .seeders), num (hfields .users),
    FieldValue.ratio.inj (hfields .availability), hadded, num (hfields .activeTimeSec),
    num (hfields .dlLimitBps), num (hfields .ulLimitBps), num (hfields .wastedBytes),
    num (hfields .nextAnnounceSec), num (hfields .lastSeenCompleteMs), num (hfields .pieces),
    num (hfields .pieceLength), text (hfields .createdBy), num (hfields .createdOnMs),
    num (hfields .completedOnMs), num (hfields .isPrivate), hupdated⟩

/-- So at most one snapshot is the fold of given events. -/
theorem IsFold.unique {t : TaskId} {own : List TimedEvent} {s s' : TaskSnapshot}
    (h : IsFold t own s) (h' : IsFold t own s') : s = s' := by
  apply snapshot_ext
  · rw [h.taskId, h'.taskId]
  · intro f
    rw [h.fields, h'.fields]
  · exact Option.some.inj (h.addedAt.symm.trans h'.addedAt)
  · exact Option.some.inj (h.lastUpdated.symm.trans h'.lastUpdated)

/-! ### One event, field by field -/

theorem text_textOr (new old : String) : FieldValue.text (textOr new old) =
    (if (FieldValue.text new).isPresent then some (.text new) else none).getD (.text old) := by
  by_cases h : new = "" <;> simp [textOr, FieldValue.isPresent, h]

theorem num_numOr (new old : Int) : FieldValue.num (numOr new old) =
    (if (FieldValue.num new).isPresent then some (.num new) else none).getD (.num old) := by
  by_cases h : 0 ≤ new <;> simp [numOr, FieldValue.isPresent, h]

theorem ratio_ite (new old : Rat) : FieldValue.ratio (if 0 ≤ new then new else old) =
    (if (FieldValue.ratio new).isPresent then some (.ratio new) else none).getD (.ratio old) := by
  by_cases h : 0 ≤ new <;> simp [FieldValue.isPresent, h]

theorem status_ite (new old : TaskStatus) :
    FieldValue.status (if new = .unknown then old else new) =
      (if (FieldValue.status new).isPresent then some (.status new) else none).getD
        (.status old) := by
  by_cases h : new = .unknown <;> simp [FieldValue.isPresent, h]

/-- An event that is merged into a snapshot sets the fields that it presents a value for. -/
theorem ofSnapshot_mergeEvent (f : SnapshotField) (s : TaskSnapshot) {ev : TaskEvent}
    (hd : ev.type ≠ .duplicateRejected) (hr : ev.type ≠ .removed) :
    f.ofSnapshot (mergeEvent s ev) = (f.presents ev).getD (f.ofSnapshot s) := by
  unfold mergeEvent SnapshotField.presents
  cases hty : ev.type with
  | duplicateRejected => exact absurd hty hd
  | removed => exact absurd hty hr
  | upsertMeta | rateUpdated | errorOccurred | statusChanged | progressUpdated =>
    cases f <;> simp [SnapshotField.ofSnapshot, SnapshotField.ofEvent, SnapshotField.setBy,
      text_textOr, num_numOr, ratio_ite, status_ite]

/-! ### The task's own events, one more at a time -/

variable {t : TaskId} {e : TimedEvent}

theorem ownEvents_of_ne (events : List TimedEvent) (h : e.2.taskId ≠ t) :
    ownEvents t (events ++ [e]) = ownEvents t events := by
  simp [ownEvents, List.filter_append, h]

theorem ownEvents_of_duplicateRejected (events : List TimedEvent)
    (h : e.2.type = .duplicateRejected) : ownEvents t (events ++ [e]) = ownEvents t events := by
  by_cases ht : e.2.taskId = t
  · simp [ownEvents, List.filter_append, ht, h]
  · exact ownEvents_of_ne events ht

theorem ownEvents_of_removed (events : List TimedEvent) (ht : e.2.taskId = t)
    (h : e.2.type = .removed) : ownEvents t (events ++ [e]) = [] := by
  simp [ownEvents, List.filter_append, ht, h]

theorem ownEvents_of_merged (events : List TimedEvent) (ht : e.2.taskId = t)
    (hd : e.2.type ≠ .duplicateRejected) (hr : e.2.type ≠ .removed) :
    ownEvents t (events ++ [e]) = ownEvents t events ++ [e] := by
  simp [ownEvents, List.filter_append, ht, hd, hr]

theorem lastPresented_concat (f : SnapshotField) (own : List TimedEvent) (e : TimedEvent) :
    lastPresented f (own ++ [e]) = (f.presents e.2).getD (lastPresented f own) := by
  unfold lastPresented
  rw [List.filterMap_append]
  cases h : f.presents e.2 <;> simp [h]

/-! ### The store is the fold -/

/-- What the store should hold for a task with these events since its last removal. -/
def Holds (t : TaskId) (own : List TimedEvent) (found : Option TaskSnapshot) : Prop :=
  (own = [] ∧ found = none) ∨ (own ≠ [] ∧ ∃ s, found = some s ∧ IsFold t own s)

theorem addedAtMs_mergeEvent (s : TaskSnapshot) (ev : TaskEvent) :
    (mergeEvent s ev).addedAtMs = s.addedAtMs := by
  unfold mergeEvent
  cases ev.type <;> rfl

/-- The time of the last update is not a field of the events. -/
theorem ofSnapshot_updated (f : SnapshotField) (s : TaskSnapshot) (ms : Int) :
    f.ofSnapshot { s with lastUpdatedMs := ms } = f.ofSnapshot s := by
  cases f <;> rfl

/-- The snapshot an event finds in the store, as a fold: a new one has the defaults and the event's
time. -/
theorem Holds.snapshotFor {own : List TimedEvent} {tasks : Tasks}
    (h : Holds t own (tasks.lookup t)) (ht : e.2.taskId = t) :
    (snapshotFor e.1 tasks e.2).taskId = t ∧
      (∀ f : SnapshotField, f.ofSnapshot (snapshotFor e.1 tasks e.2) = lastPresented f own) ∧
      (own ++ [e]).head?.map TimedEvent.addedMs =
        some (snapshotFor e.1 tasks e.2).addedAtMs := by
  subst ht
  unfold TorrentLink.snapshotFor
  rcases h with ⟨rfl, hnone⟩ | ⟨hne, s, hsome, hs⟩
  · rw [hnone]
    exact ⟨rfl, fun f => by cases f <;> rfl, rfl⟩
  · rw [hsome]
    refine ⟨hs.taskId, hs.fields, ?_⟩
    rw [List.head?_append_of_ne_nil _ hne]
    exact hs.addedAt

/-- Merging an event of the task adds it to the fold. -/
theorem Holds.merge {own : List TimedEvent} {tasks : Tasks} (h : Holds t own (tasks.lookup t))
    (ht : e.2.taskId = t) (hd : e.2.type ≠ .duplicateRejected) (hr : e.2.type ≠ .removed) :
    Holds t (own ++ [e]) ((applyTimed tasks e).lookup t) := by
  obtain ⟨hid, hfields, hadded⟩ := h.snapshotFor ht
  have hlookup := lookup_applyEvent_self e.1 tasks hd hr
  rw [ht] at hlookup
  refine .inr ⟨by simp, _, hlookup, ?_, fun f => ?_, ?_, by simp [TimedEvent.updatedMs]⟩
  · simpa [taskId_mergeEvent] using hid
  · rw [ofSnapshot_updated, ofSnapshot_mergeEvent f _ hd hr, lastPresented_concat, hfields]
  · simpa [addedAtMs_mergeEvent] using hadded

/-- After any events, the store holds of each task the fold of its own events since its last
removal. -/
theorem holds_run (t : TaskId) (events : List TimedEvent) :
    Holds t (ownEvents t events) ((run applyTimed ∅ events).lookup t) := by
  induction events using List.reverseRecOn with
  | nil => exact .inl ⟨rfl, rfl⟩
  | append_singleton events e ih =>
    rw [run_append, run_cons, run_nil]
    by_cases ht : e.2.taskId = t
    · by_cases hd : e.2.type = .duplicateRejected
      · rw [ownEvents_of_duplicateRejected events hd, applyTimed,
          lookup_applyEvent_duplicateRejected _ _ hd]
        exact ih
      · by_cases hr : e.2.type = .removed
        · rw [ownEvents_of_removed events ht hr, ← ht, applyTimed,
            lookup_applyEvent_removed _ _ hr]
          exact .inl ⟨rfl, rfl⟩
        · rw [ownEvents_of_merged events ht hd hr]
          exact ih.merge ht hd hr
    · rw [ownEvents_of_ne events ht, applyTimed, lookup_applyEvent_ne _ _ ht]
      exact ih

theorem Holds.unique {own : List TimedEvent} {found found' : Option TaskSnapshot}
    (h : Holds t own found) (h' : Holds t own found') : found = found' := by
  rcases h with ⟨hown, hnone⟩ | ⟨hown, s, hsome, hs⟩
  · rcases h' with ⟨-, hnone'⟩ | ⟨hown', -⟩
    · rw [hnone, hnone']
    · exact absurd hown hown'
  · rcases h' with ⟨hown', -⟩ | ⟨-, s', hsome', hs'⟩
    · exact absurd hown' hown
    · rw [hsome, hsome', hs.unique hs']

/-! ### Two events in a row -/

/-- What an event makes of its own task depends only on what it finds of it. -/
theorem lookup_applyEvent_congr (now : Clock) {tasks tasks' : Tasks} {ev : TaskEvent}
    (h : tasks.lookup ev.taskId = tasks'.lookup ev.taskId) :
    (applyEvent now tasks ev).lookup ev.taskId = (applyEvent now tasks' ev).lookup ev.taskId := by
  by_cases hd : ev.type = .duplicateRejected
  · rw [lookup_applyEvent_duplicateRejected now tasks hd,
      lookup_applyEvent_duplicateRejected now tasks' hd, h]
  · by_cases hr : ev.type = .removed
    · rw [lookup_applyEvent_removed now tasks hr, lookup_applyEvent_removed now tasks' hr]
    · rw [lookup_applyEvent_self now tasks hd hr, lookup_applyEvent_self now tasks' hd hr]
      unfold snapshotFor
      rw [h]

/-- Events of different tasks commute. -/
theorem lookup_applyEvent_comm (now now' : Clock) (tasks : Tasks) {ev ev' : TaskEvent}
    (h : ev.taskId ≠ ev'.taskId) (t : TaskId) :
    (applyEvent now' (applyEvent now tasks ev) ev').lookup t =
      (applyEvent now (applyEvent now' tasks ev') ev).lookup t := by
  by_cases ht : ev.taskId = t
  · subst ht
    rw [lookup_applyEvent_ne now' _ h.symm]
    exact (lookup_applyEvent_congr now (lookup_applyEvent_ne now' tasks h.symm)).symm
  · rw [lookup_applyEvent_ne now _ ht]
    by_cases ht' : ev'.taskId = t
    · subst ht'
      exact lookup_applyEvent_congr now' (lookup_applyEvent_ne now tasks h)
    · rw [lookup_applyEvent_ne now' _ ht', lookup_applyEvent_ne now _ ht,
        lookup_applyEvent_ne now' _ ht']

@[simp] theorem textOr_textOr (new old : String) :
    textOr new (textOr new old) = textOr new old := by
  unfold textOr
  split_ifs <;> simp

@[simp] theorem numOr_numOr (new old : Int) : numOr new (numOr new old) = numOr new old := by
  unfold numOr
  split_ifs <;> simp

/-- What an event has written it writes again, whenever the snapshot was last updated. -/
theorem mergeEvent_mergeEvent (s : TaskSnapshot) (ev : TaskEvent) (ms : Int) :
    mergeEvent { mergeEvent s ev with lastUpdatedMs := ms } ev =
      { mergeEvent s ev with lastUpdatedMs := ms } := by
  unfold mergeEvent
  cases ev.type with
  | progressUpdated =>
    by_cases hstatus : ev.status = .unknown <;> by_cases hratio : 0 ≤ ev.availability <;>
      simp [hstatus, hratio]
  | upsertMeta | statusChanged | rateUpdated | errorOccurred | duplicateRejected | removed => simp

theorem pickEventTimeOrNow_of_isValidMs (now : Int) {eventMs : Int} (h : isValidMs eventMs) :
    pickEventTimeOrNow now eventMs = eventMs := if_pos h

/-- An event with a valid time applied twice in a row is applied once. -/
theorem lookup_applyEvent_twice (now now' : Clock) (tasks : Tasks) {ev : TaskEvent}
    (hvalid : isValidMs ev.eventMs) (t : TaskId) :
    (applyEvent now' (applyEvent now tasks ev) ev).lookup t =
      (applyEvent now tasks ev).lookup t := by
  by_cases ht : ev.taskId = t
  · subst ht
    by_cases hd : ev.type = .duplicateRejected
    · rw [lookup_applyEvent_duplicateRejected now' _ hd]
    · by_cases hr : ev.type = .removed
      · rw [lookup_applyEvent_removed now' _ hr, lookup_applyEvent_removed now _ hr]
      · have hfound := lookup_applyEvent_self now tasks hd hr
        have hsnap : snapshotFor now' (applyEvent now tasks ev) ev =
            { mergeEvent (snapshotFor now tasks ev) ev with
              lastUpdatedMs := pickEventTimeOrNow (now 1) ev.eventMs } := by
          rw [snapshotFor, hfound]
        rw [lookup_applyEvent_self now' _ hd hr, hfound, hsnap, mergeEvent_mergeEvent,
          pickEventTimeOrNow_of_isValidMs _ hvalid, pickEventTimeOrNow_of_isValidMs _ hvalid]
  · exact lookup_applyEvent_ne now' _ ht

/-- After any events, the snapshot of a task is the fold of its own events since its last removal;
events of different tasks commute, a rejected duplicate changes no snapshot, and an event with a valid
time changes nothing when it is applied once more. -/
theorem store_fold :
    (∀ (t : TaskId) (events : List TimedEvent),
      Holds t (ownEvents t events) ((run applyTimed ∅ events).lookup t)) ∧
    (∀ (tasks : Tasks) (e e' : TimedEvent), e.2.taskId ≠ e'.2.taskId → ∀ t,
      (run applyTimed tasks [e, e']).lookup t = (run applyTimed tasks [e', e]).lookup t) ∧
    (∀ (tasks : Tasks) (e : TimedEvent), e.2.type = .duplicateRejected → ∀ t,
      (applyTimed tasks e).lookup t = tasks.lookup t) ∧
    ∀ (tasks : Tasks) (now now' : Clock) (ev : TaskEvent), isValidMs ev.eventMs → ∀ t,
      (run applyTimed tasks [(now, ev), (now', ev)]).lookup t =
        (applyTimed tasks (now, ev)).lookup t := by
  refine ⟨holds_run, fun tasks e e' hne t => ?_, fun tasks e hdup t => ?_,
    fun tasks now now' ev hvalid t => ?_⟩
  · exact lookup_applyEvent_comm e.1 e'.1 tasks hne t
  · rw [applyTimed, lookup_applyEvent_duplicateRejected _ _ hdup]
  · exact lookup_applyEvent_twice now now' tasks hvalid t

end TorrentLink
