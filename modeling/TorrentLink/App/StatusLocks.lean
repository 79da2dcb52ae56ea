import TorrentLink.App.RemovedTasks
import TorrentLink.Core.SnapshotFields

/-!
# Injected statuses and their locks

The controller injects a status into the store and locks it for a second against progress views, which
the worker may still report with the old one. A run with the lock is compared with the same run without
it, event by event: until the lock expires the two differ in the status of the task only, which stays the
injected one (`injected_status_held`), and the first known status of a later progress view makes them agree
again.
-/

namespace TorrentLink.App

open Lib Lt

inductive LockStep
  | ingest (now : Clock) (views : List LtAlertView)
  | injectTransitionalStatus (now : Clock) (nowMs : Int) (taskId : TaskId) (status : TaskStatus)

def lockStep (s : Ingest) : LockStep → Ingest
  | .ingest now views => (ingest now s views).1
  | .injectTransitionalStatus now nowMs taskId status =>
    injectTransitionalStatus now nowMs s taskId status

/-- No lock of the task. -/
def withoutLock (t : TaskId) (s : Ingest) : Ingest :=
  { s with statusLockUntilMs := s.statusLockUntilMs.erase t }

/-! ### A batch event by event -/

/-- The events of a batch, each with the clock while it is applied. -/
def timed (now : Clock) : List TaskEvent → List TimedEvent
  | [] => []
  | ev :: events => (now, ev) :: timed (now.after 2) events

theorem mem_of_mem_timed {now : Clock} {events : List TaskEvent} {e : TimedEvent}
    (h : e ∈ timed now events) : e.2 ∈ events := by
  induction events generalizing now with
  | nil => cases h
  | cons ev events ih =>
    rcases List.mem_cons.mp h with rfl | h
    · exact List.mem_cons_self
    · exact List.mem_cons_of_mem ev (ih h)

theorem timed_append (now : Clock) (events events' : List TaskEvent) :
    timed now (events ++ events') = timed now events ++ timed (now.after (2 * events.length)) events' := by
  induction events generalizing now with
  | nil =>
    have hstart : now.after 0 = now := funext fun i => congrArg now (Nat.zero_add i)
    exact congrArg (timed · events') hstart.symm
  | cons ev events ih =>
    have hclock : (now.after 2).after (2 * events.length) = now.after (2 * (ev :: events).length) := by
      funext i
      refine congrArg now ?_
      rw [List.length_cons]
      omega
    rw [List.cons_append, timed, ih (now.after 2), hclock]
    rfl

/-- An event of a batch on its way through the locks into the store. -/
def ingestEvent (nowMs : Int) (s : Ingest) (e : TimedEvent) : Ingest where
  tasks := applyEvent e.1 s.tasks (applyLock nowMs s.statusLockUntilMs e.2).1
  statusLockUntilMs := (applyLock nowMs s.statusLockUntilMs e.2).2

/-- The locks read no snapshot and the store reads no lock, so the two loops over a batch are one. -/
theorem ingest_eq_run (now : Clock) (s : Ingest) (views : List LtAlertView) :
    (ingest now s views).1 =
      run (ingestEvent (now 0)) s (timed (now.after 1) (views.filterMap mapAlertToTaskEvent)) := by
  unfold ingest
  generalize views.filterMap mapAlertToTaskEvent = events
  generalize now 0 = nowMs
  generalize now.after 1 = later
  by_cases he : events = []
  · rw [if_pos he, he]
    rfl
  · rw [if_neg he]
    clear he
    dsimp only
    induction events generalizing later s with
    | nil => rfl
    | cons ev evs ih => exact ih (ingestEvent nowMs s (later, ev)) (later.after 2)

/-- The clock for the rest of a batch whose first views have been ingested: the locks still go by its first
reading. -/
def restClock (now : Clock) (views : List LtAlertView) : Clock := fun i =>
  if i = 0 then now 0 else now.after (2 * (views.filterMap mapAlertToTaskEvent).length) i

/-- The parts of a batch may be ingested one after the other. -/
theorem ingest_append (now : Clock) (s : Ingest) (views views' : List LtAlertView) :
    (ingest now s (views ++ views')).1 =
      (ingest (restClock now views) (ingest now s views).1 views').1 := by
  have hclock : (restClock now views).after 1 =
      (now.after 1).after (2 * (views.filterMap mapAlertToTaskEvent).length) := by
    funext i
    have hlater : 1 + i ≠ 0 := by omega
    refine (if_neg hlater).trans (congrArg now ?_)
    omega
  rw [ingest_eq_run, ingest_eq_run, ingest_eq_run, List.filterMap_append, timed_append, run_append, hclock]
  rfl

theorem mapAlertToTaskEvent_progress {v : LtAlertView} {ev : TaskEvent}
    (h : mapAlertToTaskEvent v = some ev) (hv : v.type = .taskProgress) :
    ev.type = .progressUpdated ∧ ev.status = v.status := by
  unfold mapAlertToTaskEvent at h
  split at h
  · cases h
  · simp only [hv] at h
    cases h
    exact ⟨rfl, rfl⟩

/-! ### One event and the locks -/

theorem taskId_applyLock (nowMs : Int) (locks : Map TaskId Int) (ev : TaskEvent) :
    (applyLock nowMs locks ev).1.taskId = ev.taskId := by
  obtain ⟨status, hstatus⟩ := sameButStatus_applyLock nowMs locks ev
  rw [hstatus]

theorem lookup_ingestEvent_ne (nowMs : Int) (s : Ingest) {now : Clock} {ev : TaskEvent} {t : TaskId}
    (h : ev.taskId ≠ t) : (ingestEvent nowMs s (now, ev)).tasks.lookup t = s.tasks.lookup t :=
  lookup_applyEvent_ne now s.tasks (taskId_applyLock nowMs s.statusLockUntilMs ev ▸ h)

/-- An event leaves the locks of other tasks alone. -/
theorem lookup_applyLock_ne (nowMs : Int) (locks : Map TaskId Int) {ev : TaskEvent} {t : TaskId}
    (h : ev.taskId ≠ t) : (applyLock nowMs locks ev).2.lookup t = locks.lookup t := by
  unfold applyLock
  split
  · split
    · split
      · rfl
      · exact AList.lookup_erase_ne h.symm
    · rfl
  · rfl

/-- What the locks make of an event depends on the lock of its task only. -/
theorem applyLock_congr (nowMs : Int) {locks locks' : Map TaskId Int} {ev : TaskEvent}
    (h : locks.lookup ev.taskId = locks'.lookup ev.taskId) :
    (applyLock nowMs locks ev).1 = (applyLock nowMs locks' ev).1 ∧
      (applyLock nowMs locks ev).2.lookup ev.taskId =
        (applyLock nowMs locks' ev).2.lookup ev.taskId := by
  unfold applyLock
  by_cases hp : ev.type = .progressUpdated
  · rw [if_pos hp, if_pos hp, ← h]
    cases hlock : locks.lookup ev.taskId with
    | none => exact ⟨rfl, hlock.trans (hlock.symm.trans h)⟩
    | some untilMs =>
      dsimp only
      by_cases hlt : nowMs < untilMs
      · rw [if_pos hlt, if_pos hlt]
        exact ⟨rfl, h⟩
      · rw [if_neg hlt, if_neg hlt]
        exact ⟨rfl, (AList.lookup_erase ev.taskId locks).trans (AList.lookup_erase ev.taskId locks').symm⟩
  · rw [if_neg hp, if_neg hp]
    exact ⟨rfl, h⟩

theorem applyLock_of_none (nowMs : Int) {locks : Map TaskId Int} {ev : TaskEvent}
    (h : locks.lookup ev.taskId = none) : applyLock nowMs locks ev = (ev, locks) := by
  unfold applyLock
  rw [h]
  exact ite_self _

/-- Until it expires a lock takes the status out of a progress event. -/
theorem applyLock_of_lt {nowMs untilMs : Int} {locks : Map TaskId Int} {ev : TaskEvent}
    (hp : ev.type = .progressUpdated) (h : locks.lookup ev.taskId = some untilMs)
    (hlt : nowMs < untilMs) : applyLock nowMs locks ev = ({ ev with status := .unknown }, locks) := by
  unfold applyLock
  rw [if_pos hp, h]
  exact if_pos hlt

/-- From then on a progress event removes it. -/
theorem applyLock_of_le {nowMs untilMs : Int} {locks : Map TaskId Int} {ev : TaskEvent}
    (hp : ev.type = .progressUpdated) (h : locks.lookup ev.taskId = some untilMs)
    (hle : untilMs ≤ nowMs) : applyLock nowMs locks ev = (ev, locks.erase ev.taskId) := by
  unfold applyLock
  rw [if_pos hp, h]
  exact if_neg (not_lt.mpr hle)

/-- An event without a status stays one. -/
theorem applyLock_of_unknown (nowMs : Int) (locks : Map TaskId Int) {ev : TaskEvent}
    (h : ev.status = .unknown) : (applyLock nowMs locks ev).1 = { ev with status := .unknown } := by
  have hev : ev = { ev with status := .unknown } := by rw [← h]
  unfold applyLock
  split
  · split
    · split
      · rfl
      · exact hev
    · exact hev
  · exact hev

/-! ### One event and the status -/

/-- Without its status, a progress event keeps the one of the snapshot. -/
theorem mergeEvent_unknown {ev : TaskEvent} (hp : ev.type = .progressUpdated) (s : TaskSnapshot)
    (status : TaskStatus) :
    mergeEvent { s with status := status } { ev with status := .unknown } =
      { mergeEvent s ev with status := status } := by
  unfold mergeEvent
  simp only [hp, ne_eq, not_true_eq_false, if_false]

/-- A known status takes the place of any other. -/
theorem mergeEvent_known {ev : TaskEvent} (hp : ev.type = .progressUpdated)
    (hstatus : ev.status ≠ .unknown) (s : TaskSnapshot) (status : TaskStatus) :
    mergeEvent { s with status := status } ev = mergeEvent s ev ∧
      (mergeEvent s ev).status = ev.status := by
  unfold mergeEvent
  simp only [hp, if_pos hstatus, and_self]

theorem lookup_applyEvent_progress (now : Clock) {tasks : Tasks} {ev : TaskEvent} {s : TaskSnapshot}
    (hp : ev.type = .progressUpdated) (h : tasks.lookup ev.taskId = some s) :
    (applyEvent now tasks ev).lookup ev.taskId =
      some { mergeEvent s ev with lastUpdatedMs := pickEventTimeOrNow (now 1) ev.eventMs } := by
  rw [lookup_applyEvent_self now tasks (by rw [hp]; decide) (by rw [hp]; decide), snapshotFor, h]

/-! ### A run with the lock and one without -/

/-- The two runs differ in the status of the task and in its lock. -/
structure DifferInStatus (t : TaskId) (status : TaskStatus) (locked unlocked : Ingest) : Prop where
  snapshot : ∃ snap, unlocked.tasks.lookup t = some snap ∧
    locked.tasks.lookup t = some { snap with status := status }
  others : ∀ t', t' ≠ t → locked.tasks.lookup t' = unlocked.tasks.lookup t'
  otherLocks : ∀ t', t' ≠ t →
    locked.statusLockUntilMs.lookup t' = unlocked.statusLockUntilMs.lookup t'
  noLock : unlocked.statusLockUntilMs.lookup t = none

variable {t : TaskId} {status : TaskStatus} {locked unlocked : Ingest}

/-- An event of another task finds the same in both runs. -/
theorem DifferInStatus.other (h : DifferInStatus t status locked unlocked) (nowMs : Int) (now : Clock)
    {ev : TaskEvent} (hev : ev.taskId ≠ t) :
    DifferInStatus t status (ingestEvent nowMs locked (now, ev))
      (ingestEvent nowMs unlocked (now, ev)) := by
  obtain ⟨hsame, hlock⟩ := applyLock_congr nowMs (h.otherLocks ev.taskId hev)
  constructor
  case snapshot =>
    obtain ⟨snap, hsnap, hheld⟩ := h.snapshot
    exact ⟨snap, (lookup_ingestEvent_ne nowMs unlocked hev).trans hsnap,
      (lookup_ingestEvent_ne nowMs locked hev).trans hheld⟩
  case others =>
    intro t' ht'
    by_cases heq : ev.taskId = t'
    · subst heq
      unfold ingestEvent
      dsimp only
      rw [← hsame, ← taskId_applyLock nowMs locked.statusLockUntilMs ev]
      refine lookup_applyEvent_congr now ?_
      rw [taskId_applyLock]
      exact h.others _ ht'
    · rw [lookup_ingestEvent_ne nowMs locked heq, lookup_ingestEvent_ne nowMs unlocked heq]
      exact h.others t' ht'
  case otherLocks =>
    intro t' ht'
    by_cases heq : ev.taskId = t'
    · subst heq
      exact hlock
    · unfold ingestEvent
      dsimp only
      rw [lookup_applyLock_ne nowMs _ heq, lookup_applyLock_ne nowMs _ heq]
      exact h.otherLocks t' ht'
  case noLock => exact (lookup_applyLock_ne nowMs _ hev).trans h.noLock

/-- A progress event whose status does not reach the store, in the locked run, keeps the status there. -/
theorem DifferInStatus.held (h : DifferInStatus t status locked unlocked) {nowMs : Int} (now : Clock)
    {ev : TaskEvent} (hev : ev.taskId = t) (hp : ev.type = .progressUpdated)
    (hheld : (applyLock nowMs locked.statusLockUntilMs ev).1 = { ev with status := .unknown }) :
    DifferInStatus t status (ingestEvent nowMs locked (now, ev))
      (ingestEvent nowMs unlocked (now, ev)) := by
  subst hev
  have hfree := applyLock_of_none nowMs h.noLock
  constructor
  case snapshot =>
    obtain ⟨snap, hsnap, hlocked⟩ := h.snapshot
    refine ⟨{ mergeEvent snap ev with lastUpdatedMs := pickEventTimeOrNow (now 1) ev.eventMs }, ?_, ?_⟩
    · unfold ingestEvent
      rw [hfree]
      exact lookup_applyEvent_progress now hp hsnap
    · unfold ingestEvent
      rw [hheld]
      have hunknown : ({ ev with status := .unknown } : TaskEvent).type = .progressUpdated := hp
      refine (lookup_applyEvent_progress now hunknown hlocked).trans ?_
      rw [mergeEvent_unknown hp]
  case others =>
    intro t' ht'
    rw [lookup_ingestEvent_ne nowMs locked ht'.symm, lookup_ingestEvent_ne nowMs unlocked ht'.symm]
    exact h.others t' ht'
  case otherLocks =>
    intro t' ht'
    exact (lookup_applyLock_ne nowMs _ ht'.symm).trans
      ((h.otherLocks t' ht').trans (lookup_applyLock_ne nowMs _ ht'.symm).symm)
  case noLock =>
    unfold ingestEvent
    rw [hfree]
    exact h.noLock

/-- An injection changes the snapshot of its task only. -/
theorem lookup_inject_ne (now : Clock) (nowMs : Int) (s : Ingest) {t t' : TaskId} (h : t ≠ t')
    (status : TaskStatus) :
    (injectTransitionalStatus now nowMs s t status).tasks.lookup t' = s.tasks.lookup t' :=
  have htask : (transitionalStatus t status).taskId ≠ t' := h
  lookup_applyEvent_ne now s.tasks htask

/-- The task is listed with the status. -/
theorem lookup_inject_self (now : Clock) (nowMs : Int) (s : Ingest) (t : TaskId) (status : TaskStatus) :
    ∃ snap, (injectTransitionalStatus now nowMs s t status).tasks.lookup t = some snap ∧
      snap.status = status := by
  have htype : (transitionalStatus t status).type = .statusChanged := rfl
  exact ⟨_, lookup_applyEvent_self now s.tasks (by rw [htype]; decide) (by rw [htype]; decide), rfl⟩

/-- An injection for another task. -/
theorem DifferInStatus.inject (h : DifferInStatus t status locked unlocked) (now : Clock) (nowMs : Int)
    {t₁ : TaskId} (ht₁ : t₁ ≠ t) (status₁ : TaskStatus) :
    DifferInStatus t status (injectTransitionalStatus now nowMs locked t₁ status₁)
      (injectTransitionalStatus now nowMs unlocked t₁ status₁) := by
  constructor
  case snapshot =>
    obtain ⟨snap, hsnap, hheld⟩ := h.snapshot
    exact ⟨snap, (lookup_inject_ne now nowMs unlocked ht₁ status₁).trans hsnap,
      (lookup_inject_ne now nowMs locked ht₁ status₁).trans hheld⟩
  case others =>
    intro t' ht'
    by_cases heq : t₁ = t'
    · subst heq
      have hfound : locked.tasks.lookup (transitionalStatus t₁ status₁).taskId =
          unlocked.tasks.lookup (transitionalStatus t₁ status₁).taskId := h.others t₁ ht'
      exact lookup_applyEvent_congr now hfound
    · rw [lookup_inject_ne now nowMs locked heq, lookup_inject_ne now nowMs unlocked heq]
      exact h.others t' ht'
  case otherLocks =>
    intro t' ht'
    unfold injectTransitionalStatus lockProgressStatus
    dsimp only
    rw [Map.lookup_insert, Map.lookup_insert, h.otherLocks t' ht']
  case noLock => exact (AList.lookup_insert_ne ht₁.symm).trans h.noLock

/-- Right after the injection. -/
theorem differInStatus_injected (now : Clock) (nowMs : Int) (s : Ingest) (t : TaskId) (status : TaskStatus) :
    DifferInStatus t status (injectTransitionalStatus now nowMs s t status)
      (withoutLock t (injectTransitionalStatus now nowMs s t status)) := by
  obtain ⟨snap, hsnap, hstatus⟩ := lookup_inject_self now nowMs s t status
  constructor
  case snapshot =>
    refine ⟨snap, hsnap, hsnap.trans ?_⟩
    rw [← hstatus]
  case others => exact fun _ _ => rfl
  case otherLocks => exact fun t' ht' => (AList.lookup_erase_ne ht').symm
  case noLock => exact AList.lookup_erase t _

/-! ### Before the lock expires -/

/-- A step before the lock expires: a batch whose views of the task are progress views, or an injection for
another task. -/
def BeforeExpiry (t : TaskId) (untilMs : Int) : LockStep → Prop
  | .ingest now views => now 0 < untilMs ∧ ∀ v ∈ views, v.taskId = t → v.type = .taskProgress
  | .injectTransitionalStatus _ _ t' _ => t' ≠ t

/-- A step at any time that presents no status of the task. -/
def PresentsNoStatus (t : TaskId) : LockStep → Prop
  | .ingest _ views => ∀ v ∈ views, v.taskId = t → v.type = .taskProgress ∧ v.status = .unknown
  | .injectTransitionalStatus _ _ t' _ => t' ≠ t

/-- The status is held against that of the run without the lock, and the lock is in place. -/
structure StatusHeld (t : TaskId) (status : TaskStatus) (untilMs : Int) (locked unlocked : Ingest) :
    Prop extends DifferInStatus t status locked unlocked where
  lock : locked.statusLockUntilMs.lookup t = some untilMs

/-- One event of a batch before the lock expires. -/
theorem StatusHeld.event {untilMs : Int} (h : StatusHeld t status untilMs locked unlocked) {nowMs : Int}
    (hlt : nowMs < untilMs) (now : Clock) {ev : TaskEvent}
    (hev : ev.taskId = t → ev.type = .progressUpdated) :
    StatusHeld t status untilMs (ingestEvent nowMs locked (now, ev))
      (ingestEvent nowMs unlocked (now, ev)) := by
  by_cases ht : ev.taskId = t
  · subst ht
    have happly := applyLock_of_lt (hev rfl) h.lock hlt
    refine ⟨h.toDifferInStatus.held now rfl (hev rfl) (congrArg Prod.fst happly), ?_⟩
    unfold ingestEvent
    rw [happly]
    exact h.lock
  · exact ⟨h.toDifferInStatus.other nowMs now ht, (lookup_applyLock_ne nowMs _ ht).trans h.lock⟩

/-- One step before the lock expires. -/
theorem StatusHeld.step {untilMs : Int} (h : StatusHeld t status untilMs locked unlocked)
    {step : LockStep} (hstep : BeforeExpiry t untilMs step) :
    StatusHeld t status untilMs (lockStep locked step) (lockStep unlocked step) := by
  cases step with
  | ingest now views =>
    obtain ⟨hlt, hviews⟩ := hstep
    show StatusHeld t status untilMs (ingest now locked views).1 (ingest now unlocked views).1
    rw [ingest_eq_run, ingest_eq_run]
    refine run_simulation (fun s u e hev h => h.event hlt e.1 hev) h fun e hmem ht => ?_
    obtain ⟨v, hv, hmap⟩ := List.mem_filterMap.mp (mem_of_mem_timed hmem)
    have htask := mapAlertToTaskEvent_taskId hmap
    exact (mapAlertToTaskEvent_progress hmap (hviews v hv (htask.symm.trans ht))).1
  | injectTransitionalStatus now nowMs t₁ status₁ =>
    exact ⟨h.toDifferInStatus.inject now nowMs hstep status₁,
      (AList.lookup_insert_ne (Ne.symm hstep)).trans h.lock⟩

/-! ### Once it has expired -/

/-- The status is still held; the lock is in place, or an event without a status has removed it. -/
structure StatusPending (t : TaskId) (status : TaskStatus) (untilMs : Int) (locked unlocked : Ingest) :
    Prop extends DifferInStatus t status locked unlocked where
  lock : ∀ ms, locked.statusLockUntilMs.lookup t = some ms → ms = untilMs

theorem StatusHeld.pending {untilMs : Int} (h : StatusHeld t status untilMs locked unlocked) :
    StatusPending t status untilMs locked unlocked :=
  ⟨h.toDifferInStatus, fun _ hms => Option.some.inj (hms.symm.trans h.lock)⟩

/-- An event keeps a lock or removes it. -/
theorem lookup_applyLock_some {nowMs ms : Int} {locks : Map TaskId Int} {ev : TaskEvent} {t : TaskId}
    (h : (applyLock nowMs locks ev).2.lookup t = some ms) : locks.lookup t = some ms := by
  unfold applyLock at h
  split at h
  · split at h
    · split at h
      · exact h
      · exact (Map.lookup_erase_some h).2
    · exact h
  · exact h

/-- A progress event without a status, at any time. -/
theorem StatusPending.event {untilMs : Int} (h : StatusPending t status untilMs locked unlocked)
    (nowMs : Int) (now : Clock) {ev : TaskEvent}
    (hev : ev.taskId = t → ev.type = .progressUpdated ∧ ev.status = .unknown) :
    StatusPending t status untilMs (ingestEvent nowMs locked (now, ev))
      (ingestEvent nowMs unlocked (now, ev)) := by
  refine ⟨?_, fun ms hms => h.lock ms (lookup_applyLock_some hms)⟩
  by_cases ht : ev.taskId = t
  · obtain ⟨hp, hunknown⟩ := hev ht
    exact h.held now ht hp (applyLock_of_unknown nowMs locked.statusLockUntilMs hunknown)
  · exact h.other nowMs now ht

/-- A batch that presents no status of the task. -/
theorem StatusPending.ingest {untilMs : Int} (h : StatusPending t status untilMs locked unlocked)
    (now : Clock) {views : List LtAlertView}
    (hviews : ∀ v ∈ views, v.taskId = t → v.type = .taskProgress ∧ v.status = .unknown) :
    StatusPending t status untilMs (ingest now locked views).1 (ingest now unlocked views).1 := by
  rw [ingest_eq_run, ingest_eq_run]
  refine run_simulation (fun s u e hev h => h.event (now 0) e.1 hev) h fun e hmem ht => ?_
  obtain ⟨v, hv, hmap⟩ := List.mem_filterMap.mp (mem_of_mem_timed hmem)
  have htask := mapAlertToTaskEvent_taskId hmap
  obtain ⟨hprogress, hunknown⟩ := hviews v hv (htask.symm.trans ht)
  obtain ⟨hp, hstatus⟩ := mapAlertToTaskEvent_progress hmap hprogress
  exact ⟨hp, hstatus.trans hunknown⟩

theorem StatusPending.step {untilMs : Int} (h : StatusPending t status untilMs locked unlocked)
    {step : LockStep} (hstep : PresentsNoStatus t step) :
    StatusPending t status untilMs (lockStep locked step) (lockStep unlocked step) := by
  cases step with
  | ingest now views => exact h.ingest now hstep
  | injectTransitionalStatus now nowMs t₁ status₁ =>
    exact ⟨h.toDifferInStatus.inject now nowMs hstep status₁, fun ms hms =>
      h.lock ms ((AList.lookup_insert_ne (Ne.symm hstep)).symm.trans hms)⟩

/-- A status has reached the store, the lock is gone, and the two runs list the same snapshots again. -/
structure StatusApplied (t : TaskId) (status : TaskStatus) (locked unlocked : Ingest) : Prop where
  snapshot : ∃ snap, locked.tasks.lookup t = some snap ∧ snap.status = status
  same : ∀ t', locked.tasks.lookup t' = unlocked.tasks.lookup t'
  lock : locked.statusLockUntilMs.lookup t = none

/-- A known status of a progress event, once the lock has expired. -/
theorem StatusPending.released {untilMs : Int} (h : StatusPending t status untilMs locked unlocked)
    {nowMs : Int} (hle : untilMs ≤ nowMs) (now : Clock) {ev : TaskEvent} (hev : ev.taskId = t)
    (hp : ev.type = .progressUpdated) (hknown : ev.status ≠ .unknown) :
    StatusApplied t ev.status (ingestEvent nowMs locked (now, ev))
      (ingestEvent nowMs unlocked (now, ev)) := by
  subst hev
  have hfree := applyLock_of_none nowMs h.noLock
  have hpasses : (applyLock nowMs locked.statusLockUntilMs ev).1 = ev ∧
      (applyLock nowMs locked.statusLockUntilMs ev).2.lookup ev.taskId = none := by
    cases hlock : locked.statusLockUntilMs.lookup ev.taskId with
    | none =>
      rw [applyLock_of_none nowMs hlock]
      exact ⟨rfl, hlock⟩
    | some ms =>
      rw [applyLock_of_le hp hlock ((h.lock ms hlock).trans_le hle)]
      exact ⟨rfl, AList.lookup_erase _ _⟩
  obtain ⟨snap, hsnap, hheld⟩ := h.snapshot
  obtain ⟨hmerge, hstatus⟩ := mergeEvent_known hp hknown snap status
  have hself : (ingestEvent nowMs locked (now, ev)).tasks.lookup ev.taskId =
      some { mergeEvent snap ev with lastUpdatedMs := pickEventTimeOrNow (now 1) ev.eventMs } := by
    unfold ingestEvent
    dsimp only
    rw [hpasses.1, lookup_applyEvent_progress now hp hheld, hmerge]
  constructor
  case snapshot => exact ⟨_, hself, hstatus⟩
  case same =>
    intro t'
    by_cases ht' : ev.taskId = t'
    · subst ht'
      rw [hself]
      unfold ingestEvent
      rw [hfree]
      exact (lookup_applyEvent_progress now hp hsnap).symm
    · rw [lookup_ingestEvent_ne nowMs locked ht', lookup_ingestEvent_ne nowMs unlocked ht']
      exact h.others t' (Ne.symm ht')
  case lock => exact hpasses.2

/-! ### From the injection on -/

/-- An injected status stays until its lock expires, in a run that is otherwise as without the lock. A later
injection replaces the lock. Afterwards, the first progress view with a known status applies it and removes
the lock, wherever it stands in its batch. -/
theorem injected_status_held (now : Clock) (nowMs : Int) (s : Ingest) (t : TaskId) (status : TaskStatus)
    {steps : List LockStep} (hsteps : ∀ step ∈ steps, BeforeExpiry t (nowMs + 1000) step) :
    let injected := injectTransitionalStatus now nowMs s t status
    let locked := run lockStep injected steps
    let unlocked := run lockStep (withoutLock t injected) steps
    StatusHeld t status (nowMs + 1000) locked unlocked ∧
      (∀ now' nowMs' status',
        let replaced := injectTransitionalStatus now' nowMs' locked t status'
        StatusHeld t status' (nowMs' + 1000) replaced (withoutLock t replaced)) ∧
      ∀ quiet now' views v rest, (∀ step ∈ quiet, PresentsNoStatus t step) →
        nowMs + 1000 ≤ now' 0 →
        (∀ v' ∈ views, v'.taskId = t → v'.type = .taskProgress ∧ v'.status = .unknown) →
        v.taskId = t → t ≠ 0 → v.type = .taskProgress → v.status ≠ .unknown →
        let applied := (ingest now' (run lockStep locked quiet) (views ++ [v])).1
        StatusApplied t v.status applied
            (ingest now' (run lockStep unlocked quiet) (views ++ [v])).1 ∧
          (ingest now' (run lockStep locked quiet) (views ++ v :: rest)).1 =
            (ingest (restClock now' (views ++ [v])) applied rest).1 := by
  intro injected locked unlocked
  have hinjected : ∀ now nowMs s status, StatusHeld t status (nowMs + 1000)
      (injectTransitionalStatus now nowMs s t status)
      (withoutLock t (injectTransitionalStatus now nowMs s t status)) := fun now nowMs s status =>
    ⟨differInStatus_injected now nowMs s t status, AList.lookup_insert _⟩
  have hheld : StatusHeld t status (nowMs + 1000) locked unlocked :=
    run_simulation (fun s u step hstep h => h.step hstep) (hinjected now nowMs s status) hsteps
  refine ⟨hheld, fun now' nowMs' status' => hinjected now' nowMs' locked status', ?_⟩
  intro quiet now' views v rest hquiet hle hviews hv ht hprogress hknown applied
  have hpending : StatusPending t status (nowMs + 1000) (run lockStep locked quiet)
      (run lockStep unlocked quiet) :=
    run_simulation (fun s u step hstep h => h.step hstep) hheld.pending hquiet
  obtain ⟨ev, hmap⟩ := Option.isSome_iff_exists.mp
    (isSome_mapAlertToTaskEvent (by rw [hprogress]; decide) (hv ▸ ht) : (mapAlertToTaskEvent v).isSome)
  obtain ⟨hp, hstatus⟩ := mapAlertToTaskEvent_progress hmap hprogress
  have hlast : ∀ x, (ingest (restClock now' views) x [v]).1 =
      ingestEvent (now' 0) x ((restClock now' views).after 1, ev) := by
    intro x
    rw [ingest_eq_run, List.filterMap_cons_some hmap]
    rfl
  constructor
  · show StatusApplied t v.status (ingest now' (run lockStep locked quiet) (views ++ [v])).1 _
    rw [ingest_append, ingest_append, hlast, hlast, ← hstatus]
    exact (hpending.ingest now' hviews).released hle _
      ((mapAlertToTaskEvent_taskId hmap).trans hv) hp (hstatus ▸ hknown)
  · rw [← List.singleton_append, ← List.append_assoc]
    exact ingest_append now' _ (views ++ [v]) rest

/-- A task that is paused while the worker still reports it as downloading. -/
def downloadingView : LtAlertView := { type := .taskProgress, taskId := 1, status := .downloading }

theorem injected_status_held_paused :
    let locked := run lockStep (injectTransitionalStatus (clockFrom 0) 0 {} 1 .paused)
      [.ingest (clockFrom 500) [downloadingView]]
    (∃ snap, locked.tasks.lookup 1 = some snap ∧ snap.status = .paused) ∧
      ∃ snap, (ingest (clockFrom 1000) locked [downloadingView]).1.tasks.lookup 1 = some snap ∧
        snap.status = .downloading := by
  intro locked
  have hbatch : ∀ step ∈ [LockStep.ingest (clockFrom 500) [downloadingView]],
      BeforeExpiry 1 (0 + 1000) step := by
    intro step hstep
    rw [List.mem_singleton.mp hstep]
    exact ⟨by decide, fun v hv _ => by rw [List.mem_singleton.mp hv]; rfl⟩
  obtain ⟨hheld, _, hreleased⟩ := injected_status_held (clockFrom 0) 0 {} 1 .paused hbatch
  obtain ⟨snap, _, hsnap⟩ := hheld.snapshot
  obtain ⟨happlied, _⟩ := hreleased [] (clockFrom 1000) [] downloadingView [] (by simp) (by decide)
    (by simp) rfl (by decide) rfl (by decide)
  exact ⟨⟨_, hsnap, rfl⟩, happlied.snapshot⟩

end TorrentLink.App
