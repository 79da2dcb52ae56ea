import TorrentLink.App.EventIngest
import TorrentLink.Lib.Runs
import Mathlib.Data.Finset.Basic

/-!
# Removed tasks and late events

A run of the store takes events, as the pipeline consumes them one at a time, and statuses injected by
the controller. Beside it stands the record of the tasks that were removed and not listed by an
`UpsertMeta` event since. The store should list none of these; but every event that is not a removal
and not a rejected duplicate finds or makes the task's snapshot (`try_emplace`), so it does so exactly
as long as no Status, Progress, Rate or Error event of a recorded task comes in.
-/

namespace TorrentLink.App

open Lib

inductive StoreStep
  | event (now : Clock) (ev : TaskEvent)
  | injectTransitionalStatus (now : Clock) (nowMs : Int) (taskId : TaskId) (status : TaskStatus)

/-- The event of an injected status. -/
def transitionalStatus (taskId : TaskId) (status : TaskStatus) : TaskEvent :=
  { type := .statusChanged, taskId := taskId, status := status }

/-- `EventIngestOrchestrator::lockProgressStatus` -/
def lockProgressStatus (s : Ingest) (taskId : TaskId) (lockUntilMs : Int) : Ingest :=
  { s with statusLockUntilMs := s.statusLockUntilMs.insert taskId lockUntilMs }

/-- `AppController::injectTransitionalStatus` -/
def injectTransitionalStatus (now : Clock) (nowMs : Int) (s : Ingest) (taskId : TaskId)
    (status : TaskStatus) : Ingest :=
  lockProgressStatus
    { s with tasks := applyEvent now s.tasks (transitionalStatus taskId status) } taskId
    (nowMs + 1000)

def storeStep (s : Ingest) : StoreStep → Ingest
  | .event now ev => { s with tasks := applyEvent now s.tasks ev }
  | .injectTransitionalStatus now nowMs taskId status =>
    injectTransitionalStatus now nowMs s taskId status

/-- The event that reaches the store in the step. -/
def StoreStep.toEvent : StoreStep → TaskEvent
  | .event _ ev => ev
  | .injectTransitionalStatus _ _ taskId status => transitionalStatus taskId status

def StoreStep.clock : StoreStep → Clock
  | .event now _ => now
  | .injectTransitionalStatus now _ _ _ => now

theorem tasks_storeStep (s : Ingest) (step : StoreStep) :
    (storeStep s step).tasks = applyEvent step.clock s.tasks step.toEvent := by
  cases step <;> rfl

/-! ### The record of removed tasks -/

/-- The tasks that were removed, and not listed by an `UpsertMeta` event since. -/
abbrev RemovedTasks := Finset TaskId

def noteRemoved (_ : Ingest) (removed : RemovedTasks) (step : StoreStep) : RemovedTasks :=
  if step.toEvent.type = .removed then insert step.toEvent.taskId removed
  else if step.toEvent.type = .upsertMeta then removed.erase step.toEvent.taskId
  else removed

/-- The store lists no removed task. -/
def StaysRemoved (x : Ingest × RemovedTasks) : Prop := ∀ t ∈ x.2, x.1.tasks.lookup t = none

/-- The events that must not list a task. -/
def IsLate (type : TaskEventType) : Prop :=
  type = .statusChanged ∨ type = .progressUpdated ∨ type = .rateUpdated ∨ type = .errorOccurred

/-- The event is not a late one of a removed task. -/
def NotLate (x : Ingest × RemovedTasks) (step : StoreStep) : Prop :=
  IsLate step.toEvent.type → step.toEvent.taskId ∉ x.2

/-- An event of any of these types lists its task. -/
theorem isSome_lookup_late (now : Clock) (tasks : Tasks) {ev : TaskEvent} (h : IsLate ev.type) :
    ((applyEvent now tasks ev).lookup ev.taskId).isSome := by
  have hd : ev.type ≠ .duplicateRejected := by
    rcases h with h | h | h | h <;> simp [h]
  have hr : ev.type ≠ .removed := by
    rcases h with h | h | h | h <;> simp [h]
  rw [lookup_applyEvent_self now tasks hd hr]
  rfl

/-- One step keeps the removed tasks out of the store exactly when its event is not a late one of
them. -/
theorem staysRemoved_step {x : Ingest × RemovedTasks} (h : StaysRemoved x) (step : StoreStep) :
    StaysRemoved (recorded storeStep noteRemoved x step) ↔ NotLate x step := by
  obtain ⟨s, removed⟩ := x
  unfold StaysRemoved NotLate recorded
  simp only [tasks_storeStep]
  generalize hev : step.toEvent = ev
  by_cases hlate : IsLate ev.type
  · have hrecord : noteRemoved s removed step = removed := by
      unfold noteRemoved
      rw [hev]
      rcases hlate with h | h | h | h <;> simp [h]
    rw [hrecord]
    constructor
    · intro hall _ hmem
      have hsome := isSome_lookup_late step.clock s.tasks hlate
      rw [hall _ hmem] at hsome
      cases hsome
    · intro hnot t ht
      have hne : ev.taskId ≠ t := fun heq => hnot hlate (heq ▸ ht)
      rw [lookup_applyEvent_ne _ _ hne]
      exact h t ht
  · refine iff_of_true (fun t ht => ?_) fun hl => absurd hl hlate
    by_cases hr : ev.type = .removed
    · by_cases heq : ev.taskId = t
      · rw [← heq, lookup_applyEvent_removed _ _ hr]
      · rw [lookup_applyEvent_ne _ _ heq]
        apply h
        simpa [noteRemoved, hev, hr, Ne.symm heq] using ht
    · by_cases hu : ev.type = .upsertMeta
      · have hmem : t ≠ ev.taskId ∧ t ∈ removed := by
          simpa [noteRemoved, hev, hu] using ht
        rw [lookup_applyEvent_ne _ _ hmem.1.symm]
        exact h t hmem.2
      · have hd : ev.type = .duplicateRejected := by
          unfold IsLate at hlate
          cases hty : ev.type <;> simp_all
        rw [lookup_applyEvent_duplicateRejected _ _ hd]
        apply h
        simpa [noteRemoved, hev, hd] using ht

/-- From any store, all along a run no removed task is listed before its next `UpsertMeta` event, if and
only if no Status, Progress, Rate or Error event and no injected status of a removed task comes in. -/
theorem staysRemoved_iff (s : Ingest) (steps : List StoreStep) :
    (∀ n, StaysRemoved (run (recorded storeStep noteRemoved) (s, ∅) (steps.take n))) ↔
      RunOk (recorded storeStep noteRemoved) NotLate (s, ∅) steps := by
  have hstart : StaysRemoved (s, ∅) := fun t ht => absurd ht (Finset.notMem_empty t)
  have hstep : ∀ x step, True → StaysRemoved x →
      (StaysRemoved (recorded storeStep noteRemoved x step) ↔ NotLate x step) :=
    fun _ step _ h => staysRemoved_step h step
  exact always_iff_runOk (fun _ _ _ => trivial) hstep trivial hstart steps

/-- The controller pauses a task whose removal has just been handled: the store lists it again, without
a name. -/
theorem removed_task_listed_again :
    ¬ ∀ (s : Ingest) (steps : List StoreStep),
      StaysRemoved (run (recorded storeStep noteRemoved) (s, ∅) steps) := by
  intro h
  have hgone := h {} [.event 0 { type := .upsertMeta, taskId := 1, name := "ubuntu.iso" },
    .event 0 { type := .removed, taskId := 1 }, .injectTransitionalStatus 0 0 1 .paused] 1 (by decide)
  revert hgone
  decide

end TorrentLink.App
