import TorrentLink.App.TaskMeta
import TorrentLink.Lt.WorkerSteps

/-!
# The metadata of a finalised magnet

`submitPreparedMagnetAdd` posts the command that adds a prepared magnet as a task and at once writes the
user's name, save path, category and tags into the store. The worker's views about the same id come
later, in batches of any size: among them the removal of the torrent that only fetched the metadata,
which erases the snapshot with the user's values in it. `metadata_kept_iff` says when the values stay.
-/

namespace TorrentLink.App

open Lib Lt

/-! ### Submitting the dialog -/

/-- `AddTorrentDialog::Result`, without its two counts for the log. -/
structure DialogResult where
  name : String
  savePath : String
  layout : ContentLayout := .original
  startTorrent : Bool := true
  stopCondition : Int := 0
  sequentialDownload : Bool := false
  skipHashCheck : Bool := false
  addToTopQueue : Bool := false
  category : String
  tagsCsv : String
  fileWanted : List Int := []
  deriving DecidableEq, Repr

/-- The members of the controller that a submission reads. -/
structure AddSettings where
  savePathPolicy : SavePathPolicy := {}
  autoApplyDefaultTrackers : Bool := false
  defaultTrackers : List String := []

/-- What a submission does: the command it posts, and its update of the metadata or the error it
logs. -/
structure Submission where
  cmd : Cmd
  update : MetaOutcome

variable (q : QtInput) (settings : AddSettings)

def rejectSubmission (taskId : TaskId) (message : String) : Submission where
  cmd := .cancelPreparedMagnet taskId
  update := .error message

def DialogResult.taskAddInput (ui : DialogResult) : TaskAddInput where
  name := ui.name
  savePath := ui.savePath
  layout := ui.layout
  startTorrent := ui.startTorrent
  stopCondition := ui.stopCondition
  sequentialDownload := ui.sequentialDownload
  skipHashCheck := ui.skipHashCheck
  addToTopQueue := ui.addToTopQueue
  category := ui.category
  tagsCsv := ui.tagsCsv
  fileWanted := ui.fileWanted

/-- The submission of a dialog whose input is valid. -/
def acceptSubmission (taskId : TaskId) (ui : DialogResult) : Submission :=
  let built := buildTaskAdd q settings.savePathPolicy ui.taskAddInput
  let trackers :=
    if settings.autoApplyDefaultTrackers then sanitizeTrackers q settings.defaultTrackers else []
  { cmd := .finalizePreparedMagnet taskId built.finalSavePath trackers built.opts
    update := .ok (metaEvent taskId ui.name built.finalSavePath ui.category ui.tagsCsv) }

def submitPreparedMagnetAdd (taskId : TaskId) (ui : DialogResult) : Submission :=
  match validateCategory ui.category with
  | some e => rejectSubmission taskId ("Category rejected: " ++ e.message)
  | none =>
    match validateTagsCsv ui.tagsCsv with
    | some e => rejectSubmission taskId ("Tags rejected: " ++ e.message)
    | none =>
      match if trimmed ui.savePath ≠ "" then validatePath q ui.savePath else none with
      | some e => rejectSubmission taskId ("Save path rejected: " ++ e.message)
      | none => acceptSubmission q settings taskId ui

/-! ### The controller and the worker -/

/-- The worker, how many of its views the controller has taken, and the store. -/
structure Controller (H : Type) where
  worker : Worker H := {}
  handed : Nat := 0
  store : Ingest := {}

variable {H : Type}

/-- The next `n` views that are not yet taken. -/
def Controller.nextBatch (s : Controller H) (n : Nat) : List LtAlertView :=
  (s.worker.views.drop s.handed).take n

inductive ControllerLabel (H : Type) (k : TaskId)
  /-- A step of the worker, of a caller or of the session. -/
  | worker (l : Lt.Label H)
  /-- The worker reports the progress of a torrent. -/
  | report (view : LiveView)
  /-- The callback gets a batch of `n` views and ingests it at clock `now`. -/
  | handOver (now : Clock) (n : Nat)
  /-- An event of another task. -/
  | consume (now : Clock) (ev : { ev : TaskEvent // ev.taskId ≠ k })

variable (env : WorkerEnv H)

/-- The user accepts the dialog: the command is posted, then the update is consumed. -/
def submit (settings : AddSettings) (now : Clock) (s : Controller H) (taskId : TaskId)
    (ui : DialogResult) : Controller H :=
  let submission := submitPreparedMagnetAdd env.qt settings taskId ui
  { s with
    worker := step env s.worker (.enqueue submission.cmd)
    store :=
      match submission.update with
      | .ok ev => { s.store with tasks := applyEvent now s.store.tasks ev }
      | .error _ => s.store }

def controllerStep {k : TaskId} (s : Controller H) : ControllerLabel H k → Controller H
  | .worker l => { s with worker := step env s.worker l }
  | .report view => { s with worker := { s.worker with views := s.worker.views ++ [view.1] } }
  | .handOver now n =>
    { s with
      handed := s.handed + (s.nextBatch n).length
      store := (ingest now s.store (s.nextBatch n)).1 }
  | .consume now ev =>
    { s with store := { s.store with tasks := applyEvent now s.store.tasks ev.1 } }

/-- The snapshot has every value that the event presented. -/
def MetaKept (ev : TaskEvent) (tasks : Tasks) : Prop :=
  ∃ snap, tasks.lookup ev.taskId = some snap ∧
    ∀ f : MetaField, f.ofEvent ev ≠ "" → f.ofSnapshot snap = f.ofEvent ev

/-- A batch of views leaves the event's values alone: none of its views removes the task, and it brings
neither another name nor another save path. -/
def Harmless (ev : TaskEvent) (views : List LtAlertView) : Prop :=
  (∀ v ∈ viewsOf ev.taskId views, v.type ≠ .taskRemoved) ∧
  (ev.name ≠ "" → lastNonEmpty ev.name ((viewsOf ev.taskId views).map viewName) = ev.name) ∧
  (ev.savePath ≠ "" →
    lastNonEmpty ev.savePath ((viewsOf ev.taskId views).map viewSavePath) = ev.savePath)

/-- Every batch that is handed over is harmless. -/
def HandOverOk (ev : TaskEvent) {k : TaskId} (s : Controller H) : ControllerLabel H k → Prop
  | .handOver _ n => Harmless ev (s.nextBatch n)
  | _ => True

instance (ev : TaskEvent) (views : List LtAlertView) : Decidable (Harmless ev views) := by
  unfold Harmless
  infer_instance

instance (ev : TaskEvent) {k : TaskId} (s : Controller H) :
    ∀ l : ControllerLabel H k, Decidable (HandOverOk ev s l)
  | .worker _ => isTrue trivial
  | .report _ => isTrue trivial
  | .handOver _ n => inferInstanceAs (Decidable (Harmless ev (s.nextBatch n)))
  | .consume _ _ => isTrue trivial

/-! ### One batch -/

/-- Some field that no view presents was given a value. -/
def HasOwnField (ev : TaskEvent) : Prop := ev.category ≠ "" ∨ ev.tags ≠ ""

theorem metaKept_iff {ev : TaskEvent} (hown : HasOwnField ev) (tasks : Tasks) :
    MetaKept ev tasks ↔
      ∀ f : MetaField, f.ofEvent ev ≠ "" → fieldValue f ev.taskId tasks = f.ofEvent ev := by
  unfold MetaKept fieldValue
  constructor
  · rintro ⟨snap, hsnap, hkept⟩ f hf
    rw [hsnap]
    exact hkept f hf
  · intro h
    cases hsnap : tasks.lookup ev.taskId with
    | none =>
      simp only [hsnap] at h
      obtain hcat | htags := hown
      · exact absurd (h .category hcat).symm hcat
      · exact absurd (h .tags htags).symm htags
    | some snap =>
      refine ⟨snap, rfl, fun f hf => ?_⟩
      have hvalue := h f hf
      rw [hsnap] at hvalue
      exact hvalue

/-- Where the values are in the store, a batch keeps them exactly when it is harmless. -/
theorem metaKept_ingest_iff {ev : TaskEvent} (hown : HasOwnField ev) (now : Clock) {s : Ingest}
    (hkept : MetaKept ev s.tasks) (views : List LtAlertView) :
    MetaKept ev (ingest now s views).1.tasks ↔ Harmless ev views := by
  rw [metaKept_iff hown] at hkept ⊢
  by_cases hlive : ∀ v ∈ viewsOf ev.taskId views, v.type ≠ .taskRemoved
  · have hvalue : ∀ f : MetaField, f.ofEvent ev ≠ "" →
        fieldValue f ev.taskId (ingest now s views).1.tasks =
          lastNonEmpty (f.ofEvent ev) (viewsPresent f ev.taskId views) := by
      intro f hf
      rw [fieldValue_ingest f now s hlive, hkept f hf]
    constructor
    · intro h
      refine ⟨hlive, fun hname => ?_, fun hpath => ?_⟩
      · exact (hvalue .name hname).symm.trans (h .name hname)
      · exact (hvalue .savePath hpath).symm.trans (h .savePath hpath)
    · rintro ⟨_, hname, hpath⟩ f hf
      rw [hvalue f hf]
      cases f with
      | name => exact hname hf
      | savePath => exact hpath hf
      | category => rfl
      | tags => rfl
  · constructor
    · intro h
      obtain hcat | htags := hown
      · have hempty := fieldValue_ingest_removed (.inl rfl) now s hlive
        exact absurd ((h .category hcat).symm.trans hempty) hcat
      · have hempty := fieldValue_ingest_removed (.inr rfl) now s hlive
        exact absurd ((h .tags htags).symm.trans hempty) htags
    · intro h
      exact absurd h.1 hlive

/-! ### The submission -/

theorem submission_ok {taskId : TaskId} {ui : DialogResult} {ev : TaskEvent}
    (h : (submitPreparedMagnetAdd q settings taskId ui).update = .ok ev) :
    ev = metaEvent taskId ui.name
      (buildTaskAdd q settings.savePathPolicy ui.taskAddInput).finalSavePath ui.category
      ui.tagsCsv := by
  unfold submitPreparedMagnetAdd at h
  split at h
  · cases h
  · split at h
    · cases h
    · split at h
      · cases h
      · exact (Except.ok.inj h).symm

/-- Right after an accepted submission its values are in the store. -/
theorem metaKept_submit {settings : AddSettings} {k : TaskId} {ui : DialogResult} {ev : TaskEvent}
    (hok : (submitPreparedMagnetAdd env.qt settings k ui).update = .ok ev) (now : Clock)
    (s : Controller H) : MetaKept ev (submit env settings now s k ui).store.tasks := by
  have hstore : (submit env settings now s k ui).store.tasks = applyEvent now s.store.tasks ev := by
    simp only [submit, hok]
  have htype : ev.type = .upsertMeta := by
    rw [submission_ok env.qt settings hok]
    rfl
  rw [hstore]
  refine ⟨_, lookup_applyEvent_self now s.store.tasks (by rw [htype]; decide)
    (by rw [htype]; decide), fun f hf => ?_⟩
  have hfield : eventField f ev = f.ofEvent ev := by simp only [eventField, htype]
  rw [ofSnapshot_lastUpdated, ofSnapshot_mergeEvent, hfield, textOr, if_pos hf]

/-! ### Runs -/

theorem metaKept_step_iff {ev : TaskEvent} {k : TaskId} (hk : ev.taskId = k) (hown : HasOwnField ev)
    {s : Controller H} (l : ControllerLabel H k) (hkept : MetaKept ev s.store.tasks) :
    MetaKept ev (controllerStep env s l).store.tasks ↔ HandOverOk ev s l := by
  cases l with
  | worker l => exact iff_of_true hkept trivial
  | report view => exact iff_of_true hkept trivial
  | handOver now n => exact metaKept_ingest_iff hown now hkept (s.nextBatch n)
  | consume now other =>
    obtain ⟨snap, hsnap, hvalues⟩ := hkept
    have hne : other.1.taskId ≠ ev.taskId := fun h => other.2 (h.trans hk)
    refine iff_of_true ⟨snap, ?_, hvalues⟩ trivial
    exact (lookup_applyEvent_ne now s.store.tasks hne).trans hsnap

/-- The values of an accepted submission with a category or tags are in the store all along a run
exactly when every batch that is handed over is harmless to them. -/
theorem metadata_kept_iff (settings : AddSettings) (now : Clock) (s : Controller H) (k : TaskId)
    (ui : DialogResult) (ev : TaskEvent)
    (hok : (submitPreparedMagnetAdd env.qt settings k ui).update = .ok ev)
    (hown : ui.category ≠ "" ∨ ui.tagsCsv ≠ "") (labels : List (ControllerLabel H k)) :
    (∀ n, MetaKept ev (run (controllerStep env) (submit env settings now s k ui)
        (labels.take n)).store.tasks) ↔
      RunOk (controllerStep env) (HandOverOk ev) (submit env settings now s k ui) labels := by
  have hev := submission_ok env.qt settings hok
  have hk : ev.taskId = k := by rw [hev]; rfl
  have hown' : HasOwnField ev := by rw [hev]; exact hown
  refine always_iff_runOk (I := fun _ => True) (P := fun c : Controller H => MetaKept ev c.store.tasks)
    (fun _ _ _ => trivial) (fun c l _ hkept => ?_) trivial (metaKept_submit env hok now s) labels
  exact metaKept_step_iff env hk hown' l hkept

/-! ### One magnet -/

def oneDialog : DialogResult where
  name := "one"
  savePath := "/tmp/one"
  category := "films"
  tagsCsv := "a,b"

/-- The event of the dialog's submission. -/
def oneUpdate : TaskEvent := metaEvent 1 "one" "/tmp/one" "films" "a,b"

/-- The steps of a preparation, up to its answer, with its views handed over. -/
def onePreparation : List (ControllerLabel TaskId 1) :=
  [.worker (.prepare oneMagnet "/tmp" []), .worker .command, .worker (.session .created), .worker (.alert 0),
    .worker (.metadata 0 (some oneTorrentInfo) 1), .worker (.alert 0), .handOver (clockFrom 1) 10]

/-- A progress view of the task itself, and a rate view of another, in two batches. -/
def oneProgress : List (ControllerLabel TaskId 1) :=
  [.report ⟨{ type := .taskProgress, taskId := 1, name := "one" }, by decide⟩,
    .report ⟨{ type := .taskRate, taskId := 2 }, by decide⟩, .handOver (clockFrom 30) 1,
    .handOver (clockFrom 40) 1]

theorem metadata_kept_progress : MetaKept oneUpdate (run (controllerStep oneTorrentEnv)
    (submit oneTorrentEnv {} (clockFrom 20) (run (controllerStep oneTorrentEnv) {} onePreparation) 1 oneDialog)
    (oneProgress.take 4)).store.tasks :=
  (metadata_kept_iff oneTorrentEnv {} (clockFrom 20) _ 1 oneDialog oneUpdate (by decide +kernel)
    (by decide) oneProgress).mpr (by decide +kernel) 4

/-- The preparation's torrent is removed and the real one is added; the views of both come in one
batch, and the task is left without its category. -/
theorem metadata_lost_finalized :
    ¬ ∀ (env : WorkerEnv TaskId) (settings : AddSettings) (now : Clock) (k : TaskId)
      (preparation labels : List (ControllerLabel TaskId k)) (ui : DialogResult) (ev : TaskEvent),
      k ∈ (run (controllerStep env) {} preparation).worker.preparedTorrentInfo →
      (submitPreparedMagnetAdd env.qt settings k ui).update = .ok ev →
      ui.category ≠ "" → ui.tagsCsv ≠ "" → ui.name ≠ "" →
      MetaKept ev (run (controllerStep env)
        (submit env settings now (run (controllerStep env) {} preparation) k ui)
        labels).store.tasks := by
  intro h
  have hkept := h oneTorrentEnv {} (clockFrom 20) 1 onePreparation
    [.worker .command, .worker (.session .created), .worker (.session .created), .worker (.alert 0),
      .worker (.alert 0), .handOver (clockFrom 30) 10] oneDialog oneUpdate (by decide +kernel)
    (by decide +kernel) (by decide) (by decide) (by decide)
  have hcategory := (metaKept_iff (.inl (by decide)) _).mp hkept .category (by decide)
  revert hcategory
  decide +kernel

end TorrentLink.App
