import TorrentLink.Base.QString
import TorrentLink.Core.TaskEvent
import TorrentLink.Lib.Latch
import TorrentLink.Lib.Runs

/-!
# The action after all downloads

`maybeRunPostDownloadAction` is called with every batch of snapshots, and a flag keeps it from acting twice
on the same completion. The flag is clear at the start, and clear again whenever settings are applied, from
the preferences or because the file of the IP filter changed. With no timed action the flag is a latch of the
batches (`Watched.keeps_latched`): so the action is executed on completions only exactly if no settings are
applied between two batches of finished tasks, and no such batch comes before one with an unfinished task
(`postDownloadAction_onCompletions_iff`).
-/

namespace TorrentLink.App

open Lib

/-- The settings that decide about actions. -/
structure ActionSettings where
  timedAction : String := "none"
  timedActionDelayMinutes : Int := 0
  downloadCompleteAction : String := "none"
  deriving DecidableEq, Repr

/-- What of `AppController` the action reads and sets. -/
structure ActionState where
  cachedAppSettings : ActionSettings
  postDownloadActionTriggered : Bool := false
  shuttingDown : Bool := false
  deriving DecidableEq, Repr

inductive ActionEffect
  | logInfo (text : String)
  | logError (text : String)
  | startDetached (command : String) (args : List String)
  | quit
  deriving DecidableEq, Repr

/-- `trimmed().toLower()`; the texts it is compared with are ASCII. -/
def normalizedAction (action : String) : String :=
  String.ofList ((trimmed action).toList.map Char.toLower)

/-- `isFinished` -/
def isFinished (status : TaskStatus) : Bool := status = .finished || status = .seeding

/-- The command of an action that starts a process. -/
def actionCommand (win32 : Bool) (action : String) : String × List String :=
  if win32 then
    if action = "poweroff" then ("shutdown", ["/s", "/t", "0"]) else ("/bin/sh", [])
  else if action = "suspend" then ("/bin/sh", ["-c", "systemctl suspend"])
  else if action = "hibernate" then ("/bin/sh", ["-c", "systemctl hibernate"])
  else if action = "poweroff" then ("/bin/sh", ["-c", "systemctl poweroff"])
  else ("/bin/sh", [])

/-- `executePostDownloadAction`; `launched` is what `startDetached` would return. -/
def executePostDownloadAction (win32 launched : Bool) (action : String) : List ActionEffect :=
  if action = "none" || action = "" then []
  else if action = "quit_app" then [.logInfo "Post-download action triggered: quit application.", .quit]
  else
    let (command, args) := actionCommand win32 action
    if args = [] then [.logInfo ("Post-download action skipped: unknown action=" ++ action)]
    else if launched then
      [.startDetached command args, .logInfo ("Post-download action triggered: " ++ action)] ++
        if action = "poweroff" then [.quit] else []
    else
      [.startDetached command args,
        .logError ("Post-download action failed: unable to launch action=" ++ action)]

def timedActionEnabled (s : ActionSettings) : Bool :=
  normalizedAction s.timedAction ≠ "none" && 0 < s.timedActionDelayMinutes

def maybeRunPostDownloadAction (win32 launched : Bool) (s : ActionState)
    (snapshots : List TaskSnapshot) : ActionState × List ActionEffect :=
  if timedActionEnabled s.cachedAppSettings then ({ s with postDownloadActionTriggered := false }, [])
  else if snapshots = [] then ({ s with postDownloadActionTriggered := false }, [])
  else
    let allFinished := snapshots.all fun t => isFinished t.status
    if !allFinished then ({ s with postDownloadActionTriggered := false }, [])
    else if s.postDownloadActionTriggered then (s, [])
    else
      ({ s with postDownloadActionTriggered := true },
        executePostDownloadAction win32 launched
          (normalizedAction s.cachedAppSettings.downloadCompleteAction))

/-- `applyRuntimeSettingsFromConfig`, as to the action. -/
def applyRuntimeSettings (s : ActionState) (settings : ActionSettings) : ActionState :=
  { s with cachedAppSettings := settings, postDownloadActionTriggered := false }

/-! ### Runs -/

inductive ActionOp
  /-- A batch of snapshots. -/
  | evaluate (snapshots : List TaskSnapshot) (launched : Bool)
  /-- `settingsChanged`, with the settings as they are loaded. -/
  | settingsChanged (settings : ActionSettings)
  /-- `fileChanged` of the watcher. -/
  | ipFilterFileChanged (settings : ActionSettings)
  | aboutToQuit

def actionStep (win32 : Bool) (s : ActionState) : ActionOp → ActionState
  | .evaluate snapshots launched => (maybeRunPostDownloadAction win32 launched s snapshots).1
  | .settingsChanged settings => applyRuntimeSettings s settings
  | .ipFilterFileChanged settings => if s.shuttingDown then s else applyRuntimeSettings s settings
  | .aboutToQuit => { s with shuttingDown := true }

/-- A batch and the action configured when it is evaluated. -/
structure Batch where
  snapshots : List TaskSnapshot
  action : String
  deriving DecidableEq

def Batch.allFinished (b : Batch) : Bool :=
  b.snapshots ≠ [] && b.snapshots.all fun t => isFinished t.status

def Batch.someUnfinished (b : Batch) : Bool := b.snapshots.any fun t => !isFinished t.status

/-- The action ends the program or starts a process. -/
def Batch.hasAction (win32 : Bool) (b : Batch) : Bool :=
  normalizedAction b.action ∈
    if win32 then ["quit_app", "poweroff"] else ["quit_app", "suspend", "hibernate", "poweroff"]

/-- Something is done but logged. -/
def executes (effects : List ActionEffect) : Bool :=
  effects.any fun
    | .quit | .startDetached _ _ => true
    | .logInfo _ | .logError _ => false

/-- The batches so far, each with whether settings were applied since the one before and whether the action
was executed, and whether settings were applied since the last one. -/
structure ActionTrace where
  looks : List (Look Batch) := []
  applied : Bool := false

def recordAction (win32 : Bool) (s : ActionState) (r : ActionTrace) : ActionOp → ActionTrace
  | .evaluate snapshots launched =>
    { looks := r.looks ++
        [{ value := ⟨snapshots, s.cachedAppSettings.downloadCompleteAction⟩
           cleared := r.applied
           acted := executes (maybeRunPostDownloadAction win32 launched s snapshots).2 }]
      applied := false }
  | .settingsChanged _ => { r with applied := true }
  | .ipFilterFileChanged _ => if s.shuttingDown then r else { r with applied := true }
  | .aboutToQuit => r

/-- The state and the trace after a run from the start with some settings. -/
def actionRun (win32 : Bool) (settings : ActionSettings) (ops : List ActionOp) :
    ActionState × ActionTrace :=
  run (recorded (actionStep win32) (recordAction win32)) (⟨settings, false, false⟩, {}) ops

/-- No timed action is configured. -/
def ActionOp.Untimed : ActionOp → Prop
  | .settingsChanged settings | .ipFilterFileChanged settings => timedActionEnabled settings = false
  | .evaluate _ _ | .aboutToQuit => True

/-! ### What an evaluation does -/

theorem executes_executePostDownloadAction (win32 launched : Bool) (b : Batch) :
    executes (executePostDownloadAction win32 launched (normalizedAction b.action)) =
      b.hasAction win32 := by
  unfold executePostDownloadAction actionCommand Batch.hasAction
  generalize normalizedAction b.action = action
  by_cases hknown : action ∈ ["none", "", "quit_app", "suspend", "hibernate", "poweroff"]
  · simp only [List.mem_cons, List.not_mem_nil, or_false] at hknown
    rcases hknown with rfl | rfl | rfl | rfl | rfl | rfl <;> cases win32 <;> cases launched <;> rfl
  · simp only [List.mem_cons, List.not_mem_nil, or_false, not_or] at hknown
    cases win32 <;> simp [hknown, executes]

/-- Without a timed action, the flag is set by a batch of finished tasks and cleared by any other, and the
action is executed when it is set. -/
theorem maybeRun_untimed (win32 launched : Bool) {s : ActionState} (snapshots : List TaskSnapshot)
    (htimed : timedActionEnabled s.cachedAppSettings = false) {b : Batch}
    (hb : b = ⟨snapshots, s.cachedAppSettings.downloadCompleteAction⟩) :
    (maybeRunPostDownloadAction win32 launched s snapshots).1 =
        { s with postDownloadActionTriggered := b.allFinished } ∧
      executes (maybeRunPostDownloadAction win32 launched s snapshots).2 =
        (b.allFinished && b.hasAction win32 && !s.postDownloadActionTriggered) := by
  obtain ⟨settings, triggered, shuttingDown⟩ := s
  have hexecutes := executes_executePostDownloadAction win32 launched b
  subst hb
  unfold maybeRunPostDownloadAction
  rw [htimed, if_neg Bool.false_ne_true]
  by_cases hempty : snapshots = []
  · rw [if_pos hempty, hempty]
    exact ⟨rfl, rfl⟩
  · rw [if_neg hempty]
    unfold Batch.allFinished
    cases hall : snapshots.all fun t => isFinished t.status with
    | false =>
      rw [Bool.and_false]
      exact ⟨rfl, rfl⟩
    | true =>
      dsimp only
      rw [decide_eq_true hempty, Bool.true_and, Bool.true_and, Bool.not_true, if_neg Bool.false_ne_true]
      cases triggered with
      | true =>
        rw [if_pos rfl]
        exact ⟨rfl, (Bool.and_false _).symm⟩
      | false =>
        rw [if_neg Bool.false_ne_true, Bool.not_false, Bool.and_true]
        dsimp only at hexecutes ⊢
        exact ⟨rfl, hexecutes⟩

/-! ### The flag is a latch -/

/-- The flag is set if the last batch was of finished tasks and nothing was applied since. -/
structure KeepsLatched (win32 : Bool) (x : ActionState × ActionTrace) : Prop where
  untimed : timedActionEnabled x.1.cachedAppSettings = false
  latched : Latched Batch.allFinished (Batch.hasAction win32) x.2.looks
  triggered : x.1.postDownloadActionTriggered = (lastDone Batch.allFinished x.2.looks && !x.2.applied)

theorem KeepsLatched.step {win32 : Bool} {x : ActionState × ActionTrace} (h : KeepsLatched win32 x)
    {op : ActionOp} (hop : op.Untimed) :
    KeepsLatched win32 (recorded (actionStep win32) (recordAction win32) x op) := by
  have happlied : ∀ settings, timedActionEnabled settings = false →
      KeepsLatched win32 (applyRuntimeSettings x.1 settings, { x.2 with applied := true }) :=
    fun settings hsettings => ⟨hsettings, h.latched, by simp [applyRuntimeSettings]⟩
  cases op with
  | evaluate snapshots launched =>
    obtain ⟨b, hb⟩ : ∃ b : Batch, b = ⟨snapshots, x.1.cachedAppSettings.downloadCompleteAction⟩ := ⟨_, rfl⟩
    obtain ⟨hstate, hexecutes⟩ := maybeRun_untimed win32 launched snapshots h.untimed hb
    have hrecorded : recorded (actionStep win32) (recordAction win32) x (.evaluate snapshots launched) =
        ((maybeRunPostDownloadAction win32 launched x.1 snapshots).1,
          ⟨x.2.looks ++ [⟨⟨snapshots, x.1.cachedAppSettings.downloadCompleteAction⟩, x.2.applied,
            executes (maybeRunPostDownloadAction win32 launched x.1 snapshots).2⟩], false⟩) := by
      unfold recorded actionStep recordAction
      dsimp only
    rw [hrecorded, hstate, hexecutes, ← hb, h.triggered]
    constructor
    case untimed => exact h.untimed
    case latched =>
      refine h.latched.snoc ?_
      cases lastDone Batch.allFinished x.2.looks <;> cases x.2.applied <;> simp
    case triggered =>
      show b.allFinished = (lastDone _ (x.2.looks ++ [_]) && !false)
      unfold lastDone
      rw [List.getLast?_concat, Bool.not_false, Bool.and_true]
      rfl
  | settingsChanged settings => exact happlied settings hop
  | ipFilterFileChanged settings =>
    show KeepsLatched win32 (if x.1.shuttingDown then _ else _, if x.1.shuttingDown then _ else _)
    split_ifs
    · exact h
    · exact happlied settings hop
  | aboutToQuit => exact ⟨h.untimed, h.latched, h.triggered⟩

/-- In a run without a timed action, the action is executed only at a batch with tasks, all finished, after a
batch with an unfinished task, and once between two batches that are not of finished tasks only, exactly if
every batch of finished tasks with an action to execute comes after one of finished tasks and no settings
applied in between, or after another kind of batch and one, sooner or later, with an unfinished task. -/
theorem postDownloadAction_onCompletions_iff (win32 : Bool) {settings : ActionSettings}
    (hsettings : timedActionEnabled settings = false) {ops : List ActionOp}
    (hops : ∀ op ∈ ops, op.Untimed) :
    OnCompletions Batch.allFinished Batch.someUnfinished (actionRun win32 settings ops).2.looks ↔
      ClearedInTime Batch.allFinished Batch.someUnfinished (Batch.hasAction win32)
        (actionRun win32 settings ops).2.looks := by
  have hlatched : KeepsLatched win32 (actionRun win32 settings ops) :=
    (runOk_of_forall hops _).invariant (fun _ _ h hop => h.step hop) ⟨hsettings, latched_nil, rfl⟩
  exact onCompletions_iff hlatched.latched

/-- The file of the IP filter changes after the downloads are finished: the computer is suspended again. -/
theorem ipFilter_suspends_again :
    let settings : ActionSettings := { downloadCompleteAction := "suspend" }
    let ops : List ActionOp :=
      [.evaluate [{ status := .downloading }] true, .evaluate [{ status := .seeding }] true,
        .ipFilterFileChanged settings, .evaluate [{ status := .seeding }] true]
    ¬ OnCompletions Batch.allFinished Batch.someUnfinished (actionRun false settings ops).2.looks := by
  intro settings ops h
  have htrace : (actionRun false settings ops).2.looks =
      [⟨⟨[{ status := .downloading }], "suspend"⟩, false, false⟩,
        ⟨⟨[{ status := .seeding }], "suspend"⟩, false, true⟩] ++
        [⟨⟨[{ status := .seeding }], "suspend"⟩, true, true⟩] := by
    decide +kernel
  have hlast := (h _ _ [] htrace rfl).2.2.2
  revert hlast
  decide

/-- The same without the change of the file. -/
theorem postDownloadAction_onCompletions_once :
    OnCompletions Batch.allFinished Batch.someUnfinished
        (actionRun false { downloadCompleteAction := "suspend" }
          [.evaluate [{ status := .downloading }] true, .evaluate [{ status := .seeding }] true]).2.looks ↔
      ClearedInTime Batch.allFinished Batch.someUnfinished (Batch.hasAction false)
        (actionRun false { downloadCompleteAction := "suspend" }
          [.evaluate [{ status := .downloading }] true, .evaluate [{ status := .seeding }] true]).2.looks :=
  postDownloadAction_onCompletions_iff false (by decide) (by simp [ActionOp.Untimed])

end TorrentLink.App
