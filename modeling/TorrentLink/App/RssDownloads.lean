import TorrentLink.App.PreparedMagnet
import TorrentLink.Core.Rss.Service

/-!
# The downloads of the RSS pipeline

What the controller does with an item that the pipeline takes from one of its two queues: the start
handler, what it continues with once its fetch has returned, and the dialogs. A handling is the list of
its effects, in order. It is a function of the item, of what the fetch and the dialogs give, and of the
moments at which the shutdown begins and the window goes.

A call that is queued on the window is dropped when the window goes before it runs, and the raw pointer
`window_` stays as it is. `handled_once_iff` says when a handling settles its item's request once, with
the right outcome, and gives its slot back.
-/

namespace TorrentLink.App

open Lt Rss

/-! ### Items and their surroundings -/

structure MagnetQueueItem where
  uri : String
  savePath : String := ""
  rssSettlement : RssDownloadSettlement := {}
  skipInteractiveAdd : Bool := false
  category : String := ""
  tagsCsv : String := ""
  deriving DecidableEq, Repr

structure RssTorrentUrlQueueItem where
  url : String
  savePath : String := ""
  referer : String := ""
  rssSettlement : RssDownloadSettlement := {}
  deriving DecidableEq, Repr

/-- The moments at which a handling looks at the flag and the window: the item is taken, its handler
starts, the fetch has returned, and the call that was queued on the window runs. -/
inductive Moment
  | taken | started | fetched | called
  deriving DecidableEq, Repr

def Moment.index : Moment → Nat
  | .taken => 0
  | .started => 1
  | .fetched => 2
  | .called => 3

/-- Whether the controller has a window, and from which moment on `shuttingDown_` is set and the
window is gone; a number over 3 is never. -/
structure World where
  hasWindow : Bool := true
  shutdownAt : Nat := 4
  windowGoneAt : Nat := 4
  deriving DecidableEq, Repr

def World.shuttingDown (w : World) (m : Moment) : Bool := w.shutdownAt ≤ m.index

/-- `!windowGuard.isNull()` -/
def World.windowGuard (w : World) (m : Moment) : Bool := w.hasWindow && m.index < w.windowGoneAt

/-- The callback a pump was scheduled with: that of an enqueue, or that of a finish. -/
inductive StartFn
  | enqueued | finished
  deriving DecidableEq, Repr

inductive DownloadEffect
  /-- `settleRssDownloadIfNeeded`, which does nothing for a record without an item id. -/
  | settle (rssSettlement : RssDownloadSettlement) (ok : Bool) (resolvedSave : String)
  /-- `finishMagnet` or `finishRssTorrent`. -/
  | finish
  /-- A command is handed to the session worker. -/
  | post (cmd : Cmd)
  /-- An event is consumed by the task store. -/
  | update (ev : TaskEvent)
  | dialog
  /-- The user cancels the dialog. -/
  | cancelled
  deriving DecidableEq, Repr

/-- The settlement of a handling that added nothing, and the release of its slot. -/
def settleFailed (s : RssDownloadSettlement) : List DownloadEffect := [.settle s false "", .finish]

/-! ### The dialogs -/

/-- How asking the user ends. A dialog whose input cannot be loaded is not shown. -/
inductive DialogAnswer
  | unreadable
  | cancelled
  | accepted (ui : DialogResult)
  deriving DecidableEq, Repr

def DialogAnswer.effects : DialogAnswer → List DownloadEffect
  | .unreadable => []
  | .cancelled => [.dialog, .cancelled]
  | .accepted _ => [.dialog]

/-- What the steps of a magnet's handling give: the metadata; whether the exported file exists when its
dialog is due, and when a dialog is submitted; and the user's answers. -/
structure MagnetOutcome where
  metaOpt : Option MagnetMetadata := none
  exportedExists : Bool := false
  exportedExistsLater : Bool := false
  exportedAnswer : DialogAnswer := .cancelled
  metadataAnswer : DialogAnswer := .cancelled
  deriving DecidableEq, Repr

variable (q : QtInput) (settings : AddSettings)

def AddSettings.trackers : List String :=
  if settings.autoApplyDefaultTrackers then sanitizeTrackers q settings.defaultTrackers else []

/-- The command of an accepted dialog over a file, or the error that is logged instead. -/
def submitTorrentFileFromDialog (torrentFilePath : String) (ui : DialogResult) : Except String Cmd :=
  match validateTorrentFilePath q torrentFilePath with
  | some e => .error ("Torrent file rejected: " ++ e.message)
  | none =>
    match if trimmed ui.savePath ≠ "" then validatePath q ui.savePath else none with
    | some e => .error ("Save path rejected: " ++ e.message)
    | none =>
      match validateCategory ui.category with
      | some e => .error ("Category rejected: " ++ e.message)
      | none =>
        match validateTagsCsv ui.tagsCsv with
        | some e => .error ("Tags rejected: " ++ e.message)
        | none =>
          let built := buildTaskAdd q settings.savePathPolicy ui.taskAddInput
          .ok (.addTorrentFile torrentFilePath built.finalSavePath (settings.trackers q)
            (some built.opts))

def submittedFile (torrentFilePath : String) (ui : DialogResult) : List DownloadEffect :=
  match submitTorrentFileFromDialog q settings torrentFilePath ui with
  | .ok cmd => [.post cmd]
  | .error _ => []

def Submission.effects (s : Submission) : List DownloadEffect :=
  match s.update with
  | .ok ev => [.post s.cmd, .update ev]
  | .error _ => [.post s.cmd]

/-- The settlement after an accepted dialog. -/
def settleAccepted (s : RssDownloadSettlement) (ui : DialogResult) : DownloadEffect :=
  .settle s true (settings.savePathPolicy.resolve q ui.savePath)

variable (w : World) (o : MagnetOutcome) (s : RssDownloadSettlement)

/-- The result says whether the item is done with. -/
def presentMagnetAddDialogViaExportedTorrent (m : MagnetMetadata) : Bool × List DownloadEffect :=
  let torrentPath := trimmed m.exportedTorrentPath
  if torrentPath = "" || !o.exportedExists then (false, [])
  else if !w.hasWindow then (false, [.post (.cancelPreparedMagnet m.taskId), .settle s false ""])
  else
    match o.exportedAnswer with
    | .accepted ui =>
      (true, [.post (.cancelPreparedMagnet m.taskId), .dialog] ++
        submittedFile q settings torrentPath ui ++ [settleAccepted q settings s ui])
    | answer =>
      (false, .post (.cancelPreparedMagnet m.taskId) :: answer.effects ++ [.settle s false ""])

def submitMagnetDialogResult (m : MagnetMetadata) (ui : DialogResult) : List DownloadEffect :=
  let torrentPath := trimmed m.exportedTorrentPath
  if torrentPath ≠ "" && o.exportedExistsLater then
    .post (.cancelPreparedMagnet m.taskId) :: submittedFile q settings torrentPath ui ++
      [settleAccepted q settings s ui]
  else
    (submitPreparedMagnetAdd q settings m.taskId ui).effects ++ [settleAccepted q settings s ui]

/-- The rest of `showMagnetAddDialogAndSubmit`, where the exported file's dialog did not end it. -/
def showMagnetMetadataDialog (m : MagnetMetadata) : List DownloadEffect :=
  if !w.hasWindow then [.post (.cancelPreparedMagnet m.taskId), .settle s false ""]
  else if !isValidMagnetMetadata m then [.post (.cancelPreparedMagnet m.taskId), .settle s false ""]
  else
    match o.metadataAnswer with
    | .accepted ui => .dialog :: submitMagnetDialogResult q settings o s m ui
    | answer => answer.effects ++ [.post (.cancelPreparedMagnet m.taskId), .settle s false ""]

def showMagnetAddDialogAndSubmit (m : MagnetMetadata) : List DownloadEffect :=
  let (done, effects) := presentMagnetAddDialogViaExportedTorrent q settings w o s m
  if done then effects else effects ++ showMagnetMetadataDialog q settings w o s m

/-! ### The handlers -/

/-- A fetch has returned: `failed` is queued on the application, or `body` on the window. The call on
the window looks at the guard again; when that is null, the call has been dropped with its receiver. -/
def afterFetch (failed body : List DownloadEffect) : List DownloadEffect :=
  if w.shuttingDown .fetched || !w.windowGuard .fetched then failed
  else if !w.windowGuard .called then []
  else body

/-- A text that does not pass its check is left out. -/
def ignoreInvalid (validate : String → Option Error) (text : String) : String :=
  if (validate (trimmed text)).isSome then "" else trimmed text

/-- The add of a prepared magnet without a dialog. -/
def addPrepared (item : MagnetQueueItem) (m : MagnetMetadata) : List DownloadEffect :=
  let cat := ignoreInvalid validateCategory item.category
  let tags := ignoreInvalid validateTagsCsv item.tagsCsv
  let built := buildTaskAdd q settings.savePathPolicy
    { name := m.name
      savePath := item.savePath
      layout := .original
      category := cat
      tagsCsv := tags
      fileWanted := m.filePaths.map fun _ => 1 }
  let trackers := if settings.autoApplyDefaultTrackers then settings.defaultTrackers else []
  [.post (.finalizePreparedMagnet m.taskId built.finalSavePath trackers built.opts),
    .update (metaEvent m.taskId m.name built.finalSavePath cat tags),
    .settle item.rssSettlement true built.finalSavePath]

/-- The add of a magnet as it is. -/
def addDirectly (item : MagnetQueueItem) : List DownloadEffect :=
  let resolvedSavePath := settings.savePathPolicy.resolve q item.savePath
  [.post (.addMagnet (trimmed item.uri) resolvedSavePath (settings.trackers q)),
    .settle item.rssSettlement true resolvedSavePath, .finish]

/-- The call that is queued on the window. -/
def magnetPrepared (item : MagnetQueueItem) : List DownloadEffect :=
  match o.metaOpt with
  | none =>
    if item.skipInteractiveAdd then addDirectly q settings item
    else settleFailed item.rssSettlement
  | some m =>
    (if item.skipInteractiveAdd then addPrepared q settings item m
    else showMagnetAddDialogAndSubmit q settings w o item.rssSettlement m) ++ [.finish]

/-- The add that needs no user is made at once, so the calls after the fetch never find
`skipInteractiveAdd` set. -/
def startOneMagnetOnUi (item : MagnetQueueItem) : List DownloadEffect :=
  if w.shuttingDown .started then settleFailed item.rssSettlement
  else if (validateMagnetUri (trimmed item.uri)).isSome then settleFailed item.rssSettlement
  else if item.skipInteractiveAdd then addDirectly q settings item
  else afterFetch w (settleFailed item.rssSettlement) (magnetPrepared q settings w o item)

/-- What the download of a URL gives: the response, the name of the temporary file, if it could be
opened, and whether the body was written to it. -/
structure TorrentDownload where
  res : FetchResult := {}
  tmp : Option String := none
  written : Bool := true

/-- The file with the torrent, empty if there is none. -/
def TorrentDownload.torrentPath (d : TorrentDownload) : String :=
  if !d.res.ok || d.res.body = [] then ""
  else
    match d.tmp with
    | some fileName => if d.written then fileName else ""
    | none => ""

/-- The call that is queued on the window. -/
def torrentDownloaded (item : RssTorrentUrlQueueItem) (path : String) : List DownloadEffect :=
  if path = "" then settleFailed item.rssSettlement
  else if (validateTorrentFilePath q path).isSome then settleFailed item.rssSettlement
  else
    let resolvedSavePath := settings.savePathPolicy.resolve q item.savePath
    [.post (.addTorrentFile path resolvedSavePath (settings.trackers q) (some {})),
      .settle item.rssSettlement true resolvedSavePath, .finish]

def startOneRssTorrentUrlOnUi (item : RssTorrentUrlQueueItem) (d : TorrentDownload) :
    List DownloadEffect :=
  if trimmed item.url = "" then settleFailed item.rssSettlement
  else if w.shuttingDown .started then settleFailed item.rssSettlement
  else
    afterFetch w (settleFailed item.rssSettlement) (torrentDownloaded q settings item d.torrentPath)

/-- An item that the pipeline takes, with what the steps of its handling give. -/
inductive TakenItem
  | magnet (item : MagnetQueueItem) (o : MagnetOutcome)
  | torrentUrl (item : RssTorrentUrlQueueItem) (d : TorrentDownload)

def TakenItem.rssSettlement : TakenItem → RssDownloadSettlement
  | .magnet item _ => item.rssSettlement
  | .torrentUrl item _ => item.rssSettlement

def startHandler : TakenItem → List DownloadEffect
  | .magnet item o => startOneMagnetOnUi q settings w o item
  | .torrentUrl item d => startOneRssTorrentUrlOnUi q settings w item d

/-- `RssDownloadOrchestrator`: only the callback of an enqueue looks at the flag first. -/
def startTaken (via : StartFn) (t : TakenItem) : List DownloadEffect :=
  if via = .enqueued && w.shuttingDown .taken then settleFailed t.rssSettlement
  else startHandler q settings w t

/-! ### Settled once -/

/-- The commands that add a task. -/
def addsTask : Cmd → Bool
  | .addMagnet .. | .finalizePreparedMagnet .. | .addTorrentFile .. | .addFromResumeData .. => true
  | _ => false

/-- The settlements of a handling, with their outcomes. -/
def settlements (log : List DownloadEffect) : List (RssDownloadSettlement × Bool) :=
  log.filterMap fun
    | .settle s ok _ => some (s, ok)
    | _ => none

/-- The commands a handling hands to the worker. -/
def commands (log : List DownloadEffect) : List Cmd :=
  log.filterMap fun
    | .post cmd => some cmd
    | _ => none

/-- The record is settled once, as a success exactly when an add was handed over, the slot is given
back once, and no dialog follows a cancel. -/
structure HandledOnce (s : RssDownloadSettlement) (log : List DownloadEffect) : Prop where
  settled : settlements log = [(s, (commands log).any addsTask)]
  released : log.count .finish = 1
  cancelFinal : .dialog ∉ log.dropWhile (· ≠ .cancelled)

/-- The values of a dialog pass the checks of its submission. -/
def ValuesOk (ui : DialogResult) : Prop :=
  (trimmed ui.savePath ≠ "" → validatePath q ui.savePath = none) ∧
    validateCategory ui.category = none ∧ validateTagsCsv ui.tagsCsv = none

def FileValuesOk (torrentFilePath : String) (ui : DialogResult) : Prop :=
  validateTorrentFilePath q torrentFilePath = none ∧ ValuesOk q ui

/-- The exported file of the metadata is there, at a moment at which it exists or not. -/
def HasExported (m : MagnetMetadata) (fileExists : Bool) : Prop :=
  trimmed m.exportedTorrentPath ≠ "" ∧ fileExists = true

/-- A dialog over the exported file is accepted, and an accepted dialog has values that pass. -/
def DialogsOk (m : MagnetMetadata) : Prop :=
  (HasExported m o.exportedExists → ∃ ui, o.exportedAnswer = .accepted ui ∧
    FileValuesOk q (trimmed m.exportedTorrentPath) ui) ∧
  (¬ HasExported m o.exportedExists → isValidMagnetMetadata m = true →
    ∀ ui, o.metadataAnswer = .accepted ui →
      ValuesOk q ui ∧ (HasExported m o.exportedExistsLater →
        validateTorrentFilePath q (trimmed m.exportedTorrentPath) = none))

/-- The handler gets past its own checks and does not add the item at once. -/
def TakenItem.Fetches : TakenItem → Prop
  | .magnet item _ =>
    validateMagnetUri (trimmed item.uri) = none ∧ item.skipInteractiveAdd = false
  | .torrentUrl item _ => trimmed item.url ≠ ""

/-- The handling queues a call on the window once its fetch has returned. -/
def QueuesCall (t : TakenItem) : Prop :=
  t.Fetches ∧ w.shuttingDown .fetched = false ∧ w.windowGuard .fetched = true

def TakenItem.DialogsOk : TakenItem → Prop
  | .magnet _ o => ∀ m, o.metaOpt = some m → App.DialogsOk q o m
  | .torrentUrl _ _ => True

/-! ### Logs -/

@[simp] theorem settlements_append (log log' : List DownloadEffect) :
    settlements (log ++ log') = settlements log ++ settlements log' := List.filterMap_append

theorem not_handledOnce_nil (s : RssDownloadSettlement) : ¬ HandledOnce s [] := by
  intro h
  exact absurd h.released (by decide)

theorem handledOnce_settleFailed (s : RssDownloadSettlement) : HandledOnce s (settleFailed s) :=
  ⟨rfl, rfl, by simp [settleFailed]⟩

/-- One add, its settlement, and the release. -/
theorem handledOnce_added {cmd : Cmd} (hadd : addsTask cmd = true) (s : RssDownloadSettlement)
    (path : String) : HandledOnce s [.post cmd, .settle s true path, .finish] := by
  refine ⟨?_, rfl, by simp⟩
  simp [settlements, commands, hadd]

/-- Two settlements are one too many, whatever else is done. -/
theorem not_handledOnce_twice {s s' : RssDownloadSettlement} {ok : Bool} {path : String}
    {log log' : List DownloadEffect} (h : settlements log' ≠ []) :
    ¬ HandledOnce s (log ++ [.settle s' ok path] ++ log') := by
  intro hh
  have hlen := congrArg List.length hh.settled
  have hpos := List.length_pos_iff.mpr h
  simp only [settlements_append, List.length_append, List.length_cons, List.length_nil] at hlen
  change _ + 1 + _ = 0 + 1 at hlen
  omega

/-! ### Submissions -/

/-- A blank save path is not checked. -/
theorem savePathCheck_eq_none {ui : DialogResult} :
    (if trimmed ui.savePath ≠ "" then validatePath q ui.savePath else none) = none ↔
      (trimmed ui.savePath ≠ "" → validatePath q ui.savePath = none) := by
  by_cases hblank : trimmed ui.savePath ≠ ""
  · rw [if_pos hblank]
    exact ⟨fun h _ => h, fun h => h hblank⟩
  · rw [if_neg hblank]
    exact ⟨fun _ h => absurd h hblank, fun _ => rfl⟩

/-- Either the values pass and an add is handed over, or they do not and nothing is. -/
theorem submittedFile_cases (path : String) (ui : DialogResult) :
    (FileValuesOk q path ui ∧ ∃ cmd, addsTask cmd = true ∧
      submittedFile q settings path ui = [.post cmd]) ∨
    (¬ FileValuesOk q path ui ∧ submittedFile q settings path ui = []) := by
  unfold submittedFile submitTorrentFileFromDialog FileValuesOk ValuesOk
  rw [← savePathCheck_eq_none]
  cases validateTorrentFilePath q path with
  | some e => exact .inr ⟨by simp, rfl⟩
  | none =>
    cases if trimmed ui.savePath ≠ "" then validatePath q ui.savePath else none with
    | some e => exact .inr ⟨by simp, rfl⟩
    | none =>
      cases validateCategory ui.category with
      | some e => exact .inr ⟨by simp, rfl⟩
      | none =>
        cases validateTagsCsv ui.tagsCsv with
        | some e => exact .inr ⟨by simp, rfl⟩
        | none => exact .inl ⟨⟨rfl, rfl, rfl, rfl⟩, _, rfl, rfl⟩

/-- The same of a prepared magnet, where a rejected submission cancels the preparation. -/
theorem submission_cases (taskId : TaskId) (ui : DialogResult) :
    (ValuesOk q ui ∧ ∃ cmd ev, addsTask cmd = true ∧
      (submitPreparedMagnetAdd q settings taskId ui).effects = [.post cmd, .update ev]) ∨
    (¬ ValuesOk q ui ∧ (submitPreparedMagnetAdd q settings taskId ui).effects =
      [.post (.cancelPreparedMagnet taskId)]) := by
  unfold submitPreparedMagnetAdd ValuesOk
  rw [← savePathCheck_eq_none]
  cases validateCategory ui.category with
  | some e => exact .inr ⟨by simp, rfl⟩
  | none =>
    cases validateTagsCsv ui.tagsCsv with
    | some e => exact .inr ⟨by simp, rfl⟩
    | none =>
      cases if trimmed ui.savePath ≠ "" then validatePath q ui.savePath else none with
      | some e => exact .inr ⟨by simp, rfl⟩
      | none => exact .inl ⟨⟨rfl, rfl, rfl⟩, _, _, rfl, rfl⟩

/-! ### The dialogs -/

theorem handledOnce_iff {s : RssDownloadSettlement} {log : List DownloadEffect} :
    HandledOnce s log ↔ settlements log = [(s, (commands log).any addsTask)] ∧
      log.count .finish = 1 ∧ .dialog ∉ log.dropWhile (· ≠ .cancelled) :=
  ⟨fun h => ⟨h.settled, h.released, h.cancelFinal⟩, fun h => ⟨h.1, h.2.1, h.2.2⟩⟩

/-- An accepted dialog over a file: its success needs the add. -/
theorem handledOnce_acceptedFile_iff {cancel : Cmd} (hcancel : addsTask cancel = false)
    (asked : List DownloadEffect)
    (hasked : asked = [.post cancel, .dialog] ∨ asked = [.dialog, .post cancel])
    (path : String) (ui : DialogResult) :
    HandledOnce s (asked ++ submittedFile q settings path ui ++ [settleAccepted q settings s ui] ++
      [.finish]) ↔ FileValuesOk q path ui := by
  obtain ⟨hok, cmd, hadd, hlog⟩ | ⟨hbad, hlog⟩ := submittedFile_cases q settings path ui
  · refine iff_of_true ?_ hok
    rw [hlog, handledOnce_iff]
    obtain rfl | rfl := hasked <;> simp [settlements, commands, settleAccepted, hadd, hcancel]
  · refine iff_of_false (fun h => ?_) hbad
    have hsettled := h.settled
    rw [hlog] at hsettled
    obtain rfl | rfl := hasked <;>
      simp [settlements, commands, settleAccepted, hcancel] at hsettled

/-- An accepted dialog over a preparation. -/
theorem handledOnce_acceptedPrepared_iff (taskId : TaskId) (ui : DialogResult) :
    HandledOnce s (.dialog :: (submitPreparedMagnetAdd q settings taskId ui).effects ++
      [settleAccepted q settings s ui] ++ [.finish]) ↔ ValuesOk q ui := by
  obtain ⟨hok, cmd, ev, hadd, hlog⟩ | ⟨hbad, hlog⟩ := submission_cases q settings taskId ui
  · refine iff_of_true ?_ hok
    rw [hlog, handledOnce_iff]
    simp [settlements, commands, settleAccepted, hadd]
  · refine iff_of_false (fun h => ?_) hbad
    have hsettled := h.settled
    rw [hlog] at hsettled
    simp [settlements, commands, settleAccepted, addsTask] at hsettled

/-- The dialog over the metadata, its values submitted as the exported file or as the preparation. -/
theorem handledOnce_submit_iff (m : MagnetMetadata) (ui : DialogResult) :
    HandledOnce s (.dialog :: submitMagnetDialogResult q settings o s m ui ++ [.finish]) ↔
      ValuesOk q ui ∧ (HasExported m o.exportedExistsLater →
        validateTorrentFilePath q (trimmed m.exportedTorrentPath) = none) := by
  have hcond : (decide (trimmed m.exportedTorrentPath ≠ "") && o.exportedExistsLater) = true ↔
      HasExported m o.exportedExistsLater := by
    simp [HasExported]
  by_cases hex : HasExported m o.exportedExistsLater
  · have hfile := handledOnce_acceptedFile_iff q settings s
      rfl [.dialog, .post (.cancelPreparedMagnet m.taskId)] (.inr rfl)
      (trimmed m.exportedTorrentPath) ui
    simp only [List.cons_append, List.nil_append, List.append_assoc] at hfile
    simp only [submitMagnetDialogResult, if_pos (hcond.mpr hex), List.cons_append, List.nil_append,
      List.append_assoc]
    rw [hfile]
    simp [FileValuesOk, hex, and_comm]
  · have hprepared := handledOnce_acceptedPrepared_iff q settings s m.taskId ui
    simp only [List.cons_append, List.nil_append, List.append_assoc] at hprepared
    simp only [submitMagnetDialogResult, if_neg fun h => hex (hcond.mp h), List.cons_append,
      List.nil_append, List.append_assoc]
    rw [hprepared]
    simp [hex]

/-- A dialog over the metadata that is not accepted ends the handling as a failure. -/
theorem handledOnce_declined {cancel : Cmd} (hcancel : addsTask cancel = false) {a : DialogAnswer}
    (ha : ∀ ui, a ≠ .accepted ui) :
    HandledOnce s (a.effects ++ [.post cancel, .settle s false ""] ++ [.finish]) := by
  rw [handledOnce_iff]
  cases a with
  | accepted ui => exact absurd rfl (ha ui)
  | unreadable => simp [DialogAnswer.effects, settlements, commands, hcancel]
  | cancelled => simp [DialogAnswer.effects, settlements, commands, hcancel]

/-- Without the exported file's dialog, the one over the metadata settles once. -/
theorem handledOnce_metadataDialog_iff (hw : w.hasWindow = true) (m : MagnetMetadata) :
    HandledOnce s (showMagnetMetadataDialog q settings w o s m ++ [.finish]) ↔
      (isValidMagnetMetadata m = true → ∀ ui, o.metadataAnswer = .accepted ui →
        ValuesOk q ui ∧ (HasExported m o.exportedExistsLater →
          validateTorrentFilePath q (trimmed m.exportedTorrentPath) = none)) := by
  have hfailed : HandledOnce s ([.post (.cancelPreparedMagnet m.taskId), .settle s false ""] ++
      [.finish]) :=
    handledOnce_declined s rfl (a := .unreadable) (by simp)
  unfold showMagnetMetadataDialog
  by_cases hvalid : isValidMagnetMetadata m = true
  · simp only [hw, hvalid, Bool.not_true, Bool.false_eq_true, if_false, true_implies]
    cases ha : o.metadataAnswer with
    | unreadable => exact iff_of_true hfailed (by simp)
    | cancelled => exact iff_of_true (handledOnce_declined s rfl (by simp)) (by simp)
    | accepted ui =>
      refine (handledOnce_submit_iff q settings o s m ui).trans ?_
      simp
  · simp only [hw, hvalid, Bool.not_true, Bool.not_false, Bool.false_eq_true, if_false, if_true,
      false_implies, iff_true]
    exact hfailed

theorem settlements_metadataDialog (m : MagnetMetadata) (log : List DownloadEffect) :
    settlements (showMagnetMetadataDialog q settings w o s m ++ log) ≠ [] := by
  unfold showMagnetMetadataDialog
  split_ifs
  · simp [settlements]
  · simp [settlements]
  · cases o.metadataAnswer with
    | unreadable => simp [settlements]
    | cancelled => simp [settlements]
    | accepted ui =>
      simp only [submitMagnetDialogResult]
      split_ifs <;> simp [settlements, settleAccepted]

theorem handledOnce_dialogs_iff (hw : w.hasWindow = true) (m : MagnetMetadata) :
    HandledOnce s (showMagnetAddDialogAndSubmit q settings w o s m ++ [.finish]) ↔
      DialogsOk q o m := by
  have hcond : (decide (trimmed m.exportedTorrentPath = "") || !o.exportedExists) = true ↔
      ¬ HasExported m o.exportedExists := by
    simp only [HasExported, Bool.or_eq_true, decide_eq_true_eq, Bool.not_eq_true', not_and,
      Bool.not_eq_true, ne_eq]
    tauto
  have htwice : ∀ log, ¬ HandledOnce s (log ++ [.settle s false ""] ++
      (showMagnetMetadataDialog q settings w o s m ++ [.finish])) := fun log =>
    not_handledOnce_twice (settlements_metadataDialog q settings w o s m _)
  unfold showMagnetAddDialogAndSubmit presentMagnetAddDialogViaExportedTorrent DialogsOk
  by_cases hex : HasExported m o.exportedExists
  · simp only [if_neg fun h => hcond.mp h hex, hw, Bool.not_true, Bool.false_eq_true, if_false, hex,
      true_implies, not_true, false_implies, and_true]
    cases ha : o.exportedAnswer with
    | accepted ui =>
      simp only [if_true]
      refine (handledOnce_acceptedFile_iff q settings s rfl _ (.inl rfl)
        (trimmed m.exportedTorrentPath) ui).trans ?_
      simp
    | unreadable =>
      refine iff_of_false (fun h => ?_) (by simp)
      refine htwice [.post (.cancelPreparedMagnet m.taskId)] ?_
      simpa [DialogAnswer.effects] using h
    | cancelled =>
      -- settled as a failure, and then the dialog over the metadata is opened and settles again
      refine iff_of_false (fun h => ?_) (by simp)
      refine htwice [.post (.cancelPreparedMagnet m.taskId), .dialog, .cancelled] ?_
      simpa [DialogAnswer.effects] using h
  · simp only [if_pos (hcond.mpr hex), Bool.false_eq_true, if_false, List.nil_append, hex,
      false_implies, not_false_eq_true, true_implies, true_and]
    exact handledOnce_metadataDialog_iff q settings w o s hw m

/-! ### The handlers -/

theorem shuttingDown_mono (m m' : Moment) (h : m.index ≤ m'.index)
    (hm' : w.shuttingDown m' = false) : w.shuttingDown m = false := by
  simp only [World.shuttingDown, decide_eq_false_iff_not] at hm' ⊢
  omega

/-- After the fetch: the call on the window must run, unless nothing is queued on it. -/
theorem handledOnce_afterFetch_iff {body : List DownloadEffect} :
    HandledOnce s (afterFetch w (settleFailed s) body) ↔
      (w.shuttingDown .fetched = false → w.windowGuard .fetched = true →
        w.windowGuard .called = true ∧ HandledOnce s body) := by
  unfold afterFetch
  by_cases hdown : w.shuttingDown .fetched = true
  · simp [hdown, handledOnce_settleFailed]
  · by_cases hguard : w.windowGuard .fetched = true
    · by_cases hcalled : w.windowGuard .called = true
      · simp [hdown, hguard, hcalled]
      · simp [hdown, hguard, hcalled, not_handledOnce_nil]
    · simp [hdown, hguard, handledOnce_settleFailed]

/-- What the call on the window does for an item that waits for the user. -/
theorem handledOnce_magnetPrepared_iff (hw : w.hasWindow = true) {item : MagnetQueueItem}
    (hskip : item.skipInteractiveAdd = false) :
    HandledOnce item.rssSettlement (magnetPrepared q settings w o item) ↔
      ∀ m, o.metaOpt = some m → DialogsOk q o m := by
  unfold magnetPrepared
  cases hmeta : o.metaOpt with
  | none => simp [hskip, handledOnce_settleFailed]
  | some m =>
    simp only [hskip, Bool.false_eq_true, if_false]
    rw [handledOnce_dialogs_iff q settings w o item.rssSettlement hw m]
    simp

theorem handledOnce_torrentDownloaded (item : RssTorrentUrlQueueItem) (path : String) :
    HandledOnce item.rssSettlement (torrentDownloaded q settings item path) := by
  unfold torrentDownloaded
  split_ifs
  · exact handledOnce_settleFailed _
  · exact handledOnce_settleFailed _
  · exact handledOnce_added rfl _ _

/-- A handler that has started settles once exactly when its call on the window runs and its dialogs end
as they should. -/
theorem handledOnce_startHandler_iff (hdown : w.shuttingDown .started = false) (t : TakenItem) :
    HandledOnce t.rssSettlement (startHandler q settings w t) ↔
      (QueuesCall w t → w.windowGuard .called = true ∧ t.DialogsOk q) := by
  have hwindow : w.windowGuard .fetched = true → w.hasWindow = true := by
    intro h
    exact (Bool.and_eq_true _ _ ▸ h).1
  cases t with
  | magnet item o =>
    simp only [startHandler, startOneMagnetOnUi, hdown, Bool.false_eq_true, if_false,
      TakenItem.rssSettlement, QueuesCall, TakenItem.Fetches, TakenItem.DialogsOk]
    by_cases huri : validateMagnetUri (trimmed item.uri) = none
    · by_cases hskip : item.skipInteractiveAdd = false
      · simp only [huri, Option.isSome_none, hskip, Bool.false_eq_true, if_false, true_and, and_imp]
        rw [handledOnce_afterFetch_iff]
        refine imp_congr_right fun _ => imp_congr_right fun hguard => and_congr_right fun _ => ?_
        exact handledOnce_magnetPrepared_iff q settings w o (hwindow hguard) hskip
      · simp only [Bool.not_eq_false] at hskip
        refine iff_of_true ?_ (fun h => absurd h.1.2 (by simp [hskip]))
        simp only [huri, Option.isSome_none, Bool.false_eq_true, if_false, hskip, if_true]
        exact handledOnce_added rfl _ _
    · refine iff_of_true ?_ (fun h => absurd h.1.1 huri)
      rw [if_pos (Option.isSome_iff_ne_none.mpr huri)]
      exact handledOnce_settleFailed _
  | torrentUrl item d =>
    simp only [startHandler, startOneRssTorrentUrlOnUi, hdown, Bool.false_eq_true, if_false,
      TakenItem.rssSettlement, QueuesCall, TakenItem.Fetches, TakenItem.DialogsOk, and_true]
    by_cases hurl : trimmed item.url = ""
    · simp [hurl, handledOnce_settleFailed]
    · rw [if_neg hurl, handledOnce_afterFetch_iff]
      simp only [handledOnce_torrentDownloaded, and_true, hurl, ne_eq, not_false_eq_true, true_and,
        and_imp]

/-- An item that the pipeline takes is handled once exactly when the call that is queued on the window,
if there is one, still finds it, a dialog over the exported file is accepted, and the values of an
accepted dialog pass their checks. -/
theorem handled_once_iff (via : StartFn) (t : TakenItem) :
    HandledOnce t.rssSettlement (startTaken q settings w via t) ↔
      (QueuesCall w t → w.windowGuard .called = true ∧ t.DialogsOk q) := by
  have hnone : w.shuttingDown .started = true →
      (QueuesCall w t → w.windowGuard .called = true ∧ t.DialogsOk q) := by
    intro hdown h
    have hstarted := shuttingDown_mono w .started _ (by decide) h.2.1
    exact absurd hdown (by simp [hstarted])
  unfold startTaken
  by_cases hdown : w.shuttingDown .started = true
  · refine iff_of_true ?_ (hnone hdown)
    split_ifs
    · exact handledOnce_settleFailed _
    · cases t with
      | magnet item o =>
        simp only [startHandler, startOneMagnetOnUi, if_pos hdown]
        exact handledOnce_settleFailed _
      | torrentUrl item d =>
        simp only [startHandler, startOneRssTorrentUrlOnUi, if_pos hdown, ite_self]
        exact handledOnce_settleFailed _
  · have htaken := shuttingDown_mono w .taken .started (by decide) (by simpa using hdown)
    simp only [htaken, Bool.and_false, Bool.false_eq_true, if_false]
    exact handledOnce_startHandler_iff q settings w (by simpa using hdown) t

/-! ### A dialog that is cancelled -/

/-- A prepared magnet, its metadata exported to a file. -/
def exportedMetadata : MagnetMetadata where
  taskId := 1
  name := "one"
  filePaths := ["one.mkv"]
  fileSizes := [1]
  exportedTorrentPath := "/tmp/one.torrent"

/-- The user cancels the dialog over the exported file, and accepts the one that follows. -/
def cancelledOnce : MagnetOutcome where
  metaOpt := some exportedMetadata
  exportedExists := true
  exportedAnswer := .cancelled
  metadataAnswer := .accepted { name := "one", savePath := "/tmp", category := "", tagsCsv := "" }

/-- The cancel is settled as a failure, a second dialog opens, and its acceptance is settled as a
success. -/
theorem settled_twice_cancelled :
    ¬ ∀ (q : QtInput) (settings : AddSettings) (w : World) (via : StartFn) (t : TakenItem),
      HandledOnce t.rssSettlement (startTaken q settings w via t) := by
  intro h
  have honce := h oneTorrentEnv.qt {} {} .enqueued (.magnet
    { uri := oneMagnet, rssSettlement := { itemId := "item" } } cancelledOnce)
  have hsettled := congrArg List.length honce.settled
  revert hsettled
  decide +kernel

end TorrentLink.App
