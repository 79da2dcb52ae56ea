import TorrentLink.Lt.SessionWorker
import TorrentLink.Lt.TaskIdentity

/-!
# What each command and each step does

One lemma a handler: which of a few outcomes it has. The invariants of the worker are proved over
these outcomes and never unfold a handler.
-/

namespace TorrentLink.Lt

open Lib

variable {H : Type} (env : WorkerEnv H)

/-! ### Adds -/

/-- A command that issues nothing: it is dropped, or reported as a duplicate. -/
def Rejected (s s' : Worker H) : Prop := s' = s ∨ ∃ ih, s' = emitDuplicateRejected env s ih

/-- The options of an add are stored under its id. -/
def storeOpts (s : Worker H) (key : TaskId) (opts : AddTorrentOptions) : Worker H :=
  { s with pendingAddOpts := s.pendingAddOpts.insert key ⟨opts, s.session.nextSerial⟩ }

/-- A command that adds a task for which the worker has no valid handle. -/
structure AddsTask (s : Worker H) (p : AddParams H) : Prop where
  active : hasActiveTaskForInfoHashes env s p.infoHashes = false
  task : p.purpose.task = true

/-- The outcomes of an add command that stores no options. -/
def Adds (s s' : Worker H) : Prop :=
  Rejected env s s' ∨ ∃ p, AddsTask env s p ∧ p.purpose.storesOpts = false ∧ s' = addTask s p

/-- The outcome of an add command that stores options under this key. -/
def Stores (k : TaskId) (s s' : Worker H) : Prop :=
  ∃ (p : AddParams H) (opts : AddTorrentOptions), AddsTask env s p ∧ p.purpose.storesOpts = true ∧
    k = p.taskId env ∧ s' = addTask (storeOpts s k opts) p

/-- The key under which an AddTorrentFile stores its options. -/
@[irreducible] def acceptedFile (s : Worker H) (filePath : String) : Option TaskId :=
  if (validateTorrentFilePath env.qt filePath).isSome then none
  else
    match env.loadTorrentFile filePath with
    | none => none
    | some (infoHashes, _) =>
      if hasActiveTaskForInfoHashes env s infoHashes then none
      else some (env.taskIdFromInfoHashes infoHashes)

theorem acceptedFile_cmds (s : Worker H) (cmds : List Cmd) (filePath : String) :
    acceptedFile env { s with cmds := cmds } filePath = acceptedFile env s filePath := by
  unfold acceptedFile
  rfl

theorem addTaskWithOpts_eq (s : Worker H) (p : AddParams H) (opts : AddTorrentOptions) :
    ∃ p' : AddParams H, p'.infoHashes = p.infoHashes ∧
      p'.purpose = { task := true, startPaused := !opts.startTorrent, storesOpts := true } ∧
      addTaskWithOpts env s p opts = addTask (storeOpts s (p'.taskId env) opts) p' :=
  ⟨{ p with purpose := { task := true, startPaused := !opts.startTorrent, storesOpts := true } },
    rfl, rfl, rfl⟩

/-- An add without options, behind the check for a duplicate. -/
theorem adds_unlessActive (s : Worker H) {ih : H} {p : AddParams H}
    (hih : p.infoHashes = ih) (htask : p.purpose.task = true)
    (hopts : p.purpose.storesOpts = false) :
    Adds env s (if hasActiveTaskForInfoHashes env s ih then emitDuplicateRejected env s ih
      else addTask s p) := by
  subst hih
  by_cases ha : hasActiveTaskForInfoHashes env s p.infoHashes = true
  · rw [if_pos ha]
    exact .inl (.inr ⟨_, rfl⟩)
  · rw [if_neg ha]
    exact .inr ⟨p, ⟨Bool.eq_false_iff.mpr ha, htask⟩, hopts, rfl⟩

theorem handleAddMagnet_cases (s : Worker H) (uri savePath : String) (trackers : List String) :
    Adds env s (handleAddMagnet env s uri savePath trackers) := by
  unfold handleAddMagnet
  by_cases hv : (validateMagnetUri (trimmed uri)).isSome = true
  · simp only [hv, if_true]
    exact .inl (.inl rfl)
  · simp only [hv]
    cases env.parseMagnetUri (trimmed uri) with
    | none => exact .inl (.inl rfl)
    | some atp => exact adds_unlessActive env s rfl rfl rfl

/-- The key under which an AddTorrentFile with these options stores them. -/
def storesFile (s : Worker H) (filePath : String) (opts : Option AddTorrentOptions) : Option TaskId :=
  opts.bind fun _ => acceptedFile env s filePath

theorem handleAddTorrentFile_cases (s : Worker H) (filePath savePath : String)
    (trackers : List String) (opts : Option AddTorrentOptions) :
    (storesFile env s filePath opts = none →
        Adds env s (handleAddTorrentFile env s filePath savePath trackers opts)) ∧
      ∀ k, storesFile env s filePath opts = some k →
        Stores env k s (handleAddTorrentFile env s filePath savePath trackers opts) := by
  unfold handleAddTorrentFile storesFile acceptedFile
  by_cases hv : (validateTorrentFilePath env.qt filePath).isSome = true
  · simp only [hv, if_true]
    exact ⟨fun _ => .inl (.inl rfl), by simp⟩
  · simp only [hv]
    cases env.loadTorrentFile filePath with
    | none => exact ⟨fun _ => .inl (.inl rfl), by simp⟩
    | some file =>
      obtain ⟨ih, ti⟩ := file
      by_cases ha : hasActiveTaskForInfoHashes env s ih = true
      · simp only [ha, if_true]
        exact ⟨fun _ => .inl (.inr ⟨_, rfl⟩), by simp⟩
      · have ha' : hasActiveTaskForInfoHashes env s ih = false := Bool.eq_false_iff.mpr ha
        simp only [ha]
        cases opts with
        | none => exact ⟨fun _ => .inr ⟨_, ⟨ha', rfl⟩, rfl, rfl⟩, by simp⟩
        | some opts =>
          refine ⟨by simp, ?_⟩
          rintro k ⟨⟩
          let atp : AddParams H :=
            { infoHashes := ih
              ti := some ti
              savePath := savePath
              trackers := sanitizeTrackers env.qt trackers
              flags := { defaultFlags with autoManaged := true } }
          obtain ⟨p, hp, hpurpose, heq⟩ := addTaskWithOpts_eq env s (applyAddOptions atp opts) opts
          have hk : env.taskIdFromInfoHashes ih = p.taskId env := by
            rw [AddParams.taskId, hp]
            rfl
          refine ⟨p, opts, ⟨?_, by rw [hpurpose]⟩, by rw [hpurpose], hk, ?_⟩
          · rw [hp]
            exact ha'
          · rw [hk]
            exact heq

theorem handleAddFromResumeData_cases (s : Worker H) (resumeData : Bytes) (startPaused : Bool) :
    Adds env s (handleAddFromResumeData env s resumeData startPaused) := by
  unfold handleAddFromResumeData
  by_cases hv : resumeData = []
  · simp only [hv, if_true]
    exact .inl (.inl rfl)
  · simp only [hv]
    cases env.readResumeData resumeData with
    | none => exact .inl (.inl rfl)
    | some atp => exact adds_unlessActive env s rfl rfl rfl

/-! ### Preparations -/

/-- The key under which a Prepare files its entry, if it is not answered at once. -/
@[irreducible] def acceptedPrepare (s : Worker H) (uri : String) : Option TaskId :=
  if (validateMagnetUri (trimmed uri)).isSome then none
  else
    match env.parseMagnetUri (trimmed uri) with
    | none => none
    | some atp =>
      if hasActiveTaskForInfoHashes env s atp.infoHashes then none else some (atp.taskId env)

theorem acceptedPrepare_cmds (s : Worker H) (cmds : List Cmd) (uri : String) :
    acceptedPrepare env { s with cmds := cmds } uri = acceptedPrepare env s uri := by
  unfold acceptedPrepare
  rfl

/-- The entry of a Prepare is filed, and its torrent is added. -/
def fileEntry (s : Worker H) (p : AddParams H) (entry : PendingMagnetMetaEntry) : Worker H :=
  { s with
    pendingMagnetMeta := s.pendingMagnetMeta.insert (p.taskId env) entry
    session := s.session.asyncAddTorrent p }

theorem handlePrepareMagnetMetadata_cases (s : Worker H) (uri tempSavePath : String)
    (trackers : List String) (done : PromiseId) :
    (∃ s', acceptedPrepare env s uri = none ∧ Rejected env s s' ∧
        handlePrepareMagnetMetadata env s uri tempSavePath trackers done = s'.setValue done none) ∨
      ∃ (p : AddParams H) (entry : PendingMagnetMetaEntry),
        acceptedPrepare env s uri = some (p.taskId env) ∧
        hasActiveTaskForInfoHashes env s p.infoHashes = false ∧
        p.purpose = { task := false } ∧ p.flags = { uploadMode := true } ∧ entry.done = done ∧
        handlePrepareMagnetMetadata env s uri tempSavePath trackers done = fileEntry env s p entry := by
  unfold handlePrepareMagnetMetadata acceptedPrepare
  by_cases hv : (validateMagnetUri (trimmed uri)).isSome = true
  · simp only [hv, if_true]
    exact .inl ⟨s, trivial, .inl rfl, rfl⟩
  · simp only [hv]
    cases env.parseMagnetUri (trimmed uri) with
    | none => exact .inl ⟨s, rfl, .inl rfl, rfl⟩
    | some atp =>
      by_cases ha : hasActiveTaskForInfoHashes env s atp.infoHashes = true
      · simp only [ha, if_true]
        exact .inl ⟨_, rfl, .inr ⟨_, rfl⟩, rfl⟩
      · simp only [ha]
        refine .inr ⟨_, ⟨done, tempSavePath, trimmed uri⟩, ?_, ?_, ?_, ?_, rfl, rfl⟩
        · rfl
        · exact Bool.eq_false_iff.mpr ha
        · rfl
        · rfl

/-- The handle under an id is dropped and its torrent is to be removed. -/
def dropHandle (s : Worker H) (taskId : TaskId) (byCancel : Bool) : Worker H :=
  { removeHandle s taskId byCancel with handlesByTaskId := s.handlesByTaskId.erase taskId }

theorem handleFinalizePreparedMagnet_cases (s : Worker H) (taskId : TaskId) (savePath : String)
    (trackers : List String) (opts : AddTorrentOptions) :
    (s.preparedTorrentInfo.lookup taskId = none ∧
        handleFinalizePreparedMagnet env s taskId savePath trackers opts = s) ∨
      ∃ (p : AddParams H) (ti : TorrentInfo),
        s.preparedTorrentInfo.lookup taskId = some (p.infoHashes, ti) ∧
        p.purpose = { task := true, startPaused := !opts.startTorrent, storesOpts := true } ∧
        handleFinalizePreparedMagnet env s taskId savePath trackers opts =
          addTask (storeOpts
            { dropHandle s taskId false with
              preparedTorrentInfo := s.preparedTorrentInfo.erase taskId } taskId opts) p := by
  unfold handleFinalizePreparedMagnet
  cases h : s.preparedTorrentInfo.lookup taskId with
  | none => exact .inl ⟨rfl, rfl⟩
  | some file =>
    obtain ⟨ih, ti⟩ := file
    let atp : AddParams H :=
      { infoHashes := ih
        ti := some ti
        savePath := savePath
        trackers := sanitizeTrackers env.qt trackers
        flags := { defaultFlags with autoManaged := true } }
    let purpose : AddPurpose :=
      { task := true, startPaused := !opts.startTorrent, storesOpts := true }
    exact .inr ⟨{ applyAddOptions atp opts with purpose := purpose }, ti, rfl, rfl, rfl⟩

/-! ### Steps -/

theorem step_enqueue_frame (s : Worker H) (cmd : Cmd) :
    ∃ cmds, step env s (.enqueue cmd) = { s with cmds := cmds } := by
  by_cases hcmd : cmd.isPrepare = true
  · exact ⟨s.cmds, by simp only [step, hcmd, if_true]⟩
  · exact ⟨s.cmds ++ [cmd], by simp [step, hcmd]⟩

theorem step_prepare_frame (s : Worker H) (uri tempSavePath : String) (trackers : List String) :
    ∃ cmds promises, step env s (.prepare uri tempSavePath trackers) =
      { s with cmds := cmds, promises := promises } := by
  simp only [step, prepare]
  split
  · exact ⟨s.cmds, s.promises, rfl⟩
  · exact ⟨_, _, rfl⟩

theorem step_timeout_frame (s : Worker H) (done : PromiseId) :
    ∃ cmds promises, step env s (.timeout done) =
      { s with cmds := cmds, promises := promises } := by
  simp only [step, timeout]
  split
  · split
    · exact ⟨_, _, rfl⟩
    · exact ⟨s.cmds, s.promises, rfl⟩
  · exact ⟨s.cmds, s.promises, rfl⟩

theorem step_command_nil {s : Worker H} (h : s.cmds = []) : step env s .command = s := by
  simp only [step, h]

theorem step_command {s : Worker H} {cmd : Cmd} {rest : List Cmd} (h : s.cmds = cmd :: rest) :
    step env s .command = handleCmd env { s with cmds := rest } cmd := by
  simp only [step, h]

/-- The alert at this place is taken off the queue. -/
def popAlert (s : Worker H) (i : Nat) : Worker H :=
  { s with session := { s.session with alerts := s.session.alerts.eraseIdx i } }

theorem step_alert_none {s : Worker H} {i : Nat} (h : s.session.alerts[i]? = none) :
    step env s (.alert i) = s := by
  simp only [step, h]

theorem step_alert {s : Worker H} {i : Nat} {a : Alert H} (h : s.session.alerts[i]? = some a) :
    step env s (.alert i) = handleAlert env (popAlert s i) a := by
  simp only [step, h, popAlert]

/-! ### One torrent

An environment with one torrent, known by a magnet and a file: its info-hashes and its task id are 1. -/

def oneMagnet : String := "magnet:?xt=urn:btih:0000000000000000000000000000000000000001"

def oneTorrentFile : String := "/tmp/one.torrent"

def oneTorrentInfo : TorrentInfo := { name := "one", files := [("one.bin", 1)] }

def oneTorrentEnv : WorkerEnv TaskId where
  qt :=
    { cleanPath := id
      downloadLocation := "/tmp"
      urlScheme := fun _ => none
      toLower := id }
  parseMagnetUri uri := if uri = oneMagnet then some { infoHashes := 1, name := "one" } else none
  loadTorrentFile path := if path = oneTorrentFile then some (1, oneTorrentInfo) else none
  readResumeData _ := none
  taskIdFromInfoHashes := id
  taskIdKey _ := "00000000-0000-0000-0000-000000000001"
  toHexV1 _ := "0000000000000000000000000000000000000001"
  toHexV2 _ := ""
  makeMagnetUri _ := oneMagnet
  exportTorrentInfoToFile _ dir key := dirFilePath dir (key ++ ".torrent")
  emptyInfoHashes := 0

/-! ### A hybrid torrent

The same magnet and file, of a torrent with both hashes: the magnet has the v1 hash alone. -/

def hybridMagnet : InfoHash := { v1 := 1 }

def hybridFile : InfoHash := { v1 := 1, v2 := 1 }

def hybridHexV2 : String := "0000000000000000000000000000000000000000000000000000000000000001"

def hybridEnv : WorkerEnv InfoHash where
  qt := oneTorrentEnv.qt
  parseMagnetUri uri :=
    if uri = oneMagnet then some { infoHashes := hybridMagnet, name := "one" } else none
  loadTorrentFile path := if path = oneTorrentFile then some (hybridFile, oneTorrentInfo) else none
  readResumeData _ := none
  taskIdFromInfoHashes := taskIdFromInfoHashes tailEnv
  taskIdKey _ := "00000000-0000-0000-0000-000000000001"
  toHexV1 _ := "0000000000000000000000000000000000000001"
  toHexV2 ih := if ih.v2 = 0 then "" else hybridHexV2
  makeMagnetUri _ := oneMagnet
  exportTorrentInfoToFile _ dir key := dirFilePath dir (key ++ ".torrent")
  emptyInfoHashes := {}

end TorrentLink.Lt
