import TorrentLink.Lib.Positions
import TorrentLink.Lib.Runs
import Mathlib.Tactic.NormNum

/-!
# The priorities of a torrent's files and pieces

Two commands of the worker set priorities.

`SetFirstLastPiecePriority` writes one constant at the first and the last piece of every file, 7 when it is
enabled and 4 when it is disabled. It reads neither the priorities the pieces had nor those of the files, so
disabling restores the pieces, and enabling wakes none that is not wanted, exactly if each piece it writes
had the priority 4 and overlaps a file that is wanted (`firstLast_undone_iff`).

`SetTaskFilePriority` encodes the level of a file in its priority, the in-order level as the one of a normal
file and a flag of the whole torrent, which no command takes back. `toLevel` undoes `toLtPriority` while the
flag is off, and reads every file that is downloaded at all as in order once it is on
(`reportedLevels_eq_expected_iff`). `prioritize_files` is taken to store what it is given at once, and the
torrent has no pad files.
-/

namespace TorrentLink.Lt

open Lib

/-! ### The torrent -/

/-- `libtorrent::download_priority_t` -/
abbrev DownloadPriority := UInt8

/-- The sizes of the files, one behind the other in the pieces, and the length of a piece. -/
structure PieceLayout where
  fileSizes : List Nat
  pieceLength : Nat
  pieceLength_pos : 0 < pieceLength

namespace PieceLayout

def numFiles (layout : PieceLayout) : Nat := layout.fileSizes.length

/-- `libtorrent::torrent_info::num_pieces` -/
def numPieces (layout : PieceLayout) : Nat :=
  (layout.fileSizes.sum + layout.pieceLength - 1) / layout.pieceLength

def fileSize (layout : PieceLayout) (file : Nat) : Nat := layout.fileSizes.getD file 0

def fileOffset (layout : PieceLayout) (file : Nat) : Nat := (layout.fileSizes.take file).sum

/-- The piece of `libtorrent::torrent_info::map_file`. -/
def mapFile (layout : PieceLayout) (file offset : Nat) : Nat :=
  (layout.fileOffset file + offset) / layout.pieceLength

def firstPiece (layout : PieceLayout) (file : Nat) : Nat := layout.mapFile file 0

def lastPiece (layout : PieceLayout) (file : Nat) : Nat :=
  -- `0` for an empty file
  layout.mapFile file (layout.fileSize file - 1)

/-- Some byte of the file is in the piece. -/
def Overlaps (layout : PieceLayout) (file piece : Nat) : Prop :=
  ∃ byte, byte < layout.fileSize file ∧ layout.mapFile file byte = piece

end PieceLayout

/-- A torrent with metadata: a priority for each file and for each piece, and the flag
`sequential_download`. -/
structure PrioritizedTorrent where
  layout : PieceLayout
  filePriorities : List DownloadPriority
  filePriorities_length : filePriorities.length = layout.numFiles
  piecePriorities : List DownloadPriority
  piecePriorities_length : piecePriorities.length = layout.numPieces
  sequentialDownload : Bool

namespace PrioritizedTorrent

/-- `libtorrent::torrent_handle::piece_priority`, which passes over a piece that is not there. -/
def piecePriority (t : PrioritizedTorrent) (piece : Nat) (priority : DownloadPriority) :
    PrioritizedTorrent :=
  { t with
    piecePriorities := t.piecePriorities.set piece priority
    piecePriorities_length := List.length_set.trans t.piecePriorities_length }

end PrioritizedTorrent

/-! ### First and last pieces -/

/-- One turn of the loop over the files. -/
def setEndPieces (prio : DownloadPriority) (h : PrioritizedTorrent) (file : Nat) : PrioritizedTorrent :=
  let firstPiece := h.layout.firstPiece file
  let lastPiece := h.layout.lastPiece file
  let h := h.piecePriority firstPiece prio
  if lastPiece ≠ firstPiece then h.piecePriority lastPiece prio else h

/-- The handler of `SetFirstLastPiecePriorityCmd`. -/
def setFirstLastPiecePriority (enabled : Bool) (t : PrioritizedTorrent) : PrioritizedTorrent :=
  if t.layout.numPieces = 0 then t
  else
    let prio := if enabled then 7 else 4
    (List.range t.layout.numFiles).foldl (setEndPieces prio) t

/-- The first and the last piece of each file. -/
def PieceLayout.endPieces (layout : PieceLayout) : List Nat :=
  (List.range layout.numFiles).flatMap fun file => [layout.firstPiece file, layout.lastPiece file]

/-- Enabling the command and disabling it leaves the priorities of the pieces as they were. -/
def UndoneByDisabling (t : PrioritizedTorrent) : Prop :=
  (setFirstLastPiecePriority false (setFirstLastPiecePriority true t)).piecePriorities = t.piecePriorities

/-- A piece that overlaps only files with the priority 0 has no non-zero priority from the command. -/
def WakesNoUnwantedPiece (t : PrioritizedTorrent) : Prop :=
  ∀ piece, (∀ file, t.layout.Overlaps file piece → t.filePriorities[file]? = some 0) →
    ∀ priority, (setFirstLastPiecePriority true t).piecePriorities[piece]? = some priority →
      priority ≠ 0 → t.piecePriorities[piece]? = some priority

theorem layout_setEndPieces (prio : DownloadPriority) (h : PrioritizedTorrent) (file : Nat) :
    (setEndPieces prio h file).layout = h.layout := by
  unfold setEndPieces
  dsimp only
  split
  · rfl
  · rfl

theorem piecePriorities_setEndPieces (prio : DownloadPriority) (h : PrioritizedTorrent) (file : Nat) :
    (setEndPieces prio h file).piecePriorities =
      setAll prio [h.layout.firstPiece file, h.layout.lastPiece file] h.piecePriorities := by
  unfold setEndPieces
  dsimp only
  split
  · rfl
  · next heq =>
    rw [not_not.mp heq]
    exact (List.set_set ..).symm

/-- The loop: the pieces of all files, in a torrent that is otherwise the same. -/
theorem foldl_setEndPieces (prio : DownloadPriority) (files : List Nat) (t : PrioritizedTorrent) :
    (files.foldl (setEndPieces prio) t).layout = t.layout ∧
      (files.foldl (setEndPieces prio) t).piecePriorities =
        setAll prio (files.flatMap fun file => [t.layout.firstPiece file, t.layout.lastPiece file])
          t.piecePriorities := by
  induction files generalizing t with
  | nil => exact ⟨rfl, rfl⟩
  | cons file files ih =>
    obtain ⟨hlayout, hpieces⟩ := ih (setEndPieces prio t file)
    rw [layout_setEndPieces] at hlayout hpieces
    refine ⟨hlayout, ?_⟩
    rw [List.foldl_cons, hpieces, piecePriorities_setEndPieces, List.flatMap_cons, setAll_append]

theorem layout_setFirstLastPiecePriority (enabled : Bool) (t : PrioritizedTorrent) :
    (setFirstLastPiecePriority enabled t).layout = t.layout := by
  unfold setFirstLastPiecePriority
  split
  · rfl
  · exact (foldl_setEndPieces _ _ t).1

/-- The handler writes its constant at the first and last pieces. -/
theorem piecePriorities_setFirstLastPiecePriority (enabled : Bool) (t : PrioritizedTorrent) :
    (setFirstLastPiecePriority enabled t).piecePriorities =
      setAll (if enabled then 7 else 4) t.layout.endPieces t.piecePriorities := by
  unfold setFirstLastPiecePriority
  by_cases hpieces : t.layout.numPieces = 0
  · -- there is no priority to write
    have hnil : t.piecePriorities = [] :=
      List.eq_nil_of_length_eq_zero (t.piecePriorities_length.trans hpieces)
    rw [if_pos hpieces, hnil]
    exact (List.eq_nil_of_length_eq_zero (length_setAll ..)).symm
  · rw [if_neg hpieces]
    exact (foldl_setEndPieces _ _ t).2

theorem undoneByDisabling_iff (t : PrioritizedTorrent) :
    UndoneByDisabling t ↔
      ∀ piece ∈ t.layout.endPieces, ∀ priority, t.piecePriorities[piece]? = some priority →
        priority = 4 := by
  unfold UndoneByDisabling
  rw [piecePriorities_setFirstLastPiecePriority, layout_setFirstLastPiecePriority,
    piecePriorities_setFirstLastPiecePriority]
  exact setAll_setAll_eq_iff

/-- Enabling and disabling the command leaves the pieces as they were and wakes no unwanted one exactly if
every first or last piece of a file had the priority 4 and overlaps a file that is to be downloaded. -/
theorem firstLast_undone_iff (t : PrioritizedTorrent) :
    UndoneByDisabling t ∧ WakesNoUnwantedPiece t ↔
      ∀ piece ∈ t.layout.endPieces, ∀ priority, t.piecePriorities[piece]? = some priority →
        priority = 4 ∧ ∃ file, t.layout.Overlaps file piece ∧ t.filePriorities[file]? ≠ some 0 := by
  rw [undoneByDisabling_iff]
  constructor
  · rintro ⟨hdefault, hunwanted⟩ piece hend priority hpriority
    have h4 := hdefault piece hend priority hpriority
    refine ⟨h4, ?_⟩
    by_contra hall
    push Not at hall
    -- the piece gets the priority 7, which it did not have
    have hwritten : (setFirstLastPiecePriority true t).piecePriorities[piece]? = some 7 := by
      rw [piecePriorities_setFirstLastPiecePriority, getElem?_setAll, if_pos hend, hpriority]
      rfl
    have hold := hunwanted piece hall 7 hwritten (by decide)
    rw [hpriority, h4] at hold
    exact absurd hold (by decide)
  · intro h
    refine ⟨fun piece hend priority hpriority => (h piece hend priority hpriority).1, ?_⟩
    intro piece hall priority hwritten _
    rw [piecePriorities_setFirstLastPiecePriority, getElem?_setAll] at hwritten
    by_cases hend : piece ∈ t.layout.endPieces
    · rw [if_pos hend] at hwritten
      obtain ⟨old, hold, _⟩ := Option.map_eq_some_iff.mp hwritten
      obtain ⟨_, file, hoverlaps, hwanted⟩ := h piece hend old hold
      exact absurd (hall file hoverlaps) hwanted
    · rwa [if_neg hend] at hwritten

/-- One file of one piece, not to be downloaded. -/
def oneUnwantedFile : PrioritizedTorrent where
  layout := { fileSizes := [3], pieceLength := 4, pieceLength_pos := by decide }
  filePriorities := [0]
  filePriorities_length := rfl
  piecePriorities := [0]
  piecePriorities_length := rfl
  sequentialDownload := false

theorem firstLast_wakes_unwanted :
    ¬ UndoneByDisabling oneUnwantedFile ∧ ¬ WakesNoUnwantedPiece oneUnwantedFile := by
  refine ⟨by unfold UndoneByDisabling; decide, fun h => ?_⟩
  have hall : ∀ file, oneUnwantedFile.layout.Overlaps file 0 →
      oneUnwantedFile.filePriorities[file]? = some 0 := by
    rintro file ⟨byte, hbyte, _⟩
    cases file with
    | zero => rfl
    | succ file => exact absurd hbyte (Nat.not_lt_zero byte)
  have hold := h 0 hall 7 (by decide) (by decide)
  exact absurd hold (by decide)

/-! ### Levels of files -/

/-- `SessionWorker::FilePriorityLevel` -/
inductive FilePriorityLevel
  | notDownloaded | doNotDownload | normal | high | highest | fileOrder
  deriving DecidableEq, Repr

def toLtPriority : FilePriorityLevel → DownloadPriority
  | .doNotDownload => 0
  | .notDownloaded => 1
  | .high => 6
  | .highest => 7
  | .fileOrder => 4
  | .normal => 4

def toLevel (p : DownloadPriority) (sequential : Bool) : FilePriorityLevel :=
  if p ≤ 0 then .doNotDownload
  else if sequential then .fileOrder
  else if p ≥ 7 then .highest
  else if p ≥ 6 then .high
  else if p ≥ 4 then .normal
  else .notDownloaded

/-- `SetTaskFilePriorityCmd`, for a torrent of the session. -/
structure SetTaskFilePriorityCmd where
  fileIndices : List Int
  level : FilePriorityLevel
  deriving DecidableEq, Repr

/-- The loop over the file indices. -/
def assignPriority (target : DownloadPriority) (priorities : List DownloadPriority) :
    List Int → List DownloadPriority
  | [] => priorities
  | raw :: fileIndices =>
    if raw < 0 ∨ raw ≥ priorities.length then assignPriority target priorities fileIndices
    else assignPriority target (priorities.set raw.toNat target) fileIndices

/-- The entry of `SessionWorker::FileEntrySnapshot` for a file. -/
structure FileEntrySnapshot where
  fileIndex : Nat
  sizeBytes : Nat
  priority : FilePriorityLevel := .normal
  deriving DecidableEq, Repr

/-- The handler of `QueryTaskFilesCmd`. -/
def queryTaskFiles (t : PrioritizedTorrent) : List FileEntrySnapshot :=
  (List.range t.layout.numFiles).map fun i =>
    { fileIndex := i
      sizeBytes := t.layout.fileSize i
      priority := (t.filePriorities[i]?.map fun p => toLevel p t.sequentialDownload).getD .normal }

theorem length_assignPriority (target : DownloadPriority) (priorities : List DownloadPriority)
    (fileIndices : List Int) :
    (assignPriority target priorities fileIndices).length = priorities.length := by
  induction fileIndices generalizing priorities with
  | nil => rfl
  | cons raw fileIndices ih =>
    unfold assignPriority
    split
    · exact ih priorities
    · exact (ih _).trans List.length_set

/-- The handler of `SetTaskFilePriorityCmd`. -/
def setTaskFilePriority (t : PrioritizedTorrent) (c : SetTaskFilePriorityCmd) : PrioritizedTorrent :=
  if t.filePriorities = [] then t
  else
    { t with
      sequentialDownload := if c.level = .fileOrder then true else t.sequentialDownload
      filePriorities := assignPriority (toLtPriority c.level) t.filePriorities c.fileIndices
      filePriorities_length := (length_assignPriority ..).trans t.filePriorities_length }

/-! ### The last command of a file -/

/-- The last of the commands whose indices have the file. -/
def lastCommand (cmds : List SetTaskFilePriorityCmd) (i : Nat) : Option SetTaskFilePriorityCmd :=
  (cmds.filter fun c => (i : Int) ∈ c.fileIndices).getLast?

/-- The level that the query reports for a file. -/
def reportedLevel (t : PrioritizedTorrent) (i : Nat) : Option FilePriorityLevel :=
  (queryTaskFiles t)[i]?.map (·.priority)

/-- The level of the last command with the file, or the one it had. -/
def expectedLevel (t : PrioritizedTorrent) (cmds : List SetTaskFilePriorityCmd) (i : Nat) :
    Option FilePriorityLevel :=
  ((lastCommand cmds i).map (·.level)).or (reportedLevel t i)

/-- After the commands, the query reports for each file the level of its last command. -/
def ReportsLastLevels (t : PrioritizedTorrent) (cmds : List SetTaskFilePriorityCmd) : Prop :=
  ∀ i < t.layout.numFiles, reportedLevel (run setTaskFilePriority t cmds) i = expectedLevel t cmds i

theorem reportedLevel_eq (t : PrioritizedTorrent) (i : Nat) :
    reportedLevel t i = t.filePriorities[i]?.map fun p => toLevel p t.sequentialDownload := by
  unfold reportedLevel queryTaskFiles
  rw [List.getElem?_map, Option.map_map]
  by_cases hi : i < t.layout.numFiles
  · have hfile : i < t.filePriorities.length := hi.trans_eq t.filePriorities_length.symm
    rw [List.getElem?_range hi, List.getElem?_eq_getElem hfile]
    simp only [Option.map_some, Function.comp_apply, List.getElem?_eq_getElem hfile, Option.getD_some]
  · have hfile : t.filePriorities.length ≤ i := t.filePriorities_length.trans_le (Nat.le_of_not_lt hi)
    rw [List.getElem?_eq_none hfile, List.getElem?_eq_none (by simpa using hi)]
    rfl

theorem getElem?_assignPriority (target : DownloadPriority) (priorities : List DownloadPriority)
    (fileIndices : List Int) (i : Nat) :
    (assignPriority target priorities fileIndices)[i]? =
      if (i : Int) ∈ fileIndices then priorities[i]?.map fun _ => target else priorities[i]? := by
  induction fileIndices generalizing priorities with
  | nil => rfl
  | cons raw fileIndices ih =>
    unfold assignPriority
    by_cases hraw : raw < 0 ∨ raw ≥ priorities.length
    · -- the index is passed over; if it is the file's, there is no such file
      rw [if_pos hraw, ih]
      by_cases hi : (i : Int) = raw
      · have hlen : priorities.length ≤ i := by omega
        simp [hi, List.getElem?_eq_none hlen]
      · simp [hi]
    · rw [if_neg hraw, ih]
      by_cases hi : (i : Int) = raw
      · have hset : (priorities.set raw.toNat target)[i]? = priorities[i]?.map fun _ => target := by
          have htoNat : raw.toNat = i := by omega
          have hlt : i < priorities.length := by omega
          rw [htoNat, List.getElem?_set_self hlt, List.getElem?_eq_getElem hlt]
          rfl
        rw [hset, Option.map_map, if_pos (List.mem_cons.mpr (.inl hi))]
        exact ite_self _
      · have hset : (priorities.set raw.toNat target)[i]? = priorities[i]? :=
          List.getElem?_set_ne (by omega)
        simp [hi, hset]

theorem lastCommand_cons (c : SetTaskFilePriorityCmd) (cmds : List SetTaskFilePriorityCmd) (i : Nat) :
    lastCommand (c :: cmds) i =
      (lastCommand cmds i).or (if (i : Int) ∈ c.fileIndices then some c else none) := by
  unfold lastCommand
  rw [List.filter_cons]
  by_cases hc : (i : Int) ∈ c.fileIndices
  · rw [if_pos (decide_eq_true hc), if_pos hc, List.getLast?_cons]
    cases (cmds.filter fun c => (i : Int) ∈ c.fileIndices).getLast? with
    | none => rfl
    | some last => rfl
  · rw [if_neg (by simpa using hc), if_neg hc, Option.or_none]

/-- A file has the priority of its last command. -/
theorem filePriorities_run (t : PrioritizedTorrent) (cmds : List SetTaskFilePriorityCmd) (i : Nat) :
    (run setTaskFilePriority t cmds).filePriorities[i]? =
      t.filePriorities[i]?.map fun p =>
        ((lastCommand cmds i).map fun c => toLtPriority c.level).getD p := by
  induction cmds generalizing t with
  | nil =>
    cases h : t.filePriorities[i]? with
    | none => simp [h]
    | some p => simp [h, lastCommand]
  | cons c cmds ih =>
    have hstep : (setTaskFilePriority t c).filePriorities[i]? =
        if (i : Int) ∈ c.fileIndices then t.filePriorities[i]?.map fun _ => toLtPriority c.level
        else t.filePriorities[i]? := by
      unfold setTaskFilePriority
      by_cases hempty : t.filePriorities = []
      · simp [hempty]
      · rw [if_neg hempty]
        exact getElem?_assignPriority ..
    rw [run_cons, ih, hstep, lastCommand_cons]
    by_cases hc : (i : Int) ∈ c.fileIndices
    · rw [if_pos hc, if_pos hc, Option.map_map]
      cases lastCommand cmds i with
      | none => rfl
      | some last => rfl
    · rw [if_neg hc, if_neg hc, Option.or_none]

/-- The flag is on once it was on, or a command has asked for the order of the files. -/
theorem sequentialDownload_run {t : PrioritizedTorrent} (hfiles : t.filePriorities ≠ [])
    (cmds : List SetTaskFilePriorityCmd) :
    (run setTaskFilePriority t cmds).sequentialDownload =
      (t.sequentialDownload || cmds.any fun c => c.level = .fileOrder) := by
  induction cmds generalizing t with
  | nil => exact (Bool.or_false _).symm
  | cons c cmds ih =>
    have hflag : (setTaskFilePriority t c).sequentialDownload =
        if c.level = .fileOrder then true else t.sequentialDownload := by
      unfold setTaskFilePriority
      rw [if_neg hfiles]
    have hlength : (setTaskFilePriority t c).filePriorities.length = t.filePriorities.length := by
      unfold setTaskFilePriority
      rw [if_neg hfiles]
      exact length_assignPriority ..
    have hfiles' : (setTaskFilePriority t c).filePriorities ≠ [] := by
      rw [← List.length_pos_iff_ne_nil, hlength]
      exact List.length_pos_iff_ne_nil.mpr hfiles
    rw [run_cons, ih hfiles', hflag, List.any_cons]
    by_cases hc : c.level = .fileOrder
    · simp [hc]
    · simp [hc]

/-! ### Encoding and decoding -/

theorem toLevel_toLtPriority {level : FilePriorityLevel} (h : level ≠ .fileOrder) :
    toLevel (toLtPriority level) false = level := by
  cases level with
  | fileOrder => exact absurd rfl h
  | notDownloaded | doNotDownload | normal | high | highest => rfl

theorem toLevel_toLtPriority_sequential_iff (level : FilePriorityLevel) :
    toLevel (toLtPriority level) true = level ↔ level = .doNotDownload ∨ level = .fileOrder := by
  cases level <;> decide

/-- The levels of a file that is to be downloaded. -/
theorem toLevel_of_pos {p : DownloadPriority} (hp : ¬ p ≤ 0) (sequential : Bool) :
    toLevel p sequential ≠ .doNotDownload ∧
      (toLevel p sequential = .fileOrder ↔ sequential = true) := by
  unfold toLevel
  rw [if_neg hp]
  cases sequential with
  | true => simp
  | false =>
    rw [if_neg Bool.false_ne_true]
    split_ifs <;> decide

/-- Turning the flag on leaves the level of a file only if it is one that the flag does not change. -/
theorem toLevel_sequential_iff (p : DownloadPriority) (sequential : Bool) :
    toLevel p true = toLevel p sequential ↔
      toLevel p sequential = .doNotDownload ∨ toLevel p sequential = .fileOrder := by
  by_cases hp : p ≤ 0
  · have hnone : ∀ s, toLevel p s = .doNotDownload := fun s => if_pos hp
    simp [hnone]
  · obtain ⟨hne, _⟩ := toLevel_of_pos hp sequential
    rw [(toLevel_of_pos hp true).2.mpr rfl, or_iff_right hne, eq_comm]

/-! ### The reported levels -/

/-- What the query reports for a file, and what is expected, by the last command of the file. -/
theorem reportedLevel_run {t : PrioritizedTorrent} {i : Nat} {p : DownloadPriority}
    (hp : t.filePriorities[i]? = some p) (cmds : List SetTaskFilePriorityCmd) :
    reportedLevel (run setTaskFilePriority t cmds) i =
        some (toLevel (((lastCommand cmds i).map fun c => toLtPriority c.level).getD p)
          (run setTaskFilePriority t cmds).sequentialDownload) ∧
      expectedLevel t cmds i =
        some (((lastCommand cmds i).map (·.level)).getD (toLevel p t.sequentialDownload)) := by
  constructor
  · rw [reportedLevel_eq, filePriorities_run, hp]
    rfl
  · unfold expectedLevel
    rw [reportedLevel_eq, hp]
    cases lastCommand cmds i with
    | none => rfl
    | some c => rfl

/-- With the flag on, a file is reported as expected only if its level is one of two. -/
theorem reportedLevel_run_sequential_iff {t : PrioritizedTorrent} {i : Nat} {p : DownloadPriority}
    (hp : t.filePriorities[i]? = some p) {cmds : List SetTaskFilePriorityCmd}
    (hflag : (run setTaskFilePriority t cmds).sequentialDownload = true) :
    reportedLevel (run setTaskFilePriority t cmds) i = expectedLevel t cmds i ↔
      expectedLevel t cmds i = some .doNotDownload ∨ expectedLevel t cmds i = some .fileOrder := by
  obtain ⟨hreported, hexpected⟩ := reportedLevel_run hp cmds
  rw [hreported, hexpected, hflag]
  simp only [Option.some.injEq]
  cases lastCommand cmds i with
  | none => exact toLevel_sequential_iff p t.sequentialDownload
  | some c => exact toLevel_toLtPriority_sequential_iff c.level

/-- With the flag off, every file is reported as expected. -/
theorem reportedLevel_run_of_off {t : PrioritizedTorrent} {i : Nat} {p : DownloadPriority}
    (hp : t.filePriorities[i]? = some p) {cmds : List SetTaskFilePriorityCmd}
    (hflag : (run setTaskFilePriority t cmds).sequentialDownload = false)
    (hoff : t.sequentialDownload = false) (hcmds : ∀ c ∈ cmds, c.level ≠ .fileOrder) :
    reportedLevel (run setTaskFilePriority t cmds) i = expectedLevel t cmds i := by
  obtain ⟨hreported, hexpected⟩ := reportedLevel_run hp cmds
  rw [hreported, hexpected, hflag, hoff]
  cases hlast : lastCommand cmds i with
  | none => rfl
  | some c =>
    have hmem : c ∈ cmds := List.mem_of_mem_filter (List.mem_of_getLast? hlast)
    exact congrArg some (toLevel_toLtPriority (hcmds c hmem))

/-- The query reports the levels of the last commands exactly if the order of the files was not and is not
asked for, or every file is left out or wanted in order. -/
theorem reportsLastLevels_iff (t : PrioritizedTorrent) (cmds : List SetTaskFilePriorityCmd) :
    ReportsLastLevels t cmds ↔
      (t.sequentialDownload = false ∧ ∀ c ∈ cmds, c.level ≠ .fileOrder) ∨
        ∀ i < t.layout.numFiles,
          expectedLevel t cmds i = some .doNotDownload ∨ expectedLevel t cmds i = some .fileOrder := by
  by_cases hfiles : t.filePriorities = []
  · -- a torrent without files
    have hnone : t.layout.numFiles = 0 := by rw [← t.filePriorities_length, hfiles]; rfl
    exact iff_of_true (fun i hi => by omega) (.inr fun i hi => by omega)
  have hfile : ∀ i < t.layout.numFiles, ∃ p, t.filePriorities[i]? = some p := fun i hi =>
    ⟨_, List.getElem?_eq_getElem (hi.trans_eq t.filePriorities_length.symm)⟩
  have hflag := sequentialDownload_run hfiles cmds
  cases hoff : (t.sequentialDownload || cmds.any fun c => c.level = .fileOrder) with
  | false =>
    rw [hoff] at hflag
    have hnever : t.sequentialDownload = false ∧ ∀ c ∈ cmds, c.level ≠ .fileOrder := by
      simpa using hoff
    refine iff_of_true (fun i hi => ?_) (.inl hnever)
    obtain ⟨p, hp⟩ := hfile i hi
    exact reportedLevel_run_of_off hp hflag hnever.1 hnever.2
  | true =>
    rw [hoff] at hflag
    have hasked : ¬ (t.sequentialDownload = false ∧ ∀ c ∈ cmds, c.level ≠ .fileOrder) := by
      rintro ⟨hoff', hcmds⟩
      have hnone : (cmds.any fun c => c.level = .fileOrder) = false := by simpa using hcmds
      rw [hoff', hnone] at hoff
      exact Bool.false_ne_true hoff
    rw [or_iff_right hasked]
    refine forall₂_congr fun i hi => ?_
    obtain ⟨p, hp⟩ := hfile i hi
    exact reportedLevel_run_sequential_iff hp hflag

/-- Two normal files, of which the first is then wanted in order: the second is reported in order too. -/
def twoNormalFiles : PrioritizedTorrent where
  layout := { fileSizes := [3, 5], pieceLength := 4, pieceLength_pos := by decide }
  filePriorities := [4, 4]
  filePriorities_length := rfl
  piecePriorities := [4, 4]
  piecePriorities_length := rfl
  sequentialDownload := false

theorem fileOrder_reported_for_others :
    ¬ ReportsLastLevels twoNormalFiles [{ fileIndices := [0], level := .fileOrder }] := by
  intro h
  exact absurd (h 1 (by decide)) (by decide)

end TorrentLink.Lt
