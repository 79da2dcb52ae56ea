import TorrentLink.Base.QByteArray
import TorrentLink.Base.QStringArg
import TorrentLink.Lib.FileChain

/-!
# The log file and its rotation

What the writer of `Logger` does with the file of one path when the operations on files succeed: a line that
would make the file too long is written to a new one, the old one becomes backup `.1`, and each backup the
next. What the files hold is at every moment a list of groups of lines, the newest first (`Kept`); a line is
added to the first group or begins a new one, and the last group may go. So no line is lost but the oldest,
and none changes its place (`rotation_keeps_last_lines`).

The names of the backups are made by `arg`. If the path has markers of its own (`argTwo`), the loop renames
files that do not exist, and only backup `.1` is kept.
-/

namespace TorrentLink

open Lib Lib.Dir

structure RotationPolicy where
  maxFileSizeBytes : Int := 0
  maxBackupFiles : Int := 3

/-- The files, `log_file_path_`, and the path of `log_file_` where it is open. -/
structure LogFile where
  dir : Dir String Bytes := fun _ => none
  path : String := ""
  file : Option String := none
  /-- What was written so far, to whatever file. -/
  written : List Bytes := []

namespace LogFile

/-- `closeLogFileUnlocked` -/
def close (f : LogFile) : LogFile := { f with file := none, path := "" }

/-- `QFile::open` to append: the file is made if it is not there. -/
def openAppend (f : LogFile) (path : String) : LogFile :=
  { f with
    dir := if (f.dir path).isSome then f.dir else Function.update f.dir path (some [])
    file := some path }

/-- `QFile::write` to the open file. -/
def write (f : LogFile) (name : String) (bytes : Bytes) : LogFile :=
  { f with
    dir := Function.update f.dir name (some ((f.dir name).getD [] ++ bytes))
    written := f.written ++ [bytes] }

/-- `reopenFileUnlocked` -/
def reopen (f : LogFile) (path : String) : LogFile :=
  let f := { f.close with path := path }
  if path = "" then f else f.openAppend path

/-- What `rotateFilesUnlocked` does to the files before it opens a new one. -/
def rotateDir (base : String) (backups : Nat) (dir : Dir String Bytes) : Dir String Bytes :=
  let dir := dir.remove (argTwo base backups)
  let dir := dir.shift (argTwo base) (backups - 1)
  dir.moveOver base (base ++ ".1")

section Policy

variable (policy : RotationPolicy)

/-- `rotateFilesUnlocked` -/
def rotateFiles (f : LogFile) : LogFile :=
  if f.path = "" then f
  else if policy.maxBackupFiles ≤ 0 then f
  else
    let base := f.path
    let f := { f.close with path := base }
    { f with dir := rotateDir base policy.maxBackupFiles.toNat f.dir }.openAppend base

/-- `rotateIfNeededUnlocked` -/
def rotateIfNeeded (f : LogFile) (nextWriteBytes : Nat) : LogFile :=
  if policy.maxFileSizeBytes ≤ 0 ∨ policy.maxBackupFiles ≤ 0 then f
  else
    match f.file with
    | none => f
    | some name =>
      let currentSize := ((f.dir name).getD []).length
      if (currentSize + nextWriteBytes : Int) ≤ policy.maxFileSizeBytes then f
      else rotateFiles policy f

/-- The bytes of a line in the file. -/
def lineBytes (line : String) : Bytes := toUtf8 line ++ [10]

/-- `writeTextLineUnlocked` -/
def writeTextLine (f : LogFile) (line : String) : LogFile :=
  if f.path = "" ∨ f.file = none then f
  else
    let bytes := lineBytes line
    let f := rotateIfNeeded policy f bytes.length
    match f.file with
    | none => f
    | some name => if f.path = "" then f else f.write name bytes

/-- A line for a path, as the writer and a call that found the queue full write it. -/
def writeLineTo (f : LogFile) (targetPath line : String) : LogFile :=
  let f := if targetPath ≠ "" ∧ targetPath ≠ f.path then f.reopen targetPath else f
  f.writeTextLine policy line

end Policy

end LogFile

/-- `CmdLine`, with the number of the log call, which the program does not keep. -/
structure CmdLine where
  call : Nat
  text : String
  targetPath : String
  flushDisk : Bool := false
  deriving DecidableEq, Repr

/-- `AsyncCmd`. A promise is known by a number. -/
inductive AsyncCmd
  | line (c : CmdLine)
  | reopen (path : String)
  | flushSync (done : Nat)
  | barrier (done : Nat)
  | shutdown
  deriving DecidableEq, Repr

/-- `processOneCmd`, as to the files. -/
def processOneCmd (policy : RotationPolicy) (f : LogFile) : AsyncCmd → LogFile
  | .line c => f.writeLineTo policy c.targetPath c.text
  | .reopen path => f.reopen path
  | .flushSync _ | .barrier _ | .shutdown => f

/-- Every path of the command is this one. -/
def AsyncCmd.OnPath (base : String) : AsyncCmd → Prop
  | .line c => c.targetPath = base
  | .reopen path => path = base
  | .flushSync _ | .barrier _ | .shutdown => True

/-- The line of a command, if it has one. -/
def AsyncCmd.lines : AsyncCmd → List CmdLine
  | .line c => [c]
  | _ => []

/-- What a line adds to its file. -/
def CmdLine.bytes (c : CmdLine) : Bytes := LogFile.lineBytes c.text

theorem LogFile.openAppend_of_none {f : LogFile} {path : String} (h : f.dir path = none) :
    f.openAppend path =
      { f with dir := Function.update f.dir path (some []), file := some path } := by
  unfold LogFile.openAppend
  rw [h]
  rfl

theorem LogFile.openAppend_of_some {f : LogFile} {path : String} {data : Bytes}
    (h : f.dir path = some data) : f.openAppend path = { f with file := some path } := by
  unfold LogFile.openAppend
  rw [h]
  rfl

/-! ### The names of the backups -/

/-- The file itself, and backup `.i`. -/
def logFileName (base : String) : Nat → String
  | 0 => base
  | i + 1 => base ++ "." ++ toString (i + 1)

theorem prefix_logFileName (base : String) (i : Nat) :
    base.toList <+: (logFileName base i).toList := by
  cases i with
  | zero => exact List.prefix_rfl
  | succ i =>
    show _ <+: (base ++ "." ++ toString (i + 1)).toList
    rw [String.toList_append, String.toList_append, List.append_assoc]
    exact List.prefix_append _ _

theorem logFileName_injective (base : String) : (logFileName base).Injective := by
  have hne : ∀ i, base ≠ base ++ "." ++ toString (i + 1) := by
    intro i h
    have hlength := congrArg (fun s => s.toList.length) h
    simp at hlength
  intro i j h
  cases i with
  | zero =>
    cases j with
    | zero => rfl
    | succ j => exact absurd h (hne j)
  | succ i =>
    cases j with
    | zero => exact absurd h.symm (hne i)
    | succ j =>
      have hlists := congrArg String.toList h
      simp only [logFileName, String.toList_append] at hlists
      have hnumbers := congrArg (Nat.ofDigitChars 10 · 0) (List.append_cancel_left hlists)
      simpa [Nat.toString_eq_ofList_toDigits] using hnumbers

/-! ### One rotation -/

/-- `rotateDir` moves the contents on by one place, and of them keeps this many. -/
def KeepsBackups (base : String) (backups kept : Nat) : Prop :=
  ∀ (dir : Dir String Bytes) (files : List Bytes),
    Names (logFileName base) dir (fun i => files[i]?) → files.length ≤ kept + 1 →
      Names (logFileName base) (LogFile.rotateDir base backups dir) (gap files kept 0)

/-- With `backups` of at least one, some number of backups is kept, no more than these. -/
theorem exists_kept (base : String) {backups : Nat} (hbackups : 1 ≤ backups) :
    ∃ kept ≤ backups, KeepsBackups base backups kept := by
  obtain ⟨backups, rfl⟩ := Nat.exists_eq_add_of_le' hbackups
  have hinj := logFileName_injective base
  have hfirst : logFileName base 1 = base ++ ".1" := String.append_assoc
  by_cases hmarkers : ∀ n ∈ markers base.toList, 2 < n
  · refine ⟨backups + 1, Nat.le_refl _, fun dir files h hlength => ?_⟩
    have hname : ∀ i, argTwo base (i + 1) = logFileName base (i + 1) := fun i => argTwo_of_lt hmarkers _
    have hrotated := h.rotate hinj backups hlength
    unfold LogFile.rotateDir
    dsimp only
    rw [← hfirst, Nat.add_sub_cancel, hname, shift_congr hname]
    exact hrotated
  · push Not at hmarkers
    obtain ⟨n, hn, hle⟩ := hmarkers
    refine ⟨1, hbackups, fun dir files h hlength => ?_⟩
    -- the names of the loop are no names of the files
    have hother : ∀ i, dir (argTwo base i) = none := fun i => h.only _ fun j heq =>
      not_prefix_argTwo hn hle i (heq ▸ prefix_logFileName base j)
    unfold LogFile.rotateDir
    dsimp only
    rw [← hfirst, remove_of_none (hother _), shift_of_none hother]
    exact h.rotate_one hinj hlength

/-! ### One command -/

/-- What the files hold of the lines: groups, the newest first. The file is not open before there is one. -/
structure Kept (maxSize : Int) (base : String) (kept : Nat) (lines : List Bytes)
    (groups : List (List Bytes)) (f : LogFile) : Prop where
  names : Names (logFileName base) f.dir fun i => (groups.map List.flatten)[i]?
  file : if groups = [] then f.path = "" ∧ f.file = none
    else base ≠ "" ∧ f.path = base ∧ f.file = some base
  length_le : groups.length ≤ kept + 1
  suffix : groups.reverse.flatten <:+ lines
  size : ∀ g ∈ groups, (g.flatten.length : Int) ≤ maxSize ∨ ∃ line, g = [line]

section Step

variable {maxSize : Int} {base : String} {kept : Nat} {lines : List Bytes}
  {groups : List (List Bytes)} {g : List Bytes} {f : LogFile}

theorem kept_empty (maxSize : Int) (base : String) (kept : Nat) : Kept maxSize base kept [] [] {} where
  names := ⟨fun _ => rfl, fun _ _ => rfl⟩
  file := ⟨rfl, rfl⟩
  length_le := Nat.zero_le _
  suffix := List.suffix_rfl
  size g hg := by cases hg

/-- A file holds one of the groups. -/
theorem Kept.exists_group (h : Kept maxSize base kept lines groups f) {name : String} {data : Bytes}
    (hdata : f.dir name = some data) :
    ∃ i g, name = logFileName base i ∧ groups[i]? = some g ∧ data = g.flatten := by
  obtain ⟨i, hi⟩ : ∃ i, name = logFileName base i := by
    by_contra hno
    push Not at hno
    rw [h.names.only name hno] at hdata
    cases hdata
  have hat := h.names.at_name i
  rw [← hi, hdata, List.getElem?_map] at hat
  obtain ⟨g, hg, hflatten⟩ := Option.map_eq_some_iff.mp hat.symm
  exact ⟨i, g, hi, hg, hflatten.symm⟩

/-- The file is opened, and made if there is none. -/
theorem Kept.reopen (hmax : 0 < maxSize) (h : Kept maxSize base kept lines groups f) :
    ∃ groups', Kept maxSize base kept lines groups' (f.reopen base) ∧ (base ≠ "" → groups' ≠ []) := by
  unfold LogFile.reopen LogFile.close
  dsimp only
  by_cases hbase : base = ""
  · have hnil : groups = [] := by
      by_contra hne
      have hfile := h.file
      rw [if_neg hne] at hfile
      exact hfile.1 hbase
    subst hnil
    refine ⟨[], ?_, fun hne => absurd hbase hne⟩
    rw [if_pos hbase]
    exact { h with file := ⟨hbase, rfl⟩ }
  · rw [if_neg hbase]
    have hat := h.names.at_name 0
    change f.dir base = _ at hat
    cases groups with
    | nil =>
      rw [LogFile.openAppend_of_none (f := ⟨f.dir, base, none, f.written⟩) hat]
      refine ⟨[[]], ?_, fun _ => List.cons_ne_nil _ _⟩
      constructor
      case names => exact h.names.update_first (logFileName_injective base) []
      case file => exact ⟨hbase, rfl, rfl⟩
      case length_le => exact Nat.succ_le_succ (Nat.zero_le _)
      case suffix => exact List.nil_suffix
      case size =>
        intro g hg
        rw [List.mem_singleton.mp hg]
        exact .inl hmax.le
    | cons g groups =>
      rw [LogFile.openAppend_of_some (f := ⟨f.dir, base, none, f.written⟩) hat]
      refine ⟨g :: groups, ?_, fun _ => List.cons_ne_nil _ _⟩
      constructor
      case names => exact h.names
      case file => exact ⟨hbase, rfl, rfl⟩
      case length_le => exact h.length_le
      case suffix => exact h.suffix
      case size => exact h.size

/-- Bytes are added to the file. -/
theorem Kept.append (h : Kept maxSize base kept lines (g :: groups) f) {bytes : Bytes}
    (hsize : ((g ++ [bytes]).flatten.length : Int) ≤ maxSize ∨ g = []) :
    Kept maxSize base kept (lines ++ [bytes]) ((g ++ [bytes]) :: groups) (f.write base bytes) := by
  have hat := h.names.at_name 0
  change f.dir base = some g.flatten at hat
  unfold LogFile.write
  rw [hat]
  constructor
  case names =>
    have hflatten : (g ++ [bytes]).flatten = g.flatten ++ bytes := by simp
    have hnew := h.names.update_first (logFileName_injective base) (g ++ [bytes]).flatten
    rw [hflatten] at hnew
    rw [List.map_cons, hflatten]
    exact hnew
  case file => exact h.file
  case length_le => exact h.length_le
  case suffix =>
    have hsuffix := h.suffix
    obtain ⟨before, hbefore⟩ := hsuffix
    refine ⟨before, ?_⟩
    rw [← hbefore]
    simp
  case size =>
    intro g' hg'
    rcases List.mem_cons.mp hg' with rfl | hg'
    · rcases hsize with hsize | rfl
      · exact .inl hsize
      · exact .inr ⟨bytes, rfl⟩
    · exact h.size g' (List.mem_cons_of_mem _ hg')

variable {policy : RotationPolicy}

/-- A rotation leaves an empty file before the groups, of which the last may go. -/
theorem Kept.rotateFiles (hmax : 0 < maxSize) (hbackups : 1 ≤ policy.maxBackupFiles)
    (hkeeps : KeepsBackups base policy.maxBackupFiles.toNat kept)
    (h : Kept maxSize base kept lines groups f) (hgroups : groups ≠ []) :
    Kept maxSize base kept lines ([] :: groups.take kept) (f.rotateFiles policy) := by
  have hfile := h.file
  rw [if_neg hgroups] at hfile
  obtain ⟨hbase, hpath, _⟩ := hfile
  have hrotated := hkeeps f.dir (groups.map List.flatten) h.names (by simpa using h.length_le)
  have hnone : LogFile.rotateDir base policy.maxBackupFiles.toNat f.dir base = none :=
    (hrotated.at_name 0).trans gap_self
  unfold LogFile.rotateFiles
  rw [if_neg (hpath ▸ hbase), if_neg (by omega), hpath]
  dsimp only
  rw [LogFile.openAppend_of_none (show _ = none from hnone)]
  constructor
  case names =>
    have hnew := hrotated.update (logFileName_injective base) 0 (some [])
    rw [update_gap, ← List.map_take] at hnew
    exact hnew
  case file => exact ⟨hbase, rfl, rfl⟩
  case length_le =>
    rw [List.length_cons, List.length_take]
    omega
  case suffix =>
    rw [List.reverse_cons, List.flatten_append]
    refine List.IsSuffix.trans ?_ h.suffix
    obtain ⟨rest, hrest⟩ := List.take_prefix kept groups
    refine ⟨rest.reverse.flatten, ?_⟩
    conv_rhs => rw [← hrest]
    simp
  case size =>
    intro g hg
    rcases List.mem_cons.mp hg with rfl | hg
    · exact .inl hmax.le
    · exact h.size g (List.mem_of_mem_take hg)

variable (hmax : 0 < policy.maxFileSizeBytes) (hbackups : 1 ≤ policy.maxBackupFiles)
  (hkeeps : KeepsBackups base policy.maxBackupFiles.toNat kept)

include hmax hbackups hkeeps

/-- Before a write, the first group has room for it or is empty. -/
theorem Kept.rotateIfNeeded (h : Kept policy.maxFileSizeBytes base kept lines (g :: groups) f)
    (bytes : Bytes) :
    ∃ g' groups', Kept policy.maxFileSizeBytes base kept lines (g' :: groups')
        (f.rotateIfNeeded policy bytes.length) ∧
      (((g' ++ [bytes]).flatten.length : Int) ≤ policy.maxFileSizeBytes ∨ g' = []) := by
  obtain ⟨_, _, hname⟩ : base ≠ "" ∧ f.path = base ∧ f.file = some base := h.file
  have hat : f.dir base = some g.flatten := h.names.at_name 0
  unfold LogFile.rotateIfNeeded
  rw [if_neg (by omega), hname]
  dsimp only
  rw [hat, Option.getD_some]
  split_ifs with hfits
  · refine ⟨g, groups, h, .inl ?_⟩
    rw [List.flatten_append, List.length_append]
    simpa using hfits
  · exact ⟨[], _, h.rotateFiles hmax hbackups hkeeps (List.cons_ne_nil _ _), .inr rfl⟩

theorem Kept.writeTextLine (h : Kept policy.maxFileSizeBytes base kept lines (g :: groups) f)
    (line : String) :
    ∃ groups', Kept policy.maxFileSizeBytes base kept (lines ++ [LogFile.lineBytes line]) groups'
      (f.writeTextLine policy line) := by
  obtain ⟨hbase, hpath, hname⟩ : base ≠ "" ∧ f.path = base ∧ f.file = some base := h.file
  obtain ⟨g', groups', hkept, hsize⟩ :=
    h.rotateIfNeeded hmax hbackups hkeeps (LogFile.lineBytes line)
  obtain ⟨_, hpath', hname'⟩ : base ≠ "" ∧ (f.rotateIfNeeded policy _).path = base ∧
    (f.rotateIfNeeded policy _).file = some base := hkept.file
  unfold LogFile.writeTextLine
  rw [if_neg (by rw [hpath, hname]; simp [hbase])]
  dsimp only
  rw [hname']
  dsimp only
  rw [if_neg (hpath' ▸ hbase)]
  exact ⟨_, hkept.append hsize⟩

/-- A line for the path. Without a path nothing is written. -/
theorem Kept.writeLineTo (h : Kept policy.maxFileSizeBytes base kept lines groups f) (line : String) :
    ∃ groups', Kept policy.maxFileSizeBytes base kept (lines ++ [LogFile.lineBytes line]) groups'
      (f.writeLineTo policy base line) := by
  have hfile := h.file
  unfold LogFile.writeLineTo
  dsimp only
  split_ifs with hreopen
  · obtain ⟨groups', hkept, hne⟩ := h.reopen hmax
    obtain ⟨g, groups', rfl⟩ := List.exists_cons_of_ne_nil (hne hreopen.1)
    exact hkept.writeTextLine hmax hbackups hkeeps line
  · cases groups with
    | nil =>
      obtain ⟨hpath, _⟩ : f.path = "" ∧ f.file = none := hfile
      refine ⟨[], ?_⟩
      unfold LogFile.writeTextLine
      rw [if_pos (.inl hpath)]
      exact { h with suffix := List.nil_suffix }
    | cons g groups => exact h.writeTextLine hmax hbackups hkeeps line

/-- A command of the path. -/
theorem Kept.processOneCmd (h : Kept policy.maxFileSizeBytes base kept lines groups f) {cmd : AsyncCmd}
    (hcmd : cmd.OnPath base) :
    ∃ groups', Kept policy.maxFileSizeBytes base kept (lines ++ cmd.lines.map CmdLine.bytes) groups'
      (TorrentLink.processOneCmd policy f cmd) := by
  have hnone : ∀ {f' : LogFile} {groups' : List (List Bytes)},
      Kept policy.maxFileSizeBytes base kept lines groups' f' →
        ∃ groups', Kept policy.maxFileSizeBytes base kept (lines ++ []) groups' f' := by
    intro f' groups' hkept
    rw [List.append_nil]
    exact ⟨groups', hkept⟩
  cases cmd with
  | line c =>
    obtain rfl : c.targetPath = base := hcmd
    exact h.writeLineTo hmax hbackups hkeeps c.text
  | reopen path =>
    obtain rfl : path = base := hcmd
    obtain ⟨groups', hkept, _⟩ := h.reopen hmax
    exact hnone hkept
  | flushSync done => exact hnone h
  | barrier done => exact hnone h
  | shutdown => exact hnone h

theorem Kept.run (cmds : List AsyncCmd) (hcmds : ∀ cmd ∈ cmds, cmd.OnPath base)
    (h : Kept policy.maxFileSizeBytes base kept lines groups f) :
    ∃ groups', Kept policy.maxFileSizeBytes base kept (lines ++ (cmds.flatMap AsyncCmd.lines).map CmdLine.bytes) groups'
      (cmds.foldl (TorrentLink.processOneCmd policy) f) := by
  induction cmds generalizing f lines groups with
  | nil => exact ⟨groups, by simpa using h⟩
  | cons cmd cmds ih =>
    obtain ⟨groups', hkept⟩ := h.processOneCmd hmax hbackups hkeeps (hcmds cmd List.mem_cons_self)
    have hrest := ih (fun cmd hcmd => hcmds cmd (List.mem_cons_of_mem _ hcmd)) hkept
    rw [List.append_assoc, ← List.map_append] at hrest
    exact hrest

end Step

/-! ### All commands -/

/-- Backup `.n`, ..., backup `.1` and the file, one behind the other. -/
def keptBytes (dir : Dir String Bytes) (base : String) : Nat → Bytes
  | 0 => (dir base).getD []
  | i + 1 => (dir (logFileName base (i + 1))).getD [] ++ keptBytes dir base i

theorem keptBytes_eq {dir : Dir String Bytes} {base : String} {files : List Bytes}
    (h : Names (logFileName base) dir fun i => files[i]?) (n : Nat) :
    keptBytes dir base n = (files.take (n + 1)).reverse.flatten := by
  induction n with
  | zero =>
    have hat : dir base = files[0]? := h.at_name 0
    rw [keptBytes, hat]
    cases files with
    | nil => rfl
    | cons file files => simp
  | succ n ih =>
    have htake : files.take (n + 1 + 1) = files.take (n + 1) ++ files[n + 1]?.toList :=
      List.take_add_one
    rw [keptBytes, ih, h.at_name, htake, List.reverse_append, List.flatten_append]
    cases files[n + 1]? with
    | none => rfl
    | some file => simp

/-- With a policy that rotates, and commands for one path on an empty directory: the backups and the file
are the end of all lines written, no file is too long unless it is one line, and there is no backup beyond
the last. -/
theorem rotation_keeps_last_lines {policy : RotationPolicy} (hmax : 0 < policy.maxFileSizeBytes)
    (hbackups : 1 ≤ policy.maxBackupFiles) (base : String) (cmds : List AsyncCmd)
    (hcmds : ∀ cmd ∈ cmds, cmd.OnPath base) :
    let f := cmds.foldl (processOneCmd policy) {}
    let lines := (cmds.flatMap AsyncCmd.lines).map CmdLine.bytes
    keptBytes f.dir base policy.maxBackupFiles.toNat <:+ lines.flatten ∧
      (∀ name data, f.dir name = some data →
        (data.length : Int) ≤ policy.maxFileSizeBytes ∨ data ∈ lines) ∧
      ∀ name, f.dir name ≠ none → ∃ i ≤ policy.maxBackupFiles.toNat, name = logFileName base i := by
  intro f lines
  obtain ⟨kept, hkept, hkeeps⟩ := exists_kept base (show 1 ≤ policy.maxBackupFiles.toNat by omega)
  obtain ⟨groups, h⟩ := (kept_empty policy.maxFileSizeBytes base kept).run hmax hbackups hkeeps cmds hcmds
  rw [List.nil_append] at h
  have hlength : (groups.map List.flatten).length ≤ policy.maxBackupFiles.toNat + 1 := by
    rw [List.length_map]
    exact h.length_le.trans (Nat.succ_le_succ hkept)
  refine ⟨?_, ?_, ?_⟩
  · rw [keptBytes_eq h.names, List.take_of_length_le hlength, ← List.map_reverse,
      ← List.flatten_flatten]
    obtain ⟨before, hbefore⟩ := h.suffix
    exact ⟨before.flatten, by rw [← List.flatten_append, hbefore]⟩
  · intro name data hdata
    obtain ⟨i, g, _, hg, rfl⟩ := h.exists_group hdata
    have hmem := List.mem_of_getElem? hg
    rcases h.size g hmem with hsize | ⟨line, rfl⟩
    · exact .inl hsize
    · refine .inr (h.suffix.mem ?_)
      rw [List.flatten_singleton]
      exact List.mem_flatten.mpr ⟨[line], List.mem_reverse.mpr hmem, List.mem_singleton_self line⟩
  · intro name hne
    obtain ⟨data, hdata⟩ := Option.ne_none_iff_exists'.mp hne
    obtain ⟨i, g, hi, hg, _⟩ := h.exists_group hdata
    refine ⟨i, ?_, hi⟩
    have hlt := (List.getElem?_eq_some_iff.mp hg).1
    rw [List.length_map] at hlength
    omega

/-- Files of three bytes, and a line that is longer. -/
theorem rotation_keeps_last_lines_three :
    keptBytes
        ([AsyncCmd.reopen "l", .line ⟨0, "ab", "l", false⟩, .line ⟨1, "c", "l", false⟩, .flushSync 0,
          .line ⟨2, "defg", "l", false⟩, .line ⟨3, "h", "l", true⟩].foldl (processOneCmd ⟨3, 2⟩) {}).dir "l" 2 <:+
      [97, 98, 10, 99, 10, 100, 101, 102, 103, 10, 104, 10] :=
  (rotation_keeps_last_lines (show 0 < (⟨3, 2⟩ : RotationPolicy).maxFileSizeBytes by decide) (by decide)
    "l" _ (by simp [AsyncCmd.OnPath])).1

end TorrentLink
