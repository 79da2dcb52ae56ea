import TorrentLink.Core.LogFile
import TorrentLink.Core.LogStore
import TorrentLink.Lib.Overflow
import TorrentLink.Lib.Runs

/-!
# The queue of the logger

Log calls put their lines into a queue of commands, and the writer thread takes them from there to the file.
A queue of `kMaxAsyncCmds` commands takes no line: then it is counted as dropped, and a call of level error
or above writes its line itself. Every step of a call or of the writer that holds a lock is one step here, so
a call may write its line at any time after it was refused.

The lines behave as in a queue that overflows (`Keeps.balanced`), and each that reaches the file is one write
(`Keeps.log_written`). So after the calls have returned and a last flush has, the count of dropped commands
is that of the lines not written and of those that the calls wrote themselves (`flushed_lines`).
-/

namespace TorrentLink

open Lib

/-- `kMaxAsyncCmds` -/
def kMaxAsyncCmds : Nat := 8192

def LogLevel.toNat : LogLevel → Nat
  | .debug => 0
  | .info => 1
  | .warning => 2
  | .error => 3
  | .fatal => 4

/-- The settings that do not change. -/
structure LoggerConfig where
  fileOutputEnabled : Bool := true
  /-- `datedLogPath` of the path configured. -/
  path : String
  policy : RotationPolicy := {}

structure Logger where
  cmds : List AsyncCmd := []
  droppedAsyncCmds : UInt64 := 0
  level : LogLevel := .info
  log : LogFile := {}
  /-- The command that the writer took. -/
  current : Option AsyncCmd := none
  /-- The lines of the calls that will write them themselves. -/
  fallback : List CmdLine := []
  /-- The promises made and kept by flushes. -/
  flushes : Nat := 0
  done : List Nat := []
  /-- The lines for the file so far, and whether the queue took them. -/
  offers : List (CmdLine × Bool) := []
  /-- The lines that were written, by the writer or by their calls. -/
  written : List CmdLine := []

namespace Logger

def enqueueCmd (s : Logger) (cmd : AsyncCmd) : Logger := { s with cmds := s.cmds ++ [cmd] }

def tryEnqueueLineToFile (s : Logger) (line : CmdLine) : Bool × Logger :=
  if s.cmds.length ≥ kMaxAsyncCmds then
    (false, { s with droppedAsyncCmds := s.droppedAsyncCmds + 1 })
  else (true, s.enqueueCmd (.line line))

variable (config : LoggerConfig)

/-- `maybeEnqueueLineToFile` of a line that `formatLine` gives, up to the fallback. -/
def maybeEnqueueLineToFile (s : Logger) (level : LogLevel) (text : String) : Logger :=
  if !config.fileOutputEnabled then s
  else if config.path = "" then s
  else
    let flush : Bool := LogLevel.error.toNat ≤ level.toNat
    let line : CmdLine := ⟨s.offers.length, text, config.path, flush⟩
    let (queued, s) := s.tryEnqueueLineToFile line
    let s := { s with offers := s.offers ++ [(line, queued)] }
    if !queued && flush then { s with fallback := s.fallback ++ [line] } else s

/-- `log`, as to the file. -/
def logCall (s : Logger) (level : LogLevel) (text : String) : Logger :=
  if level.toNat < s.level.toNat then s else s.maybeEnqueueLineToFile config level text

/-- The fallback of a call. -/
def writeFallback (s : Logger) (i : Nat) : Logger :=
  match s.fallback[i]? with
  | none => s
  | some line =>
    { s with
      log := s.log.writeLineTo config.policy line.targetPath line.text
      fallback := s.fallback.eraseIdx i
      written := s.written ++ [line] }

/-- `writerLoop` takes a command. -/
def takeCmd (s : Logger) : Logger :=
  match s.current, s.cmds with
  | none, cmd :: cmds => { s with current := some cmd, cmds := cmds }
  | _, _ => s

/-- The promise that a command keeps. -/
def promises : AsyncCmd → List Nat
  | .flushSync p => [p]
  | .barrier p => [p]
  | _ => []

/-- `writerLoop` processes it. -/
def processCurrent (s : Logger) : Logger :=
  match s.current with
  | none => s
  | some cmd =>
    { s with
      log := processOneCmd config.policy s.log cmd
      current := none
      done := s.done ++ promises cmd
      written := s.written ++ cmd.lines }

/-- `flush`, up to the wait. -/
def flush (s : Logger) : Logger :=
  { s.enqueueCmd (.flushSync s.flushes) with flushes := s.flushes + 1 }

/-- After `setLogFilePath`. -/
def start : Logger := { cmds := [.reopen config.path] }

end Logger

inductive LoggerOp
  | log (level : LogLevel) (text : String)
  | setLogLevel (level : LogLevel)
  | reopen
  | flush
  | writeFallback (i : Nat)
  | takeCmd
  | processCurrent
  deriving DecidableEq, Repr

def loggerStep (config : LoggerConfig) (s : Logger) : LoggerOp → Logger
  | .log level text => s.logCall config level text
  | .setLogLevel level => { s with level := level }
  | .reopen => s.enqueueCmd (.reopen config.path)
  | .flush => s.flush
  | .writeFallback i => s.writeFallback config i
  | .takeCmd => s.takeCmd
  | .processCurrent => s.processCurrent config

/-- No new call. -/
def LoggerOp.Goes : LoggerOp → Prop
  | .writeFallback _ | .takeCmd | .processCurrent => True
  | _ => False

theorem AsyncCmd.lines_cases (cmd : AsyncCmd) : cmd.lines = [] ∨ ∃ line, cmd.lines = [line] := by
  cases cmd with
  | line c => exact .inr ⟨c, rfl⟩
  | reopen path => exact .inl rfl
  | flushSync p => exact .inl rfl
  | barrier p => exact .inl rfl
  | shutdown => exact .inl rfl

/-! ### What a log call does -/

namespace Logger

/-- The queue takes a line. -/
def accepted (s : Logger) (line : CmdLine) : Logger :=
  { s.enqueueCmd (.line line) with offers := s.offers ++ [(line, true)] }

/-- It refuses one. -/
def refused (s : Logger) (line : CmdLine) : Logger :=
  { s with
    droppedAsyncCmds := s.droppedAsyncCmds + 1
    offers := s.offers ++ [(line, false)]
    fallback := if line.flushDisk then s.fallback ++ [line] else s.fallback }

/-- The line of a log call. -/
def lineOf (config : LoggerConfig) (s : Logger) (level : LogLevel) (text : String) : CmdLine :=
  ⟨s.offers.length, text, config.path, LogLevel.error.toNat ≤ level.toNat⟩

theorem logCall_cases (config : LoggerConfig) (s : Logger) (level : LogLevel) (text : String) :
    (level.toNat < s.level.toNat ∨ config.fileOutputEnabled = false ∨ config.path = "") ∧
        s.logCall config level text = s ∨
      config.path ≠ "" ∧ s.cmds.length < kMaxAsyncCmds ∧
        s.logCall config level text = s.accepted (lineOf config s level text) ∨
      config.path ≠ "" ∧ kMaxAsyncCmds ≤ s.cmds.length ∧
        s.logCall config level text = s.refused (lineOf config s level text) := by
  unfold logCall
  by_cases hlevel : level.toNat < s.level.toNat
  · exact .inl ⟨.inl hlevel, if_pos hlevel⟩
  · rw [if_neg hlevel]
    unfold maybeEnqueueLineToFile
    by_cases houtput : config.fileOutputEnabled = true
    · rw [houtput, if_neg (by decide)]
      by_cases hbase : config.path = ""
      · exact .inl ⟨.inr (.inr hbase), if_pos hbase⟩
      · rw [if_neg hbase]
        unfold tryEnqueueLineToFile
        dsimp only
        by_cases hfull : s.cmds.length ≥ kMaxAsyncCmds
        · refine .inr (.inr ⟨hbase, hfull, ?_⟩)
          rw [if_pos hfull]
          by_cases hflush : LogLevel.error.toNat ≤ level.toNat
          · simp [refused, lineOf, hflush]
          · simp [refused, lineOf, hflush]
        · refine .inr (.inl ⟨hbase, by omega, ?_⟩)
          rw [if_neg hfull]
          rfl
    · exact .inl ⟨.inr (.inl (by simpa using houtput)), if_pos (by simpa using houtput)⟩

end Logger

/-! ### A line is one write -/

namespace LogFile

/-- The file, if it is open, is that of the path. -/
def On (base : String) (f : LogFile) : Prop := f.path = "" ∨ f.path = base ∧ f.file = some base

variable {policy : RotationPolicy} {base : String} {f : LogFile}

theorem reopen_eq (hbase : base ≠ "") (f : LogFile) : (f.reopen base).path = base ∧
    (f.reopen base).file = some base ∧ (f.reopen base).written = f.written := by
  unfold LogFile.reopen
  rw [if_neg hbase]
  exact ⟨rfl, rfl, rfl⟩

theorem rotateIfNeeded_eq (policy : RotationPolicy) (hpath : f.path = base) (hfile : f.file = some base) (n : Nat) :
    (f.rotateIfNeeded policy n).path = base ∧ (f.rotateIfNeeded policy n).file = some base ∧
      (f.rotateIfNeeded policy n).written = f.written := by
  unfold rotateIfNeeded rotateFiles
  rw [hfile]
  dsimp only
  split_ifs
  · exact ⟨hpath, hfile, rfl⟩
  · exact ⟨hpath, hfile, rfl⟩
  · exact ⟨hpath, hfile, rfl⟩
  · exact ⟨hpath, hfile, rfl⟩
  · exact ⟨hpath, congrArg some hpath, rfl⟩

theorem writeTextLine_eq (hbase : base ≠ "") (hpath : f.path = base) (hfile : f.file = some base)
    (line : String) : (f.writeTextLine policy line).On base ∧
      (f.writeTextLine policy line).written = f.written ++ [lineBytes line] := by
  obtain ⟨hpath', hfile', hwritten⟩ := rotateIfNeeded_eq policy hpath hfile _
  unfold writeTextLine
  rw [if_neg (by rw [hpath, hfile]; simp [hbase])]
  dsimp only
  rw [hfile']
  dsimp only
  rw [if_neg (hpath' ▸ hbase)]
  exact ⟨.inr ⟨hpath', hfile'⟩, congrArg (· ++ [lineBytes line]) hwritten⟩

theorem writeLineTo_eq (policy : RotationPolicy) (hbase : base ≠ "") (h : f.On base) (line : String) :
    (f.writeLineTo policy base line).On base ∧
      (f.writeLineTo policy base line).written = f.written ++ [lineBytes line] := by
  unfold writeLineTo
  dsimp only
  split_ifs with hreopen
  · obtain ⟨hpath, hfile, hwritten⟩ := reopen_eq hbase f
    rw [← hwritten]
    exact writeTextLine_eq hbase hpath hfile line
  · rcases h with hpath | ⟨hpath, hfile⟩
    · exact absurd ⟨hbase, hpath ▸ hbase⟩ hreopen
    · exact writeTextLine_eq hbase hpath hfile line

/-- A command writes its line. -/
theorem processOneCmd_eq (policy : RotationPolicy) {cmd : AsyncCmd} (hcmd : cmd.OnPath base) (h : f.On base)
    (hbase : cmd.lines ≠ [] → base ≠ "") : (processOneCmd policy f cmd).On base ∧
      (processOneCmd policy f cmd).written = f.written ++ cmd.lines.map CmdLine.bytes := by
  cases cmd with
  | line c =>
    obtain rfl : c.targetPath = base := hcmd
    exact writeLineTo_eq policy (hbase (List.cons_ne_nil _ _)) h c.text
  | reopen path =>
    obtain rfl : path = base := hcmd
    by_cases hpath : path = ""
    · have hclosed : f.reopen path = { f.close with path := path } := if_pos hpath
      show (f.reopen path).On path ∧ (f.reopen path).written = f.written ++ []
      rw [hclosed, List.append_nil]
      exact ⟨.inl hpath, rfl⟩
    · obtain ⟨hopen, hfile, hwritten⟩ := reopen_eq hpath f
      exact ⟨.inr ⟨hopen, hfile⟩, hwritten.trans (List.append_nil _).symm⟩
  | flushSync p => exact ⟨h, (List.append_nil _).symm⟩
  | barrier p => exact ⟨h, (List.append_nil _).symm⟩
  | shutdown => exact ⟨h, (List.append_nil _).symm⟩

end LogFile

/-! ### What every step keeps -/

namespace Logger

/-- The commands not yet processed, in their order. -/
def pending (s : Logger) : List AsyncCmd := s.current.toList ++ s.cmds

/-- The lines as items of a queue that overflows. -/
def overflow (s : Logger) : Overflow CmdLine :=
  { queued := s.pending.flatMap AsyncCmd.lines
    waiting := s.fallback
    delivered := s.written
    offers := s.offers }

/-- The lines for the file so far. -/
def lines (s : Logger) : List CmdLine := s.offers.map Prod.fst

/-- Every command and every waiting line is for the path, and there is none but for a path. -/
structure OnPath (base : String) (s : Logger) : Prop where
  log : s.log.On base
  cmd : ∀ cmd ∈ s.pending, cmd.OnPath base
  line : ∀ line ∈ s.pending.flatMap AsyncCmd.lines ++ s.fallback, line.targetPath = base ∧ base ≠ ""

structure Keeps (config : LoggerConfig) (s : Logger) : Prop where
  onPath : s.OnPath config.path
  balanced : s.overflow.Balanced CmdLine.flushDisk
  dropped : s.droppedAsyncCmds = UInt64.ofNat (s.offers.countP fun p => !p.2)
  numbered : s.lines.map CmdLine.call = List.range s.offers.length
  log_written : s.log.written = s.written.map CmdLine.bytes

variable {config : LoggerConfig} {s : Logger}

theorem Keeps.nodup (h : s.Keeps config) : s.lines.Nodup :=
  List.Nodup.of_map CmdLine.call (h.numbered ▸ List.nodup_range)

theorem keeps_start (config : LoggerConfig) : (start config).Keeps config where
  onPath :=
    { log := .inl rfl
      cmd := by
        intro cmd hcmd
        rw [List.mem_singleton.mp (show cmd ∈ [AsyncCmd.reopen config.path] from hcmd)]
        rfl
      line := by intro line hline; cases hline }
  balanced := Overflow.balanced_empty
  dropped := rfl
  numbered := rfl
  log_written := rfl

theorem pending_enqueueCmd (s : Logger) (cmd : AsyncCmd) :
    (s.enqueueCmd cmd).pending = s.pending ++ [cmd] := (List.append_assoc _ _ _).symm

theorem queued_enqueueCmd (s : Logger) (cmd : AsyncCmd) :
    (s.enqueueCmd cmd).pending.flatMap AsyncCmd.lines =
      s.pending.flatMap AsyncCmd.lines ++ cmd.lines := by
  rw [pending_enqueueCmd, List.flatMap_append, List.flatMap_singleton]

/-- A command is queued. -/
theorem OnPath.enqueueCmd {base : String} (h : s.OnPath base) {cmd : AsyncCmd}
    (hpath : cmd.OnPath base) (hlines : ∀ line ∈ cmd.lines, line.targetPath = base ∧ base ≠ "") :
    (s.enqueueCmd cmd).OnPath base where
  log := h.log
  cmd := by
    intro c hc
    rw [pending_enqueueCmd] at hc
    rcases List.mem_append.mp hc with hc | hc
    · exact h.cmd c hc
    · rw [List.mem_singleton.mp hc]
      exact hpath
  line := by
    intro line hline
    rw [queued_enqueueCmd] at hline
    rcases List.mem_append.mp hline with hline | hline
    · rcases List.mem_append.mp hline with hline | hline
      · exact h.line line (List.mem_append_left _ hline)
      · exact hlines line hline
    · exact h.line line (List.mem_append_right _ hline)

/-- A command without a line. -/
theorem Keeps.enqueueCmd (h : s.Keeps config) {cmd : AsyncCmd} (hpath : cmd.OnPath config.path)
    (hlines : cmd.lines = []) : (s.enqueueCmd cmd).Keeps config where
  onPath := h.onPath.enqueueCmd hpath (by rw [hlines]; simp)
  balanced := by
    have hsame : (s.enqueueCmd cmd).overflow = s.overflow := by
      unfold overflow
      rw [queued_enqueueCmd, hlines, List.append_nil]
      rfl
    rw [hsame]
    exact h.balanced
  dropped := h.dropped
  numbered := h.numbered
  log_written := h.log_written

section Offer

variable {line : CmdLine} (hpath : line.targetPath = config.path) (hbase : config.path ≠ "")
  (hcall : line.call = s.offers.length)

include hcall in
theorem Keeps.numbered_offer (h : s.Keeps config) (taken : Bool) :
    ((s.offers ++ [(line, taken)]).map Prod.fst).map CmdLine.call =
      List.range (s.offers ++ [(line, taken)]).length := by
  rw [List.map_append, List.map_append, List.length_append, List.length_singleton, List.range_succ,
    ← h.numbered, ← hcall]
  rfl

include hpath hbase hcall

/-- A line that the queue takes. -/
theorem Keeps.accepted (h : s.Keeps config) : (s.accepted line).Keeps config where
  onPath := by
    have hqueued : (s.enqueueCmd (.line line)).OnPath config.path :=
      h.onPath.enqueueCmd hpath (by simp [AsyncCmd.lines, hpath, hbase])
    exact ⟨hqueued.log, hqueued.cmd, hqueued.line⟩
  balanced := by
    have haccept := h.balanced.accept line
    have hqueued := queued_enqueueCmd s (.line line)
    unfold overflow
    change Overflow.Balanced _ ⟨(s.enqueueCmd (.line line)).pending.flatMap _, _, _, _⟩
    rw [hqueued]
    exact haccept
  dropped := by
    show s.droppedAsyncCmds = UInt64.ofNat ((s.offers ++ [(line, true)]).countP _)
    rw [h.dropped, List.countP_append]
    rfl
  numbered := h.numbered_offer hcall true
  log_written := h.log_written

/-- A line that it refuses. -/
theorem Keeps.refused (h : s.Keeps config) : (s.refused line).Keeps config where
  onPath :=
    { log := h.onPath.log
      cmd := h.onPath.cmd
      line := by
        intro l hl
        rcases List.mem_append.mp hl with hl | hl
        · exact h.onPath.line l (List.mem_append_left _ hl)
        · change l ∈ if line.flushDisk then s.fallback ++ [line] else s.fallback at hl
          split_ifs at hl
          · rcases List.mem_append.mp hl with hl | hl
            · exact h.onPath.line l (List.mem_append_right _ hl)
            · rw [List.mem_singleton.mp hl]
              exact ⟨hpath, hbase⟩
          · exact h.onPath.line l (List.mem_append_right _ hl) }
  balanced := h.balanced.refuse line
  dropped := by
    show s.droppedAsyncCmds + 1 = UInt64.ofNat ((s.offers ++ [(line, false)]).countP _)
    rw [h.dropped, List.countP_append, UInt64.ofNat_add]
    rfl
  numbered := h.numbered_offer hcall false
  log_written := h.log_written

end Offer

theorem Keeps.logCall (h : s.Keeps config) (level : LogLevel) (text : String) :
    (s.logCall config level text).Keeps config := by
  rcases logCall_cases config s level text with ⟨_, hs⟩ | ⟨hbase, _, hs⟩ | ⟨hbase, _, hs⟩
  · rw [hs]
    exact h
  · rw [hs]
    exact h.accepted rfl hbase rfl
  · rw [hs]
    exact h.refused rfl hbase rfl

theorem Keeps.flush (h : s.Keeps config) : s.flush.Keeps config := by
  have hqueued : (s.enqueueCmd (.flushSync s.flushes)).Keeps config := h.enqueueCmd trivial rfl
  exact ⟨⟨hqueued.onPath.log, hqueued.onPath.cmd, hqueued.onPath.line⟩, hqueued.balanced,
    hqueued.dropped, hqueued.numbered, hqueued.log_written⟩

/-- A waiting call writes its line. -/
theorem Keeps.writeFallback (h : s.Keeps config) (i : Nat) :
    (s.writeFallback config i).Keeps config := by
  unfold Logger.writeFallback
  cases hi : s.fallback[i]? with
  | none => exact h
  | some line =>
    have hbalanced := h.balanced.deliverWaiting i
    unfold Overflow.deliverWaiting at hbalanced
    rw [show s.overflow.waiting[i]? = some line from hi] at hbalanced
    obtain ⟨hpath, hbase⟩ := h.onPath.line line (List.mem_append_right _ (List.mem_of_getElem? hi))
    have hwrite := LogFile.writeLineTo_eq config.policy hbase h.onPath.log line.text
    dsimp only
    rw [hpath]
    constructor
    case onPath =>
      refine ⟨hwrite.1, h.onPath.cmd, fun l hl => h.onPath.line l ?_⟩
      rcases List.mem_append.mp hl with hl | hl
      · exact List.mem_append_left _ hl
      · exact List.mem_append_right _ (List.mem_of_mem_eraseIdx hl)
    case balanced => exact hbalanced
    case dropped => exact h.dropped
    case numbered => exact h.numbered
    case log_written =>
      show (s.log.writeLineTo config.policy config.path line.text).written = _
      rw [hwrite.2, h.log_written, List.map_append]
      rfl

theorem takeCmd_cases (s : Logger) : s.takeCmd = s ∨
    ∃ cmd cmds, s.pending = cmd :: cmds ∧ s.current = none ∧
      s.takeCmd = { s with current := some cmd, cmds := cmds } := by
  unfold Logger.takeCmd pending
  cases hcurrent : s.current with
  | some cmd => exact .inl rfl
  | none =>
    cases hcmds : s.cmds with
    | nil => exact .inl rfl
    | cons cmd cmds => exact .inr ⟨cmd, cmds, rfl, rfl, rfl⟩

/-- The writer takes the first command. -/
theorem Keeps.takeCmd (h : s.Keeps config) : s.takeCmd.Keeps config := by
  rcases takeCmd_cases s with hs | ⟨cmd, cmds, hpending, _, hs⟩
  · rw [hs]
    exact h
  · rw [hs]
    have hsame : pending { s with current := some cmd, cmds := cmds } = s.pending := hpending.symm
    constructor
    case onPath =>
      refine ⟨h.onPath.log, ?_, ?_⟩
      · rw [hsame]
        exact h.onPath.cmd
      · rw [hsame]
        exact h.onPath.line
    case balanced =>
      unfold overflow
      rw [hsame]
      exact h.balanced
    case dropped => exact h.dropped
    case numbered => exact h.numbered
    case log_written => exact h.log_written

/-- The writer processes it. -/
theorem Keeps.processCurrent (h : s.Keeps config) : (s.processCurrent config).Keeps config := by
  unfold Logger.processCurrent
  cases hcurrent : s.current with
  | none => exact h
  | some cmd =>
    have hpending : s.pending = cmd :: s.cmds := by
      unfold pending
      rw [hcurrent]
      rfl
    have hqueued : s.pending.flatMap AsyncCmd.lines = cmd.lines ++ s.cmds.flatMap AsyncCmd.lines := by
      rw [hpending, List.flatMap_cons]
    have hline : ∀ line ∈ cmd.lines ++ s.cmds.flatMap AsyncCmd.lines ++ s.fallback,
        line.targetPath = config.path ∧ config.path ≠ "" := hqueued ▸ h.onPath.line
    have hwrite := LogFile.processOneCmd_eq config.policy
      (h.onPath.cmd cmd (hpending ▸ List.mem_cons_self)) h.onPath.log fun hne => by
        obtain ⟨line, hmem⟩ := List.exists_mem_of_ne_nil _ hne
        exact (hline line (List.mem_append_left _ (List.mem_append_left _ hmem))).2
    constructor
    case onPath =>
      refine ⟨hwrite.1, fun c hc => h.onPath.cmd c (hpending ▸ List.mem_cons_of_mem _ hc), ?_⟩
      intro line hmem
      refine hline line ?_
      rw [List.append_assoc]
      exact List.mem_append_right _ hmem
    case balanced =>
      have hbalanced := h.balanced
      unfold overflow at hbalanced
      rw [hqueued] at hbalanced
      show Overflow.Balanced _
        ⟨s.cmds.flatMap AsyncCmd.lines, s.fallback, s.written ++ cmd.lines, s.offers⟩
      rcases cmd.lines_cases with hnone | ⟨line, hone⟩
      · rw [hnone] at hbalanced ⊢
        rw [List.append_nil]
        exact hbalanced
      · rw [hone] at hbalanced ⊢
        exact hbalanced.deliver
    case dropped => exact h.dropped
    case numbered => exact h.numbered
    case log_written =>
      show (TorrentLink.processOneCmd config.policy s.log cmd).written = _
      rw [hwrite.2, h.log_written, List.map_append]

/-- Every step keeps it. -/
theorem Keeps.step (h : s.Keeps config) (op : LoggerOp) : (loggerStep config s op).Keeps config := by
  cases op with
  | log level text => exact h.logCall level text
  | setLogLevel level =>
    exact ⟨⟨h.onPath.log, h.onPath.cmd, h.onPath.line⟩, h.balanced, h.dropped, h.numbered, h.log_written⟩
  | reopen => exact h.enqueueCmd rfl rfl
  | flush => exact h.flush
  | writeFallback i => exact h.writeFallback i
  | takeCmd => exact h.takeCmd
  | processCurrent => exact h.processCurrent

/-- When every command is processed and every call has returned. -/
theorem Keeps.settled (h : s.Keeps config) (hpending : s.pending = []) (hfallback : s.fallback = []) :
    (∀ line ∈ s.lines, line.flushDisk = true → s.written.count line = 1) ∧
      (s.written.filter fun line => !line.flushDisk).Sublist s.lines ∧
      s.droppedAsyncCmds = UInt64.ofNat (s.lines.countP (fun line => line ∉ s.written) +
        s.offers.countP fun p => !p.2 && p.1.flushDisk) := by
  have hqueued : s.overflow.queued = [] := by
    show s.pending.flatMap AsyncCmd.lines = []
    rw [hpending]
    rfl
  obtain ⟨hflushed, hothers, hrefused⟩ := h.balanced.settled hqueued hfallback h.nodup
  rw [h.dropped]
  exact ⟨hflushed, hothers, congrArg UInt64.ofNat hrefused⟩

/-! ### The last flush -/

/-- The promises are numbered. -/
def Promised (s : Logger) : Prop := ∀ p ∈ s.pending.flatMap promises ++ s.done, p < s.flushes

/-- A promise is kept when all is processed, and else by the last command. -/
def Awaits (p : Nat) (s : Logger) : Prop :=
  p ∈ s.done ∧ s.pending = [] ∨
    p ∉ s.done ∧ ∃ before, s.pending = before ++ [.flushSync p] ∧ p ∉ before.flatMap promises

theorem writeFallback_pending (config : LoggerConfig) (s : Logger) (i : Nat) :
    (s.writeFallback config i).pending = s.pending ∧ (s.writeFallback config i).done = s.done ∧
      (s.writeFallback config i).flushes = s.flushes := by
  unfold Logger.writeFallback
  cases s.fallback[i]? with
  | none => exact ⟨rfl, rfl, rfl⟩
  | some line => exact ⟨rfl, rfl, rfl⟩

theorem takeCmd_pending (s : Logger) : s.takeCmd.pending = s.pending ∧ s.takeCmd.done = s.done ∧
    s.takeCmd.flushes = s.flushes := by
  rcases takeCmd_cases s with hs | ⟨cmd, cmds, hpending, _, hs⟩
  · rw [hs]
    exact ⟨rfl, rfl, rfl⟩
  · rw [hs]
    exact ⟨hpending.symm, rfl, rfl⟩

theorem processCurrent_pending (config : LoggerConfig) (s : Logger) : s.processCurrent config = s ∨
    ∃ cmd, s.pending = cmd :: s.cmds ∧ (s.processCurrent config).pending = s.cmds ∧
      (s.processCurrent config).done = s.done ++ promises cmd ∧
      (s.processCurrent config).flushes = s.flushes := by
  unfold Logger.processCurrent pending
  cases s.current with
  | none => exact .inl rfl
  | some cmd => exact .inr ⟨cmd, rfl, rfl, rfl, rfl⟩

theorem Promised.step (h : s.Promised) (config : LoggerConfig) (op : LoggerOp) :
    (loggerStep config s op).Promised := by
  unfold Promised at h ⊢
  have henqueue : ∀ cmd, promises cmd = [] → (s.enqueueCmd cmd).pending.flatMap promises =
      s.pending.flatMap promises := by
    intro cmd hcmd
    rw [pending_enqueueCmd, List.flatMap_append, List.flatMap_singleton, hcmd, List.append_nil]
  cases op with
  | log level text =>
    rcases logCall_cases config s level text with ⟨_, hs⟩ | ⟨_, _, hs⟩ | ⟨_, _, hs⟩
    · rw [loggerStep, hs]
      exact h
    · rw [loggerStep, hs]
      show ∀ p ∈ (s.enqueueCmd (.line _)).pending.flatMap promises ++ s.done, p < s.flushes
      rw [henqueue _ rfl]
      exact h
    · rw [loggerStep, hs]
      exact h
  | setLogLevel level => exact h
  | reopen =>
    show ∀ p ∈ (s.enqueueCmd (.reopen _)).pending.flatMap promises ++ s.done, p < s.flushes
    rw [henqueue _ rfl]
    exact h
  | flush =>
    show ∀ p ∈ (s.enqueueCmd (.flushSync s.flushes)).pending.flatMap promises ++ s.done, p < s.flushes + 1
    rw [pending_enqueueCmd, List.flatMap_append, List.flatMap_singleton]
    intro p hp
    rcases List.mem_append.mp hp with hp | hp
    · rcases List.mem_append.mp hp with hp | hp
      · exact Nat.lt_succ_of_lt (h p (List.mem_append_left _ hp))
      · rw [List.mem_singleton.mp hp]
        exact Nat.lt_succ_self _
    · exact Nat.lt_succ_of_lt (h p (List.mem_append_right _ hp))
  | writeFallback i =>
    obtain ⟨hpending, hdone, hflushes⟩ := writeFallback_pending config s i
    rw [loggerStep, hpending, hdone, hflushes]
    exact h
  | takeCmd =>
    obtain ⟨hpending, hdone, hflushes⟩ := takeCmd_pending s
    rw [loggerStep, hpending, hdone, hflushes]
    exact h
  | processCurrent =>
    rcases processCurrent_pending config s with hs | ⟨cmd, hpending, hrest, hdone, hflushes⟩
    · rw [loggerStep, hs]
      exact h
    · rw [loggerStep, hrest, hdone, hflushes]
      rw [hpending, List.flatMap_cons] at h
      intro p hp
      refine h p ?_
      simp only [List.mem_append] at hp ⊢
      tauto

/-- A flush is the last command. -/
theorem Promised.awaits_flush (h : s.Promised) : s.flush.Awaits s.flushes := by
  have hfresh : ∀ p ∈ s.pending.flatMap promises ++ s.done, p ≠ s.flushes := fun p hp => (h p hp).ne
  refine .inr ⟨fun hdone => hfresh _ (List.mem_append_right _ hdone) rfl, s.pending, ?_, ?_⟩
  · exact pending_enqueueCmd s _
  · exact fun hbefore => hfresh _ (List.mem_append_left _ hbefore) rfl

theorem Awaits.step {p : Nat} (h : s.Awaits p) (config : LoggerConfig) {op : LoggerOp} (hop : op.Goes) :
    (loggerStep config s op).Awaits p := by
  unfold Awaits at h ⊢
  cases op with
  | writeFallback i =>
    obtain ⟨hpending, hdone, _⟩ := writeFallback_pending config s i
    rw [loggerStep, hpending, hdone]
    exact h
  | takeCmd =>
    obtain ⟨hpending, hdone, _⟩ := takeCmd_pending s
    rw [loggerStep, hpending, hdone]
    exact h
  | processCurrent =>
    rcases processCurrent_pending config s with hs | ⟨cmd, hpending, hrest, hdone, _⟩
    · rw [loggerStep, hs]
      exact h
    · rw [loggerStep, hrest, hdone]
      rcases h with ⟨_, hnil⟩ | ⟨hopen, before, hbefore, hnot⟩
      · rw [hnil] at hpending
        cases hpending
      · rw [hpending] at hbefore
        cases before with
        | nil =>
          -- the flush itself
          obtain ⟨rfl, hcmds⟩ := List.cons.inj hbefore
          exact .inl ⟨List.mem_append_right _ (List.mem_singleton_self p), hcmds⟩
        | cons first before =>
          obtain ⟨rfl, hcmds⟩ := List.cons.inj hbefore
          rw [List.flatMap_cons, List.mem_append, not_or] at hnot
          exact .inr ⟨by simp [hopen, hnot.1], before, hcmds, hnot.2⟩
  | log level text => cases hop
  | setLogLevel level => cases hop
  | reopen => cases hop
  | flush => cases hop

end Logger

/-- After any calls, levels, reopenings and steps of the writer, a last flush: when it has returned, and
the calls as well, every line of level error or above was written once, the others in the order of their
calls or not at all, and the count of dropped commands is that of the lines not written and of those that
the calls wrote themselves. -/
theorem flushed_lines (config : LoggerConfig) (ops ops' : List LoggerOp)
    (hgoes : ∀ op ∈ ops', op.Goes) :
    let before := run (loggerStep config) (Logger.start config) ops
    let s := run (loggerStep config) before.flush ops'
    before.flushes ∈ s.done → s.fallback = [] →
      s.lines.Nodup ∧ s.log.written = s.written.map CmdLine.bytes ∧
        (∀ line ∈ s.lines, line.flushDisk = true → s.written.count line = 1) ∧
        (s.written.filter fun line => !line.flushDisk).Sublist s.lines ∧
        s.droppedAsyncCmds = UInt64.ofNat (s.lines.countP (fun line => line ∉ s.written) +
          s.offers.countP fun p => !p.2 && p.1.flushDisk) := by
  intro before s hdone hfallback
  have hbefore : before.Keeps config :=
    run_invariant (fun _ op h => h.step op) (Logger.keeps_start config) ops
  have hpromised : before.Promised :=
    run_invariant (fun _ op h => h.step config op) (by intro p hp; cases hp) ops
  have hkeeps : s.Keeps config := run_invariant (fun _ op h => h.step op) hbefore.flush ops'
  have hawaits : s.Awaits before.flushes :=
    (runOk_of_forall hgoes before.flush).invariant (fun _ _ h hop => h.step config hop)
      hpromised.awaits_flush
  rcases hawaits with ⟨_, hpending⟩ | ⟨hopen, _⟩
  · exact ⟨hkeeps.nodup, hkeeps.log_written, hkeeps.settled hpending hfallback⟩
  · exact absurd hdone hopen

/-- Two lines, one of level error. -/
theorem flushed_lines_two :
    let config : LoggerConfig := { path := "l" }
    let before := run (loggerStep config) (Logger.start config) [.log .info "a", .log .error "b"]
    let s := run (loggerStep config) before.flush
      [.takeCmd, .processCurrent, .takeCmd, .processCurrent, .takeCmd, .processCurrent, .takeCmd,
        .processCurrent]
    s.droppedAsyncCmds = UInt64.ofNat (s.lines.countP (fun line => line ∉ s.written) +
      s.offers.countP fun p => !p.2 && p.1.flushDisk) :=
  (flushed_lines { path := "l" } [.log .info "a", .log .error "b"]
    [.takeCmd, .processCurrent, .takeCmd, .processCurrent, .takeCmd, .processCurrent, .takeCmd,
      .processCurrent] (by simp [LoggerOp.Goes]) (by decide) (by decide)).2.2.2.2

/-! ### A full queue -/

namespace Logger

variable {config : LoggerConfig} {s : Logger}

variable (hpath : config.path ≠ "") (houtput : config.fileOutputEnabled = true)

include hpath houtput

theorem logCall_passes {level : LogLevel} (hlevel : s.level.toNat ≤ level.toNat) (text : String) :
    s.cmds.length < kMaxAsyncCmds ∧
        s.logCall config level text = s.accepted (lineOf config s level text) ∨
      kMaxAsyncCmds ≤ s.cmds.length ∧
        s.logCall config level text = s.refused (lineOf config s level text) := by
  rcases logCall_cases config s level text with ⟨hnot, _⟩ | ⟨_, hs⟩ | ⟨_, hs⟩
  · rcases hnot with hlow | hoff | hbase
    · exact absurd hlow (Nat.not_lt.mpr hlevel)
    · rw [houtput] at hoff
      cases hoff
    · exact absurd hbase hpath
  · exact .inl hs
  · exact .inr hs

/-- Calls fill the queue. -/
theorem fill (text : String) (n : Nat) (hlevel : s.level = .info)
    (hroom : s.cmds.length + n ≤ kMaxAsyncCmds) :
    let s' := run (loggerStep config) s (List.replicate n (.log .info text))
    s'.level = .info ∧ s'.cmds.length = s.cmds.length + n ∧ s'.current = s.current ∧
      s'.fallback = s.fallback ∧ s'.offers.countP (fun p => !p.2) = s.offers.countP fun p => !p.2 := by
  induction n generalizing s with
  | zero => exact ⟨hlevel, rfl, rfl, rfl, rfl⟩
  | succ n ih =>
    rcases logCall_passes hpath houtput (congrArg LogLevel.toNat hlevel).le text with ⟨_, hs⟩ | ⟨hfull, _⟩
    · have hlength : (s.accepted (lineOf config s .info text)).cmds.length = s.cmds.length + 1 :=
        List.length_append
      have haccepted : (s.accepted (lineOf config s .info text)).offers.countP (fun p => !p.2) =
          s.offers.countP fun p => !p.2 := List.countP_append
      obtain ⟨hlevel', hcmds, hcurrent, hfallback, hrefused⟩ :=
        ih (s := s.accepted (lineOf config s .info text)) hlevel (by omega)
      rw [List.replicate_succ, run_cons, loggerStep, hs]
      exact ⟨hlevel', by omega, hcurrent, hfallback, hrefused.trans haccepted⟩
    · omega

omit hpath houtput

/-- The steps of the writer for some commands. -/
def drainOps (n : Nat) : List LoggerOp := (List.replicate n [.takeCmd, .processCurrent]).flatten

/-- The writer processes all that is queued. -/
theorem drain (config : LoggerConfig) (cmds : List AsyncCmd) (hcurrent : s.current = none)
    (hcmds : s.cmds = cmds) :
    let s' := run (loggerStep config) s (drainOps cmds.length)
    s'.pending = [] ∧ s'.done = s.done ++ cmds.flatMap promises ∧ s'.fallback = s.fallback ∧
      s'.offers = s.offers := by
  induction cmds generalizing s with
  | nil =>
    refine ⟨?_, (List.append_nil _).symm, rfl, rfl⟩
    show s.current.toList ++ s.cmds = []
    rw [hcurrent, hcmds]
    rfl
  | cons cmd cmds ih =>
    have htake : s.takeCmd = { s with current := some cmd, cmds := cmds } := by
      unfold Logger.takeCmd
      rw [hcurrent, hcmds]
    have hops : drainOps (cmd :: cmds).length = [.takeCmd, .processCurrent] ++ drainOps cmds.length := rfl
    obtain ⟨hpending, hdone, hfallback, hoffers⟩ :=
      ih (s := (s.takeCmd).processCurrent config) (by rw [htake]; rfl) (by rw [htake]; rfl)
    rw [hops, run_append]
    refine ⟨hpending, hdone.trans ?_, hfallback.trans ?_, hoffers.trans ?_⟩
    · rw [htake, List.flatMap_cons, ← List.append_assoc]
      rfl
    · rw [htake]
      rfl
    · rw [htake]
      rfl

/-- An error that finds the queue full is written by its call. -/
theorem refused_writeFallback (config : LoggerConfig) {line : CmdLine} (hflush : line.flushDisk = true)
    (hfallback : s.fallback = []) : let s' := (s.refused line).writeFallback config 0
    s'.cmds = s.cmds ∧ s'.current = s.current ∧ s'.fallback = [] ∧
      s'.offers = s.offers ++ [(line, false)] := by
  have hwaiting : (s.refused line).fallback = [line] := by
    unfold refused
    rw [if_pos hflush, hfallback]
    rfl
  unfold Logger.writeFallback
  rw [hwaiting]
  exact ⟨rfl, rfl, rfl, rfl⟩

include hpath houtput in
/-- The queue is filled, an error logged, and all of it written. -/
theorem fill_and_drain (n : Nat) (hn : n + 1 = kMaxAsyncCmds) (m : Nat) (hm : m = n + 2) :
    let before := run (loggerStep config) (start config)
      (List.replicate n (.log .info "") ++ [.log .error "", .writeFallback 0])
    let s := run (loggerStep config) before.flush (drainOps m)
    before.flushes ∈ s.done ∧ s.fallback = [] ∧
      s.droppedAsyncCmds ≠ UInt64.ofNat (s.lines.countP fun line => line ∉ s.written) := by
  intro before s
  obtain ⟨hlevel, hlength, hcurrent, hfallback, hnone⟩ :=
    fill (s := start config) hpath houtput "" n rfl (by rw [← hn]; exact Nat.le_of_eq (Nat.add_comm 1 n))
  let full := run (loggerStep config) (start config) (List.replicate n (.log .info ""))
  have hfull : full.cmds.length = n + 1 := hlength.trans (Nat.add_comm 1 n)
  have hbefore : before = (full.logCall config .error "").writeFallback config 0 := run_append _ _ _ _
  have hrefused : full.logCall config .error "" = full.refused (lineOf config full .error "") := by
    have hpasses : full.level.toNat ≤ LogLevel.error.toNat := by
      rw [show full.level = .info from hlevel]
      decide
    rcases logCall_passes hpath houtput hpasses "" with ⟨hroom, _⟩ | ⟨_, hs⟩
    · omega
    · exact hs
  have hstate := refused_writeFallback config
    (show (lineOf config full .error "").flushDisk = true from rfl) hfallback
  rw [← hrefused, ← hbefore] at hstate
  obtain ⟨hcmds, hcurrent', hfallback', hoffers⟩ := hstate
  have hqueued : before.flush.cmds.length = m := by
    show (before.cmds ++ [_]).length = m
    rw [List.length_append, hcmds, hfull, hm]
    rfl
  have hdrained := drain (s := before.flush) config before.flush.cmds (hcurrent'.trans hcurrent) rfl
  rw [hqueued] at hdrained
  obtain ⟨hpending, hdone, hwaiting, hoffers'⟩ := hdrained
  have hkeeps : before.Keeps config := run_invariant (fun _ op h => h.step op) (keeps_start config) _
  have hdrain : s.Keeps config := run_invariant (fun _ op h => h.step op) hkeeps.flush _
  obtain ⟨_, _, hdropped⟩ := hdrain.settled hpending (hwaiting.trans hfallback')
  refine ⟨?_, hwaiting.trans hfallback', ?_⟩
  · rw [show s.done = _ from hdone]
    refine List.mem_append_right _ (List.mem_flatMap.mpr ⟨.flushSync before.flushes, ?_, ?_⟩)
    · exact List.mem_append_right _ (List.mem_singleton_self _)
    · exact List.mem_singleton_self _
  · have hall : s.offers = full.offers ++ [(lineOf config full .error "", false)] := hoffers'.trans hoffers
    have hone : s.offers.countP (fun p => !p.2 && p.1.flushDisk) = 1 := by
      have hfew : full.offers.countP (fun p => !p.2 && p.1.flushDisk) ≤ full.offers.countP fun p => !p.2 :=
        List.countP_mono_left fun p _ hp => (Bool.and_eq_true_iff.mp hp).1
      rw [show full.offers.countP _ = 0 from hnone] at hfew
      rw [hall, List.countP_append, Nat.le_zero.mp hfew]
      rfl
    rw [hdropped, hone]
    intro heq
    rw [UInt64.ofNat_add] at heq
    simp at heq

end Logger

/-- An error that finds the queue full is written by its call, and counted as dropped. -/
theorem fallback_counts_as_dropped :
    let config : LoggerConfig := { path := "l" }
    let before := run (loggerStep config) (Logger.start config)
      (List.replicate 8191 (.log .info "") ++ [.log .error "", .writeFallback 0])
    let s := run (loggerStep config) before.flush (Logger.drainOps 8193)
    before.flushes ∈ s.done ∧ s.fallback = [] ∧
      s.droppedAsyncCmds ≠ UInt64.ofNat (s.lines.countP fun line => line ∉ s.written) :=
  Logger.fill_and_drain (by decide) rfl 8191 rfl 8193 rfl

end TorrentLink
