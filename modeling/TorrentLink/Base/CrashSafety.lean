import TorrentLink.Base.Io
import TorrentLink.Lib.Runs

/-!
# Whole files under crashes

`writeWholeFileWithBackup` as the sequence of its operations on the three copies. A crash cuts the
sequence after any number of operations; the operation it cuts has no effect, unless it is a copy,
which may leave anything at its target. Removing a file and committing the new one are atomic.
-/

namespace TorrentLink

open Lib

/-- The file operations of `writeWholeFileWithBackup`. -/
inductive FileOp
  | removeBak2 | copyBakToBak2 | removeBak | copyMainToBak
  | commit (data : Bytes)
  deriving DecidableEq, Repr

def FileOp.apply (c : Copies) : FileOp → Copies
  | .removeBak2 => { c with bak2 := .absent }
  | .copyBakToBak2 => { c with bak2 := c.bak.copied }
  | .removeBak => { c with bak := .absent }
  | .copyMainToBak => { c with bak := c.main.copied }
  | .commit data => { c with main := .bytes data }

/-- The operation cut by a crash: a copy leaves `torn` at its target. -/
def FileOp.cut (c : Copies) (torn : FileState) : FileOp → Copies
  | .copyBakToBak2 => { c with bak2 := torn }
  | .copyMainToBak => { c with bak := torn }
  | .removeBak2 | .removeBak | .commit _ => c

/-- The operations of a call, in their order. What exists is asked before anything is changed. -/
def fileOps (c : Copies) (data : Bytes) : List FileOp :=
  (if c.main = .absent then []
    else (if c.bak = .absent then [] else [.removeBak2, .copyBakToBak2]) ++
      [.removeBak, .copyMainToBak]) ++ [.commit data]

def applyOps (c : Copies) (ops : List FileOp) : Copies := ops.foldl FileOp.apply c

/-- All operations together are the call. -/
theorem applyOps_fileOps (c : Copies) (data : Bytes) :
    applyOps c (fileOps c data) = (writeWholeFileWithBackup c data none).1 := by
  obtain ⟨main, bak, bak2⟩ := c
  unfold fileOps writeWholeFileWithBackup Copies.rotate
  dsimp only
  by_cases hmain : main = .absent
  · rw [if_pos hmain, if_pos hmain]
    rfl
  · rw [if_neg hmain, if_neg hmain]
    by_cases hbak : bak = .absent
    · rw [if_pos hbak, if_pos hbak]
      rfl
    · rw [if_neg hbak, if_neg hbak]
      rfl

/-! ### Calls that may be cut -/

/-- Where a crash cuts a call: after `done` operations, with what a copy under way leaves. -/
structure Crash where
  done : Nat
  torn : FileState

/-- Data that is not empty. -/
abbrev Payload := { data : Bytes // data ≠ [] }

/-- A call, and the crash that ends it, if there is one. -/
structure WriteCall where
  data : Payload
  crash : Option Crash := none

/-- The copies after a cut call. -/
def cutCall (c : Copies) (data : Bytes) (crash : Crash) : Copies :=
  let c' := applyOps c ((fileOps c data).take crash.done)
  match (fileOps c data)[crash.done]? with
  | some op => op.cut c' crash.torn
  | none => c'

def callStep (c : Copies) (call : WriteCall) : Copies :=
  match call.crash with
  | none => (writeWholeFileWithBackup c call.data.1 none).1
  | some crash => cutCall c call.data.1 crash

/-- The commit of the call took place. -/
def commits (c : Copies) (call : WriteCall) : Bool :=
  match call.crash with
  | none => true
  | some crash => (fileOps c call.data.1).length ≤ crash.done

/-- The copies, and the data of the last call whose commit took place. -/
def committedStep (s : Copies × Option Bytes) (call : WriteCall) : Copies × Option Bytes :=
  (callStep s.1 call, if commits s.1 call then some call.data.1 else s.2)

/-- A file with the data, or none. -/
def held : Option Bytes → FileState
  | some data => .bytes data
  | none => .absent

/-! ### The main file holds what was committed -/

theorem main_applyOps {c : Copies} {ops : List FileOp} (h : ∀ op ∈ ops, ∀ data, op ≠ .commit data) :
    (applyOps c ops).main = c.main := by
  induction ops generalizing c with
  | nil => rfl
  | cons op ops ih =>
    obtain ⟨hop, hops⟩ := List.forall_mem_cons.mp h
    have hmain : (op.apply c).main = c.main := by
      cases op with
      | commit data => exact absurd rfl (hop data)
      | _ => rfl
    exact (ih (c := op.apply c) hops).trans hmain

theorem main_cut (c : Copies) (torn : FileState) (op : FileOp) : (op.cut c torn).main = c.main := by
  cases op <;> rfl

/-- The operations before the commit. -/
theorem fileOps_eq (c : Copies) (data : Bytes) :
    ∃ rotation, fileOps c data = rotation ++ [.commit data] ∧
      (∀ op ∈ rotation, ∀ data', op ≠ .commit data') ∧ (c.main = .absent → rotation = []) := by
  refine ⟨_, rfl, ?_, fun hmain => if_pos hmain⟩
  split_ifs <;> simp

/-- A call that is cut before its commit does not touch the main file. -/
theorem main_cutCall {c : Copies} {data : Bytes} {crash : Crash}
    (h : crash.done < (fileOps c data).length) : (cutCall c data crash).main = c.main := by
  obtain ⟨rotation, hops, hrotation, -⟩ := fileOps_eq c data
  have htake : (fileOps c data).take crash.done = rotation.take crash.done := by
    rw [hops, List.length_append, List.length_singleton] at h
    rw [hops, List.take_append_of_le_length (by omega)]
  have hmain : (applyOps c ((fileOps c data).take crash.done)).main = c.main :=
    main_applyOps fun op hop => hrotation op (List.mem_of_mem_take (htake ▸ hop))
  unfold cutCall
  dsimp only
  split
  · exact (main_cut _ _ _).trans hmain
  · exact hmain

/-- A cut after all operations is none. -/
theorem cutCall_done {c : Copies} {data : Bytes} {crash : Crash}
    (h : (fileOps c data).length ≤ crash.done) :
    cutCall c data crash = (writeWholeFileWithBackup c data none).1 := by
  unfold cutCall
  rw [List.take_of_length_le h, List.getElem?_eq_none h]
  exact applyOps_fileOps c data

theorem main_write (c : Copies) (data : Bytes) :
    (writeWholeFileWithBackup c data none).1.main = .bytes data := rfl

/-- Before the first commit nothing is there at all; later the main file holds the last commit. -/
structure Intact (s : Copies × Option Bytes) : Prop where
  main : s.1.main = held s.2
  nonempty : ∀ data, s.2 = some data → data ≠ []
  fresh : s.2 = none → s.1 = {}

theorem intact_step (s : Copies × Option Bytes) (call : WriteCall) (h : Intact s) :
    Intact (committedStep s call) := by
  obtain ⟨c, last⟩ := s
  by_cases hcommit : commits c call = true
  · have hc : callStep c call = (writeWholeFileWithBackup c call.data.1 none).1 := by
      unfold commits at hcommit
      unfold callStep
      cases hcrash : call.crash with
      | none => rfl
      | some crash =>
        rw [hcrash] at hcommit
        exact cutCall_done (of_decide_eq_true hcommit)
    have hs : committedStep (c, last) call = (callStep c call, some call.data.1) := by
      unfold committedStep
      rw [if_pos hcommit]
    rw [hs, hc]
    refine ⟨main_write c call.data.1, fun data hdata => ?_, fun hnone => ?_⟩
    · exact Option.some.inj hdata ▸ call.data.2
    · cases hnone
  · have hs : committedStep (c, last) call = (callStep c call, last) := by
      unfold committedStep
      rw [if_neg hcommit]
    obtain ⟨crash, hcrash, hcut⟩ : ∃ crash, call.crash = some crash ∧
        crash.done < (fileOps c call.data.1).length := by
      unfold commits at hcommit
      cases hcrash : call.crash with
      | none => exact absurd (by rw [hcrash]) hcommit
      | some crash =>
        rw [hcrash] at hcommit
        exact ⟨crash, rfl, by simpa using hcommit⟩
    have hc : callStep c call = cutCall c call.data.1 crash := by
      unfold callStep
      rw [hcrash]
    rw [hs, hc]
    refine ⟨(main_cutCall hcut).trans h.main, h.nonempty, fun hnone => ?_⟩
    obtain rfl : c = {} := h.fresh hnone
    have hops : fileOps {} call.data.1 = [.commit call.data.1] := rfl
    rw [hops] at hcut
    obtain hdone : crash.done = 0 := by simpa using hcut
    unfold cutCall
    rw [hops, hdone]
    rfl

theorem intact_run (calls : List WriteCall) : Intact (run committedStep ({}, none) calls) :=
  run_invariant intact_step ⟨rfl, fun _ h => absurd h (by simp), fun _ => rfl⟩ calls

/-- What is read back. -/
theorem Intact.read {s : Copies × Option Bytes} (h : Intact s) (path : String) :
    (readWholeFileWithRecovery path s.1).data = s.2.getD [] ∧
      ((readWholeFileWithRecovery path s.1).error = none ↔ s.2.isSome = true) := by
  obtain ⟨c, last⟩ := s
  rw [readWholeFileWithRecovery_error, readWholeFileWithRecovery_data]
  cases last with
  | none =>
    obtain rfl : c = {} := h.fresh rfl
    exact ⟨rfl, by decide⟩
  | some data =>
    obtain ⟨b, rest, rfl⟩ := List.exists_cons_of_ne_nil (h.nonempty data rfl)
    have hmain : c.main = .bytes (b :: rest) := h.main
    unfold Copies.contents
    rw [hmain]
    exact ⟨rfl, iff_of_true (List.cons_ne_nil _ _) rfl⟩

/-! ### The backups -/

/-- The copies after the calls with these data, the last one first, none of them cut. -/
theorem write_generations (data : Bytes) (older : List Bytes) :
    (writeWholeFileWithBackup ⟨held older[0]?, held older[1]?, held older[2]?⟩ data none).1 =
      ⟨.bytes data, held older[0]?, held older[1]?⟩ := by
  rcases older with _ | ⟨a, _ | ⟨b, _ | ⟨c, rest⟩⟩⟩ <;> rfl

theorem run_generations (older : List Payload) :
    run callStep {} (older.reverse.map fun data => { data := data }) =
      ⟨held (older.map Subtype.val)[0]?, held (older.map Subtype.val)[1]?,
        held (older.map Subtype.val)[2]?⟩ := by
  induction older with
  | nil => rfl
  | cons data older ih =>
    rw [List.reverse_cons, List.map_append, run_append, ih]
    exact write_generations data.1 (older.map Subtype.val)

/-- How many of the copies hold one of these data. -/
def intactCopies (c : Copies) (data : List Bytes) : Nat :=
  [c.main, c.bak, c.bak2].countP fun f => decide (∃ d ∈ data, f = .bytes d)

theorem intactCopies_ge_two {f g h : FileState} {data : List Bytes}
    (hintact : (∃ d ∈ data, f = .bytes d) ∧ ((∃ d ∈ data, g = .bytes d) ∨ ∃ d ∈ data, h = .bytes d)) :
    2 ≤ intactCopies ⟨f, g, h⟩ data := by
  obtain ⟨hf, hg | hh⟩ := hintact
  · simp only [intactCopies, List.countP_cons, decide_eq_true hf, decide_eq_true hg, if_true]
    omega
  · simp only [intactCopies, List.countP_cons, decide_eq_true hf, decide_eq_true hh, if_true]
    omega

/-- At every point of a call after two that were not cut, two copies are intact. -/
theorem two_intact (c : Copies) (a b data : Bytes) (crash : Crash) :
    2 ≤ intactCopies (cutCall (writeWholeFileWithBackup
      (writeWholeFileWithBackup c a none).1 b none).1 data crash) [a, b, data] := by
  obtain ⟨bak2, hbak2⟩ : ∃ bak2, (writeWholeFileWithBackup
      (writeWholeFileWithBackup c a none).1 b none).1 = ⟨.bytes b, .bytes a, bak2⟩ := ⟨_, rfl⟩
  have hops : fileOps ⟨.bytes b, .bytes a, bak2⟩ data =
      [.removeBak2, .copyBakToBak2, .removeBak, .copyMainToBak, .commit data] := rfl
  have ha : ∃ d ∈ [a, b, data], FileState.bytes a = .bytes d := ⟨a, by simp⟩
  have hb : ∃ d ∈ [a, b, data], FileState.bytes b = .bytes d := ⟨b, by simp⟩
  have hdata : ∃ d ∈ [a, b, data], FileState.bytes data = .bytes d := ⟨data, by simp⟩
  rw [hbak2]
  unfold cutCall
  rw [hops]
  obtain ⟨done, torn⟩ := crash
  match done with
  -- until the old backup is copied, the main file and `.bak` are intact
  | 0 | 1 => exact intactCopies_ge_two ⟨hb, .inl ha⟩
  | 2 => exact intactCopies_ge_two ⟨hb, .inl ha⟩
  -- while `.bak` is replaced, `.bak2` holds its data
  | 3 | 4 => exact intactCopies_ge_two ⟨hb, .inr ha⟩
  | n + 5 =>
    rw [List.take_of_length_le (by simp)]
    exact intactCopies_ge_two ⟨hdata, .inl hb⟩

/-! ### The guarantee -/

/-- Calls that crashes may cut anywhere: the reader returns what the last commit wrote. Calls that are
not cut: the copies hold the last three data. And after two such calls every point of the next one
leaves two copies with its data or theirs. -/
theorem writes_survive_crashes (path : String) :
    (∀ calls : List WriteCall,
      let s := run committedStep ({}, none) calls
      (readWholeFileWithRecovery path s.1).data = s.2.getD [] ∧
        ((readWholeFileWithRecovery path s.1).error = none ↔ s.2.isSome = true)) ∧
    (∀ older : List Payload,
      run callStep {} (older.reverse.map fun data => { data := data }) =
        ⟨held (older.map Subtype.val)[0]?, held (older.map Subtype.val)[1]?,
          held (older.map Subtype.val)[2]?⟩) ∧
    (∀ (earlier : List WriteCall) (a b data : Payload) (crash : Crash),
      2 ≤ intactCopies
        (run callStep {} (earlier ++ [{ data := a }, { data := b }, { data := data, crash := crash }]))
        [a.1, b.1, data.1]) := by
  refine ⟨fun calls => (intact_run calls).read path, run_generations, ?_⟩
  intro earlier a b data crash
  rw [run_append]
  exact two_intact _ a.1 b.1 data.1 crash

end TorrentLink
