import TorrentLink.Base.Types

/-!
# Whole files and their backups

`base/io`: a file is written atomically, after its previous contents were rotated into `.bak` and
`.bak2`, and read back from the first of the three copies that gives any bytes. The reader knows
nothing of what the bytes mean.
-/

namespace TorrentLink

/-- `QByteArray` -/
abbrev Bytes := List UInt8

/-- `QFileDevice::FileError` -/
inductive FileError
  | noError | readError | writeError | resourceError | openError | permissionsError
  | other (code : Nat)
  deriving DecidableEq, Repr

def FileError.toNat : FileError → Nat
  | .noError => 0
  | .readError => 1
  | .writeError => 2
  | .resourceError => 4
  | .openError => 5
  | .permissionsError => 13
  | .other code => code

/-- What a path holds: nothing, a file whose opening or reading fails, or bytes. -/
inductive FileState
  | absent
  | cannotOpen (fe : FileError) (errorString : String)
  | cannotRead (fe : FileError) (errorString : String)
  | bytes (data : Bytes)
  deriving DecidableEq, Repr

def makeIoDetail (path : String) (fe : FileError) : String :=
  "path=" ++ path ++ ";qt_file_error=" ++ toString fe.toNat

def mapFileErrorToCode (fe : FileError) (defaultCode : ErrorCode) : ErrorCode :=
  match fe with
  | .readError => .fileReadFailed
  | .writeError => .fileWriteFailed
  | .resourceError => .diskFull
  | .permissionsError => .pathPermissionDenied
  | _ => defaultCode

/-- `errorForFile`: no error when the device reports none. -/
def errorForFile (path : String) (fe : FileError) (errorString : String) (defaultCode : ErrorCode)
    (context : String) : Option Error :=
  if fe = .noError then none
  else some ⟨mapFileErrorToCode fe defaultCode, context ++ ": " ++ errorString,
    makeIoDetail path fe⟩

/-- `readWholeFile`: the data, empty on failure, and the error. -/
def readWholeFile (path : String) : FileState → Bytes × Option Error
  | .absent => ([], some ⟨.fileNotFound, "File does not exist", makeIoDetail path .openError⟩)
  | .cannotOpen fe errorString =>
    ([], errorForFile path fe errorString .fileReadFailed "Cannot open for read")
  | .cannotRead fe errorString =>
    if fe = .noError then ([], none)
    else ([], errorForFile path fe errorString .fileReadFailed "Read failed")
  | .bytes data => (data, none)

/-! ### The three copies -/

/-- A file with its `.bak` and its `.bak2`. -/
structure Copies where
  main : FileState := .absent
  bak : FileState := .absent
  bak2 : FileState := .absent
  deriving DecidableEq, Repr

/-- The candidates of `readWholeFileWithRecovery`, in order, with their paths. -/
def Copies.candidates (path : String) (c : Copies) : List (String × FileState) :=
  [(path, c.main), (path ++ ".bak", c.bak), (path ++ ".bak2", c.bak2)]

structure RecoveryReadResult where
  data : Bytes := []
  actualPath : String := ""
  error : Option Error := none
  deriving DecidableEq, Repr

/-- The loop of `readWholeFileWithRecovery`. -/
def firstReadable : List (String × FileState) → Option RecoveryReadResult
  | [] => none
  | (candidate, f) :: rest =>
    let (data, err) := readWholeFile candidate f
    if err = none ∧ data ≠ [] then some ⟨data, candidate, none⟩ else firstReadable rest

def readWholeFileWithRecovery (path : String) (c : Copies) : RecoveryReadResult :=
  match firstReadable (c.candidates path) with
  | some result => result
  | none =>
    { error := some ⟨.fileNotFound, "No readable copy found (primary + backups)",
        "path=" ++ path⟩ }

/-- `QFile::copy` onto a path that holds nothing. -/
def FileState.copied : FileState → FileState
  | .bytes data => .bytes data
  | _ => .absent

/-- The rotation of `writeWholeFileWithBackup`. -/
def Copies.rotate (c : Copies) : Copies :=
  if c.main = .absent then c
  else
    { main := c.main
      bak := c.main.copied
      bak2 := if c.bak = .absent then c.bak2 else c.bak.copied }

/-- `writeWholeFileWithBackup`. `failure` is what the atomic write of the main file reports; the
backups are rotated before it. -/
def writeWholeFileWithBackup (c : Copies) (data : Bytes) (failure : Option Error) :
    Copies × Option Error :=
  match failure with
  | some e => (c.rotate, some e)
  | none => ({ c.rotate with main := .bytes data }, none)

/-! ### What the reader picks -/

/-- The bytes of a file that is there, can be read and is not empty. -/
def FileState.content : FileState → Option Bytes
  | .bytes [] => none
  | .bytes data => some data
  | _ => none

/-- The three copies' contents, in order. -/
def Copies.contents (c : Copies) : List Bytes :=
  [c.main, c.bak, c.bak2].filterMap FileState.content

theorem readWholeFile_content (path : String) (f : FileState) (data : Bytes) :
    (readWholeFile path f).2 = none ∧ (readWholeFile path f).1 = data ∧ data ≠ [] ↔
      f.content = some data := by
  cases f with
  | absent => simp [readWholeFile, FileState.content]
  | cannotOpen fe e => simp +contextual [readWholeFile, FileState.content]
  | cannotRead fe e =>
    by_cases hfe : fe = .noError <;> simp +contextual [readWholeFile, FileState.content, hfe]
  | bytes d =>
    cases d with
    | nil => simp +contextual [readWholeFile, FileState.content]
    | cons b d =>
      simp only [readWholeFile, FileState.content, true_and, Option.some.injEq,
        and_iff_left_iff_imp]
      rintro rfl
      simp

theorem firstReadable_cons (path : String) (f : FileState) (cs : List (String × FileState)) :
    firstReadable ((path, f) :: cs) =
      if (readWholeFile path f).2 = none ∧ (readWholeFile path f).1 ≠ [] then
        some ⟨(readWholeFile path f).1, path, none⟩
      else firstReadable cs := rfl

theorem firstReadable_content (cs : List (String × FileState)) :
    (firstReadable cs).map (·.data) = (cs.filterMap fun c => c.2.content).head? := by
  induction cs with
  | nil => rfl
  | cons c cs ih =>
    obtain ⟨path, f⟩ := c
    have hread := readWholeFile_content path f
    by_cases hok : (readWholeFile path f).2 = none ∧ (readWholeFile path f).1 ≠ []
    · have hf : f.content = some (readWholeFile path f).1 := (hread _).mp ⟨hok.1, rfl, hok.2⟩
      rw [firstReadable_cons, if_pos hok, List.filterMap_cons, hf]
      rfl
    · have hf : f.content = none := by
        cases hc : f.content with
        | none => rfl
        | some data =>
          obtain ⟨he, hd, hne⟩ := (hread data).mpr hc
          exact absurd ⟨he, hd ▸ hne⟩ hok
      rw [firstReadable_cons, if_neg hok, List.filterMap_cons, hf]
      exact ih

/-- The reader takes the first copy that has a content. -/
theorem readWholeFileWithRecovery_data (path : String) (c : Copies) :
    (readWholeFileWithRecovery path c).data = c.contents.head?.getD [] := by
  have h := firstReadable_content (c.candidates path)
  have hcontents : ((c.candidates path).filterMap fun c => c.2.content) = c.contents := rfl
  rw [hcontents] at h
  rw [← h, readWholeFileWithRecovery]
  cases firstReadable (c.candidates path) <;> rfl

theorem firstReadable_error {cs : List (String × FileState)} {r : RecoveryReadResult}
    (h : firstReadable cs = some r) : r.error = none ∧ r.data ≠ [] := by
  induction cs with
  | nil => cases h
  | cons c cs ih =>
    obtain ⟨path, f⟩ := c
    by_cases hok : (readWholeFile path f).2 = none ∧ (readWholeFile path f).1 ≠ []
    · rw [firstReadable_cons, if_pos hok] at h
      cases h
      exact ⟨rfl, hok.2⟩
    · rw [firstReadable_cons, if_neg hok] at h
      exact ih h

theorem readWholeFileWithRecovery_error (path : String) (c : Copies) :
    (readWholeFileWithRecovery path c).error = none ↔ c.contents ≠ [] := by
  have h := firstReadable_content (c.candidates path)
  have hcontents : ((c.candidates path).filterMap fun c => c.2.content) = c.contents := rfl
  rw [hcontents] at h
  unfold readWholeFileWithRecovery
  cases hr : firstReadable (c.candidates path) with
  | none =>
    rw [hr] at h
    simp only [reduceCtorEq, false_iff, not_not]
    exact List.head?_eq_none_iff.mp h.symm
  | some r =>
    rw [hr] at h
    simp only [(firstReadable_error hr).1, true_iff]
    rintro hnil
    rw [hnil] at h
    cases h

end TorrentLink
