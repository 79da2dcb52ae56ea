import Mathlib.Algebra.BigOperators.Group.List.Basic
import Mathlib.Algebra.Order.Ring.Rat
import TorrentLink.Lib.Visits
import TorrentLink.Ui.ContentItems

/-!
# The totals of directories

`reloadTree` sets the data of the files first and then goes over the tree once, each item before those
below it, and sums up the children of every directory. A subdirectory is summed up after the directory
it is in, which reads its data unset: no bytes, the availability 0 and the priority 0. So the files of a
directory count where they stand directly in it (`rows_directory`), and the totals are right only where
the other files would not change them.
-/

namespace TorrentLink.Ui

open Lib Lt

inductive TaskFilePriorityLevel
  | notDownloaded | doNotDownload | normal | high | highest | fileOrder
  deriving DecidableEq, Repr

def TaskFilePriorityLevel.toInt : TaskFilePriorityLevel → Int
  | .notDownloaded => 0
  | .doNotDownload => 1
  | .normal => 2
  | .high => 3
  | .highest => 4
  | .fileOrder => 5

def priorityText (p : Int) : String :=
  if p = 0 then "未下载"
  else if p = 1 then "不下载"
  else if p = 3 then "高"
  else if p = 4 then "最高"
  else if p = 5 then "按文件顺序"
  else "正常"

/-- `TaskFileEntryDto`, but for the progress that only a text shows. -/
structure TaskFile extends TaskFileEntry where
  sizeBytes : Int := 0
  downloadedBytes : Int := 0
  availability : ℚ := -1
  priority : TaskFilePriorityLevel := .normal
  deriving DecidableEq, Repr

/-- The data of an item and the text of its priority. A role that is not set reads as 0. -/
structure RowData where
  size : Int := 0
  downloaded : Int := 0
  availability : ℚ := 0
  priority : Int := 0
  priorityText : String := ""
  deriving DecidableEq, Repr

/-- The rows of the items, which are known by the parts of their paths. -/
abbrev Rows := List FilePath → RowData

/-! ### The two loops -/

def fileRow (f : TaskFile) : RowData where
  size := f.sizeBytes
  downloaded := f.downloadedBytes
  availability := f.availability
  priority := f.priority.toInt
  priorityText := priorityText f.priority.toInt

/-- The data that a file sets at the last item on its path, if it has one. -/
def setFileRow (rows : Rows) (f : TaskFile) : Rows :=
  if f.parts = [] then rows else Function.update rows f.parts (fileRow f)

def fileRows (files : List TaskFile) : Rows := files.foldl setFileRow fun _ => {}

/-- What the loop over the children of a directory keeps. -/
structure DirectoryTotals where
  size : Int := 0
  downloaded : Int := 0
  minAvail : ℚ := -1
  ps : List Int := []
  deriving DecidableEq, Repr

def addChild (t : DirectoryTotals) (c : RowData) : DirectoryTotals where
  size := t.size + c.size
  downloaded := t.downloaded + c.downloaded
  minAvail :=
    if 0 ≤ c.availability ∧ (t.minAvail < 0 ∨ c.availability < t.minAvail) then c.availability
    else t.minAvail
  ps := t.ps.insert c.priority

def directoryRow (children : List RowData) : RowData :=
  let t := children.foldl addChild {}
  let row : RowData := { size := t.size, downloaded := t.downloaded, availability := t.minAvail }
  match t.ps with
  | [p] => { row with priority := p, priorityText := priorityText p }
  | _ => { row with priority := -1, priorityText := "混合" }

/-- One turn of the loop over all items. -/
def visitItem (rows : Rows) (v : TreeItem × List TreeItem) : Rows :=
  if v.1.isDir then Function.update rows v.1.key (directoryRow (v.2.map fun c => rows c.key)) else rows

def contentTree (files : List TaskFile) : Forest TreeItem := reloadTree (files.map (·.toTaskFileEntry))

/-- The rows after `reloadTree`. -/
def loadedRows (files : List TaskFile) : Rows :=
  (contentTree files).visits.foldl visitItem (fileRows files)

/-! ### What a directory should show -/

/-- The least of the known values; a negative one is unknown. -/
def LeastKnown (l : List ℚ) (r : ℚ) : Prop :=
  (r = -1 ∧ ∀ a ∈ l, a < 0) ∨ (0 ≤ r ∧ r ∈ l ∧ ∀ a ∈ l, 0 ≤ a → r ≤ a)

/-- The value that all have, or -1 if two differ. -/
def Common (l : List Int) (r : Int) : Prop :=
  (r ∈ l ∧ ∀ a ∈ l, a = r) ∨ (r = -1 ∧ ∃ a ∈ l, ∃ b ∈ l, a ≠ b)

/-- The row has the totals of these files. -/
structure CarriesTotals (row : RowData) (files : List TaskFile) : Prop where
  size : row.size = (files.map (·.sizeBytes)).sum
  downloaded : row.downloaded = (files.map (·.downloadedBytes)).sum
  availability : LeastKnown (files.map (·.availability)) row.availability
  priority : Common (files.map (·.priority.toInt)) row.priority
  priorityText : row.priorityText = if row.priority = -1 then "混合" else Ui.priorityText row.priority

variable (k : List FilePath)

/-- The file is below the directory. -/
def TaskFile.Below (f : TaskFile) : Prop := k <+: f.parts ∧ k.length < f.parts.length

/-- The file is below a subdirectory of it. -/
def TaskFile.Deep (f : TaskFile) : Prop := k <+: f.parts ∧ k.length + 1 < f.parts.length

instance (f : TaskFile) : Decidable (f.Below k) := inferInstanceAs (Decidable (_ ∧ _))

instance (f : TaskFile) : Decidable (f.Deep k) := inferInstanceAs (Decidable (_ ∧ _))

/-- The files below the subdirectories have no bytes, one of all files is known not to be available, and
the priority 0 of the subdirectories stands for theirs. -/
structure LosesNothing (files : List TaskFile) : Prop where
  size : ((files.filter (·.Deep k)).map (·.sizeBytes)).sum = 0
  downloaded : ((files.filter (·.Deep k)).map (·.downloadedBytes)).sum = 0
  availability : ∃ f ∈ files, f.Below k ∧ f.availability = 0
  priority :
    if ∀ f ∈ files, f.Below k → ¬ f.Deep k → f.priority = .notDownloaded then
      ∀ f ∈ files, f.Below k → f.priority = .notDownloaded
    else ∃ f ∈ files, f.Below k ∧ ∃ g ∈ files, g.Below k ∧ f.priority ≠ g.priority

/-- No two paths are the same, and none is a directory of another one. -/
def Separate (files : List TaskFile) : Prop :=
  files.Pairwise fun f g => ¬ f.parts <+: g.parts ∧ ¬ g.parts <+: f.parts

instance (files : List TaskFile) : Decidable (Separate files) :=
  inferInstanceAs (Decidable (List.Pairwise _ _))

variable {k} {files : List TaskFile}

/-! ### One directory -/

theorem toInt_injective : Function.Injective TaskFilePriorityLevel.toInt := by
  intro p q h
  cases p <;> cases q <;> first | rfl | cases h

theorem toInt_nonneg (p : TaskFilePriorityLevel) : 0 ≤ p.toInt := by
  cases p <;> decide

theorem leastKnown_congr {l l' : List ℚ} {r : ℚ} (h : ∀ a, a ∈ l ↔ a ∈ l') :
    LeastKnown l r ↔ LeastKnown l' r := by
  simp only [LeastKnown, h]

theorem common_congr {l l' : List Int} {r : Int} (h : ∀ a, a ∈ l ↔ a ∈ l') :
    Common l r ↔ Common l' r := by
  simp only [Common, h]

theorem leastKnown_zero_iff {l : List ℚ} : LeastKnown l 0 ↔ 0 ∈ l := by
  refine ⟨fun h => ?_, fun h => .inr ⟨le_rfl, h, fun a _ ha => ha⟩⟩
  rcases h with ⟨hzero, -⟩ | ⟨-, hmem, -⟩
  · exact absurd hzero neg_one_lt_zero.ne'
  · exact hmem

/-- Nothing known is less than 0. -/
theorem LeastKnown.eq_zero {l : List ℚ} {r : ℚ} (h : LeastKnown l r) (hzero : 0 ∈ l) : r = 0 := by
  rcases h with ⟨-, hunknown⟩ | ⟨hr, -, hleast⟩
  · exact absurd (hunknown 0 hzero) (lt_irrefl 0)
  · exact le_antisymm (hleast 0 hzero le_rfl) hr

theorem common_zero_iff {l : List Int} : Common l 0 ↔ 0 ∈ l ∧ ∀ a ∈ l, a = 0 :=
  or_iff_left fun h => absurd h.1 (by decide)

theorem common_neg_iff {l : List Int} (h : ∀ a ∈ l, 0 ≤ a) : Common l (-1) ↔ ∃ a ∈ l, ∃ b ∈ l, a ≠ b := by
  refine (or_iff_right fun hcommon => ?_).trans (and_iff_right rfl)
  exact absurd (h (-1) hcommon.1) (by decide)

/-- With 0 among the values, the common one is 0. -/
theorem Common.of_zero {l : List Int} {r : Int} (h : Common l r) (hzero : 0 ∈ l) :
    (r = 0 ∧ ∀ a ∈ l, a = 0) ∨ (r = -1 ∧ ∃ a ∈ l, a ≠ 0) := by
  rcases h with ⟨-, hall⟩ | ⟨rfl, a, ha, b, hb, hne⟩
  · obtain rfl := hall 0 hzero
    exact .inl ⟨rfl, hall⟩
  · refine .inr ⟨rfl, ?_⟩
    by_cases ha0 : a = 0
    · exact ⟨b, hb, fun hb0 => hne (ha0.trans hb0.symm)⟩
    · exact ⟨a, ha, ha0⟩

/-- One more value. -/
theorem LeastKnown.concat {l : List ℚ} {r : ℚ} (h : LeastKnown l r) (a : ℚ) :
    LeastKnown (l ++ [a]) (if 0 ≤ a ∧ (r < 0 ∨ a < r) then a else r) := by
  have hmem : ∀ b, b ∈ l ++ [a] ↔ b ∈ l ∨ b = a := by simp
  unfold LeastKnown
  simp only [hmem]
  rcases h with ⟨rfl, hunknown⟩ | ⟨hr, hrl, hleast⟩
  · split_ifs with hknown
    · refine .inr ⟨hknown.1, .inr rfl, fun b hb hb0 => ?_⟩
      rcases hb with hb | rfl
      · exact absurd hb0 (hunknown b hb).not_ge
      · exact le_rfl
    · refine .inl ⟨rfl, fun b hb => ?_⟩
      rcases hb with hb | rfl
      · exact hunknown b hb
      · by_contra hb0
        exact hknown ⟨not_lt.mp hb0, .inl neg_one_lt_zero⟩
  · split_ifs with hless
    · have har : a < r := hless.2.resolve_left hr.not_gt
      refine .inr ⟨hless.1, .inr rfl, fun b hb hb0 => ?_⟩
      rcases hb with hb | rfl
      · exact har.le.trans (hleast b hb hb0)
      · exact le_rfl
    · refine .inr ⟨hr, .inl hrl, fun b hb hb0 => ?_⟩
      rcases hb with hb | rfl
      · exact hleast b hb hb0
      · by_contra hlt
        exact hless ⟨hb0, .inr (not_le.mp hlt)⟩

/-- What the loop over the children has gathered. -/
theorem gathered (children : List RowData) :
    (children.foldl addChild {}).size = (children.map (·.size)).sum ∧
      (children.foldl addChild {}).downloaded = (children.map (·.downloaded)).sum ∧
      LeastKnown (children.map (·.availability)) (children.foldl addChild {}).minAvail ∧
      (children.foldl addChild {}).ps.Nodup ∧
      ∀ p, p ∈ (children.foldl addChild {}).ps ↔ p ∈ children.map (·.priority) := by
  induction children using List.reverseRecOn with
  | nil =>
    refine ⟨rfl, rfl, .inl ⟨rfl, ?_⟩, List.nodup_nil, fun p => Iff.rfl⟩
    simp
  | append_singleton children c ih =>
    obtain ⟨hsize, hdownloaded, havail, hnodup, hps⟩ := ih
    rw [List.foldl_append, List.foldl_cons, List.foldl_nil]
    simp only [List.map_append, List.map_cons, List.map_nil, List.sum_append, List.sum_singleton]
    refine ⟨?_, ?_, havail.concat c.availability, hnodup.insert, fun p => ?_⟩
    · rw [← hsize]
      rfl
    · rw [← hdownloaded]
      rfl
    · have hinsert : (addChild (children.foldl addChild {}) c).ps =
          (children.foldl addChild {}).ps.insert c.priority := rfl
      rw [hinsert, List.mem_insert_iff, List.mem_append, List.mem_singleton, hps, or_comm]

/-- The priority and its text that a set of priorities stands for. -/
def shownPriority : List Int → Int × String
  | [p] => (p, priorityText p)
  | _ => (-1, "混合")

theorem directoryRow_eq (children : List RowData) :
    directoryRow children =
      { size := (children.foldl addChild {}).size
        downloaded := (children.foldl addChild {}).downloaded
        availability := (children.foldl addChild {}).minAvail
        priority := (shownPriority (children.foldl addChild {}).ps).1
        priorityText := (shownPriority (children.foldl addChild {}).ps).2 } := by
  unfold directoryRow shownPriority
  dsimp only
  split <;> rfl

theorem common_shownPriority {ps l : List Int} (hnodup : ps.Nodup) (hps : ∀ p, p ∈ ps ↔ p ∈ l)
    (hne : l ≠ []) :
    Common l (shownPriority ps).1 := by
  rw [← common_congr hps]
  match ps, hnodup with
  | [], _ =>
    obtain ⟨p, hp⟩ := List.exists_mem_of_ne_nil l hne
    exact absurd ((hps p).mpr hp) List.not_mem_nil
  | [p], _ => exact .inl ⟨List.mem_cons_self, fun a ha => List.mem_singleton.mp ha⟩
  | p :: p' :: ps, hnodup =>
    refine .inr ⟨rfl, p, List.mem_cons_self, p', List.mem_cons_of_mem _ List.mem_cons_self, ?_⟩
    rintro rfl
    exact (List.nodup_cons.mp hnodup).1 List.mem_cons_self

theorem shownPriority_text {ps : List Int} (hps : ∀ p ∈ ps, 0 ≤ p) :
    (shownPriority ps).2 =
      if (shownPriority ps).1 = -1 then "混合" else priorityText (shownPriority ps).1 := by
  match ps with
  | [] => rfl
  | [p] =>
    have hp := hps p List.mem_cons_self
    have hne : p ≠ -1 := by omega
    exact (if_neg hne).symm
  | p :: p' :: ps => rfl

/-- The row of a directory with children. -/
theorem directoryRow_spec {children : List RowData} (hne : children ≠ [])
    (hpriority : ∀ c ∈ children, 0 ≤ c.priority) :
    (directoryRow children).size = (children.map (·.size)).sum ∧
      (directoryRow children).downloaded = (children.map (·.downloaded)).sum ∧
      LeastKnown (children.map (·.availability)) (directoryRow children).availability ∧
      Common (children.map (·.priority)) (directoryRow children).priority ∧
      (directoryRow children).priorityText =
        if (directoryRow children).priority = -1 then "混合"
        else priorityText (directoryRow children).priority := by
  obtain ⟨hsize, hdownloaded, havail, hnodup, hps⟩ := gathered children
  rw [directoryRow_eq]
  refine ⟨hsize, hdownloaded, havail, common_shownPriority hnodup hps (by simpa using hne),
    shownPriority_text ?_⟩
  intro p hp
  obtain ⟨c, hc, rfl⟩ := List.mem_map.mp ((hps p).mp hp)
  exact hpriority c hc

/-! ### The rows of the files -/

theorem fileRows_concat (files : List TaskFile) (f : TaskFile) :
    fileRows (files ++ [f]) = setFileRow (fileRows files) f :=
  List.foldl_append

theorem setFileRow_of_ne {rows : Rows} {f : TaskFile} (hne : f.parts ≠ k) :
    setFileRow rows f k = rows k := by
  unfold setFileRow
  split_ifs
  · rfl
  · exact Function.update_of_ne hne.symm _ _

/-- An item that is no file has an unset row. -/
theorem fileRows_of_forall_ne (h : ∀ f ∈ files, f.parts ≠ k) : fileRows files k = {} := by
  induction files using List.reverseRecOn with
  | nil => rfl
  | append_singleton files f ih =>
    rw [fileRows_concat, setFileRow_of_ne (h f (by simp))]
    exact ih fun g hg => h g (List.mem_append_left _ hg)

theorem Separate.eq_of_prefix (h : Separate files) {f g : TaskFile} (hf : f ∈ files) (hg : g ∈ files)
    (hpre : f.parts <+: g.parts) : f = g := by
  by_contra hne
  have : Std.Symm fun f g : TaskFile => ¬ f.parts <+: g.parts ∧ ¬ g.parts <+: f.parts :=
    ⟨fun _ _ h => h.symm⟩
  exact (h.forall hf hg hne).1 hpre

theorem separate_concat {f : TaskFile} (h : Separate (files ++ [f])) :
    Separate files ∧ ∀ g ∈ files, g.parts ≠ f.parts := by
  obtain ⟨hfiles, -, hlast⟩ := List.pairwise_append.mp h
  refine ⟨hfiles, fun g hg hsame => (hlast g hg f List.mem_cons_self).1 ?_⟩
  rw [hsame]

theorem fileRows_of_mem (h : Separate files) {f : TaskFile} (hf : f ∈ files) (hne : f.parts ≠ []) :
    fileRows files f.parts = fileRow f := by
  induction files using List.reverseRecOn with
  | nil => cases hf
  | append_singleton files g ih =>
    obtain ⟨hfiles, hlast⟩ := separate_concat h
    rw [fileRows_concat]
    rcases List.mem_append.mp hf with hf | hf
    · rw [setFileRow_of_ne (hlast f hf).symm, ih hfiles hf]
    · obtain rfl := List.mem_singleton.mp hf
      unfold setFileRow
      rw [if_neg hne, Function.update_self]

theorem priority_fileRows_nonneg (files : List TaskFile) (k : List FilePath) :
    0 ≤ (fileRows files k).priority := by
  induction files using List.reverseRecOn with
  | nil => exact le_rfl
  | append_singleton files f ih =>
    rw [fileRows_concat]
    unfold setFileRow
    split_ifs
    · exact ih
    · by_cases hk : k = f.parts
      · rw [hk, Function.update_self]
        exact toInt_nonneg f.priority
      · rwa [Function.update_of_ne hk]

theorem sum_map_update {ks : List (List FilePath)} (hks : ks.Nodup) (rows : Rows) (row : RowData)
    (φ : RowData → Int) :
    (ks.map fun k' => φ (Function.update rows k row k')).sum =
      (ks.map fun k' => φ (rows k')).sum + if k ∈ ks then φ row - φ (rows k) else 0 := by
  induction ks with
  | nil => simp
  | cons k' ks ih =>
    obtain ⟨hk', hks⟩ := List.nodup_cons.mp hks
    rw [List.map_cons, List.map_cons, List.sum_cons, List.sum_cons, ih hks]
    by_cases hsame : k' = k
    · subst hsame
      rw [Function.update_self, if_neg hk', if_pos List.mem_cons_self]
      omega
    · have hmem : k ∈ k' :: ks ↔ k ∈ ks := by simp [Ne.symm hsame]
      rw [Function.update_of_ne hsame, if_congr hmem rfl rfl]
      omega

/-- A sum over items takes the files among them. -/
theorem sum_fileRows (h : Separate files) {ks : List (List FilePath)} (hks : ks.Nodup) (hnil : [] ∉ ks)
    {φ : RowData → Int} (hφ : φ {} = 0) :
    (ks.map fun k => φ (fileRows files k)).sum =
      ((files.filter (·.parts ∈ ks)).map fun f => φ (fileRow f)).sum := by
  induction files using List.reverseRecOn with
  | nil => simp [fileRows, hφ]
  | append_singleton files f ih =>
    obtain ⟨hfiles, hlast⟩ := separate_concat h
    rw [fileRows_concat, List.filter_append, List.map_append, List.sum_append, ← ih hfiles]
    unfold setFileRow
    by_cases hmem : f.parts ∈ ks
    · have hne : f.parts ≠ [] := fun hempty => hnil (hempty ▸ hmem)
      rw [if_neg hne, sum_map_update hks, if_pos hmem, fileRows_of_forall_ne hlast, hφ]
      simp [hmem]
    · split_ifs
      · simp [hmem]
      · rw [sum_map_update hks, if_neg hmem]
        simp [hmem]

/-! ### The rows of the directories -/

theorem writesAt_visitItem : Forest.WritesAt TreeItem.key visitItem := by
  intro rows v k hne
  unfold visitItem
  split_ifs
  · exact Function.update_of_ne hne _ _
  · rfl

theorem placed_contentTree (files : List TaskFile) :
    (contentTree files).Placed TreeItem.key [] := placed_reloadTree _

/-- The row of a directory is made of the rows that its children have before the loop. -/
theorem rows_directory {v : TreeItem × List TreeItem} (hv : v ∈ (contentTree files).visits)
    (hdir : v.1.isDir = true) :
    loadedRows files v.1.key = directoryRow (v.2.map fun c => fileRows files c.key) := by
  have hplaced := placed_contentTree files
  obtain ⟨rows, hbelow, hrow⟩ := hplaced.foldl_visits_self writesAt_visitItem (fileRows files) hv
  unfold loadedRows
  rw [hrow, visitItem, if_pos hdir, Function.update_self]
  congr 1
  refine List.map_congr_left fun c hc => hbelow c.key ?_
  exact ((hplaced.mem_children_iff hv).mp hc).2.1

/-! ### Files and subdirectories -/

theorem TaskFile.Deep.below {f : TaskFile} (h : f.Deep k) : f.Below k := ⟨h.1, by have := h.2; omega⟩

/-- The files directly in the directory, and those deeper. -/
theorem sum_below (files : List TaskFile) (k : List FilePath) (φ : TaskFile → Int) :
    ((files.filter (·.Below k)).map φ).sum =
      ((files.filter fun f => f.Below k ∧ ¬ f.Deep k).map φ).sum +
        ((files.filter (·.Deep k)).map φ).sum := by
  induction files with
  | nil => rfl
  | cons f files ih =>
    by_cases hbelow : f.Below k
    · by_cases hdeep : f.Deep k
      · simp [hbelow, hdeep, ih]
        omega
      · simp [hbelow, hdeep, ih]
        omega
    · have hdeep : ¬ f.Deep k := fun hdeep => hbelow hdeep.below
      simp [hbelow, hdeep, ih]

/-- The item of a file. -/
theorem exists_item {f : TaskFile} (hf : f ∈ files) (hne : f.parts ≠ []) :
    ∃ item ∈ (contentTree files).items, item.key = f.parts := by
  have hway : OnWay [] f.parts f.parts false := onWay_nil_iff.mpr ⟨hne, List.prefix_rfl, by simp⟩
  obtain ⟨isDir, item, hitem, hkey, -⟩ := exists_hasItem_reloadTree (List.mem_map_of_mem hf) hway
  exact ⟨item, hitem, hkey⟩

/-- The file that an item is on the way to. -/
theorem exists_file {item : TreeItem} (hitem : item ∈ (contentTree files).items) :
    item.key ≠ [] ∧ ∃ f ∈ files, item.key <+: f.parts ∧ (item.isDir = true ↔ item.key ≠ f.parts) := by
  obtain ⟨e, he, hway⟩ := hasItem_reloadTree ⟨item, hitem, rfl, rfl⟩
  obtain ⟨f, hf, rfl⟩ := List.mem_map.mp he
  obtain ⟨hne, hpre, hdir⟩ := onWay_nil_iff.mp hway
  exact ⟨hne, f, hf, hpre, hdir⟩

theorem toInt_eq_zero_iff {p : TaskFilePriorityLevel} : p.toInt = 0 ↔ p = .notDownloaded :=
  toInt_injective.eq_iff' rfl

theorem mem_below_iff {f : TaskFile} : f ∈ files.filter (·.Below k) ↔ f ∈ files ∧ f.Below k := by
  rw [List.mem_filter, decide_eq_true_iff]

/-- The priority of the files directly in a directory and of its subdirectories, where all files should
count. -/
theorem common_below_iff (hdeep : ∃ f ∈ files, f.Deep k) {r : Int}
    (h : Common ((files.filter fun f => f.Below k ∧ ¬ f.Deep k).map (·.priority.toInt) ++ [0]) r) :
    Common ((files.filter (·.Below k)).map (·.priority.toInt)) r ↔
      if ∀ f ∈ files, f.Below k → ¬ f.Deep k → f.priority = .notDownloaded then
        ∀ f ∈ files, f.Below k → f.priority = .notDownloaded
      else ∃ f ∈ files, f.Below k ∧ ∃ g ∈ files, g.Below k ∧ f.priority ≠ g.priority := by
  have hdirect :
      ∀ f, f ∈ (files.filter fun f => f.Below k ∧ ¬ f.Deep k) ↔ f ∈ files ∧ f.Below k ∧ ¬ f.Deep k := by
    intro f
    rw [List.mem_filter, decide_eq_true_iff]
  rcases h.of_zero (by simp) with ⟨rfl, hall⟩ | ⟨rfl, a, ha, hne⟩
  · rw [if_pos, common_zero_iff]
    · constructor
      · rintro ⟨-, hzero⟩ f hf hbelow
        exact toInt_eq_zero_iff.mp (hzero _ (List.mem_map_of_mem (mem_below_iff.mpr ⟨hf, hbelow⟩)))
      · intro hlevels
        obtain ⟨f, hf, hf'⟩ := hdeep
        refine ⟨List.mem_map.mpr ⟨f, mem_below_iff.mpr ⟨hf, hf'.below⟩, ?_⟩, fun a ha => ?_⟩
        · exact toInt_eq_zero_iff.mpr (hlevels f hf hf'.below)
        · obtain ⟨g, hg, rfl⟩ := List.mem_map.mp ha
          obtain ⟨hg, hbelow⟩ := mem_below_iff.mp hg
          exact toInt_eq_zero_iff.mpr (hlevels g hg hbelow)
    · intro f hf hbelow hnot
      have hmem := List.mem_map_of_mem (f := (·.priority.toInt)) ((hdirect f).mpr ⟨hf, hbelow, hnot⟩)
      exact toInt_eq_zero_iff.mp (hall _ (List.mem_append_left _ hmem))
  · -- a file directly in the directory has another priority
    have ha' := (List.mem_append.mp ha).resolve_right fun hzero => hne (List.mem_singleton.mp hzero)
    obtain ⟨f, hf, rfl⟩ := List.mem_map.mp ha'
    obtain ⟨hf, hbelow, hnot⟩ := (hdirect f).mp hf
    rw [if_neg fun hall => hne (toInt_eq_zero_iff.mpr (hall f hf hbelow hnot)), common_neg_iff]
    · constructor
      · rintro ⟨_, ha, _, hb, hdiffer⟩
        obtain ⟨g, hg, rfl⟩ := List.mem_map.mp ha
        obtain ⟨g', hg', rfl⟩ := List.mem_map.mp hb
        obtain ⟨hg, hgbelow⟩ := mem_below_iff.mp hg
        obtain ⟨hg', hgbelow'⟩ := mem_below_iff.mp hg'
        exact ⟨g, hg, hgbelow, g', hg', hgbelow', fun hsame => hdiffer (congrArg _ hsame)⟩
      · rintro ⟨g, hg, hgbelow, g', hg', hgbelow', hdiffer⟩
        refine ⟨_, List.mem_map_of_mem (mem_below_iff.mpr ⟨hg, hgbelow⟩), _,
          List.mem_map_of_mem (mem_below_iff.mpr ⟨hg', hgbelow'⟩),
          fun hsame => hdiffer (toInt_injective hsame)⟩
    · intro a ha
      obtain ⟨g, -, rfl⟩ := List.mem_map.mp ha
      exact toInt_nonneg g.priority

section Directory

variable {v : TreeItem × List TreeItem} (hv : v ∈ (contentTree files).visits)
include hv

/-- The children that are files. -/
theorem parts_mem_children_iff {f : TaskFile} (hf : f ∈ files) :
    f.parts ∈ v.2.map TreeItem.key ↔ f.Below v.1.key ∧ ¬ f.Deep v.1.key := by
  have hplaced := placed_contentTree files
  rw [List.mem_map]
  constructor
  · rintro ⟨c, hc, hkey⟩
    obtain ⟨-, hpre, hlength⟩ := (hplaced.mem_children_iff hv).mp hc
    rw [hkey] at hpre hlength
    exact ⟨⟨hpre, by omega⟩, fun hdeep => by have := hdeep.2; omega⟩
  · rintro ⟨⟨hpre, hlt⟩, hdeep⟩
    have hne : f.parts ≠ [] := List.ne_nil_of_length_pos (by omega)
    obtain ⟨item, hitem, hkey⟩ := exists_item hf hne
    have hle : ¬ v.1.key.length + 1 < f.parts.length := fun hlt => hdeep ⟨hpre, hlt⟩
    refine ⟨item, (hplaced.mem_children_iff hv).mpr ⟨hitem, hkey ▸ hpre, ?_⟩, hkey⟩
    rw [hkey]
    omega

/-- A directory has children. -/
theorem children_ne_nil (hdir : v.1.isDir = true) : v.2 ≠ [] := by
  obtain ⟨hne, f, hf, hpre, hproper⟩ := exists_file (Forest.mem_items_of_visits hv)
  have hparts : f.parts ≠ [] := fun hnil => hne (List.prefix_nil.mp (hnil ▸ hpre))
  obtain ⟨item, hitem, hkey⟩ := exists_item hf hparts
  rw [← hkey] at hpre hproper
  obtain ⟨child, hchild, -⟩ := (placed_contentTree files).exists_child hv hitem hpre (hproper.mp hdir).symm
  exact List.ne_nil_of_mem hchild

variable (h : Separate files)
include h

/-- The rows of the children: those of the files, and the unset one if there are subdirectories. -/
theorem mem_children_rows_iff {α : Type} (φ : RowData → α) (a : α) :
    (∃ c ∈ v.2, φ (fileRows files c.key) = a) ↔
      (∃ f ∈ files, (f.Below v.1.key ∧ ¬ f.Deep v.1.key) ∧ φ (fileRow f) = a) ∨
        ((∃ f ∈ files, f.Deep v.1.key) ∧ φ {} = a) := by
  have hplaced := placed_contentTree files
  constructor
  · rintro ⟨c, hc, ha⟩
    obtain ⟨hitem, hpre, hlength⟩ := (hplaced.mem_children_iff hv).mp hc
    by_cases hfile : ∃ f ∈ files, f.parts = c.key
    · obtain ⟨f, hf, hkey⟩ := hfile
      have hne : f.parts ≠ [] := List.ne_nil_of_length_pos (by rw [hkey]; omega)
      rw [← hkey, fileRows_of_mem h hf hne] at ha
      exact .inl ⟨f, hf, (parts_mem_children_iff hv hf).mp (List.mem_map.mpr ⟨c, hc, hkey.symm⟩), ha⟩
    · have hunset : ∀ f ∈ files, f.parts ≠ c.key := fun f hf hkey => hfile ⟨f, hf, hkey⟩
      rw [fileRows_of_forall_ne hunset] at ha
      obtain ⟨-, f, hf, hway, -⟩ := exists_file hitem
      have hlt := lt_of_le_of_ne hway.length_le fun hsame => hunset f hf (hway.eq_of_length hsame).symm
      exact .inr ⟨⟨f, hf, hpre.trans hway, by omega⟩, ha⟩
  · rintro (⟨f, hf, hdirect, ha⟩ | ⟨⟨f, hf, hpre, hlt⟩, ha⟩)
    · obtain ⟨c, hc, hkey⟩ := List.mem_map.mp ((parts_mem_children_iff hv hf).mpr hdirect)
      have hne : f.parts ≠ [] := List.ne_nil_of_length_pos (by have := hdirect.1.2; omega)
      exact ⟨c, hc, by rwa [hkey, fileRows_of_mem h hf hne]⟩
    · -- the subdirectory on the way to the file
      have hne : f.parts ≠ [] := List.ne_nil_of_length_pos (by omega)
      obtain ⟨item, hitem, hkey⟩ := exists_item hf hne
      have hbelow : item.key ≠ v.1.key := by
        rw [hkey]
        intro hsame
        rw [hsame] at hlt
        omega
      obtain ⟨c, hc, hway⟩ := hplaced.exists_child hv hitem (hkey ▸ hpre) hbelow
      obtain ⟨-, -, hlength⟩ := (hplaced.mem_children_iff hv).mp hc
      refine ⟨c, hc, ?_⟩
      rw [fileRows_of_forall_ne, ha]
      intro g hg hsame
      rw [hkey, ← hsame] at hway
      obtain rfl := h.eq_of_prefix hg hf hway
      rw [hsame] at hlt
      omega

theorem sum_children_rows {φ : RowData → Int} (hφ : φ {} = 0) :
    (v.2.map fun c => φ (fileRows files c.key)).sum =
      ((files.filter fun f => f.Below v.1.key ∧ ¬ f.Deep v.1.key).map fun f => φ (fileRow f)).sum := by
  have hplaced := placed_contentTree files
  have hnil : [] ∉ v.2.map TreeItem.key := by
    rintro hmem
    obtain ⟨c, hc, hkey⟩ := List.mem_map.mp hmem
    obtain ⟨-, -, hlength⟩ := (hplaced.mem_children_iff hv).mp hc
    rw [hkey, List.length_nil] at hlength
    omega
  have hsum := sum_fileRows h (hplaced.nodup_children hv) hnil hφ
  rw [List.map_map] at hsum
  rw [← List.filter_congr fun f hf => decide_eq_decide.mpr (parts_mem_children_iff hv hf)]
  exact hsum

omit hv h in
theorem mem_direct_iff {α : Type} (direct : TaskFile → Prop) [DecidablePred direct] (deep : Prop)
    [Decidable deep]
    (φ : TaskFile → α) (zero a : α) :
    a ∈ (files.filter (direct ·)).map φ ++ (if deep then [zero] else []) ↔
      (∃ f ∈ files, direct f ∧ φ f = a) ∨ (deep ∧ zero = a) := by
  rw [List.mem_append, List.mem_map]
  refine or_congr (exists_congr fun f => ?_) ?_
  · rw [List.mem_filter, decide_eq_true_iff, and_assoc]
  · split_ifs with hdeep
    · rw [List.mem_singleton, and_iff_right hdeep, eq_comm]
    · exact iff_of_false List.not_mem_nil fun h => hdeep h.1

/-- The row of a directory: the files directly in it, and the unset rows of the subdirectories. -/
theorem row_directory (hdir : v.1.isDir = true) :
    let row := loadedRows files v.1.key
    let direct := files.filter fun f => f.Below v.1.key ∧ ¬ f.Deep v.1.key
    row.size = (direct.map (·.sizeBytes)).sum ∧ row.downloaded = (direct.map (·.downloadedBytes)).sum ∧
      LeastKnown (direct.map (·.availability) ++ if ∃ f ∈ files, f.Deep v.1.key then [0] else [])
        row.availability ∧
      Common (direct.map (·.priority.toInt) ++ if ∃ f ∈ files, f.Deep v.1.key then [0] else [])
        row.priority ∧
      row.priorityText = if row.priority = -1 then "混合" else priorityText row.priority := by
  have hpriorities : ∀ c ∈ v.2.map fun c => fileRows files c.key, 0 ≤ c.priority := by
    intro c hc
    obtain ⟨item, -, rfl⟩ := List.mem_map.mp hc
    exact priority_fileRows_nonneg files item.key
  obtain ⟨hsize, hdownloaded, havail, hpriority, htext⟩ :=
    directoryRow_spec (by simpa using children_ne_nil hv hdir) hpriorities
  rw [← rows_directory hv hdir] at hsize hdownloaded havail hpriority htext
  rw [List.map_map] at hsize hdownloaded havail hpriority
  refine ⟨hsize.trans (sum_children_rows hv h rfl), hdownloaded.trans (sum_children_rows hv h rfl),
    (leastKnown_congr fun a => ?_).mp havail, (common_congr fun a => ?_).mp hpriority, htext⟩
  · rw [mem_direct_iff]
    exact List.mem_map.trans (mem_children_rows_iff hv h (·.availability) a)
  · rw [mem_direct_iff]
    exact List.mem_map.trans (mem_children_rows_iff hv h (·.priority) a)

/-- The totals of a directory are right exactly if its subdirectories lose nothing. -/
theorem carriesTotals_iff (hdir : v.1.isDir = true) :
    CarriesTotals (loadedRows files v.1.key) (files.filter (·.Below v.1.key)) ↔
      ((∃ f ∈ files, f.Deep v.1.key) → LosesNothing v.1.key files) := by
  obtain ⟨hsize, hdownloaded, havail, hpriority, htext⟩ := row_directory hv h hdir
  by_cases hdeep : ∃ f ∈ files, f.Deep v.1.key
  · rw [if_pos hdeep] at havail hpriority
    have hzero : (loadedRows files v.1.key).availability = 0 := havail.eq_zero (by simp)
    rw [imp_iff_right hdeep]
    have hsums := sum_below files v.1.key
    have hsizes := hsums (·.sizeBytes)
    have hdownloads := hsums (·.downloadedBytes)
    constructor
    · rintro ⟨hsize', hdownloaded', havail', hpriority', -⟩
      refine ⟨by omega, by omega, ?_, ?_⟩
      · rw [hzero, leastKnown_zero_iff] at havail'
        obtain ⟨f, hf, havailable⟩ := List.mem_map.mp havail'
        obtain ⟨hf, hbelow⟩ := List.mem_filter.mp hf
        exact ⟨f, hf, of_decide_eq_true hbelow, havailable⟩
      · exact (common_below_iff hdeep hpriority).mp hpriority'
    · rintro ⟨hsize', hdownloaded', ⟨f, hf, hbelow, havailable⟩, hpriority'⟩
      refine ⟨by omega, by omega, ?_, ?_, htext⟩
      · rw [hzero, leastKnown_zero_iff]
        exact List.mem_map.mpr ⟨f, List.mem_filter.mpr ⟨hf, decide_eq_true hbelow⟩, havailable⟩
      · exact (common_below_iff hdeep hpriority).mpr hpriority'
  · -- all files stand directly in the directory
    have hdirect :
        (files.filter fun f => f.Below v.1.key ∧ ¬ f.Deep v.1.key) = files.filter (·.Below v.1.key) := by
      refine List.filter_congr fun f hf => ?_
      rw [decide_eq_decide]
      exact and_iff_left fun hf' => hdeep ⟨f, hf, hf'⟩
    rw [hdirect] at hsize hdownloaded havail hpriority
    rw [if_neg hdeep, List.append_nil] at havail hpriority
    exact iff_of_true ⟨hsize, hdownloaded, havail, hpriority, htext⟩ fun h => absurd h hdeep

end Directory

/-- Every directory shows the totals of the files below it, exactly if the subdirectories of each lose
nothing. -/
theorem reloadTree_totals_iff (files : List TaskFile) (h : Separate files) :
    (∀ item ∈ (contentTree files).items, item.isDir = true →
        CarriesTotals (loadedRows files item.key) (files.filter (·.Below item.key))) ↔
      ∀ k ≠ [], (∃ f ∈ files, f.Deep k) → LosesNothing k files := by
  constructor
  · rintro htotals k hk ⟨f, hf, hpre, hlt⟩
    have hproper : k ≠ f.parts := fun hsame => by
      rw [← hsame] at hlt
      omega
    have hway : OnWay [] f.parts k true := onWay_nil_iff.mpr ⟨hk, hpre, by simpa using hproper⟩
    obtain ⟨isDir, item, hitem, rfl, -⟩ := exists_hasItem_reloadTree (List.mem_map_of_mem hf) hway
    -- a file that stands there would be a directory of `f`
    have hdir : item.isDir = true := by
      obtain ⟨-, g, hg, hgway, hgdir⟩ := exists_file hitem
      refine hgdir.mpr fun hsame => hproper ?_
      rw [hsame] at hpre ⊢
      rw [h.eq_of_prefix hg hf hpre]
    obtain ⟨children, hv⟩ := Forest.exists_visit hitem
    exact (carriesTotals_iff hv h hdir).mp (htotals item hitem hdir) ⟨f, hf, hpre, hlt⟩
  · intro hloses item hitem hdir
    obtain ⟨children, hv⟩ := Forest.exists_visit hitem
    exact (carriesTotals_iff hv h hdir).mpr (hloses item.key (exists_file hitem).1)

/-- A folder with two files. -/
def flatFiles : List TaskFile :=
  [{ fileIndex := 0, logicalPath := "t/a".toList, sizeBytes := 5, downloadedBytes := 5
     availability := 1 },
    { fileIndex := 1, logicalPath := "t/b".toList, sizeBytes := 3, downloadedBytes := 0
      availability := 1 / 2 }]

theorem reloadTree_totals_flat :
    CarriesTotals (loadedRows flatFiles ["t".toList]) (flatFiles.filter (·.Below ["t".toList])) := by
  let folder : TreeItem :=
    { text := "t".toList, path := "t".toList, isDir := true, fileIndex := -1, shows := none }
  have hfolder : folder ∈ (contentTree flatFiles).items := by decide +kernel
  have hkey : folder.key = ["t".toList] := by decide +kernel
  rw [← hkey]
  refine (reloadTree_totals_iff flatFiles (by decide)).mpr (fun k hk hdeep => ?_) folder hfolder rfl
  have hparts : ∀ f ∈ flatFiles, f.parts.length = 2 := by decide
  obtain ⟨f, hf, -, hlt⟩ := hdeep
  have hlength := List.length_pos_iff.mpr hk
  have htwo := hparts f hf
  omega

/-- A folder in a folder, with one file. -/
def nestedFile : List TaskFile :=
  [{ fileIndex := 0, logicalPath := "t/a/b".toList, sizeBytes := 5, downloadedBytes := 5
     availability := 1 }]

/-- The outer folder is shown with no bytes. -/
theorem reloadTree_totals_nested : Separate nestedFile ∧
    ¬ ∀ item ∈ (contentTree nestedFile).items, item.isDir = true →
      CarriesTotals (loadedRows nestedFile item.key) (nestedFile.filter (·.Below item.key)) := by
  refine ⟨by decide, fun h => ?_⟩
  let folder : TreeItem :=
    { text := "t".toList, path := "t".toList, isDir := true, fileIndex := -1, shows := none }
  have hfolder : folder ∈ (contentTree nestedFile).items := by decide +kernel
  have hsize := (h folder hfolder rfl).size
  revert hsize
  decide +kernel

end TorrentLink.Ui
