import TorrentLink.Lib.Visits
import TorrentLink.Lt.FilePriorities
import TorrentLink.Ui.ContentTotals

/-!
# Priorities from the content tree

A priority is set for the items selected in the tree: for the files that they are, and for those in the
directories that they are. The indices are collected over the tree, sorted, and sent as one command, which
the session worker carries out file by file.
-/

namespace TorrentLink.Ui

open Lib Lt

/-- The indices of the files of these items and of the items below them. An item with an index is a file,
and nothing below it is looked at. -/
def collectIndices : Forest TreeItem → List Int
  | .nil => []
  | .node item children siblings =>
    (if 0 ≤ item.fileIndex then [item.fileIndex] else collectIndices children) ++ collectIndices siblings

/-- `collectFileIndices`, of an item and the items below it. -/
def collectFileIndices (n : TreeItem × Forest TreeItem) : List Int :=
  if 0 ≤ n.1.fileIndex then [n.1.fileIndex] else collectIndices n.2

/-- `std::unique` -/
def stdUnique : List Int → List Int
  | a :: b :: l => if a = b then stdUnique (b :: l) else a :: stdUnique (b :: l)
  | l => l

def mapTaskFilePriorityLevel : TaskFilePriorityLevel → FilePriorityLevel
  | .notDownloaded => .notDownloaded
  | .doNotDownload => .doNotDownload
  | .normal => .normal
  | .high => .high
  | .highest => .highest
  | .fileOrder => .fileOrder

/-- `applyPriorityToSelection`, with the command that it sends. -/
def applyPriorityToSelection (selectedItems : List (TreeItem × Forest TreeItem))
    (level : TaskFilePriorityLevel) : Option SetTaskFilePriorityCmd :=
  let all := stdUnique ((selectedItems.flatMap collectFileIndices).mergeSort (· ≤ ·))
  if all = [] then none else some { fileIndices := all, level := mapTaskFilePriorityLevel level }

/-! ### The indices of the items -/

/-- The item of a file has its index, and a directory none. -/
def Labelled (files : List TaskFile) (item : TreeItem) : Prop :=
  if item.isDir then item.fileIndex = -1
  else ∃ f ∈ files, f.parts = item.key ∧ (f.fileIndex : Int) = item.fileIndex

section Add

variable {e : TaskFileEntry} {tree : Forest TreeItem} {acc : FilePath} {parts : List FilePath}
  {item : TreeItem}

/-- The index that a path gives the items it puts on its way. -/
def LabelledBy (e : TaskFileEntry) (k : List FilePath) (item : TreeItem) : Prop :=
  if item.isDir then item.fileIndex = -1 else k = item.key ∧ (e.fileIndex : Int) = item.fileIndex

theorem labelledBy_newNodes (hslash : ∀ part ∈ parts, '/' ∉ part) (hne : [] ∉ parts)
    (hitem : item ∈ (newNodes e acc parts).items) :
    LabelledBy e (components '/' acc ++ parts) item := by
  induction parts generalizing acc with
  | nil => cases hitem
  | cons part parts ih =>
    have hkey : components '/' (child '/' acc part) = components '/' acc ++ [part] :=
      components_child (hslash part List.mem_cons_self) fun h => hne (h ▸ List.mem_cons_self)
    rw [newNodes, Forest.items] at hitem
    rcases List.mem_cons.mp hitem with rfl | hitem
    · unfold LabelledBy TreeItem.key
      cases parts with
      | nil => simp [hkey]
      | cons part' parts => simp
    · rcases List.mem_append.mp hitem with hitem | hitem
      · have hrest := ih (fun part' h => hslash part' (List.mem_cons_of_mem _ h))
          (fun h => hne (List.mem_cons_of_mem _ h)) hitem
        rwa [hkey, List.append_assoc, List.singleton_append] at hrest
      · cases hitem

/-- What stands in the tree after a path was added, stood there before or was put there by it. -/
theorem labelledBy_addParts (hslash : ∀ part ∈ parts, '/' ∉ part) (hne : [] ∉ parts)
    (hitem : item ∈ (addParts e tree acc parts).items) :
    (∃ old ∈ tree.items, old.path = item.path ∧ old.isDir = item.isDir ∧ old.fileIndex = item.fileIndex) ∨
      LabelledBy e (components '/' acc ++ parts) item := by
  induction tree generalizing acc parts with
  | nil => exact .inr (labelledBy_newNodes hslash hne hitem)
  | node root children siblings hchildren hsiblings =>
    have hold {old : TreeItem} (hmem : old ∈ (Forest.node root children siblings).items) :
        ∃ old' ∈ (Forest.node root children siblings).items, old'.path = old.path ∧
          old'.isDir = old.isDir ∧ old'.fileIndex = old.fileIndex := ⟨old, hmem, rfl, rfl, rfl⟩
    cases parts with
    | nil => exact .inl (hold hitem)
    | cons part parts =>
      have hkey : components '/' (child '/' acc part) = components '/' acc ++ [part] :=
        components_child (hslash part List.mem_cons_self) fun h => hne (h ▸ List.mem_cons_self)
      rw [addParts] at hitem
      split at hitem
      · rw [Forest.items] at hitem
        rcases List.mem_cons.mp hitem with rfl | hitem
        · refine .inl ⟨root, List.mem_cons_self, ?_⟩
          split <;> exact ⟨rfl, rfl, rfl⟩
        · rcases List.mem_append.mp hitem with hitem | hitem
          · rcases hchildren (fun part' h => hslash part' (List.mem_cons_of_mem _ h))
              (fun h => hne (List.mem_cons_of_mem _ h)) hitem with ⟨old, hmem, hsame⟩ | hnew
            · exact .inl ⟨old, List.mem_cons_of_mem _ (List.mem_append_left _ hmem), hsame⟩
            · rw [hkey, List.append_assoc, List.singleton_append] at hnew
              exact .inr hnew
          · exact .inl (hold (List.mem_cons_of_mem _ (List.mem_append_right _ hitem)))
      · rw [Forest.items] at hitem
        rcases List.mem_cons.mp hitem with rfl | hitem
        · exact .inl (hold List.mem_cons_self)
        · rcases List.mem_append.mp hitem with hitem | hitem
          · exact .inl (hold (List.mem_cons_of_mem _ (List.mem_append_left _ hitem)))
          · rcases hsiblings hslash hne hitem with ⟨old, hmem, hsame⟩ | hnew
            · exact .inl ⟨old, List.mem_cons_of_mem _ (List.mem_append_right _ hmem), hsame⟩
            · exact .inr hnew

end Add

theorem labelled_contentTree (files : List TaskFile) :
    ∀ item ∈ (contentTree files).items, Labelled files item := by
  induction files using List.reverseRecOn with
  | nil => intro item hitem; cases hitem
  | append_singleton files f ih =>
    intro item hitem
    unfold contentTree at hitem
    rw [List.map_append, List.map_singleton, reloadTree_concat] at hitem
    rcases labelledBy_addParts (slash_notMem_parts _) (nil_notMem_parts _) hitem with
      ⟨old, hold, hpath, hdir, hindex⟩ | hnew
    · have hlabelled := ih old hold
      unfold Labelled TreeItem.key at hlabelled ⊢
      rw [hdir, hindex, hpath] at hlabelled
      split
      · next hisDir => rwa [if_pos hisDir] at hlabelled
      · next hisDir =>
        rw [if_neg hisDir] at hlabelled
        obtain ⟨g, hg, hsame⟩ := hlabelled
        exact ⟨g, List.mem_append_left _ hg, hsame⟩
    · unfold LabelledBy at hnew
      unfold Labelled
      split
      · next hisDir => rwa [if_pos hisDir] at hnew
      · next hisDir =>
        rw [if_neg hisDir] at hnew
        exact ⟨f, by simp, hnew.1, hnew.2⟩

/-- An item with an index is at the path of a file that has it. -/
theorem exists_file_of_index {files : List TaskFile} {item : TreeItem}
    (hitem : item ∈ (contentTree files).items) (hindex : 0 ≤ item.fileIndex) :
    ∃ f ∈ files, f.parts = item.key ∧ (f.fileIndex : Int) = item.fileIndex := by
  have hlabelled := labelled_contentTree files item hitem
  unfold Labelled at hlabelled
  split at hlabelled
  · omega
  · exact hlabelled

/-! ### The collected indices -/

theorem mem_stdUnique (l : List Int) (i : Int) : i ∈ stdUnique l ↔ i ∈ l := by
  fun_induction stdUnique l with
  | case1 a l ih =>
    rw [ih]
    simp
  | case2 a b l hne ih => rw [List.mem_cons, List.mem_cons, ih]
  | case3 l => rfl

/-- Below an item that has an index there is none. -/
def LeavesBelow (tree : Forest TreeItem) : Prop :=
  ∀ a ∈ tree.items, ∀ b ∈ tree.items, 0 ≤ a.fileIndex → a.key <+: b.key → a.key = b.key

theorem mem_collectIndices {tree : Forest TreeItem} {acc : List FilePath}
    (hplaced : tree.Placed TreeItem.key acc) (h : LeavesBelow tree) (i : Int) :
    i ∈ collectIndices tree ↔ 0 ≤ i ∧ ∃ item ∈ tree.items, item.fileIndex = i := by
  induction tree generalizing acc with
  | nil => simp [collectIndices, Forest.items]
  | node item children siblings hchildren hsiblings =>
    obtain ⟨-, hbelow, hbehind, -⟩ := hplaced
    have hbehind' := hsiblings hbehind fun a ha b hb =>
      h a (List.mem_cons_of_mem _ (List.mem_append_right _ ha)) b
        (List.mem_cons_of_mem _ (List.mem_append_right _ hb))
    have hbelow' := hchildren hbelow fun a ha b hb =>
      h a (List.mem_cons_of_mem _ (List.mem_append_left _ ha)) b
        (List.mem_cons_of_mem _ (List.mem_append_left _ hb))
    rw [collectIndices, List.mem_append, hbehind']
    simp only [Forest.items, List.mem_cons, List.mem_append, or_and_right, exists_or, exists_eq_left,
      and_or_left]
    rw [← or_assoc]
    refine or_congr_left ?_
    by_cases hindex : 0 ≤ item.fileIndex
    · -- a file has nothing below it
      have hnone : ∀ item' ∈ children.items, item'.fileIndex ≠ i := by
        intro item' hitem'
        obtain ⟨hpre, hne⟩ := hbelow.key_below hitem'
        exact absurd (h item List.mem_cons_self item'
          (List.mem_cons_of_mem _ (List.mem_append_left _ hitem')) hindex hpre).symm hne
      rw [if_pos hindex, List.mem_singleton]
      constructor
      · rintro rfl
        exact .inl ⟨hindex, rfl⟩
      · rintro (⟨-, hsame⟩ | ⟨-, item', hitem', hsame⟩)
        · exact hsame.symm
        · exact absurd hsame (hnone item' hitem')
    · rw [if_neg hindex, hbelow']
      refine (or_iff_right ?_).symm
      rintro ⟨hi, hsame⟩
      omega

section

variable {files : List TaskFile} (hsep : Separate files)
include hsep

/-- The item at the path of a file has its index. -/
theorem fileIndex_eq {f : TaskFile} (hf : f ∈ files) {item : TreeItem}
    (hitem : item ∈ (contentTree files).items) (hkey : item.key = f.parts) :
    item.fileIndex = f.fileIndex := by
  obtain ⟨-, g, hg, hpre, hdir⟩ := exists_file hitem
  have hfile : item.isDir = false := by
    rw [hkey] at hpre hdir
    obtain rfl := hsep.eq_of_prefix hf hg hpre
    simpa using hdir
  have hlabelled := labelled_contentTree files item hitem
  unfold Labelled at hlabelled
  rw [hfile, if_neg Bool.false_ne_true] at hlabelled
  obtain ⟨g', hg', hparts, hindex⟩ := hlabelled
  rw [hkey] at hparts
  obtain rfl := hsep.eq_of_prefix hg' hf (hparts ▸ List.prefix_rfl)
  exact hindex.symm

theorem leavesBelow_contentTree : LeavesBelow (contentTree files) := by
  intro a ha b hb hindex hpre
  obtain ⟨f, hf, hparts, -⟩ := exists_file_of_index ha hindex
  obtain ⟨-, g, hg, hpre', -⟩ := exists_file hb
  rw [← hparts] at hpre ⊢
  obtain rfl := hsep.eq_of_prefix hf hg (hpre.trans hpre')
  exact (hpre.eq_of_length_le hpre'.length_le)

/-- What is collected at an item: the indices of the files at it and below it. -/
theorem mem_collectFileIndices {n : TreeItem × Forest TreeItem} (hn : n ∈ (contentTree files).nodes)
    (i : Int) : i ∈ collectFileIndices n ↔ ∃ f ∈ files, (f.fileIndex : Int) = i ∧ n.1.key <+: f.parts := by
  have hitem : n.1 ∈ (contentTree files).items := Forest.map_nodes _ ▸ List.mem_map_of_mem hn
  obtain ⟨hplaced, hmem⟩ := (placed_contentTree files).node_below hn
  unfold collectFileIndices
  by_cases hindex : 0 ≤ n.1.fileIndex
  · obtain ⟨g, hg, hparts, hsame⟩ := exists_file_of_index hitem hindex
    rw [if_pos hindex, List.mem_singleton]
    constructor
    · rintro rfl
      exact ⟨g, hg, hsame, hparts ▸ List.prefix_rfl⟩
    · rintro ⟨f, hf, rfl, hpre⟩
      rw [← hparts] at hpre
      rw [← hsame, hsep.eq_of_prefix hg hf hpre]
  · have hleaves : LeavesBelow n.2 := fun a ha b hb =>
      leavesBelow_contentTree hsep a ((hmem a).mp ha).1 b ((hmem b).mp hb).1
    rw [if_neg hindex, mem_collectIndices hplaced hleaves]
    constructor
    · rintro ⟨hi, item, hbelow, rfl⟩
      obtain ⟨hitem', hpre, -⟩ := (hmem item).mp hbelow
      obtain ⟨f, hf, hparts, hsame⟩ := exists_file_of_index hitem' hi
      exact ⟨f, hf, hsame, hparts ▸ hpre⟩
    · rintro ⟨f, hf, rfl, hpre⟩
      have hne : f.parts ≠ [] := fun hnil =>
        (exists_file hitem).1 (List.prefix_nil.mp (hnil ▸ hpre))
      obtain ⟨item, hitem', hkey⟩ := exists_item hf hne
      refine ⟨by omega, item, ?_, fileIndex_eq hsep hf hitem' hkey⟩
      rw [hmem, hkey]
      refine ⟨hitem', hpre, fun hsame => hindex ?_⟩
      rw [fileIndex_eq hsep hf hitem hsame.symm]
      omega

/-- A file is at or below a selected item. -/
def TaskFile.Selected (selectedItems : List (TreeItem × Forest TreeItem)) (f : TaskFile) : Prop :=
  ∃ n ∈ selectedItems, n.1.key <+: f.parts

theorem mem_sent_iff {selectedItems : List (TreeItem × Forest TreeItem)}
    (hselected : ∀ n ∈ selectedItems, n ∈ (contentTree files).nodes) (i : Int) :
    i ∈ stdUnique ((selectedItems.flatMap collectFileIndices).mergeSort (· ≤ ·)) ↔
      ∃ f ∈ files, (f.fileIndex : Int) = i ∧ f.Selected selectedItems := by
  rw [mem_stdUnique, List.mem_mergeSort, List.mem_flatMap]
  constructor
  · rintro ⟨n, hn, hi⟩
    obtain ⟨f, hf, hindex, hpre⟩ := (mem_collectFileIndices hsep (hselected n hn) i).mp hi
    exact ⟨f, hf, hindex, n, hn, hpre⟩
  · rintro ⟨f, hf, hindex, n, hn, hpre⟩
    exact ⟨n, hn, (mem_collectFileIndices hsep (hselected n hn) i).mpr ⟨f, hf, hindex, hpre⟩⟩

end

/-- The torrent after the priority was set for the selected items. -/
def prioritizeSelection (t : PrioritizedTorrent) (selectedItems : List (TreeItem × Forest TreeItem))
    (level : TaskFilePriorityLevel) : PrioritizedTorrent :=
  (applyPriorityToSelection selectedItems level).elim t (setTaskFilePriority t)

theorem filePriorities_setTaskFilePriority (t : PrioritizedTorrent) (c : SetTaskFilePriorityCmd) (i : Nat) :
    (setTaskFilePriority t c).filePriorities[i]? =
      if (i : Int) ∈ c.fileIndices then t.filePriorities[i]?.map fun _ => toLtPriority c.level
      else t.filePriorities[i]? := by
  unfold setTaskFilePriority
  by_cases hnone : t.filePriorities = []
  · rw [if_pos hnone, hnone]
    simp
  · rw [if_neg hnone]
    exact getElem?_assignPriority _ _ _ i

/-- Setting a priority in the tree reaches the files at and below the selected items, and no others. -/
theorem prioritizeSelection_files {files : List TaskFile} (hsep : Separate files)
    {selectedItems : List (TreeItem × Forest TreeItem)}
    (hselected : ∀ n ∈ selectedItems, n ∈ (contentTree files).nodes) (level : TaskFilePriorityLevel)
    (t : PrioritizedTorrent) (i : Nat) :
    ((∃ f ∈ files, f.fileIndex = i ∧ f.Selected selectedItems) →
      (prioritizeSelection t selectedItems level).filePriorities[i]? =
        t.filePriorities[i]?.map fun _ => toLtPriority (mapTaskFilePriorityLevel level)) ∧
    ((¬∃ f ∈ files, f.fileIndex = i ∧ f.Selected selectedItems) →
      (prioritizeSelection t selectedItems level).filePriorities[i]? = t.filePriorities[i]?) := by
  have hsent := mem_sent_iff hsep hselected (i : Int)
  simp only [Nat.cast_inj] at hsent
  unfold prioritizeSelection applyPriorityToSelection
  dsimp only
  by_cases hnone : stdUnique ((selectedItems.flatMap collectFileIndices).mergeSort (· ≤ ·)) = []
  · rw [if_pos hnone]
    rw [hnone] at hsent
    exact ⟨fun h => absurd (hsent.mpr h) List.not_mem_nil, fun _ => rfl⟩
  · rw [if_neg hnone, Option.elim_some, filePriorities_setTaskFilePriority]
    exact ⟨fun h => if_pos (hsent.mpr h), fun h => if_neg (mt hsent.mp h)⟩

/-- The folder that the two files are in is selected. -/
theorem prioritizeSelection_files_flat :
    (prioritizeSelection twoNormalFiles ((contentTree flatFiles).nodes.take 1) .highest).filePriorities[1]? =
      some 7 := by
  have hselected : ∃ f ∈ flatFiles, f.fileIndex = 1 ∧
      ∃ n ∈ (contentTree flatFiles).nodes.take 1, n.1.key <+: f.parts := by decide +kernel
  have hsep : Separate flatFiles := by decide
  exact (prioritizeSelection_files hsep (fun _ => List.mem_of_mem_take) .highest twoNormalFiles 1).1 hselected

end TorrentLink.Ui
