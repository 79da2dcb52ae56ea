import TorrentLink.Lib.Forest
import TorrentLink.Lt.RenameTaskFile

/-!
# The content tree of a task

The page builds a tree of the names in the paths of the files, whose items hold their paths, and after a
rename it rewrites the path of the item and of the items below it. The tree is placed by the parts of the
paths, so the items below one are those whose paths go on after its path, and the rewriting is the rename
of the paths of the files (`shownPaths_requestRename`).
-/

namespace TorrentLink.Ui

open Lib Lt

/-- The part of `TaskFileEntryDto` that places a file in the tree. -/
structure TaskFileEntry where
  fileIndex : Nat
  logicalPath : FilePath
  deriving DecidableEq, Repr

/-- The files as `QueryTaskFilesCmd` lists them. -/
def queryTaskFiles (paths : List FilePath) : List TaskFileEntry :=
  paths.mapIdx fun i p => { fileIndex := i, logicalPath := p }

/-- An item of the tree, with the file whose size, progress and priority its columns show. -/
structure TreeItem where
  text : FilePath
  path : FilePath
  isDir : Bool
  fileIndex : Int
  shows : Option Nat
  deriving DecidableEq, Repr

/-! ### Loading -/

section Load

variable (f : TaskFileEntry)

/-- The new items for the parts of a path that have none yet. -/
def newNodes : FilePath → List FilePath → Forest TreeItem
  | _, [] => .nil
  | acc, part :: parts =>
    let isLeaf : Bool := parts = []
    let item :=
      { text := part
        path := child '/' acc part
        isDir := !isLeaf
        fileIndex := if isLeaf then f.fileIndex else -1
        shows := if isLeaf then some f.fileIndex else none }
    .node item (newNodes (child '/' acc part) parts) .nil

/-- The loop over the parts of a path. The items with the directory `acc` are searched for the next one,
as no other item has its path. -/
def addParts : Forest TreeItem → FilePath → List FilePath → Forest TreeItem
  | .nil, acc, parts => newNodes f acc parts
  | .node item children siblings, _, [] => .node item children siblings
  | .node item children siblings, acc, part :: parts =>
    if item.path = child '/' acc part then
      let item := if parts = [] then { item with shows := some f.fileIndex } else item
      .node item (addParts children (child '/' acc part) parts) siblings
    else .node item children (addParts siblings acc (part :: parts))

end Load

def reloadTree (files : List TaskFileEntry) : Forest TreeItem :=
  files.foldl (fun tree f => addParts f tree [] ((f.logicalPath.splitOn '/').filter (· ≠ []))) .nil

/-! ### Renaming -/

/-- One step of `rewritePathRecursive`. -/
def rewritePath (oldPrefix newPrefix : FilePath) (item : TreeItem) : TreeItem :=
  let curr := item.path
  if curr = oldPrefix ∨ oldPrefix ++ ['/'] <+: curr then
    { item with path := newPrefix ++ curr.drop oldPrefix.length }
  else item

/-- The item is the one with the path `oldPath`. -/
def applyRenameLocally (oldPath newName : FilePath) (tree : Forest TreeItem) : Forest TreeItem :=
  if oldPath = [] then tree
  else
    let newPath := child '/' (parent '/' oldPath) newName
    tree.mapAt (fun item => item.path = oldPath)
      (fun item => rewritePath oldPath newPath { item with text := newName })
      (rewritePath oldPath newPath)

/-- The tree after `showContextMenu` has asked for the new name of an item: the name is trimmed, the path
of the item is not. -/
def requestRename (logical newName : FilePath) (tree : Forest TreeItem) : Forest TreeItem :=
  if trimChars newName = [] then tree else applyRenameLocally logical (trimChars newName) tree

/-- The path that each of the first `n` files has in the tree. -/
def shownPaths (tree : Forest TreeItem) (n : Nat) : List (Option FilePath) :=
  (List.range n).map fun i => (tree.items.find? (·.shows = some i)).map (·.path)

/-! ### The items stand at their paths -/

/-- The parts of the path of an item. -/
def TreeItem.key (item : TreeItem) : List FilePath := components '/' item.path

variable {f : TaskFileEntry} {tree : Forest TreeItem} {acc : FilePath} {parts : List FilePath}

theorem placed_newNodes (hslash : ∀ part ∈ parts, '/' ∉ part) (hne : [] ∉ parts) :
    (newNodes f acc parts).Placed TreeItem.key (components '/' acc) := by
  induction parts generalizing acc with
  | nil => trivial
  | cons part parts ih =>
    have hkey : components '/' (child '/' acc part) = components '/' acc ++ [part] :=
      components_child (hslash part List.mem_cons_self) fun h => hne (h ▸ List.mem_cons_self)
    refine ⟨⟨part, hkey⟩, ?_, trivial, fun item' hitem' => ?_⟩
    · exact ih (fun part' h => hslash part' (List.mem_cons_of_mem _ h)) fun h => hne (List.mem_cons_of_mem _ h)
    · cases hitem'

theorem roots_newNodes {root : TreeItem} (hroot : root ∈ (newNodes f acc parts).roots) :
    ∃ part ∈ parts.head?, root.path = child '/' acc part := by
  cases parts with
  | nil => cases hroot
  | cons part parts =>
    obtain rfl : root = _ := List.mem_singleton.mp hroot
    exact ⟨part, rfl, rfl⟩

/-- At the roots there is a new path at most. -/
theorem roots_addParts {root : TreeItem} (hroot : root ∈ (addParts f tree acc parts).roots) :
    (∃ item ∈ tree.roots, root.path = item.path) ∨ ∃ part ∈ parts.head?, root.path = child '/' acc part := by
  induction tree with
  | nil => exact .inr (roots_newNodes hroot)
  | node item children siblings _ ih =>
    cases parts with
    | nil => exact .inl ⟨root, hroot, rfl⟩
    | cons part parts =>
      rw [addParts] at hroot
      split at hroot
      · refine .inl ?_
        rcases List.mem_cons.mp hroot with rfl | hroot
        · refine ⟨item, List.mem_cons_self, ?_⟩
          split <;> rfl
        · exact ⟨root, List.mem_cons_of_mem _ hroot, rfl⟩
      · rcases List.mem_cons.mp hroot with rfl | hroot
        · exact .inl ⟨root, List.mem_cons_self, rfl⟩
        · refine (ih hroot).imp_left ?_
          rintro ⟨item', hitem', hpath⟩
          exact ⟨item', List.mem_cons_of_mem _ hitem', hpath⟩

theorem placed_addParts (h : tree.Placed TreeItem.key (components '/' acc))
    (hslash : ∀ part ∈ parts, '/' ∉ part) (hne : [] ∉ parts) :
    (addParts f tree acc parts).Placed TreeItem.key (components '/' acc) := by
  induction tree generalizing acc parts with
  | nil => exact placed_newNodes hslash hne
  | node item children siblings hchildren hsiblings =>
    cases parts with
    | nil => exact h
    | cons part parts =>
      obtain ⟨hitem, hbelow, hbehind, hdistinct⟩ := h
      rw [addParts]
      split
      · rename_i hpath
        have hkey : (if parts = [] then { item with shows := some f.fileIndex } else item).key = item.key := by
          split <;> rfl
        have hbelow' : children.Placed TreeItem.key (components '/' (child '/' acc part)) := hpath ▸ hbelow
        refine ⟨hkey ▸ hitem, ?_, hbehind, fun root hroot => hkey ▸ hdistinct root hroot⟩
        rw [hkey, TreeItem.key, hpath]
        exact hchildren hbelow' (fun part' h => hslash part' (List.mem_cons_of_mem _ h))
          fun h => hne (List.mem_cons_of_mem _ h)
      · rename_i hpath
        refine ⟨hitem, hbelow, hsiblings hbehind hslash hne, fun root hroot hsame => ?_⟩
        rw [TreeItem.key, TreeItem.key, components_inj] at hsame
        rcases roots_addParts hroot with ⟨item', hitem', hpath'⟩ | ⟨part', hpart', hpath'⟩
        · refine hdistinct item' hitem' ?_
          rw [TreeItem.key, TreeItem.key, ← hpath', hsame]
        · obtain rfl : part = part' := Option.some.inj hpart'
          exact hpath (hsame.symm.trans hpath')

theorem placed_reloadTree (files : List TaskFileEntry) : (reloadTree files).Placed TreeItem.key [] := by
  induction files using List.reverseRecOn with
  | nil => trivial
  | append_singleton files f ih =>
    rw [reloadTree, List.foldl_append]
    have hbefore : (reloadTree files).Placed TreeItem.key (components '/' []) := ih
    refine placed_addParts hbefore (fun part hpart => ?_) ?_
    · exact notMem_of_mem_splitOn (List.mem_filter.mp hpart).1
    · simp

/-! ### Where a file is shown -/

/-- Some item shows the file and has the path. -/
def ShownAt (tree : Forest TreeItem) (i : Nat) (p : FilePath) : Prop :=
  ∃ item ∈ tree.items, item.shows = some i ∧ item.path = p

variable {i : Nat} {p : FilePath}

theorem shownAt_nil : ¬ ShownAt .nil i p := by
  rintro ⟨item, hitem, -⟩
  cases hitem

theorem shownAt_node {item : TreeItem} {children siblings : Forest TreeItem} :
    ShownAt (.node item children siblings) i p ↔
      (item.shows = some i ∧ item.path = p) ∨ ShownAt children i p ∨ ShownAt siblings i p := by
  unfold ShownAt
  simp only [Forest.items, List.mem_cons, List.mem_append, or_and_right, exists_or, exists_eq_left]

theorem shownAt_newNodes (hparts : parts ≠ []) :
    ShownAt (newNodes f acc parts) i p ↔ i = f.fileIndex ∧ p = parts.foldl (child '/') acc := by
  induction parts generalizing acc with
  | nil => exact absurd rfl hparts
  | cons part parts ih =>
    rw [newNodes, shownAt_node, or_iff_left shownAt_nil]
    by_cases hlast : parts = []
    · subst hlast
      rw [newNodes, or_iff_left shownAt_nil]
      simp [eq_comm]
    · rw [ih hlast, or_iff_right]
      · rfl
      · simp [hlast]

theorem addParts_nil : addParts f tree acc [] = tree := by
  cases tree <;> rfl

/-- A file whose path is new is shown there, and the others where they were. -/
theorem shownAt_addParts (hparts : parts ≠ [])
    (hnew : ∀ item ∈ tree.items, item.path = parts.foldl (child '/') acc → item.shows = none) :
    ShownAt (addParts f tree acc parts) i p ↔
      (i = f.fileIndex ∧ p = parts.foldl (child '/') acc) ∨ ShownAt tree i p := by
  induction tree generalizing acc parts with
  | nil =>
    rw [addParts, shownAt_newNodes hparts, or_iff_left shownAt_nil]
  | node item children siblings hchildren hsiblings =>
    cases parts with
    | nil => exact absurd rfl hparts
    | cons part parts =>
      have hnewChildren := fun item' h => hnew item' (List.mem_cons_of_mem _ (List.mem_append_left _ h))
      have hnewSiblings := fun item' h => hnew item' (List.mem_cons_of_mem _ (List.mem_append_right _ h))
      rw [addParts]
      split
      · rename_i hpath
        by_cases hlast : parts = []
        · -- the item itself shows the file now
          subst hlast
          have hitem := hnew item List.mem_cons_self hpath
          rw [if_pos rfl, addParts_nil, shownAt_node, shownAt_node, hitem, hpath]
          simp [eq_comm]
        · rw [if_neg hlast, shownAt_node, shownAt_node, hchildren hlast hnewChildren, List.foldl_cons]
          tauto
      · rw [shownAt_node, shownAt_node, hsiblings hparts hnewSiblings]
        tauto

theorem foldl_parts {p : FilePath} (hp : [] ∉ p.splitOn '/') :
    ((p.splitOn '/').filter (· ≠ [])).foldl (child '/') [] = p ∧ (p.splitOn '/').filter (· ≠ []) ≠ [] := by
  have hfilter : (p.splitOn '/').filter (· ≠ []) = p.splitOn '/' := by
    rw [List.filter_eq_self]
    intro part hpart
    simpa using fun hnil : part = [] => hp (hnil ▸ hpart)
  rw [hfilter, foldl_child hp, List.intercalate_splitOn]
  exact ⟨rfl, List.splitOn_ne_nil _ _⟩

theorem shownAt_reloadTree {paths : List FilePath} (hpaths : ∀ p ∈ paths, [] ∉ p.splitOn '/')
    (hdistinct : paths.Nodup) : ShownAt (reloadTree (queryTaskFiles paths)) i p ↔ paths[i]? = some p := by
  induction paths using List.reverseRecOn generalizing i p with
  | nil => exact iff_of_false shownAt_nil (by simp)
  | append_singleton paths last ih =>
    rw [List.nodup_append] at hdistinct
    have ih' := fun i p => ih (fun p hp => hpaths p (List.mem_append_left _ hp)) hdistinct.1 (i := i) (p := p)
    obtain ⟨hlast, hparts⟩ := foldl_parts (hpaths last (by simp))
    have hload : reloadTree (queryTaskFiles (paths ++ [last])) =
        addParts { fileIndex := paths.length, logicalPath := last } (reloadTree (queryTaskFiles paths)) []
          ((last.splitOn '/').filter (· ≠ [])) := by
      rw [queryTaskFiles, List.mapIdx_concat, reloadTree, List.foldl_append]
      rfl
    rw [hload, shownAt_addParts hparts, hlast, ih', List.getElem?_append]
    · rcases Nat.lt_trichotomy i paths.length with hlt | rfl | hgt
      · simp [hlt, hlt.ne]
      · simp [eq_comm]
      · have hnone : [last][i - paths.length]? = none := List.getElem?_eq_none (by simp; omega)
        simp [hnone, hgt.ne', hgt.le]
    · intro item hitem hpath
      rw [hlast] at hpath
      by_contra hshows
      obtain ⟨k, hk⟩ := Option.ne_none_iff_exists'.mp hshows
      have hmem := List.mem_of_getElem? ((ih' k last).mp ⟨item, hitem, hk, hpath⟩)
      exact hdistinct.2.2 last hmem last (by simp) rfl

theorem shownPaths_eq {paths : List FilePath}
    (h : ∀ i p, ShownAt tree i p ↔ paths[i]? = some p) : shownPaths tree paths.length = paths.map some := by
  refine List.ext_getElem (by simp [shownPaths]) fun i _ hi => ?_
  have hi' : i < paths.length := by simpa using hi
  simp only [shownPaths, List.getElem_map, List.getElem_range]
  obtain ⟨item, hitem, hshows, -⟩ := (h i paths[i]).mpr (List.getElem?_eq_getElem hi')
  obtain ⟨found, hfound⟩ : ∃ found, tree.items.find? (·.shows = some i) = some found := by
    rw [← Option.isSome_iff_exists, List.find?_isSome]
    exact ⟨item, hitem, by simpa using hshows⟩
  have hpath := (h i found.path).mp
    ⟨found, List.mem_of_find?_eq_some hfound, by simpa using List.find?_some hfound, rfl⟩
  rw [hfound, Option.map_some, ← hpath, List.getElem?_eq_getElem hi']

/-! ### After a rename -/

theorem rewritePath_eq (old new : FilePath) (item : TreeItem) :
    rewritePath old new item = { item with path := replaceRoot '/' old new item.path } := by
  by_cases hbelow : AtOrBelow '/' old item.path
  · rw [replaceRoot_of_below hbelow]
    exact if_pos hbelow
  · rw [replaceRoot_of_not_below hbelow]
    exact if_neg hbelow

/-- The rename of an item replaces the root in every path. -/
theorem items_applyRenameLocally {src name : FilePath} (hsrc : src ≠ []) (h : tree.Placed TreeItem.key []) :
    ∃ rename : TreeItem → TreeItem, (applyRenameLocally src name tree).items = tree.items.map rename ∧
      ∀ item, (rename item).shows = item.shows ∧
        (rename item).path = replaceRoot '/' src (child '/' (parent '/' src) name) item.path := by
  have hkey : ∀ item : TreeItem, decide (item.path = src) = true ↔ item.key = components '/' src := by
    intro item
    rw [decide_eq_true_iff, TreeItem.key, components_inj]
  have hne : ¬ components '/' src <+: [] := by
    intro hpre
    have hnil : components '/' src = components '/' [] := List.prefix_nil.mp hpre
    exact hsrc (components_inj.mp hnil)
  rw [applyRenameLocally, if_neg hsrc]
  refine ⟨_, Forest.items_mapAt hkey h hne, fun item => ?_⟩
  by_cases hself : item.key = components '/' src
  · rw [if_pos hself, rewritePath_eq]
    exact ⟨rfl, rfl⟩
  · rw [if_neg hself]
    by_cases hbelow : components '/' src <+: item.key
    · rw [if_pos hbelow, rewritePath_eq]
      exact ⟨rfl, rfl⟩
    · rw [if_neg hbelow]
      rw [TreeItem.key, ← atOrBelow_iff hsrc] at hbelow
      exact ⟨rfl, (replaceRoot_of_not_below hbelow).symm⟩

theorem shownAt_applyRenameLocally {src name : FilePath} (hsrc : src ≠ []) (h : tree.Placed TreeItem.key []) :
    ShownAt (applyRenameLocally src name tree) i p ↔
      ∃ old, ShownAt tree i old ∧ replaceRoot '/' src (child '/' (parent '/' src) name) old = p := by
  obtain ⟨rename, hitems, hrename⟩ : ∃ rename : TreeItem → TreeItem, _ := items_applyRenameLocally hsrc h
  unfold ShownAt
  rw [hitems]
  constructor
  · rintro ⟨_, hmem, hshows, rfl⟩
    obtain ⟨item, hitem, rfl⟩ := List.mem_map.mp hmem
    exact ⟨item.path, ⟨item, hitem, (hrename item).1 ▸ hshows, rfl⟩, (hrename item).2.symm⟩
  · rintro ⟨_, ⟨item, hitem, hshows, rfl⟩, rfl⟩
    exact ⟨rename item, List.mem_map_of_mem hitem, (hrename item).1.trans hshows, (hrename item).2⟩

/-- The paths in the tree are those that the request asks for. -/
theorem shownPaths_requestRename (fs : FileStorage) (hdistinct : fs.paths.Nodup) {src newName : FilePath}
    (hname : trimChars newName ≠ []) (hsrc : src ≠ []) :
    shownPaths (requestRename src newName (reloadTree (queryTaskFiles fs.paths))) fs.paths.length =
      (fs.paths.map (replaceRoot '/' src (renamedPath src newName))).map some := by
  rw [requestRename, if_neg hname]
  have hlength : fs.paths.length = (fs.paths.map (replaceRoot '/' src (renamedPath src newName))).length := by
    rw [List.length_map]
  rw [hlength]
  refine shownPaths_eq fun i p => ?_
  rw [shownAt_applyRenameLocally hsrc (placed_reloadTree _), List.getElem?_map, Option.map_eq_some_iff]
  refine exists_congr fun old => ?_
  rw [shownAt_reloadTree fs.relative hdistinct]
  rfl

/-- The worker does what the request says, and the tree shows it, exactly if the path has no space at its
ends or keeps its name, and no file stands in the way. -/
theorem rename_correct_iff (fs : FileStorage) (hdistinct : fs.paths.Nodup) (src newName : FilePath)
    (hname : trimChars newName ≠ []) (hsrc : ∃ p ∈ fs.paths, AtOrBelow '/' src p) :
    (RenamesOnly src newName fs.paths (renameTaskFileOrFolder fs.paths src newName) ∧
      shownPaths (requestRename src newName (reloadTree (queryTaskFiles fs.paths))) fs.paths.length =
        (renameTaskFileOrFolder fs.paths src newName).map some) ↔
      (trimChars src = src ∨ trimChars newName = fileName '/' src) ∧ RenamedFree src newName fs.paths := by
  rw [← renamesOnly_renameTaskFileOrFolder_iff fs hdistinct hname hsrc]
  refine and_iff_left_of_imp fun h => ?_
  obtain ⟨p, hp, hbelow⟩ := hsrc
  rw [shownPaths_requestRename fs hdistinct hname (nil_notMem_components fs.relative hp hbelow).1,
    (renamesOnly_iff.mp h).1]

/-- A folder whose name ends with a space, and another one with two files. -/
def blankFolder : FileStorage where
  paths := ["a /x".toList, "b/x".toList, "b/y".toList]
  relative := by decide +kernel

theorem rename_correct_iff_blankFolder :
    RenamesOnly "b".toList " c ".toList blankFolder.paths
        (renameTaskFileOrFolder blankFolder.paths "b".toList " c ".toList) ∧
      shownPaths (requestRename "b".toList " c ".toList (reloadTree (queryTaskFiles blankFolder.paths)))
          blankFolder.paths.length =
        (renameTaskFileOrFolder blankFolder.paths "b".toList " c ".toList).map some :=
  (rename_correct_iff blankFolder (by decide +kernel) _ _ (by decide +kernel)
    ⟨"b/x".toList, by decide +kernel, by decide +kernel⟩).mpr ⟨.inl (by decide +kernel), by decide +kernel⟩

/-- The worker does not find the folder that the tree renames, and gives two files one path. -/
theorem blankFolder_renames :
    blankFolder.paths.Nodup ∧ (∃ p ∈ blankFolder.paths, AtOrBelow '/' "a ".toList p) ∧
      renameTaskFileOrFolder blankFolder.paths "a ".toList "c".toList = blankFolder.paths ∧
      shownPaths (requestRename "a ".toList "c".toList (reloadTree (queryTaskFiles blankFolder.paths))) 3 =
        [some "c/x".toList, some "b/x".toList, some "b/y".toList] ∧
      ¬ RenamesOnly "a ".toList "c".toList blankFolder.paths
        (renameTaskFileOrFolder blankFolder.paths "a ".toList "c".toList) ∧
      renameTaskFileOrFolder blankFolder.paths "b/x".toList "y".toList =
        ["a /x".toList, "b/y".toList, "b/y".toList] ∧
      ¬ RenamesOnly "b/x".toList "y".toList blankFolder.paths
        (renameTaskFileOrFolder blankFolder.paths "b/x".toList "y".toList) := by
  refine ⟨by decide +kernel, by decide +kernel, by decide +kernel, by decide +kernel, fun h => ?_,
    by decide +kernel, fun h => ?_⟩
  · have hrenamed := h.renamed 0 "a /x".toList (by decide +kernel) (by decide +kernel)
    revert hrenamed
    decide +kernel
  · have hdistinct := h.distinct
    revert hdistinct
    decide +kernel

end TorrentLink.Ui
