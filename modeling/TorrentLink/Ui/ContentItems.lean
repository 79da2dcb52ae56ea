import TorrentLink.Ui.ContentTree

/-!
# The items of the content tree

The items stand at the beginnings of the paths of the files (`hasItem_reloadTree`,
`exists_hasItem_reloadTree`). An item is a directory or a file as the first path to come by has it.
-/

namespace TorrentLink.Ui

open Lib Lt

/-- The parts of the path, empty ones skipped. -/
def TaskFileEntry.parts (e : TaskFileEntry) : List FilePath := (e.logicalPath.splitOn '/').filter (· ≠ [])

/-- An item stands at these parts. -/
def HasItem (tree : Forest TreeItem) (k : List FilePath) (isDir : Bool) : Prop :=
  ∃ item ∈ tree.items, item.key = k ∧ item.isDir = isDir

/-- What a path puts at `k`, from `acc` on: a directory, or the file at its end. -/
def OnWay (acc parts k : List FilePath) (isDir : Bool) : Prop :=
  ∃ way rest, parts = way ++ rest ∧ way ≠ [] ∧ k = acc ++ way ∧ isDir = !rest.isEmpty

variable {e : TaskFileEntry} {tree : Forest TreeItem} {acc : FilePath} {k parts : List FilePath}
  {isDir : Bool}

theorem hasItem_node {item : TreeItem} {children siblings : Forest TreeItem} :
    HasItem (.node item children siblings) k isDir ↔
      (item.key = k ∧ item.isDir = isDir) ∨ HasItem children k isDir ∨ HasItem siblings k isDir := by
  unfold HasItem
  simp only [Forest.items, List.mem_cons, List.mem_append, or_and_right, exists_or, exists_eq_left]

theorem not_hasItem_nil : ¬ HasItem .nil k isDir := by
  rintro ⟨item, hitem, -⟩
  cases hitem

theorem not_onWay_nil {acc : List FilePath} : ¬ OnWay acc [] k isDir := by
  rintro ⟨way, rest, hsplit, hway, -⟩
  exact hway (List.append_eq_nil_iff.mp hsplit.symm).1

theorem onWay_cons {acc : List FilePath} {part : FilePath} : OnWay acc (part :: parts) k isDir ↔
    (k = acc ++ [part] ∧ isDir = !parts.isEmpty) ∨ OnWay (acc ++ [part]) parts k isDir := by
  constructor
  · rintro ⟨way, rest, hsplit, hway, rfl, rfl⟩
    obtain ⟨part', way, rfl⟩ := List.exists_cons_of_ne_nil hway
    obtain ⟨rfl, rfl⟩ := List.cons.inj hsplit
    by_cases hnil : way = []
    · exact .inl (by simp [hnil])
    · exact .inr ⟨way, rest, rfl, hnil, by simp, rfl⟩
  · rintro (⟨rfl, rfl⟩ | ⟨way, rest, rfl, hway, rfl, rfl⟩)
    · exact ⟨[part], parts, rfl, by simp, rfl, rfl⟩
    · exact ⟨part :: way, rest, rfl, by simp, by simp, rfl⟩

/-- From the top, the way goes over the beginnings of the path. -/
theorem onWay_nil_iff : OnWay [] parts k isDir ↔ k ≠ [] ∧ k <+: parts ∧ (isDir = true ↔ k ≠ parts) := by
  constructor
  · rintro ⟨way, rest, rfl, hway, rfl, rfl⟩
    refine ⟨hway, List.prefix_append _ _, ?_⟩
    simp
  · rintro ⟨hk, ⟨rest, rfl⟩, hdir⟩
    refine ⟨k, rest, rfl, hk, rfl, ?_⟩
    rw [Bool.eq_iff_iff, hdir]
    simp

section Add

variable (hslash : ∀ part ∈ parts, '/' ∉ part) (hne : [] ∉ parts)
include hslash hne

theorem hasItem_newNodes :
    HasItem (newNodes e acc parts) k isDir ↔ OnWay (components '/' acc) parts k isDir := by
  induction parts generalizing acc with
  | nil => exact iff_of_false not_hasItem_nil not_onWay_nil
  | cons part parts ih =>
    have hkey : components '/' (child '/' acc part) = components '/' acc ++ [part] :=
      components_child (hslash part List.mem_cons_self) fun h => hne (h ▸ List.mem_cons_self)
    rw [newNodes, hasItem_node, or_iff_left not_hasItem_nil, onWay_cons, ← hkey,
      ih (fun part' h => hslash part' (List.mem_cons_of_mem _ h)) fun h => hne (List.mem_cons_of_mem _ h)]
    refine or_congr_left (and_congr eq_comm ?_)
    cases parts <;> exact eq_comm

theorem hasItem_of_addParts (h : HasItem (addParts e tree acc parts) k isDir) :
    HasItem tree k isDir ∨ OnWay (components '/' acc) parts k isDir := by
  induction tree generalizing acc parts with
  | nil => exact .inr ((hasItem_newNodes hslash hne).mp h)
  | node item children siblings hchildren hsiblings =>
    cases parts with
    | nil => exact .inl h
    | cons part parts =>
      have hkey : components '/' (child '/' acc part) = components '/' acc ++ [part] :=
        components_child (hslash part List.mem_cons_self) fun h => hne (h ▸ List.mem_cons_self)
      rw [hasItem_node]
      rw [addParts] at h
      split at h
      · rcases hasItem_node.mp h with hitem | hbelow | hbehind
        · refine .inl (.inl ?_)
          split at hitem <;> exact hitem
        · rw [onWay_cons, ← hkey]
          rcases hchildren (fun part' h => hslash part' (List.mem_cons_of_mem _ h))
            (fun h => hne (List.mem_cons_of_mem _ h)) hbelow with hold | hnew
          · exact .inl (.inr (.inl hold))
          · exact .inr (.inr hnew)
        · exact .inl (.inr (.inr hbehind))
      · rcases hasItem_node.mp h with hitem | hbelow | hbehind
        · exact .inl (.inl hitem)
        · exact .inl (.inr (.inl hbelow))
        · exact (hsiblings hslash hne hbehind).imp_left fun hold => .inr (.inr hold)

theorem exists_hasItem_addParts (h : OnWay (components '/' acc) parts k isDir) :
    ∃ isDir, HasItem (addParts e tree acc parts) k isDir := by
  induction tree generalizing acc parts with
  | nil => exact ⟨isDir, (hasItem_newNodes hslash hne).mpr h⟩
  | node item children siblings hchildren hsiblings =>
    cases parts with
    | nil => exact absurd h not_onWay_nil
    | cons part parts =>
      have hkey : components '/' (child '/' acc part) = components '/' acc ++ [part] :=
        components_child (hslash part List.mem_cons_self) fun h => hne (h ▸ List.mem_cons_self)
      rw [addParts]
      split
      · rename_i hpath
        simp only [hasItem_node]
        rw [onWay_cons, ← hkey] at h
        rcases h with ⟨rfl, -⟩ | hbelow
        · refine ⟨item.isDir, .inl ?_⟩
          rw [← hpath]
          split <;> exact ⟨rfl, rfl⟩
        · obtain ⟨isDir', hitem⟩ := hchildren (fun part' h => hslash part' (List.mem_cons_of_mem _ h))
            (fun h => hne (List.mem_cons_of_mem _ h)) hbelow
          exact ⟨isDir', .inr (.inl hitem)⟩
      · obtain ⟨isDir', hitem⟩ := hsiblings hslash hne h
        exact ⟨isDir', hasItem_node.mpr (.inr (.inr hitem))⟩

end Add

theorem HasItem.addParts (h : HasItem tree k isDir) (acc : FilePath) (parts : List FilePath) :
    HasItem (Ui.addParts e tree acc parts) k isDir := by
  induction tree generalizing acc parts with
  | nil => exact absurd h not_hasItem_nil
  | node item children siblings hchildren hsiblings =>
    cases parts with
    | nil => exact h
    | cons part parts =>
      rw [Ui.addParts]
      split
      · rw [hasItem_node] at h ⊢
        rcases h with hitem | hbelow | hbehind
        · refine .inl ?_
          split <;> exact hitem
        · exact .inr (.inl (hchildren hbelow _ _))
        · exact .inr (.inr hbehind)
      · rw [hasItem_node] at h ⊢
        exact h.imp_right (Or.imp_right fun hbehind => hsiblings hbehind _ _)

/-! ### All files -/

variable {es : List TaskFileEntry}

theorem slash_notMem_parts (e : TaskFileEntry) : ∀ part ∈ e.parts, '/' ∉ part :=
  fun _ hpart => notMem_of_mem_splitOn (List.mem_filter.mp hpart).1

theorem nil_notMem_parts (e : TaskFileEntry) : [] ∉ e.parts := by
  simp [TaskFileEntry.parts]

theorem reloadTree_concat (es : List TaskFileEntry) (e : TaskFileEntry) :
    reloadTree (es ++ [e]) = addParts e (reloadTree es) [] e.parts :=
  List.foldl_append

/-- An item is on the way to a file, which decides whether it is a directory. -/
theorem hasItem_reloadTree (h : HasItem (reloadTree es) k isDir) :
    ∃ e ∈ es, OnWay [] e.parts k isDir := by
  induction es using List.reverseRecOn with
  | nil => exact absurd h not_hasItem_nil
  | append_singleton es e ih =>
    rw [reloadTree_concat] at h
    rcases hasItem_of_addParts (slash_notMem_parts e) (nil_notMem_parts e) h with hold | hnew
    · obtain ⟨e', he', hway⟩ := ih hold
      exact ⟨e', List.mem_append_left _ he', hway⟩
    · exact ⟨e, by simp, hnew⟩

/-- There is an item everywhere on the way to a file. -/
theorem exists_hasItem_reloadTree (he : e ∈ es) (h : OnWay [] e.parts k isDir) :
    ∃ isDir, HasItem (reloadTree es) k isDir := by
  induction es using List.reverseRecOn with
  | nil => cases he
  | append_singleton es e' ih =>
    rw [reloadTree_concat]
    rcases List.mem_append.mp he with he | he
    · obtain ⟨isDir', hitem⟩ := ih he
      exact ⟨isDir', hitem.addParts [] e'.parts⟩
    · obtain rfl := List.mem_singleton.mp he
      exact exists_hasItem_addParts (slash_notMem_parts e) (nil_notMem_parts e) h

end TorrentLink.Ui
