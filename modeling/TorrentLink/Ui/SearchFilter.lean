import TorrentLink.Lib.Visits
import TorrentLink.Ui.ContentTree

/-!
# The search filter of the content tree

`applySearchFilter` unhides all items and then visits each item before those below it. An item reads
whether its children are hidden before they are visited, when none is: an item with children is always
shown, and one without children if its name matches (`shown_iff`). The filter is right where every item
with children has a match at or below it.
-/

namespace TorrentLink.Ui

open Lib Lt

/-- An item of the tree with its position. -/
abbrev PlacedItem := List Nat × TreeItem

/-- `isHidden`, by position. -/
abbrev HiddenItems := List Nat → Bool

-- `QString::toLower`
variable (toLower : List Char → List Char)

/-- The positions of the parents of an item, the nearest first. -/
def parents (position : List Nat) :
    List (List Nat) := (List.range' 1 (position.length - 1)).reverse.map position.take

/-- The loop over the parents of a visible item. -/
def unhideParents (hidden : HiddenItems) (position : List Nat) : HiddenItems :=
  (parents position).foldl (fun hidden p => Function.update hidden p false) hidden

/-- One turn of the second loop. -/
def filterItem (key : List Char) (hidden : HiddenItems) (v : PlacedItem × List PlacedItem) :
    HiddenItems :=
  let visible : Bool := key <:+: toLower v.1.2.text || v.2.any fun child => !hidden child.1
  let hidden := Function.update hidden v.1.1 !visible
  if visible then unhideParents hidden v.1.1 else hidden

/-- The flags after the filter, from any flags before it. -/
def applySearchFilter (tree : Forest TreeItem) (searchText : List Char) (hidden : HiddenItems) :
    HiddenItems :=
  let items := tree.numbered [] 0
  let key := toLower (trimChars searchText)
  let hidden := items.items.foldl (fun hidden item => Function.update hidden item.1 false) hidden
  if key = [] then hidden else items.visits.foldl (filterItem toLower key) hidden

/-- The name of the item contains the key. -/
def Matches (key : List Char) (item : TreeItem) : Prop := key <:+: toLower item.text

instance (key : List Char) (item : TreeItem) : Decidable (Matches toLower key item) :=
  inferInstanceAs (Decidable (key <:+: toLower item.text))

/-- Exactly the items are shown that match or have a match below them. -/
def ShowsMatches (tree : Forest TreeItem) (key : List Char) (hidden : HiddenItems) : Prop :=
  ∀ item ∈ (tree.numbered [] 0).items, hidden item.1 = false ↔
    ∃ item' ∈ (tree.numbered [] 0).items, item.1 <+: item'.1 ∧ Matches toLower key item'.2

instance (tree : Forest TreeItem) (key : List Char) (hidden : HiddenItems) :
    Decidable (ShowsMatches toLower tree key hidden) :=
  inferInstanceAs (Decidable (∀ item ∈ (tree.numbered [] 0).items, hidden item.1 = false ↔
    ∃ item' ∈ (tree.numbered [] 0).items, item.1 <+: item'.1 ∧ Matches toLower key item'.2))

variable {toLower} {key : List Char} {hidden : HiddenItems} {p : List Nat}

/-! ### One turn -/

theorem foldl_unhide (ps : List (List Nat)) :
    ps.foldl (fun hidden p => Function.update hidden p false) hidden p =
      if p ∈ ps then false else hidden p := by
  induction ps using List.reverseRecOn with
  | nil => rfl
  | append_singleton ps q ih =>
    rw [List.foldl_append, List.foldl_cons, List.foldl_nil]
    by_cases hq : p = q
    · simp [hq]
    · rw [Function.update_of_ne hq, ih]
      simp [hq]

theorem above_of_mem_parents {position : List Nat} (h : p ∈ parents position) :
    p <+: position ∧ p ≠ position := by
  obtain ⟨n, hn, rfl⟩ := List.mem_map.mp h
  rw [List.mem_reverse, List.mem_range'_1] at hn
  refine ⟨List.take_prefix n position, fun hsame => ?_⟩
  have hlength := congrArg List.length hsame
  rw [List.length_take] at hlength
  omega

variable (v : PlacedItem × List PlacedItem)

/-- At its own turn an item is shown if it matches or a child of it is not hidden. -/
theorem filterItem_self : filterItem toLower key hidden v v.1.1 = false ↔
    Matches toLower key v.1.2 ∨ ∃ child ∈ v.2, hidden child.1 = false := by
  have hself : v.1.1 ∉ parents v.1.1 := fun h => (above_of_mem_parents h).2 rfl
  have hread : (decide (key <:+: toLower v.1.2.text) || v.2.any fun child => !hidden child.1) = true ↔
      Matches toLower key v.1.2 ∨ ∃ child ∈ v.2, hidden child.1 = false := by
    simp [Matches]
  rw [← hread, ← Bool.not_eq_false']
  unfold filterItem unhideParents
  split_ifs
  · rw [foldl_unhide, if_neg hself, Function.update_self]
  · rw [Function.update_self]

/-- At the turn of another item it stays, or is unhidden with it. -/
theorem filterItem_of_ne (hne : p ≠ v.1.1) :
    filterItem toLower key hidden v p = hidden p ∨
      filterItem toLower key hidden v p = false ∧ p <+: v.1.1 := by
  unfold filterItem unhideParents
  split_ifs
  · rw [foldl_unhide]
    split_ifs with hparent
    · exact .inr ⟨rfl, (above_of_mem_parents hparent).1⟩
    · exact .inl (Function.update_of_ne hne _ _)
  · exact .inl (Function.update_of_ne hne _ _)

theorem writesUp_filterItem : Forest.WritesUp Prod.fst (filterItem toLower key) := by
  intro hidden v p hnot
  have hne : p ≠ v.1.1 := fun hsame => hnot (hsame ▸ List.prefix_rfl)
  exact (filterItem_of_ne v hne).resolve_right fun h => hnot h.2

/-! ### All turns -/

/-- A shown item stays shown at the later turns. -/
theorem foldl_filterItem_shown {vs : List (PlacedItem × List PlacedItem)} (hne : ∀ v ∈ vs, p ≠ v.1.1)
    (hshown : hidden p = false) : vs.foldl (filterItem toLower key) hidden p = false := by
  induction vs generalizing hidden with
  | nil => exact hshown
  | cons v vs ih =>
    obtain ⟨hv, hne⟩ := List.forall_mem_cons.mp hne
    refine ih hne ?_
    rcases filterItem_of_ne v hv with hsame | hfalse
    · exact hsame.trans hshown
    · exact hfalse.1

/-- The state before the second loop. -/
theorem foldl_unhideAll (items : List PlacedItem) (item : PlacedItem) (hitem : item ∈ items) :
    items.foldl (fun hidden item => Function.update hidden item.1 false) hidden item.1 = false := by
  have hmap : items.foldl (fun hidden item => Function.update hidden item.1 false) hidden =
      (items.map Prod.fst).foldl (fun hidden p => Function.update hidden p false) hidden := by
    rw [List.foldl_map]
  rw [hmap, foldl_unhide, if_pos (List.mem_map_of_mem hitem)]

/-- What the second loop shows: the items that match, and all that have children. -/
theorem shown_iff {tree : Forest PlacedItem} (h : tree.Placed Prod.fst [])
    (hall : ∀ item ∈ tree.items, hidden item.1 = false) {v : PlacedItem × List PlacedItem}
    (hv : v ∈ tree.visits) :
    tree.visits.foldl (filterItem toLower key) hidden v.1.1 = false ↔
      Matches toLower key v.1.2 ∨ v.2 ≠ [] := by
  obtain ⟨before, after, hsplit⟩ := List.append_of_mem hv
  have hpairwise := h.pairwise_visits
  rw [hsplit, List.pairwise_append, List.pairwise_cons] at hpairwise
  have hlater : ∀ w ∈ after, v.1.1 ≠ w.1.1 :=
    fun w hw hsame => hpairwise.2.1.1 w hw (hsame ▸ List.prefix_rfl)
  -- the children are not hidden yet
  have hchildren :
      (∃ child ∈ v.2, before.foldl (filterItem toLower key) hidden child.1 = false) ↔ v.2 ≠ [] := by
    refine ⟨fun ⟨child, hchild, _⟩ => List.ne_nil_of_mem hchild, fun hne => ?_⟩
    obtain ⟨child, hchild⟩ := List.exists_mem_of_ne_nil _ hne
    obtain ⟨hitem, hpre, -⟩ := (h.mem_children_iff hv).mp hchild
    exact ⟨child, hchild, (h.foldl_visits_below writesUp_filterItem hsplit hpre).trans (hall child hitem)⟩
  have hturn := @filterItem_self toLower key (before.foldl (filterItem toLower key) hidden) v
  rw [hchildren] at hturn
  rw [hsplit, List.foldl_append, List.foldl_cons, ← hturn]
  refine ⟨fun hshown => ?_, foldl_filterItem_shown hlater⟩
  by_cases hnil : v.2 = []
  · -- nothing is below the item, so no later turn changes it
    rwa [Forest.foldl_of_not_above writesUp_filterItem] at hshown
    intro w hw hbelow
    have hw' : w ∈ tree.visits :=
      by rw [hsplit]; exact List.mem_append_right _ (List.mem_cons_of_mem _ hw)
    obtain ⟨child, hchild, -⟩ := h.exists_child hv (Forest.mem_items_of_visits hw') hbelow (hlater w hw).symm
    rw [hnil] at hchild
    cases hchild
  · exact hturn.mpr (.inr hnil)

/-- The filter is right exactly where every item with children has a match at or below it. -/
theorem applySearchFilter_iff (toLower : List Char → List Char) (tree : Forest TreeItem)
    (searchText : List Char)
    (hkey : toLower (trimChars searchText) ≠ []) (hidden : HiddenItems) :
    ShowsMatches toLower tree (toLower (trimChars searchText))
        (applySearchFilter toLower tree searchText hidden) ↔
      ∀ v ∈ (tree.numbered [] 0).visits, v.2 ≠ [] →
        ∃ item ∈ (tree.numbered [] 0).items, v.1.1 <+: item.1 ∧
          Matches toLower (toLower (trimChars searchText)) item.2 := by
  have hplaced := Forest.placed_numbered tree [] 0
  unfold applySearchFilter ShowsMatches
  dsimp only
  rw [if_neg hkey]
  generalize toLower (trimChars searchText) = key
  generalize tree.numbered [] 0 = items at hplaced
  have hshown :=
    fun v hv => @shown_iff toLower key _ items hplaced (@foldl_unhideAll hidden items.items) v hv
  constructor
  · intro hfilter v hv hchildren
    exact (hfilter v.1 (Forest.mem_items_of_visits hv)).mp ((hshown v hv).mpr (.inr hchildren))
  · intro hmatches item hitem
    obtain ⟨children, hv⟩ := Forest.exists_visit hitem
    rw [hshown (item, children) hv]
    constructor
    · rintro (hmatch | hchildren)
      · exact ⟨item, hitem, List.prefix_rfl, hmatch⟩
      · exact hmatches (item, children) hv hchildren
    · rintro ⟨item', hitem', hpre, hmatch⟩
      by_cases hsame : item'.1 = item.1
      · obtain rfl : item' = item := List.inj_on_of_nodup_map hplaced.nodup_items hitem' hitem hsame
        exact .inl hmatch
      · obtain ⟨child, hchild, -⟩ := hplaced.exists_child hv hitem' hpre hsame
        exact .inr (List.ne_nil_of_mem hchild)

/-- A folder with one file. -/
def oneFileTree : Forest TreeItem :=
  reloadTree (queryTaskFiles ["a/b".toList])

/-- Where the folder has the match below it, the filter is right. -/
theorem applySearchFilter_oneFile : ShowsMatches (List.map Char.toLower) oneFileTree "b".toList
    (applySearchFilter (List.map Char.toLower) oneFileTree " B".toList fun _ => true) :=
  (applySearchFilter_iff (List.map Char.toLower) oneFileTree " B".toList (by decide)
    fun _ => true).mpr (by decide)

/-- Without a match the folder is shown all the same. -/
theorem applySearchFilter_showsFolder : ¬ ShowsMatches (List.map Char.toLower) oneFileTree "c".toList
    (applySearchFilter (List.map Char.toLower) oneFileTree "c".toList fun _ => false) := by
  decide

end TorrentLink.Ui
