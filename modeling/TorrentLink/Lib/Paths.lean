import Mathlib.Data.List.Induction
import Mathlib.Data.List.Nodup
import Mathlib.Data.List.TakeWhile

/-!
# Paths with a separator

A path is a text whose parts stand between separators. `AtOrBelow` compares a path with another one by
the text, `components` by the parts, and both agree (`atOrBelow_iff`): a path below `a` begins with `a` and
a separator, not only with `a`. `replaceRoot` puts another path in the place of the first; whether the
paths of a list stay distinct depends on the others only (`nodup_map_replaceRoot_iff`).
-/

namespace TorrentLink.Lib

variable {α : Type}

/-- The path is `src`, or one below it. -/
def AtOrBelow (sep : α) (src p : List α) : Prop := p = src ∨ src ++ [sep] <+: p

/-- The path of an entry of the directory `dir`. -/
def child (sep : α) (dir part : List α) : List α :=
  if dir = [] then part else dir ++ sep :: part

variable {sep : α} {src p : List α}

theorem atOrBelow_iff_exists : AtOrBelow sep src p ↔ p = src ∨ ∃ rest, p = src ++ sep :: rest := by
  refine or_congr_right (exists_congr fun rest => ?_)
  rw [List.append_assoc, List.singleton_append, eq_comm]

theorem AtOrBelow.append_drop (h : AtOrBelow sep src p) : src ++ p.drop src.length = p := by
  obtain rfl | ⟨rest, rfl⟩ := atOrBelow_iff_exists.mp h
  · simp
  · simp

theorem intercalate_append {s t : List (List α)} (hs : s ≠ []) (ht : t ≠ []) :
    [sep].intercalate (s ++ t) = [sep].intercalate s ++ sep :: [sep].intercalate t := by
  induction s with
  | nil => exact absurd rfl hs
  | cons part s ih =>
    cases s with
    | nil =>
      rw [List.singleton_append, List.intercalate_cons_of_ne_nil ht, List.intercalate_singleton]
      simp
    | cons part' s =>
      rw [List.cons_append, List.intercalate_cons_of_ne_nil (by simp),
        List.intercalate_cons_of_ne_nil (by simp), ih (by simp)]
      simp

/-- Going down the parts of a path leads to it, if none of them is empty. -/
theorem foldl_child {parts : List (List α)} (hparts : [] ∉ parts) :
    parts.foldl (child sep) [] = [sep].intercalate parts := by
  induction parts using List.reverseRecOn with
  | nil => rfl
  | append_singleton parts part ih =>
    rw [List.mem_append, not_or] at hparts
    rw [List.foldl_append, ih hparts.1, List.foldl_cons, List.foldl_nil, child]
    cases parts with
    | nil => simp
    | cons first parts =>
      have hfirst : first ≠ [] := fun h => hparts.1 (h ▸ List.mem_cons_self)
      have hne : [sep].intercalate (first :: parts) ≠ [] := by
        cases parts with
        | nil => simpa using hfirst
        | cons second parts => simp [List.intercalate_cons_of_ne_nil, hfirst]
      rw [if_neg hne, intercalate_append (by simp) (by simp), List.intercalate_singleton]

variable [DecidableEq α]

/-- What stands before the last separator, if there is one. -/
def parent (sep : α) (p : List α) : List α :=
  ((p.reverse.dropWhile (· ≠ sep)).drop 1).reverse

/-- What stands after the last separator. -/
def fileName (sep : α) (p : List α) : List α :=
  (p.reverse.takeWhile (· ≠ sep)).reverse

def components (sep : α) (p : List α) : List (List α) :=
  if p = [] then [] else p.splitOn sep

instance (sep : α) (src p : List α) : Decidable (AtOrBelow sep src p) :=
  inferInstanceAs (Decidable (_ ∨ _))

/-- The path with `root` in the place of `src`, if it is at or below it. -/
def replaceRoot (sep : α) (src root p : List α) : List α :=
  if AtOrBelow sep src p then root ++ p.drop src.length else p

variable {root q : List α}

/-! ### Below a path -/

theorem replaceRoot_of_below (h : AtOrBelow sep src p) :
    replaceRoot sep src root p = root ++ p.drop src.length := if_pos h

theorem replaceRoot_of_not_below (h : ¬ AtOrBelow sep src p) : replaceRoot sep src root p = p := if_neg h

theorem replaceRoot_self : replaceRoot sep src src p = p := by
  by_cases h : AtOrBelow sep src p
  · rw [replaceRoot_of_below h, h.append_drop]
  · exact replaceRoot_of_not_below h

/-- Another root changes every path at or below the old one. -/
theorem replaceRoot_eq_self_iff (h : AtOrBelow sep src p) : replaceRoot sep src root p = p ↔ root = src := by
  constructor
  · intro hsame
    rw [replaceRoot_of_below h] at hsame
    nth_rewrite 2 [← h.append_drop] at hsame
    exact List.append_cancel_right hsame
  · rintro rfl
    exact replaceRoot_self

/-- Two renamed paths differ as before, and so do two others. -/
theorem nodup_map_replaceRoot_iff {l : List (List α)} (hl : l.Nodup) :
    (l.map (replaceRoot sep src root)).Nodup ↔
      ∀ p ∈ l, ∀ q ∈ l, AtOrBelow sep src p → ¬ AtOrBelow sep src q →
        replaceRoot sep src root p ≠ q := by
  constructor
  · intro hnodup p hp q hq hbelow hnot hsame
    have hpq : p = q := by
      refine List.inj_on_of_nodup_map hnodup hp hq ?_
      rw [hsame, replaceRoot_of_not_below hnot]
    exact hnot (hpq ▸ hbelow)
  · intro hfree
    refine hl.map_on fun p hp q hq hsame => ?_
    by_cases hbelow : AtOrBelow sep src p
    · by_cases hbelow' : AtOrBelow sep src q
      · rw [replaceRoot_of_below hbelow, replaceRoot_of_below hbelow'] at hsame
        rw [← hbelow.append_drop, ← hbelow'.append_drop, List.append_cancel_left hsame]
      · rw [replaceRoot_of_not_below hbelow'] at hsame
        exact absurd hsame (hfree p hp q hq hbelow hbelow')
    · by_cases hbelow' : AtOrBelow sep src q
      · rw [replaceRoot_of_not_below hbelow] at hsame
        exact absurd hsame.symm (hfree q hq p hp hbelow' hbelow)
      · rwa [replaceRoot_of_not_below hbelow, replaceRoot_of_not_below hbelow'] at hsame

/-! ### Components -/

theorem notMem_of_mem_splitOn {part : List α} (h : part ∈ p.splitOn sep) : sep ∉ part := by
  induction p generalizing part with
  | nil =>
    rw [List.splitOn_nil, List.mem_singleton] at h
    simp [h]
  | cons c p ih =>
    rw [List.splitOn_cons_eq_if_modifyHead] at h
    split at h
    · rcases List.mem_cons.mp h with rfl | h
      · exact List.not_mem_nil
      · exact ih h
    · rename_i hc
      obtain ⟨first, rest, hparts⟩ := List.exists_cons_of_ne_nil (List.splitOn_ne_nil sep p)
      rw [hparts] at h ih
      rcases List.mem_cons.mp h with rfl | h
      · have hfirst := ih List.mem_cons_self
        have hne : sep ≠ c := fun hsame => hc (by simp [hsame])
        simp [hfirst, hne]
      · exact ih (List.mem_cons_of_mem _ h)

/-- A part has its elements from the whole. -/
theorem subset_of_mem_splitOn {part : List α} (h : part ∈ p.splitOn sep) : part ⊆ p := by
  induction p generalizing part with
  | nil =>
    rw [List.splitOn_nil, List.mem_singleton] at h
    simp [h]
  | cons c p ih =>
    rw [List.splitOn_cons_eq_if_modifyHead] at h
    split at h
    · rcases List.mem_cons.mp h with rfl | h
      · exact List.nil_subset _
      · exact List.subset_cons_of_subset c (ih h)
    · obtain ⟨first, rest, hparts⟩ := List.exists_cons_of_ne_nil (List.splitOn_ne_nil sep p)
      rw [hparts] at h ih
      rcases List.mem_cons.mp h with rfl | h
      · exact List.cons_subset_cons c (ih List.mem_cons_self)
      · exact List.subset_cons_of_subset c (ih (List.mem_cons_of_mem _ h))

theorem intercalate_components : [sep].intercalate (components sep p) = p := by
  unfold components
  split
  · rename_i hnil
    exact hnil.symm
  · exact List.intercalate_splitOn sep

theorem components_inj : components sep p = components sep q ↔ p = q := by
  constructor
  · intro h
    have hp : [sep].intercalate (components sep p) = p := intercalate_components
    rw [← hp, h, intercalate_components]
  · exact congrArg _

theorem components_append (hp : p ≠ []) :
    components sep (p ++ sep :: q) = components sep p ++ q.splitOn sep := by
  unfold components
  rw [if_neg hp, if_neg (by simp), List.splitOn_append_cons_self]

theorem atOrBelow_iff (hsrc : src ≠ []) :
    AtOrBelow sep src p ↔ components sep src <+: components sep p := by
  rw [atOrBelow_iff_exists]
  constructor
  · rintro (rfl | ⟨rest, rfl⟩)
    · exact List.prefix_rfl
    · rw [components_append hsrc]
      exact List.prefix_append _ _
  · rintro ⟨rest, hrest⟩
    by_cases hnil : rest = []
    · rw [hnil, List.append_nil, components_inj] at hrest
      exact .inl hrest.symm
    · refine .inr ⟨[sep].intercalate rest, ?_⟩
      have hne : components sep src ≠ [] := by
        unfold components
        rw [if_neg hsrc]
        exact List.splitOn_ne_nil _ _
      have hp : [sep].intercalate (components sep p) = p := intercalate_components
      rw [← hp, ← hrest, intercalate_append hne hnil, intercalate_components]

theorem components_child {dir part : List α} (hpart : sep ∉ part) (hne : part ≠ []) :
    components sep (child sep dir part) = components sep dir ++ [part] := by
  unfold child
  by_cases hdir : dir = []
  · rw [if_pos hdir, hdir, components, if_neg hne, List.splitOn_eq_singleton hpart]
    rfl
  · rw [if_neg hdir, components_append hdir, List.splitOn_eq_singleton hpart]

/-! ### The last part -/

theorem parent_append {dir part : List α} (hpart : sep ∉ part) : parent sep (dir ++ sep :: part) = dir := by
  unfold parent
  rw [List.reverse_append, List.reverse_cons, List.append_assoc, List.dropWhile_append_of_pos]
  · simp
  · intro c hc
    simpa using fun h : c = sep => hpart (h ▸ List.mem_reverse.mp hc)

theorem fileName_append {dir part : List α} (hpart : sep ∉ part) :
    fileName sep (dir ++ sep :: part) = part := by
  unfold fileName
  rw [List.reverse_append, List.reverse_cons, List.append_assoc, List.takeWhile_append_of_pos]
  · simp
  · intro c hc
    simpa using fun h : c = sep => hpart (h ▸ List.mem_reverse.mp hc)

theorem parent_of_notMem (hp : sep ∉ p) : parent sep p = [] := by
  unfold parent
  rw [List.dropWhile_eq_nil_iff.mpr]
  · rfl
  · intro c hc
    simpa using fun h : c = sep => hp (h ▸ List.mem_reverse.mp hc)

theorem fileName_of_notMem (hp : sep ∉ p) : fileName sep p = p := by
  unfold fileName
  rw [List.takeWhile_eq_self_iff.mpr, List.reverse_reverse]
  intro c hc
  simpa using fun h : c = sep => hp (h ▸ List.mem_reverse.mp hc)

/-- A path with a separator, divided at the last one. -/
theorem exists_last_part (hp : sep ∈ p) : ∃ dir part, sep ∉ part ∧ p = dir ++ sep :: part := by
  induction p using List.reverseRecOn with
  | nil => cases hp
  | append_singleton p c ih =>
    by_cases hc : c = sep
    · exact ⟨p, [], by simp, by rw [hc]⟩
    · obtain ⟨dir, part, hpart, rfl⟩ := ih (by simpa [Ne.symm hc] using hp)
      exact ⟨dir, part ++ [c], by simp [hpart, Ne.symm hc], by simp⟩

/-- A path that does not begin with a separator, with another last part. -/
theorem child_parent_eq_iff (hp : [] ∉ components sep p) {part : List α} :
    child sep (parent sep p) part = p ↔ part = fileName sep p := by
  by_cases hmem : sep ∈ p
  · obtain ⟨dir, last, hlast, rfl⟩ := exists_last_part hmem
    have hdir : dir ≠ [] := by
      rintro rfl
      refine hp ?_
      rw [components, if_neg (by simp), List.splitOn_append_cons_self, List.splitOn_nil]
      exact List.mem_cons_self
    rw [parent_append hlast, fileName_append hlast, child, if_neg hdir]
    simp
  · rw [parent_of_notMem hmem, fileName_of_notMem hmem, child, if_pos rfl]

end TorrentLink.Lib
