import TorrentLink.Lib.Sorting
import Mathlib.Data.List.Nodup
import Mathlib.Data.List.Rotate

/-!
# The first elements of an order

What a program keeps that sorts a list and cuts it off after `k` elements: as many as there are, up to
`k`, and none that is left out stands before one that is kept. If the order decides between any two
elements, an element is kept exactly if fewer than `k` elements stand before it; then a list from which
only elements that would be left out are missing gives the same ones.
-/

namespace TorrentLink.Lib

variable {α : Type} {lt : α → α → Bool} (std : StdSort) (l : List α) (k : Nat)

/-- The elements in the order of a key, the greatest first. -/
theorem strictWeak_byKey (key : α → Int) : StrictWeak fun a b => decide (key b < key a) where
  asymm a b h := by
    rw [decide_eq_true_iff] at h
    rw [decide_eq_false_iff_not]
    omega
  cotrans a b c h := by
    rw [decide_eq_true_iff] at h ⊢
    rw [decide_eq_true_iff]
    omega

theorem mem_take_sort {a : α} (h : a ∈ (std.sort lt l).take k) : a ∈ l :=
  (std.perm lt l).mem_iff.mp (List.mem_of_mem_take h)

theorem nodup_take_sort (h : l.Nodup) : ((std.sort lt l).take k).Nodup :=
  (List.take_sublist _ _).nodup ((std.perm lt l).nodup_iff.mpr h)

theorem length_take_sort : ((std.sort lt l).take k).length = min k l.length := by
  rw [List.length_take, (std.perm lt l).length_eq]

theorem mem_take_or_drop_sort {a : α} (h : a ∈ l) :
    a ∈ (std.sort lt l).take k ∨ a ∈ (std.sort lt l).drop k := by
  rw [← List.mem_append, List.take_append_drop]
  exact (std.perm lt l).mem_iff.mpr h

variable {std l k}

/-- What is missing from a list. -/
theorem diff_perm [BEq α] [LawfulBEq α] {kept rest : List α} (h : l.Perm (kept ++ rest)) :
    (l.diff kept).Perm rest := by
  induction kept generalizing l with
  | nil => exact h
  | cons a kept ih =>
    rw [List.diff_cons]
    exact ih ((h.erase a).trans (by simp))

theorem length_diff [BEq α] [LawfulBEq α] {kept : List α} (h : kept.Subperm l) :
    l.length = kept.length + (l.diff kept).length := by
  rw [← List.length_append]
  exact (List.subperm_append_diff_self_of_count_le (List.subperm_ext_iff.mp h)).length_eq.symm

/-- An element that is left out does not stand before one that is kept. -/
theorem not_lt_of_left_out (hlt : StrictWeak lt) {a b : α} (ha : a ∈ (std.sort lt l).take k)
    (hb : b ∈ (std.sort lt l).drop k) : lt b a = false :=
  (std.sorted lt l hlt).rel_of_mem_take_of_mem_drop ha hb

/-! ### Without ties -/

/-- Of two elements, one stands before the other. -/
def NoTies (lt : α → α → Bool) (l : List α) : Prop :=
  ∀ a ∈ l, ∀ b ∈ l, a ≠ b → lt a b = true ∨ lt b a = true

theorem StrictWeak.irrefl (hlt : StrictWeak lt) (a : α) : lt a a = false := by
  cases h : lt a a with
  | false => rfl
  | true => exact h.symm.trans (hlt.asymm a a h)

theorem length_take_of_mem_drop {a : α} (ha : a ∈ l.drop k) : (l.take k).length = k := by
  have hpos := List.length_pos_of_mem ha
  rw [List.length_drop] at hpos
  rw [List.length_take]
  omega

/-- Before an element that is left out stand all those that are kept. -/
theorem le_countP_of_left_out (hlt : StrictWeak lt) (hnodup : l.Nodup) (hties : NoTies lt l) {a : α}
    (ha : a ∈ (std.sort lt l).drop k) {l' : List α} (hkept : (std.sort lt l).take k ⊆ l') :
    k ≤ l'.countP (lt · a) := by
  have hsorted := (std.perm lt l).nodup_iff.mpr hnodup
  have hdisjoint := List.disjoint_take_drop hsorted (Nat.le_refl k)
  have hbefore : ∀ b ∈ (std.sort lt l).take k, lt b a = true := by
    intro b hb
    have hne : b ≠ a := fun heq => hdisjoint hb (heq ▸ ha)
    have hmem : a ∈ l := (std.perm lt l).mem_iff.mp (List.mem_of_mem_drop ha)
    refine (hties b (mem_take_sort std l k hb) a hmem hne).resolve_right fun hab => ?_
    exact absurd (hab.symm.trans (not_lt_of_left_out hlt hb ha)) (by decide)
  have hlength := length_take_of_mem_drop ha
  have hsub : ((std.sort lt l).take k).Subperm l' :=
    List.subperm_of_subset (nodup_take_sort std l k hnodup) hkept
  calc k = ((std.sort lt l).take k).countP (lt · a) := by
        rw [List.countP_eq_length.mpr hbefore, hlength]
    _ ≤ l'.countP (lt · a) := hsub.countP_le _

/-- An element is kept exactly if fewer than `k` elements stand before it. -/
theorem mem_take_sort_iff (hlt : StrictWeak lt) (hnodup : l.Nodup) (hties : NoTies lt l) {a : α} :
    a ∈ (std.sort lt l).take k ↔ a ∈ l ∧ l.countP (lt · a) < k := by
  constructor
  · intro ha
    refine ⟨mem_take_sort std l k ha, ?_⟩
    obtain ⟨before, after, hsplit⟩ := List.append_of_mem ha
    have hwhole : std.sort lt l = before ++ a :: (after ++ (std.sort lt l).drop k) := by
      conv => lhs; rw [← List.take_append_drop k (std.sort lt l), hsplit]
      simp
    have hsorted := std.sorted lt l hlt
    rw [hwhole] at hsorted
    have hafter : (a :: (after ++ (std.sort lt l).drop k)).countP (lt · a) = 0 := by
      refine List.countP_eq_zero.mpr fun b hb => ?_
      rcases List.mem_cons.mp hb with rfl | hb
      · simp [hlt.irrefl]
      · rw [(List.pairwise_cons.mp (List.pairwise_append.mp hsorted).2.1).1 b hb]
        decide
    have hshort : before.length < k := by
      have hlength := congrArg List.length hsplit
      rw [List.length_take, List.length_append, List.length_cons] at hlength
      omega
    calc l.countP (lt · a) = (std.sort lt l).countP (lt · a) := ((std.perm lt l).countP_eq _).symm
      _ = before.countP (lt · a) := by rw [hwhole, List.countP_append, hafter, Nat.add_zero]
      _ ≤ before.length := List.countP_le_length
      _ < k := hshort
  · rintro ⟨ha, hfew⟩
    refine (mem_take_or_drop_sort std l k ha).resolve_right fun hout => ?_
    have hmany := le_countP_of_left_out hlt hnodup hties hout fun b hb => mem_take_sort std l k hb
    omega

/-- A part of the list with everything that is kept gives the same elements. -/
theorem mem_take_sort_of_kept (hlt : StrictWeak lt) (hnodup : l.Nodup) (hties : NoTies lt l)
    {l' : List α} (hnodup' : l'.Nodup) (hpart : l' ⊆ l) (hkept : (std.sort lt l).take k ⊆ l') {a : α} :
    a ∈ (std.sort lt l').take k ↔ a ∈ (std.sort lt l).take k := by
  have hties' : NoTies lt l' := fun a ha b hb => hties a (hpart ha) b (hpart hb)
  rw [mem_take_sort_iff hlt hnodup' hties']
  constructor
  · rintro ⟨ha, hfew⟩
    refine (mem_take_or_drop_sort std l k (hpart ha)).resolve_right fun hout => ?_
    have hmany := le_countP_of_left_out hlt hnodup hties hout hkept
    omega
  · intro ha
    have hfew := ((mem_take_sort_iff hlt hnodup hties).mp ha).2
    have hle := (List.subperm_of_subset hnodup' hpart).countP_le (lt · a)
    exact ⟨hkept ha, by omega⟩

/-! ### With ties

A sort is free to put an element behind all those that are equivalent to it. An element is kept by every
sort exactly if no more than `k` elements, itself among them, do not stand behind it.
-/

/-- An element that is left out has more than `k` elements that do not stand behind it. -/
theorem lt_countP_of_left_out (hlt : StrictWeak lt) {a : α} (ha : a ∈ (std.sort lt l).drop k) :
    k < l.countP (fun b => !lt a b) := by
  have hkept : ∀ b ∈ (std.sort lt l).take k, (!lt a b) = true := by
    intro b hb
    rw [not_lt_of_left_out hlt hb ha]
    rfl
  have hself : 0 < ((std.sort lt l).drop k).countP (fun b => !lt a b) :=
    List.countP_pos_iff.mpr ⟨a, ha, by rw [hlt.irrefl]; rfl⟩
  have hlength := length_take_of_mem_drop ha
  have hsplit : (std.sort lt l).countP (fun b => !lt a b) = k +
      ((std.sort lt l).drop k).countP fun b => !lt a b := by
    conv => lhs; rw [← List.take_append_drop k (std.sort lt l)]
    rw [List.countP_append, List.countP_eq_length.mpr hkept, hlength]
  rw [← (std.perm lt l).countP_eq, hsplit]
  omega

section Ties

variable {r : α → α → Prop} [DecidableRel r]

theorem orderedInsert_before {a q : α} (h : r a q) (before after : List α) :
    (before ++ q :: after).orderedInsert r a = before.orderedInsert r a ++ q :: after := by
  induction before with
  | nil => simp [h]
  | cons b before ih =>
    by_cases hab : r a b
    · simp [hab]
    · simp [hab, ih]

theorem orderedInsert_behind {a q : α} {before : List α} (h : ¬r a q) (hbefore : ∀ b ∈ before, ¬r a b)
    (after : List α) :
    (before ++ q :: after).orderedInsert r a = before ++ q :: after.orderedInsert r a := by
  induction before with
  | nil => simp [h]
  | cons b before ih =>
    rw [List.cons_append, List.orderedInsert_cons, if_neg (hbefore b List.mem_cons_self),
      ih fun c hc => hbefore c (List.mem_cons_of_mem b hc)]
    rfl

/-- An insertion sort puts the last element behind all that it can stand behind. -/
theorem insertionSort_last (htrans : ∀ a b c, r a b → r b c → r a c) (l : List α) (q : α) :
    ∃ before after, (l ++ [q]).insertionSort r = before ++ q :: after ∧
      before.length = l.countP (fun a => decide (r a q)) ∧ ∀ b ∈ before, r b q := by
  induction l with
  | nil => exact ⟨[], [], rfl, rfl, by simp⟩
  | cons a l ih =>
    obtain ⟨before, after, hsort, hlength, hbefore⟩ := ih
    rw [List.cons_append, List.insertionSort_cons, hsort]
    by_cases haq : r a q
    · refine ⟨before.orderedInsert r a, after, orderedInsert_before haq before after, ?_, ?_⟩
      · rw [List.orderedInsert_length, hlength, List.countP_cons, if_pos (decide_eq_true haq)]
      · intro b hb
        rcases (List.perm_orderedInsert r a before).mem_iff.mp hb with _ | ⟨_, hb⟩
        · exact haq
        · exact hbefore b hb
    · have hnot : ∀ b ∈ before, ¬r a b := fun b hb hab => haq (htrans a b q hab (hbefore b hb))
      refine ⟨before, after.orderedInsert r a, orderedInsert_behind haq hnot after, ?_, hbefore⟩
      rw [hlength, List.countP_cons, if_neg (by simpa using haq), Nat.add_zero]

end Ties

/-- The insertion sort that starts with the element before a place. -/
def rotatedSort (n : Nat) : StdSort where
  sort lt l := insertionStdSort.sort lt (l.rotate n)
  perm lt l := (insertionStdSort.perm lt _).trans (List.rotate_perm l n)
  sorted lt l h := insertionStdSort.sorted lt (l.rotate n) h

/-- Some sort leaves out an element that has more than `k` elements not behind it. -/
theorem left_out_by_some_iff (hlt : StrictWeak lt) {a : α} (ha : a ∈ l) :
    (∃ std : StdSort, a ∈ (std.sort lt l).drop k) ↔ k < l.countP fun b => !lt a b := by
  refine ⟨fun ⟨std, hout⟩ => lt_countP_of_left_out hlt hout, fun hmany => ?_⟩
  obtain ⟨front, rest, rfl⟩ := List.append_of_mem ha
  have htrans : ∀ x y z, lt y x = false → lt z y = false → lt z x = false := by
    intro x y z hxy hyz
    refine Bool.eq_false_iff.mpr fun hzx => ?_
    rcases hlt.cotrans z x y hzx with hzy | hyx
    · exact absurd (hzy.symm.trans hyz) (by decide)
    · exact absurd (hyx.symm.trans hxy) (by decide)
  have hrotate : (front ++ a :: rest).rotate (front.length + 1) = (rest ++ front) ++ [a] := by
    have hlength : front.length + 1 = (front ++ [a]).length := by simp
    rw [show front ++ a :: rest = (front ++ [a]) ++ rest by simp, hlength,
      List.rotate_append_length_eq, List.append_assoc]
  obtain ⟨before, after, hsort, hlength, -⟩ := insertionSort_last htrans (rest ++ front) a
  refine ⟨rotatedSort (front.length + 1), ?_⟩
  have hwhole : (rotatedSort (front.length + 1)).sort lt (front ++ a :: rest) =
      before ++ a :: after := by
    rw [← hsort, ← hrotate]
    rfl
  have hself : (front ++ a :: rest).countP (fun b => !lt a b) =
      (rest ++ front).countP (fun b => !lt a b) + 1 := by
    rw [List.countP_append, List.countP_cons, List.countP_append, if_pos (by simp [hlt.irrefl])]
    omega
  have hbefore : before.length = (rest ++ front).countP fun b => !lt a b :=
    hlength.trans (List.countP_congr fun b _ => by simp)
  have hcount : k ≤ before.length := by omega
  rw [hwhole, List.drop_append_of_le_length hcount]
  simp

end TorrentLink.Lib
