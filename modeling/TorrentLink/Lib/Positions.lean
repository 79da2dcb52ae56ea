import Mathlib.Data.List.Basic
import Mathlib.Data.List.Perm.Basic

/-!
# Positions in a list

A program that goes through an array by index and collects the indices of some of its elements. The
positions are distinct, there are as many of them as there are such elements, and each tells its element.

A program that writes one value at several positions changes no other. Writing a second value at the same
positions brings the old list back exactly if that value was at each of them (`setAll_setAll_eq_iff`).
-/

namespace TorrentLink.Lib

variable {α : Type} {p : α → Bool} {l : List α}

/-- The positions of the elements with a property, in order. -/
def positions (p : α → Bool) (l : List α) : List Nat :=
  (List.range l.length).filter fun i => (l[i]?).any p

theorem mem_positions {i : Nat} : i ∈ positions p l ↔ ∃ a, l[i]? = some a ∧ p a = true := by
  unfold positions
  rw [List.mem_filter, Option.any_eq_true]
  constructor
  · exact fun h => h.2
  · rintro ⟨a, ha, hpa⟩
    exact ⟨List.mem_range.mpr (List.getElem?_eq_some_iff.mp ha).1, a, ha, hpa⟩

theorem nodup_positions : (positions p l).Nodup := List.nodup_range.filter _

theorem length_positions : (positions p l).length = l.countP p := by
  induction l with
  | nil => rfl
  | cons a l ih =>
    have hrest : ((List.range l.length).map Nat.succ).filter (fun i => ((a :: l)[i]?).any p) =
        (positions p l).map Nat.succ := by
      rw [List.filter_map]
      rfl
    unfold positions
    rw [List.length_cons, List.range_succ_eq_map, List.filter_cons, hrest, List.countP_cons]
    by_cases ha : p a = true
    · simp [ha, ih]
    · simp [ha, ih]

/-- Distinct positions of exactly the elements with a property. -/
theorem countP_eq_length {is : List Nat} (hnodup : is.Nodup)
    (h : ∀ i, i ∈ is ↔ ∃ a, l[i]? = some a ∧ p a = true) : l.countP p = is.length := by
  rw [← length_positions]
  refine ((List.perm_ext_iff_of_nodup nodup_positions hnodup).mpr fun i => ?_).length_eq
  rw [mem_positions, h]

/-- The elements at the positions that have a second property, too. -/
theorem countP_positions (q : α → Bool) :
    (positions p l).countP (fun i => (l[i]?).any q) = l.countP fun a => p a && q a := by
  rw [List.countP_eq_length_filter, countP_eq_length (nodup_positions.filter _)]
  intro i
  rw [List.mem_filter, mem_positions, Option.any_eq_true]
  constructor
  · rintro ⟨⟨a, ha, hpa⟩, b, hb, hqb⟩
    obtain rfl := Option.some.inj (ha.symm.trans hb)
    exact ⟨a, ha, Bool.and_eq_true_iff.mpr ⟨hpa, hqb⟩⟩
  · rintro ⟨a, ha, hpq⟩
    obtain ⟨hpa, hqa⟩ := Bool.and_eq_true_iff.mp hpq
    exact ⟨⟨a, ha, hpa⟩, a, ha, hqa⟩

/-! ### Writing at positions -/

/-- `v` at each of the positions; one behind the end is passed over. -/
def setAll (v : α) (is : List Nat) (l : List α) : List α := is.foldl (fun l i => l.set i v) l

@[simp] theorem length_setAll (v : α) (is : List Nat) (l : List α) : (setAll v is l).length = l.length := by
  induction is generalizing l with
  | nil => rfl
  | cons i is ih => exact (ih (l.set i v)).trans List.length_set

theorem setAll_append (v : α) (is js : List Nat) (l : List α) :
    setAll v (is ++ js) l = setAll v js (setAll v is l) := List.foldl_append

/-- What is at a position afterwards. -/
theorem getElem?_setAll (v : α) (is : List Nat) (l : List α) (i : Nat) :
    (setAll v is l)[i]? = if i ∈ is then l[i]?.map fun _ => v else l[i]? := by
  induction is generalizing l with
  | nil => rfl
  | cons j is ih =>
    have hturn : setAll v (j :: is) l = setAll v is (l.set j v) := rfl
    rw [hturn, ih, List.getElem?_set]
    by_cases hij : j = i
    · subst hij
      have hset : (if j < l.length then some v else none) = l[j]?.map fun _ => v := by
        by_cases hlt : j < l.length
        · rw [if_pos hlt, List.getElem?_eq_getElem hlt]
          rfl
        · rw [if_neg hlt, List.getElem?_eq_none (Nat.le_of_not_lt hlt)]
          rfl
      rw [if_pos rfl, if_pos List.mem_cons_self, hset, Option.map_map]
      exact ite_self _
    · simp [hij, Ne.symm hij]

theorem setAll_setAll_eq_iff {v w : α} {is : List Nat} {l : List α} :
    setAll w is (setAll v is l) = l ↔ ∀ i ∈ is, ∀ a, l[i]? = some a → a = w := by
  constructor
  · intro h i hi a ha
    have hw : (setAll w is (setAll v is l))[i]? = some w := by
      rw [getElem?_setAll, if_pos hi, getElem?_setAll, if_pos hi, ha]
      rfl
    rw [h, ha] at hw
    exact Option.some.inj hw
  · intro h
    refine List.ext_getElem? fun i => ?_
    rw [getElem?_setAll, getElem?_setAll]
    by_cases hi : i ∈ is
    · rw [if_pos hi, if_pos hi]
      cases ha : l[i]? with
      | none => rfl
      | some a =>
        obtain rfl := h i hi a ha
        rfl
    · rw [if_neg hi, if_neg hi]

end TorrentLink.Lib
