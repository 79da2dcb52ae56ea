import Mathlib.Data.Nat.ModEq
import Mathlib.Data.List.Range
import Mathlib.Data.List.Perm.Subperm
import Mathlib.Data.List.Nodup

/-!
# A bounded queue of slots

What a queue is for whose places are claimed first and filled later: the slots are claimed in order, each
with a value, filled in any order, and emptied in order. At most as many claimed slots as the capacity are
not emptied yet. `WellFormed` is what the three moves keep, each under its condition.

In memory the slots of a queue of capacity `c` share `c` cells, slot `i` in cell `i % c`. Two slots of one
window of `c` slots are in different cells, and a window has a slot in every cell.
-/

namespace TorrentLink.Lib

structure SlotQueue (α : Type) where
  /-- The values of the slots, in the order of the claims. -/
  claimed : List α := []
  /-- The slots that are filled, in the order in which they were. -/
  filled : List Nat := []
  emptied : Nat := 0
  deriving DecidableEq, Repr

namespace SlotQueue

variable {α : Type} (q : SlotQueue α)

def claim (a : α) : SlotQueue α := { q with claimed := q.claimed ++ [a] }

def fill (i : Nat) : SlotQueue α := { q with filled := q.filled ++ [i] }

def empty : SlotQueue α := { q with emptied := q.emptied + 1 }

/-- The claimed slots that are not emptied. -/
def outstanding : Nat := q.claimed.length - q.emptied

structure WellFormed (capacity : Nat) : Prop where
  filled_nodup : q.filled.Nodup
  filled_lt : ∀ i ∈ q.filled, i < q.claimed.length
  emptied_filled : ∀ i < q.emptied, i ∈ q.filled
  bounded : q.claimed.length ≤ q.emptied + capacity

variable {q} {capacity : Nat}

theorem wellFormed_empty : ({} : SlotQueue α).WellFormed capacity :=
  ⟨List.nodup_nil, by simp, by simp, by simp⟩

theorem WellFormed.emptied_le (h : q.WellFormed capacity) : q.emptied ≤ q.claimed.length := by
  by_contra hlt
  have hlast := h.filled_lt _ (h.emptied_filled (q.emptied - 1) (by omega))
  omega

/-- A claimed slot that is not filled is not emptied. -/
theorem WellFormed.emptied_le_of_notMem (h : q.WellFormed capacity) {i : Nat} (hi : i ∉ q.filled) :
    q.emptied ≤ i := by
  by_contra hlt
  exact hi (h.emptied_filled i (by omega))

theorem WellFormed.filled_bounded (h : q.WellFormed capacity) :
    q.filled.length ≤ q.emptied + capacity := by
  have hsub : q.filled ⊆ List.range q.claimed.length := fun i hi =>
    List.mem_range.mpr (h.filled_lt i hi)
  have hle := (List.subperm_of_subset h.filled_nodup hsub).length_le
  rw [List.length_range] at hle
  exact hle.trans h.bounded

theorem WellFormed.claim (h : q.WellFormed capacity) (hroom : q.claimed.length < q.emptied + capacity)
    (a : α) : (q.claim a).WellFormed capacity where
  filled_nodup := h.filled_nodup
  filled_lt i hi := by
    have hlt := h.filled_lt i hi
    simp only [SlotQueue.claim, List.length_append, List.length_singleton]
    omega
  emptied_filled := h.emptied_filled
  bounded := by
    simp only [SlotQueue.claim, List.length_append, List.length_singleton]
    omega

theorem WellFormed.fill (h : q.WellFormed capacity) {i : Nat} (hi : i < q.claimed.length)
    (hfree : i ∉ q.filled) : (q.fill i).WellFormed capacity where
  filled_nodup := by
    rw [SlotQueue.fill, List.nodup_append_comm]
    exact List.nodup_cons.mpr ⟨hfree, h.filled_nodup⟩
  filled_lt j hj := by
    rcases List.mem_append.mp hj with hj | hj
    · exact h.filled_lt j hj
    · rw [List.mem_singleton.mp hj]
      exact hi
  emptied_filled j hj := List.mem_append_left _ (h.emptied_filled j hj)
  bounded := h.bounded

theorem WellFormed.empty (h : q.WellFormed capacity) (hfilled : q.emptied ∈ q.filled) :
    q.empty.WellFormed capacity where
  filled_nodup := h.filled_nodup
  filled_lt := h.filled_lt
  emptied_filled j hj := by
    rcases Nat.lt_succ_iff_lt_or_eq.mp hj with hj | rfl
    · exact h.emptied_filled j hj
    · exact hfilled
  bounded := by
    have hbounded := h.bounded
    simp only [SlotQueue.empty]
    omega

end SlotQueue

/-! ### Cells -/

theorem window_inj {c r i j : Nat} (hi : r ≤ i) (hi' : i < r + c) (hj : r ≤ j) (hj' : j < r + c)
    (h : i % c = j % c) : i = j := by
  refine Nat.ModEq.eq_of_abs_lt (m := c) h ?_
  rw [abs_lt]
  omega

theorem window_ne {c r i j : Nat} (hi : r ≤ i) (hi' : i < r + c) (hj : r ≤ j) (hj' : j < r + c)
    (h : i ≠ j) : i % c ≠ j % c := fun hmod => h (window_inj hi hi' hj hj' hmod)

theorem exists_window {c : Nat} (hc : 0 < c) (r i : Nat) :
    ∃ j, r ≤ j ∧ j < r + c ∧ j % c = i % c := by
  refine ⟨r + (i + (c - 1) * r) % c, Nat.le_add_right _ _,
    Nat.add_lt_add_left (Nat.mod_lt _ hc) r, ?_⟩
  have hsum : r + (i + (c - 1) * r) = i + c * r := by
    obtain ⟨d, rfl⟩ := Nat.exists_eq_add_of_lt hc
    rw [Nat.zero_add, Nat.add_sub_cancel, Nat.succ_mul]
    omega
  rw [Nat.add_mod_mod, hsum, Nat.add_mul_mod_self_left]

/-- Two slots of one cell that are not the same are a window apart. -/
theorem le_of_same_cell {c i j : Nat} (h : i % c = j % c) (hlt : i < j) : i + c ≤ j := by
  by_contra hnear
  have hsame := window_inj (r := i) le_rfl (by omega) hlt.le (by omega) h
  omega

end TorrentLink.Lib
