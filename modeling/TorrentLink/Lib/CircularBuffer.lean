import Mathlib.Data.List.DropRight
import Mathlib.Logic.Function.Basic

/-!
# A circular buffer

`n` cells that hold the last items pushed, the oldest one at `head`. A push into a full buffer takes the
cell of the oldest item and moves `head` to the next one, so the items read from `head` on are the last `n`
of those pushed (`toList_push`), wherever they wrap around.
-/

namespace TorrentLink.Lib

structure CircularBuffer (α : Type) (n : Nat) where
  cells : Fin n → α
  head : Nat
  count : Nat
  head_lt : head < n
  count_le : count ≤ n

namespace CircularBuffer

variable {α : Type} {n : Nat}

def empty (blank : α) (hn : 0 < n) : CircularBuffer α n where
  cells _ := blank
  head := 0
  count := 0
  head_lt := hn
  count_le := Nat.zero_le n

/-- The cell of the item `i`, counted from the oldest one. -/
def index (b : CircularBuffer α n) (i : Nat) : Fin n :=
  ⟨(b.head + i) % n, Nat.mod_lt _ (Nat.zero_lt_of_lt b.head_lt)⟩

def nth (b : CircularBuffer α n) (i : Nat) : α := b.cells (b.index i)

def push (b : CircularBuffer α n) (a : α) : CircularBuffer α n :=
  let cells := Function.update b.cells (b.index b.count) a
  if hroom : b.count < n then { b with cells := cells, count := b.count + 1, count_le := hroom }
  else
    { b with
      cells := cells
      head := (b.head + 1) % n
      head_lt := Nat.mod_lt _ (Nat.zero_lt_of_lt b.head_lt) }

/-- The items, the oldest first. -/
def toList (b : CircularBuffer α n) : List α := (List.range b.count).map b.nth

variable {b : CircularBuffer α n}

@[simp] theorem toList_empty (blank : α) (hn : 0 < n) : (empty blank hn).toList = [] := rfl

@[simp] theorem length_toList : b.toList.length = b.count := by
  rw [toList, List.length_map, List.length_range]

theorem getLast?_toList (hcount : b.count ≠ 0) : b.toList.getLast? = some (b.nth (b.count - 1)) := by
  obtain ⟨m, hm⟩ := Nat.exists_eq_succ_of_ne_zero hcount
  rw [toList, hm, List.range_succ, List.map_append, List.map_singleton, List.getLast?_concat, Nat.succ_sub_one]

/-- Fewer steps than cells lead from one cell to another. -/
theorem index_ne {i j : Nat} (hij : i < j) (hj : j < i + n) : b.index i ≠ b.index j := by
  intro h
  have hmod : (b.head + i) % n = (b.head + j) % n := congrArg Fin.val h
  have hzero : b.head + j - (b.head + i) = 0 :=
    Nat.eq_zero_of_dvd_of_lt (Nat.dvd_of_mod_eq_zero (Nat.sub_mod_eq_zero_of_mod_eq hmod.symm)) (by omega)
  omega

/-! ### A push -/

variable (a : α)

theorem cells_push : (b.push a).cells = Function.update b.cells (b.index b.count) a := by
  unfold push
  split <;> rfl

theorem count_push : (b.push a).count = if b.count < n then b.count + 1 else b.count := by
  unfold push
  split <;> rfl

theorem index_push (i : Nat) : (b.push a).index i = if b.count < n then b.index i else b.index (i + 1) := by
  unfold push
  split
  · rfl
  · apply Fin.ext
    show ((b.head + 1) % n + i) % n = (b.head + (i + 1)) % n
    rw [Nat.mod_add_mod, Nat.add_assoc, Nat.add_comm 1 i]

theorem nth_push_of_lt (hroom : b.count < n) {i : Nat} (hi : i ≤ b.count) :
    (b.push a).nth i = if i = b.count then a else b.nth i := by
  rw [nth, cells_push, index_push, if_pos hroom]
  by_cases hlast : i = b.count
  · rw [if_pos hlast, hlast, Function.update_self]
  · rw [if_neg hlast, Function.update_of_ne (index_ne (by omega) (by omega)), nth]

/-- When the buffer is full, the items move on by one. -/
theorem nth_push_of_full (hfull : b.count = n) {i : Nat} (hi : i < n) :
    (b.push a).nth i = if i + 1 = n then a else b.nth (i + 1) := by
  rw [nth, cells_push, index_push, if_neg (by omega)]
  by_cases hlast : i + 1 = n
  · rw [if_pos hlast, hlast, hfull, Function.update_self]
  · rw [if_neg hlast, Function.update_of_ne (index_ne (by omega) (by omega)), nth]

/-- A push leaves the last `n` items. -/
theorem toList_push : (b.push a).toList = (b.toList ++ [a]).rtake n := by
  rw [List.rtake, List.length_append, length_toList, List.length_singleton]
  by_cases hroom : b.count < n
  · have hitems : (b.push a).toList = b.toList ++ [a] := by
      rw [toList, count_push, if_pos hroom, List.range_succ, List.map_append, List.map_singleton,
        nth_push_of_lt a hroom (Nat.le_refl _), if_pos rfl, toList]
      refine congrArg (· ++ [a]) (List.map_congr_left fun i hi => ?_)
      have hlt : i < b.count := List.mem_range.mp hi
      rw [nth_push_of_lt a hroom (Nat.le_of_lt hlt), if_neg (Nat.ne_of_lt hlt)]
    rw [hitems, Nat.sub_eq_zero_of_le hroom, List.drop_zero]
  · have hfull : b.count = n := Nat.le_antisymm b.count_le (Nat.not_lt.mp hroom)
    have hpos : 0 < b.count := Nat.lt_of_lt_of_eq (Nat.zero_lt_of_lt b.head_lt) hfull.symm
    obtain ⟨m, hm⟩ : ∃ m, b.count = m + 1 := Nat.exists_eq_add_one.mpr hpos
    have hrest : b.toList.drop 1 = (List.range m).map fun i => b.nth (i + 1) := by
      rw [toList, hm, List.range_succ_eq_map, List.map_cons, List.drop_one, List.tail_cons, List.map_map]
      rfl
    have hdrop : b.count + 1 - n = 1 := by omega
    rw [hdrop, List.drop_append_of_le_length (by rw [length_toList]; omega), hrest, toList, count_push,
      if_neg hroom, hm, List.range_succ, List.map_append, List.map_singleton, nth_push_of_full a hfull (by omega),
      if_pos (by omega)]
    refine congrArg (· ++ [a]) (List.map_congr_left fun i hi => ?_)
    have hlt : i < m := List.mem_range.mp hi
    rw [nth_push_of_full a hfull (by omega), if_neg (by omega)]

/-- The items that an earlier push has dropped do not matter to a later one. -/
theorem rtake_rtake_concat (l : List α) : (l.rtake n ++ [a]).rtake n = (l ++ [a]).rtake n := by
  cases n with
  | zero => rw [List.rtake_zero, List.rtake_zero]
  | succ m =>
    rw [List.rtake_concat_succ, List.rtake_concat_succ, List.rtake_eq_reverse_take_reverse (l := l),
      List.rtake_eq_reverse_take_reverse, List.rtake_eq_reverse_take_reverse, List.reverse_reverse, List.take_take,
      Nat.min_eq_left (Nat.le_succ m)]

end CircularBuffer

end TorrentLink.Lib
