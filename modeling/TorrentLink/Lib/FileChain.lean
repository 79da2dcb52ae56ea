import Mathlib.Data.List.Basic
import Mathlib.Logic.Function.Basic

/-!
# A file and its numbered backups

A directory gives a content to some of its names. To rotate a file, its last backup is removed, every other
backup takes the place of the next, and the file takes the place of the first. If the names of the file
and its backups are distinct and nothing else exists, the contents thereby move on by one place and the last
one is lost (`Names.rotate`). The argument is about the places only: what the loop does to names is what it
does to their numbers (`Names.moveOver`), and there its turns push a gap from the last place to the first
(`moveOver_gap`).
-/

namespace TorrentLink.Lib

variable {ν β : Type} [DecidableEq ν]

/-- The contents of the files that exist. -/
abbrev Dir (ν β : Type) := ν → Option β

namespace Dir

def remove (d : Dir ν β) (x : ν) : Dir ν β := Function.update d x none

/-- Fails if there is no such file, or one of the new name. -/
def rename (d : Dir ν β) (src dst : ν) : Dir ν β :=
  if (d src).isSome ∧ d dst = none then Function.update (d.remove src) dst (d src) else d

/-- A file, if it exists, takes the place of another. -/
def moveOver (d : Dir ν β) (src dst : ν) : Dir ν β :=
  if (d src).isSome then (d.remove dst).rename src dst else d

/-- The backups from a number downward each take the place of the next. -/
def shift (name : Nat → ν) : Nat → Dir ν β → Dir ν β
  | 0, d => d
  | i + 1, d => shift name i (d.moveOver (name (i + 1)) (name (i + 2)))

theorem remove_of_none {d : Dir ν β} {x : ν} (h : d x = none) : d.remove x = d := by
  unfold remove
  rw [← h, Function.update_eq_self]

theorem moveOver_of_none {d : Dir ν β} {src : ν} (h : d src = none) (dst : ν) :
    d.moveOver src dst = d := by
  unfold moveOver
  rw [h]
  rfl

theorem moveOver_of_some {d : Dir ν β} {src dst : ν} {b : β} (h : d src = some b) (hne : src ≠ dst) :
    d.moveOver src dst = Function.update (d.remove src) dst (some b) := by
  have hsrc : d.remove dst src = some b := (Function.update_of_ne hne _ _).trans h
  have hdst : d.remove dst dst = none := Function.update_self _ _ _
  unfold moveOver rename
  rw [h, if_pos Option.isSome_some, hsrc, if_pos ⟨Option.isSome_some, hdst⟩]
  unfold remove
  rw [Function.update_comm hne.symm, Function.update_idem]

/-- What is in the place of a file that moves there does not matter. -/
theorem remove_moveOver {d : Dir ν β} {src dst : ν} (hne : src ≠ dst) (h : d src = none → d dst = none) :
    (d.remove dst).moveOver src dst = d.moveOver src dst := by
  cases hsrc : d src with
  | none => rw [remove_of_none (h hsrc)]
  | some b =>
    have hremoved : d.remove dst src = some b := (Function.update_of_ne hne _ _).trans hsrc
    rw [moveOver_of_some hremoved hne, moveOver_of_some hsrc hne]
    unfold remove
    rw [Function.update_comm hne.symm, Function.update_idem]

theorem shift_of_none {name : Nat → ν} {d : Dir ν β} (h : ∀ i, d (name i) = none) (k : Nat) :
    d.shift name k = d := by
  induction k with
  | zero => rfl
  | succ k ih => rw [shift, moveOver_of_none (h (k + 1)), ih]

theorem shift_congr {name name' : Nat → ν} (h : ∀ i, name (i + 1) = name' (i + 1)) (k : Nat)
    (d : Dir ν β) : d.shift name k = d.shift name' k := by
  induction k generalizing d with
  | zero => rfl
  | succ k ih => rw [shift, shift, h, h, ih]

end Dir

open Dir

/-! ### Places -/

/-- The names of a list of places hold what the places hold, and nothing else exists. -/
structure Names (name : Nat → ν) (d : Dir ν β) (place : Dir Nat β) : Prop where
  at_name : ∀ i, d (name i) = place i
  only : ∀ x, (∀ i, x ≠ name i) → d x = none

namespace Names

variable {name : Nat → ν} {d : Dir ν β} {place : Dir Nat β}

theorem update (hname : name.Injective) (h : Names name d place) (i : Nat) (b : Option β) :
    Names name (Function.update d (name i) b) (Function.update place i b) where
  at_name j := by
    by_cases hj : j = i
    · rw [hj, Function.update_self, Function.update_self]
    · rw [Function.update_of_ne (hname.ne hj), Function.update_of_ne hj, h.at_name]
  only x hx := by
    rw [Function.update_of_ne (hx i)]
    exact h.only x hx

/-- A content for the first place of a list. -/
theorem update_first (hname : name.Injective) {files : List β} (h : Names name d fun i => files[i]?)
    (b : β) : Names name (Function.update d (name 0) (some b)) fun i => (b :: files.tail)[i]? := by
  have hnew := h.update hname 0 (some b)
  refine ⟨fun i => (hnew.at_name i).trans ?_, hnew.only⟩
  cases i with
  | zero => rfl
  | succ i =>
    rw [Function.update_of_ne (Nat.succ_ne_zero i), List.getElem?_cons_succ, List.getElem?_tail]

/-- What happens to the names happens to the places. -/
theorem moveOver (hname : name.Injective) (h : Names name d place) {i j : Nat} (hij : i ≠ j) :
    Names name (d.moveOver (name i) (name j)) (place.moveOver i j) := by
  have hat := h.at_name i
  cases hi : place i with
  | none =>
    rw [hi] at hat
    rw [moveOver_of_none hat, moveOver_of_none hi]
    exact h
  | some b =>
    rw [hi] at hat
    rw [moveOver_of_some hat (hname.ne hij), moveOver_of_some hi hij]
    exact (h.update hname i none).update hname j (some b)

end Names

/-! ### Rotation -/

/-- The contents with a gap at a place, from which on they have moved by one; the last is lost. -/
def gap (files : List β) (backups k : Nat) : Dir Nat β := fun i =>
  if i < k then files[i]? else if i = k then none else (files.take backups)[i - 1]?

section Gap

variable {files : List β} {backups k i : Nat}

theorem gap_of_lt (h : i < k) : gap files backups k i = files[i]? := if_pos h

theorem gap_self : gap files backups k k = none := by
  unfold gap
  rw [if_neg (Nat.lt_irrefl k), if_pos rfl]

theorem gap_of_gt (h : k < i) : gap files backups k i = (files.take backups)[i - 1]? := by
  unfold gap
  rw [if_neg (by omega), if_neg (by omega)]

theorem remove_eq_gap (h : files.length ≤ backups + 1) :
    Dir.remove (fun i => files[i]?) backups = gap files backups backups := by
  funext i
  unfold Dir.remove
  rcases Nat.lt_trichotomy i backups with hlt | heq | hgt
  · rw [Function.update_of_ne (by omega), gap_of_lt hlt]
  · rw [heq, Function.update_self, gap_self]
  · rw [Function.update_of_ne (by omega), gap_of_gt hgt, List.getElem?_eq_none (by omega),
      List.getElem?_eq_none (by rw [List.length_take]; omega)]

/-- The content before the gap moves into it. -/
theorem moveOver_gap (h : k < backups) :
    (gap files backups (k + 1)).moveOver k (k + 1) = gap files backups k := by
  have hsrc : gap files backups (k + 1) k = files[k]? := gap_of_lt (Nat.lt_succ_self k)
  have hdst : gap files backups k (k + 1) = files[k]? :=
    (gap_of_gt (Nat.lt_succ_self k)).trans (List.getElem?_take_of_lt h)
  -- the places other than the two
  have hother : ∀ i, i ≠ k → i ≠ k + 1 → gap files backups (k + 1) i = gap files backups k i := by
    intro i hk hk'
    rcases Nat.lt_or_gt_of_ne hk with hlt | hgt
    · rw [gap_of_lt hlt, gap_of_lt (Nat.lt_succ_of_lt hlt)]
    · rw [gap_of_gt hgt, gap_of_gt (by omega)]
  cases hfile : files[k]? with
  | none =>
    rw [hfile] at hsrc hdst
    rw [moveOver_of_none hsrc]
    funext i
    by_cases hi : i = k + 1
    · rw [hi, hdst, gap_self]
    · by_cases hik : i = k
      · rw [hik, hsrc, gap_self]
      · exact hother i hik hi
  | some b =>
    rw [hfile] at hsrc hdst
    rw [moveOver_of_some hsrc (Nat.succ_ne_self k).symm]
    funext i
    by_cases hi : i = k + 1
    · rw [hi, Function.update_self, hdst]
    · rw [Function.update_of_ne hi, Dir.remove]
      by_cases hik : i = k
      · rw [hik, Function.update_self, gap_self]
      · rw [Function.update_of_ne hik]
        exact hother i hik hi

end Gap

namespace Names

variable {name : Nat → ν} {d : Dir ν β}

/-- The turns of the loop push the gap to the first backup. -/
theorem shift (hname : name.Injective) (files : List β) {backups k : Nat} (hk : k < backups)
    (h : Names name d (gap files backups (k + 1))) :
    Names name (Dir.shift name k d) (gap files backups 1) := by
  induction k generalizing d with
  | zero => exact h
  | succ k ih =>
    have hstep := h.moveOver hname (Nat.succ_ne_self (k + 1)).symm
    rw [moveOver_gap hk] at hstep
    exact ih (Nat.lt_of_succ_lt hk) hstep

/-- A rotation leaves the place of the file free and the other contents one place further. -/
theorem rotate (hname : name.Injective) {files : List β} (backups : Nat)
    (hlength : files.length ≤ backups + 2) (h : Names name d fun i => files[i]?) :
    Names name
      ((Dir.shift name backups (d.remove (name (backups + 1)))).moveOver (name 0) (name 1))
      (gap files (backups + 1) 0) := by
  have hremoved := h.update hname (backups + 1) none
  change Names name (d.remove _) (Dir.remove (fun i => files[i]?) (backups + 1)) at hremoved
  rw [remove_eq_gap hlength] at hremoved
  have hmoved := (hremoved.shift hname files (Nat.lt_succ_self backups)).moveOver hname Nat.zero_ne_one
  rw [moveOver_gap (Nat.succ_pos backups)] at hmoved
  exact hmoved

/-- With one backup there is nothing to shift. -/
theorem rotate_one (hname : name.Injective) {files : List β} (hlength : files.length ≤ 2)
    (h : Names name d fun i => files[i]?) :
    Names name (d.moveOver (name 0) (name 1)) (gap files 1 0) := by
  have hmoved := h.rotate hname 0 hlength
  refine (remove_moveOver (hname.ne Nat.zero_ne_one) ?_) ▸ hmoved
  intro hnone
  rw [h.at_name] at hnone
  rw [h.at_name]
  exact List.getElem?_eq_none (Nat.le_succ_of_le (List.getElem?_eq_none_iff.mp hnone))

end Names

/-- A new file at the place of the old one. -/
theorem update_gap (files : List β) (backups : Nat) (b : β) :
    Function.update (gap files backups 0) 0 (some b) = fun i => (b :: files.take backups)[i]? := by
  funext i
  cases i with
  | zero => rw [Function.update_self, List.getElem?_cons_zero]
  | succ i =>
    rw [Function.update_of_ne (Nat.succ_ne_zero i), List.getElem?_cons_succ]
    rfl

end TorrentLink.Lib
