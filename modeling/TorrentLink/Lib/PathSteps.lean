import Mathlib.Data.List.Infix

/-!
# Following a path

A path is a sequence of steps, up to the parent or down to a name. What it leads to is a `ResolvedPath`:
steps up from the start that are left over, or none from the root, and then names to go down. A path
after another one leads to where the second leads from there (`follow_eq`), so whether it stays within
the first depends on what it resolves to alone (`within_join_iff`).
-/

namespace TorrentLink.Lib

inductive PathStep (α : Type)
  | up
  | down (name : α)
  deriving DecidableEq, Repr

/-- Where a path leads: up first, and then down. Above the root is the root. -/
structure ResolvedPath (α : Type) where
  absolute : Bool := false
  ups : Nat := 0
  names : List α := []
  deriving DecidableEq, Repr

namespace ResolvedPath

variable {α : Type}

def step (p : ResolvedPath α) : PathStep α → ResolvedPath α
  | .down name => { p with names := p.names ++ [name] }
  | .up =>
    if p.names ≠ [] then { p with names := p.names.dropLast }
    else if p.absolute then p
    else { p with ups := p.ups + 1 }

def follow (p : ResolvedPath α) (steps : List (PathStep α)) : ResolvedPath α := steps.foldl step p

/-- Where the relative path `q` leads from `p`. -/
def join (p q : ResolvedPath α) : ResolvedPath α :=
  if q.ups ≤ p.names.length then { p with names := p.names.take (p.names.length - q.ups) ++ q.names }
  else if p.absolute then { p with names := q.names }
  else { p with ups := p.ups + (q.ups - p.names.length), names := q.names }

/-- The path leads to `base` or below it. -/
def Within (base p : ResolvedPath α) : Prop :=
  p.absolute = base.absolute ∧ p.ups = base.ups ∧ base.names <+: p.names

instance [DecidableEq α] (base p : ResolvedPath α) : Decidable (base.Within p) :=
  inferInstanceAs (Decidable (_ ∧ _ ∧ _))

variable {base p q : ResolvedPath α} {steps : List (PathStep α)}

/-! ### Joining -/

@[simp] theorem follow_nil : p.follow [] = p := rfl

theorem follow_concat (steps : List (PathStep α)) (s : PathStep α) :
    p.follow (steps ++ [s]) = (p.follow steps).step s :=
  List.foldl_append

theorem follow_append (steps steps' : List (PathStep α)) :
    p.follow (steps ++ steps') = (p.follow steps).follow steps' :=
  List.foldl_append

@[simp] theorem absolute_step (s : PathStep α) : (p.step s).absolute = p.absolute := by
  cases s with
  | down name => rfl
  | up =>
    unfold step
    split_ifs <;> rfl

@[simp] theorem absolute_follow : (p.follow steps).absolute = p.absolute := by
  induction steps using List.reverseRecOn with
  | nil => rfl
  | append_singleton steps s ih => rw [follow_concat, absolute_step, ih]

/-- From the root there is no step up. -/
theorem ups_follow (h : p.absolute = true) : (p.follow steps).ups = p.ups := by
  induction steps using List.reverseRecOn with
  | nil => rfl
  | append_singleton steps s ih =>
    rw [follow_concat]
    cases s with
    | down name => exact ih
    | up =>
      unfold step
      split_ifs with hnames habsolute
      · exact ih
      · exact ih
      · exact absurd (absolute_follow.trans h) habsolute

/-- A further step after a relative path. -/
theorem step_join (hq : q.absolute = false) (s : PathStep α) : (p.join q).step s = p.join (q.step s) := by
  cases s with
  | down name =>
    unfold join step
    dsimp only
    split_ifs <;> simp
  | up =>
    by_cases hnames : q.names = []
    · have hup : q.step .up = { q with ups := q.ups + 1 } := by simp [step, hnames, hq]
      rw [hup]
      unfold join
      rw [hnames]
      dsimp only
      rcases Nat.lt_trichotomy q.ups p.names.length with hlt | heq | hgt
      · -- the last name that is left goes away
        have htake : p.names.take (p.names.length - q.ups) ≠ [] := by
          rw [← List.length_pos_iff, List.length_take]
          omega
        have hlt' : q.ups + 1 ≤ p.names.length := hlt
        rw [if_pos hlt.le, if_pos hlt', List.append_nil, List.append_nil]
        simp only [step, ne_eq, htake, not_false_iff, if_true]
        rw [List.dropLast_eq_take, List.length_take, List.take_take]
        congr 2
        omega
      · have hzero : p.names.length - q.ups = 0 := by omega
        have hnot : ¬ q.ups + 1 ≤ p.names.length := by omega
        rw [if_pos heq.le, if_neg hnot, hzero]
        cases p.absolute with
        | true => simp [step]
        | false => simp [step, heq]
      · have hnot : ¬ q.ups ≤ p.names.length := by omega
        have hnot' : ¬ q.ups + 1 ≤ p.names.length := by omega
        have hsub : q.ups + 1 - p.names.length = q.ups - p.names.length + 1 := by omega
        rw [if_neg hnot, if_neg hnot', hsub]
        cases p.absolute with
        | true => simp [step]
        | false => simp [step, Nat.add_assoc]
    · have hup : q.step .up = { q with names := q.names.dropLast } := by simp [step, hnames]
      rw [hup]
      unfold join
      dsimp only
      split_ifs
      · simp [step, hnames]
      · simp [step, hnames]
      · simp [step, hnames]

/-- A path after another one. -/
theorem follow_eq (p : ResolvedPath α) (steps : List (PathStep α)) :
    p.follow steps = p.join (follow {} steps) := by
  induction steps using List.reverseRecOn with
  | nil => simp [join]
  | append_singleton steps s ih => rw [follow_concat, follow_concat, ih, step_join absolute_follow]

/-! ### Staying within -/

/-- The names that the second path leaves must be the first ones that it takes again. -/
theorem within_join_iff : base.Within (base.join q) ↔
    base.names.drop (base.names.length - q.ups) <+: q.names ∧
      (base.absolute = true ∨ q.ups ≤ base.names.length) := by
  unfold join
  split_ifs with hups habsolute
  · rw [and_iff_left (.inr hups)]
    have hsplit := List.take_append_drop (base.names.length - q.ups) base.names
    unfold Within
    simp only [true_and]
    nth_rewrite 1 [← hsplit]
    exact List.prefix_append_right_inj _
  · have hzero : base.names.length - q.ups = 0 := by omega
    rw [hzero, List.drop_zero, and_iff_left (.inl habsolute)]
    simp [Within]
  · refine iff_of_false (fun h => ?_) fun h => h.2.elim habsolute hups
    have hsame : base.ups + (q.ups - base.names.length) = base.ups := h.2.1
    omega

end ResolvedPath

end TorrentLink.Lib
