import Mathlib.Data.Finset.Basic

/-!
# A memory of keys

A program that is to act once for each key keeps the keys it has acted for, and forgets some of them, or
all, when it may act again. The rule: a key is in the memory exactly if it was put there and not forgotten
since (`mem_remember_iff`). What such a program did is judged entry by entry, each by those before it
(`EachAfter`).
-/

namespace TorrentLink.Lib

variable {κ : Type}

/-- What an event does to the memory. -/
inductive MemoryOp (κ : Type)
  | keep
  | insert (k : κ)
  | erase (k : κ)
  | clear
  deriving DecidableEq

/-- The event forgets the key. -/
def MemoryOp.forgets (k : κ) : MemoryOp κ → Prop
  | .erase k' => k' = k
  | .clear => True
  | .keep | .insert _ => False

/-- The key was put there and not forgotten since. -/
def Remembered (ops : List (MemoryOp κ)) (k : κ) : Prop :=
  ∃ before after, ops = before ++ .insert k :: after ∧ ∀ op ∈ after, ¬op.forgets k

theorem remembered_concat_insert (ops : List (MemoryOp κ)) (k : κ) :
    Remembered (ops ++ [.insert k]) k := ⟨ops, [], rfl, by simp⟩

/-- Any other event leaves the keys that it does not forget. -/
theorem remembered_concat_iff {ops : List (MemoryOp κ)} {op : MemoryOp κ} {k : κ}
    (h : op ≠ .insert k) : Remembered (ops ++ [op]) k ↔ ¬op.forgets k ∧ Remembered ops k := by
  constructor
  · rintro ⟨before, after, hsplit, hafter⟩
    rcases List.eq_nil_or_concat after with rfl | ⟨after, last, rfl⟩
    · -- the event itself would have put the key there
      have hlast := congrArg List.getLast? hsplit
      simp at hlast
      exact absurd hlast h
    · rw [List.concat_eq_append, ← List.cons_append, ← List.append_assoc] at hsplit
      obtain ⟨hops, hop⟩ := List.append_inj' hsplit rfl
      obtain rfl : op = last := List.head_eq_of_cons_eq hop
      refine ⟨hafter op (by simp), before, after, hops, ?_⟩
      intro op' hop'
      exact hafter op' (by simp [hop'])
  · rintro ⟨hop, before, after, rfl, hafter⟩
    refine ⟨before, after ++ [op], by simp, ?_⟩
    intro op' hop'
    rcases List.mem_append.mp hop' with hop' | hop'
    · exact hafter op' hop'
    · rwa [List.mem_singleton.mp hop']

variable [DecidableEq κ]

def MemoryOp.apply (memory : Finset κ) : MemoryOp κ → Finset κ
  | .keep => memory
  | .insert k => Insert.insert k memory
  | .erase k => memory.erase k
  | .clear => ∅

/-- The memory after the events. -/
def remember (ops : List (MemoryOp κ)) : Finset κ := ops.foldl MemoryOp.apply ∅

theorem remember_concat (ops : List (MemoryOp κ)) (op : MemoryOp κ) :
    remember (ops ++ [op]) = op.apply (remember ops) := by
  simp [remember]

theorem mem_remember_iff (ops : List (MemoryOp κ)) (k : κ) :
    k ∈ remember ops ↔ Remembered ops k := by
  induction ops using List.reverseRecOn with
  | nil => simp [remember, Remembered]
  | append_singleton ops op ih =>
    rw [remember_concat]
    by_cases hop : op = .insert k
    · subst hop
      exact iff_of_true (Finset.mem_insert_self _ _) (remembered_concat_insert ops k)
    · rw [remembered_concat_iff hop, ← ih]
      cases op with
      | keep => simp [MemoryOp.apply, MemoryOp.forgets]
      | insert k' =>
        have hne : k ≠ k' := fun hk => hop (by rw [hk])
        simp [MemoryOp.apply, MemoryOp.forgets, hne]
      | erase k' => simp [MemoryOp.apply, MemoryOp.forgets, eq_comm]
      | clear => simp [MemoryOp.apply, MemoryOp.forgets]

/-! ### Judging a record -/

section

variable {α : Type} {P : List α → α → Prop} {l : List α}

/-- Each element is as `P` says, of those before it. -/
def EachAfter (P : List α → α → Prop) (l : List α) : Prop :=
  ∀ before a after, l = before ++ a :: after → P before a

theorem eachAfter_nil : EachAfter P [] := by
  intro before a after h
  simp at h

theorem EachAfter.concat (h : EachAfter P l) {a : α} (ha : P l a) : EachAfter P (l ++ [a]) := by
  intro before b after hsplit
  rcases List.eq_nil_or_concat after with rfl | ⟨after, last, rfl⟩
  · obtain ⟨rfl, hsame⟩ := List.append_inj' hsplit rfl
    obtain rfl := List.singleton_inj.mp hsame
    exact ha
  · rw [List.concat_eq_append, ← List.cons_append, ← List.append_assoc] at hsplit
    exact h before b after (List.append_inj' hsplit rfl).1

end

end TorrentLink.Lib
