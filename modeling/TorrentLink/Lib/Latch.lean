import Mathlib.Data.List.Basic

/-!
# A latch

A program looks at a value again and again, and acts when it is done. A latch, set when the value is found
done and cleared when it is found otherwise, keeps it from acting on the same completion again; but the
latch is open at the start, and it may be cleared from elsewhere as well. `Latched` is what the trace of such
a program is. It acts on completions only (`OnCompletions`) exactly if no clearing from elsewhere comes
between two looks at a done value, and no done value comes before the first undone one
(`onCompletions_iff`).
-/

namespace TorrentLink.Lib

variable {α : Type}

/-- A look at the value. -/
structure Look (α : Type) where
  value : α
  /-- The latch was cleared from elsewhere since the look before. -/
  cleared : Bool
  acted : Bool
  deriving DecidableEq, Repr

section

variable (done undone acts : α → Bool)

/-- The last look found the value done. -/
def lastDone (looks : List (Look α)) : Bool := looks.getLast?.any fun l => done l.value

/-- It acts on a done value, if there is something to do and the latch is open. -/
def Latched (trace : List (Look α)) : Prop :=
  ∀ before l after, trace = before ++ l :: after →
    (l.acted = true ↔
      done l.value = true ∧ acts l.value = true ∧ (lastDone done before = true → l.cleared = true))

/-- It acts on a done value only, after an undone one was seen, and once between two looks that find it
otherwise: never if the look before found it done. -/
def OnCompletions (trace : List (Look α)) : Prop :=
  ∀ before l after, trace = before ++ l :: after → l.acted = true →
    done l.value = true ∧ (∃ p ∈ before, undone p.value = true) ∧
      (∀ before' p mid, before = before' ++ p :: mid → p.acted = true →
        ∃ q ∈ mid, done q.value = false) ∧
      lastDone done before = false

/-- Where a done value with something to do is found, the latch was not cleared if the last look found it
done, and an undone one was seen if not. -/
def ClearedInTime (trace : List (Look α)) : Prop :=
  ∀ before l after, trace = before ++ l :: after → done l.value = true → acts l.value = true →
    (lastDone done before = true → l.cleared = false) ∧
      (lastDone done before = false → ∃ p ∈ before, undone p.value = true)

end

variable {done undone acts : α → Bool} {trace : List (Look α)}

theorem latched_nil : Latched done acts [] := by
  intro before l after h
  cases before <;> cases h

/-- One more look. -/
theorem Latched.snoc (h : Latched done acts trace) {l : Look α}
    (hl : l.acted = true ↔
      done l.value = true ∧ acts l.value = true ∧ (lastDone done trace = true → l.cleared = true)) :
    Latched done acts (trace ++ [l]) := by
  intro before l' after heq
  rcases List.eq_nil_or_concat after with rfl | ⟨after, last, rfl⟩
  · obtain ⟨rfl, hsame⟩ := List.append_inj' heq rfl
    obtain rfl := List.singleton_inj.mp hsame
    exact hl
  · rw [List.concat_eq_append, ← List.cons_append, ← List.append_assoc] at heq
    exact h before l' after (List.append_inj' heq rfl).1

theorem onCompletions_iff (h : Latched done acts trace) :
    OnCompletions done undone trace ↔ ClearedInTime done undone acts trace := by
  constructor
  · intro hon before l after heq hdone hacts
    have hacted := h before l after heq
    constructor
    · intro hlast
      by_contra hcleared
      have hl := hon before l after heq (hacted.mpr ⟨hdone, hacts, fun _ => by simpa using hcleared⟩)
      rw [hl.2.2.2] at hlast
      cases hlast
    · intro hlast
      exact (hon before l after heq (hacted.mpr ⟨hdone, hacts, fun hl => by rw [hlast] at hl; cases hl⟩)).2.1
  · intro htime before l after heq hl
    obtain ⟨hdone, hacts, hopen⟩ := (h before l after heq).mp hl
    obtain ⟨hkept, hseen⟩ := htime before l after heq hdone hacts
    have hlast : lastDone done before = false := by
      by_contra hlast
      rw [Bool.not_eq_false] at hlast
      rw [hopen hlast] at hkept
      cases hkept hlast
    refine ⟨hdone, hseen hlast, ?_, hlast⟩
    intro before' p mid hbefore hp
    have hdone' := ((h before' p (mid ++ l :: after) (by rw [heq, hbefore]; simp)).mp hp).1
    rcases List.eq_nil_or_concat mid with rfl | ⟨mid, last, rfl⟩
    · -- the look before would have found it done
      rw [hbefore] at hlast
      simp [lastDone, hdone'] at hlast
    · refine ⟨last, by simp, ?_⟩
      rw [hbefore, List.concat_eq_append, ← List.cons_append, ← List.append_assoc] at hlast
      unfold lastDone at hlast
      rw [List.getLast?_concat] at hlast
      exact hlast

end TorrentLink.Lib
