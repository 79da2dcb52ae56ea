import Mathlib.Data.List.Basic

/-!
# Keeping what is new

A batch is gone through in order, and an element is kept if it has nothing in common with the known ones
and those kept before it. What the elements may have in common need not be an equivalence: an element can
share something with two others that share nothing.
-/

namespace TorrentLink.Lib

variable {α : Type} {shares : α → α → Prop} {known batch kept kept' : List α}

/-- `KeepsNew shares known batch kept`: with `known`, the kept ones of `batch` are `kept`. -/
inductive KeepsNew (shares : α → α → Prop) : List α → List α → List α → Prop
  | nil (known : List α) : KeepsNew shares known [] []
  | keep {known batch kept : List α} {a : α} : (∀ x ∈ known, ¬shares a x) →
      KeepsNew shares (known ++ [a]) batch kept → KeepsNew shares known (a :: batch) (a :: kept)
  | drop {known batch kept : List α} {a x : α} : x ∈ known → shares a x →
      KeepsNew shares known batch kept → KeepsNew shares known (a :: batch) kept

theorem KeepsNew.sublist (h : KeepsNew shares known batch kept) : kept.Sublist batch := by
  induction h with
  | nil _ => exact List.Sublist.refl _
  | keep _ _ ih => exact ih.cons_cons _
  | drop _ _ _ ih => exact ih.cons _

/-- What is kept is determined. -/
theorem KeepsNew.unique (h : KeepsNew shares known batch kept) (h' : KeepsNew shares known batch kept') :
    kept = kept' := by
  induction h generalizing kept' with
  | nil _ =>
    cases h'
    rfl
  | keep hnew _ ih =>
    cases h' with
    | keep _ hrest => rw [ih hrest]
    | drop hmem hshares _ => exact absurd hshares (hnew _ hmem)
  | drop hmem hshares _ ih =>
    cases h' with
    | keep hnew _ => exact absurd hshares (hnew _ hmem)
    | drop _ _ hrest => exact ih hrest

/-- Every element of the batch has something in common with a known or a kept one. -/
theorem KeepsNew.covered (hrefl : ∀ a ∈ batch, shares a a) (h : KeepsNew shares known batch kept) :
    ∀ a ∈ batch, ∃ x ∈ known ++ kept, shares a x := by
  induction h with
  | nil _ => simp
  | @keep known batch kept b _ _ ih =>
    intro a ha
    rcases List.mem_cons.mp ha with rfl | ha
    · exact ⟨a, by simp, hrefl a List.mem_cons_self⟩
    · obtain ⟨x, hx, hshares⟩ := ih (fun c hc => hrefl c (List.mem_cons_of_mem _ hc)) a ha
      exact ⟨x, by simpa using hx, hshares⟩
  | drop hmem hshares _ ih =>
    intro a ha
    rcases List.mem_cons.mp ha with rfl | ha
    · exact ⟨_, List.mem_append_left _ hmem, hshares⟩
    · exact ih (fun c hc => hrefl c (List.mem_cons_of_mem _ hc)) a ha

theorem keepsNew_of_covered (h : ∀ a ∈ batch, ∃ x ∈ known, shares a x) :
    KeepsNew shares known batch [] := by
  induction batch with
  | nil => exact .nil known
  | cons a batch ih =>
    obtain ⟨x, hx, hshares⟩ := h a List.mem_cons_self
    exact .drop hx hshares (ih fun b hb => h b (List.mem_cons_of_mem a hb))

/-- The same batch again brings nothing new. -/
theorem KeepsNew.again (hrefl : ∀ a ∈ batch, shares a a) (h : KeepsNew shares known batch kept) :
    KeepsNew shares (known ++ kept) batch [] := keepsNew_of_covered (h.covered hrefl)

end TorrentLink.Lib
