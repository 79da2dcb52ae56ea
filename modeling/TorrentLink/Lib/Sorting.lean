import Mathlib.Data.List.Sort

/-!
# Sorting by a comparison

`std::sort`, with what its standard promises: for every comparison the result is a rearrangement of the
input, and for a strict weak order no element stands behind a greater one. The order of equivalent
elements is left open, so a result about a program that sorts holds for every implementation. For an
input that is longer than its prefix, `std::partial_sort` is the prefix of such a sorted list.
-/

namespace TorrentLink.Lib

/-- The comparisons `std::sort` accepts. -/
structure StrictWeak {α : Type} (lt : α → α → Bool) : Prop where
  asymm : ∀ a b, lt a b = true → lt b a = false
  cotrans : ∀ a b c, lt a b = true → lt a c = true ∨ lt c b = true

structure StdSort where
  sort : {α : Type} → (α → α → Bool) → List α → List α
  perm : ∀ {α : Type} (lt : α → α → Bool) (l : List α), (sort lt l).Perm l
  sorted : ∀ {α : Type} (lt : α → α → Bool) (l : List α), StrictWeak lt →
    (sort lt l).Pairwise fun a b => lt b a = false

/-- Insertion sort is one of the implementations. -/
def insertionStdSort : StdSort where
  sort lt l := l.insertionSort fun a b => lt b a = false
  perm lt l := List.perm_insertionSort (fun a b => lt b a = false) l
  sorted lt l h := by
    have htotal : Std.Total fun a b => lt b a = false :=
      ⟨fun a b => by
        cases hba : lt b a with
        | false => exact .inl rfl
        | true => exact .inr (h.asymm b a hba)⟩
    have htrans : IsTrans _ fun a b => lt b a = false :=
      ⟨fun a b c hab hbc => by
        refine Bool.eq_false_iff.mpr fun hca => ?_
        obtain hcb | hba := h.cotrans c a b hca
        · exact absurd (hcb.symm.trans hbc) (by decide)
        · exact absurd (hba.symm.trans hab) (by decide)⟩
    exact List.pairwise_insertionSort (fun a b => lt b a = false) l

end TorrentLink.Lib
