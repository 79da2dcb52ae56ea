import Mathlib.Data.List.Basic
import Mathlib.Data.List.Sublists

/-!
# A list that is rebuilt place by place

Each place of the new list is that of an old element or of a new one (`none`), and its content is computed
from the place. The old elements are all kept, in their order, exactly if each place of one computes it
again. What marks the new elements must not mark an old one.
-/

namespace TorrentLink.Lib

variable {α : Type} {f : Nat → Option α → α} {places : List (Option α)}

theorem sublist_mapIdx (h : ∀ i a, places[i]? = some (some a) → f i (some a) = a) :
    (places.filterMap id).Sublist (places.mapIdx f) := by
  induction places generalizing f with
  | nil => exact List.Sublist.refl _
  | cons place places ih =>
    have hrest := ih (f := fun i => f (i + 1)) fun i a hi => h (i + 1) a hi
    rw [List.mapIdx_cons]
    cases place with
    | none => exact hrest.cons _
    | some a =>
      rw [List.filterMap_cons_some (f := id) rfl, h 0 a rfl]
      exact hrest.cons_cons a

variable {p : α → Bool}

theorem filter_mapIdx_length (hnone : ∀ i, none ∈ places → p (f i none) = false)
    (hsome : ∀ i a, some a ∈ places → p (f i (some a)) = true) :
    ((places.mapIdx f).filter p).length = (places.filterMap id).length := by
  induction places generalizing f with
  | nil => rfl
  | cons place places ih =>
    have hrest := ih (f := fun i => f (i + 1)) (fun i h => hnone (i + 1) (List.mem_cons_of_mem _ h))
      fun i a h => hsome (i + 1) a (List.mem_cons_of_mem _ h)
    rw [List.mapIdx_cons]
    cases place with
    | none =>
      rw [List.filter_cons_of_neg (by simp [hnone 0 List.mem_cons_self])]
      exact hrest
    | some a =>
      rw [List.filter_cons_of_pos (hsome 0 a List.mem_cons_self), List.filterMap_cons_some (f := id) rfl,
        List.length_cons, List.length_cons, hrest]

theorem content_of_filter_eq (hnone : ∀ i, none ∈ places → p (f i none) = false)
    (hsome : ∀ i a, some a ∈ places → p (f i (some a)) = true)
    (h : (places.mapIdx f).filter p = places.filterMap id) :
    ∀ i a, places[i]? = some (some a) → f i (some a) = a := by
  induction places generalizing f with
  | nil => simp
  | cons place places ih =>
    have hrest := ih (f := fun i => f (i + 1)) (fun i h => hnone (i + 1) (List.mem_cons_of_mem _ h))
      fun i a h => hsome (i + 1) a (List.mem_cons_of_mem _ h)
    rw [List.mapIdx_cons] at h
    intro i a hi
    cases place with
    | none =>
      rw [List.filter_cons_of_neg (by simp [hnone 0 List.mem_cons_self])] at h
      cases i with
      | zero => cases hi
      | succ i => exact hrest h i a hi
    | some b =>
      rw [List.filter_cons_of_pos (hsome 0 b List.mem_cons_self), List.filterMap_cons_some (f := id) rfl] at h
      obtain ⟨hhead, htail⟩ := List.cons.inj h
      cases i with
      | zero =>
        cases hi
        exact hhead
      | succ i => exact hrest htail i a hi

/-- If the new list has all the old elements, in their order, no place is missing and each computes its
element. -/
theorem content_of_sublist {old : List α} (hnone : ∀ i, none ∈ places → p (f i none) = false)
    (hsome : ∀ i a, some a ∈ places → p (f i (some a)) = true) (hold : ∀ a ∈ old, p a = true)
    (hplaces : (places.filterMap id).Sublist old) (h : old.Sublist (places.mapIdx f)) :
    places.filterMap id = old ∧ ∀ i a, places[i]? = some (some a) → f i (some a) = a := by
  have hfilter : old.Sublist ((places.mapIdx f).filter p) := by
    have hkept := h.filter p
    rwa [List.filter_eq_self.mpr hold] at hkept
  have hlength := filter_mapIdx_length (f := f) hnone hsome
  have hsame := hplaces.eq_of_length_le (hlength ▸ hfilter.length_le)
  have hwhole := hfilter.eq_of_length_le (by rw [hlength, hsame])
  exact ⟨hsame, content_of_filter_eq hnone hsome (hwhole.symm.trans hsame.symm)⟩

end TorrentLink.Lib
