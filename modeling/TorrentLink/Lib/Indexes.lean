import Mathlib.Data.Finset.Basic
import Mathlib.Data.List.Perm.Basic

/-!
# A second copy of a list: the set of its keys

A set kept beside a list of records, to answer whether some record has a key. `Indexes` says that it
answers exactly for the list. A record without a key is not indexed. Appending a record and its key
together keeps the set exact, and nothing but the keys of the records matters. A key made of two parts
tells both of them, if the separator is in neither first part.
-/

namespace TorrentLink.Lib

variable {α κ : Type} {key : α → Option κ} {known : Finset κ} {l l' : List α}

/-- The set holds the keys of the records, and no others. -/
def Indexes (key : α → Option κ) (known : Finset κ) (l : List α) : Prop :=
  ∀ k, k ∈ known ↔ ∃ a ∈ l, key a = some k

/-- The set with one more key, if there is one. -/
def addKey [DecidableEq κ] (known : Finset κ) : Option κ → Finset κ
  | none => known
  | some k => insert k known

theorem indexes_nil : Indexes key ∅ [] := by
  intro k
  simp

theorem mem_addKey [DecidableEq κ] {k : κ} {k? : Option κ} :
    k ∈ addKey known k? ↔ k ∈ known ∨ k? = some k := by
  cases k? with
  | none => simp [addKey]
  | some k' =>
    rw [addKey, Finset.mem_insert, Option.some.injEq, or_comm, eq_comm]

theorem Indexes.record [DecidableEq κ] (h : Indexes key known l) (a : α) :
    Indexes key (addKey known (key a)) (l ++ [a]) := by
  intro k
  rw [mem_addKey, h k]
  simp [or_and_right, exists_or]

theorem Indexes.of_map_eq (h : Indexes key known l) (hmap : l'.map key = l.map key) :
    Indexes key known l' := by
  intro k
  have hmem : some k ∈ l'.map key ↔ some k ∈ l.map key := by rw [hmap]
  rw [h k, ← List.mem_map, ← List.mem_map, hmem]

theorem Indexes.perm (h : Indexes key known l) (hperm : l'.Perm l) : Indexes key known l' := by
  intro k
  rw [h k]
  simp only [hperm.mem_iff]

/-! ### Keys of two parts -/

/-- The first separator tells the two parts. -/
theorem append_separator_eq {sep : α} {xs ys as bs : List α} (hxs : sep ∉ xs)
    (hys : sep ∉ ys) : xs ++ sep :: as = ys ++ sep :: bs ↔ xs = ys ∧ as = bs := by
  induction xs generalizing ys with
  | nil =>
    cases ys with
    | nil => simp
    | cons y ys =>
      have hne : sep ≠ y := fun h => hys (h ▸ List.mem_cons_self)
      simp [hne]
  | cons x xs ih =>
    have hne : x ≠ sep := fun h => hxs (h ▸ List.mem_cons_self)
    cases ys with
    | nil => simp [hne]
    | cons y ys =>
      have hxs' : sep ∉ xs := fun h => hxs (List.mem_cons_of_mem _ h)
      have hys' : sep ∉ ys := fun h => hys (List.mem_cons_of_mem _ h)
      simp only [List.cons_append, List.cons.injEq, ih hxs' hys', and_assoc]

/-- Without that condition, the parts may also be divided at another separator. -/
theorem append_separator_eq_iff {sep : α} {xs ys as bs : List α} :
    xs ++ sep :: as = ys ++ sep :: bs ↔
      (xs = ys ∧ as = bs) ∨ (∃ zs, ys = xs ++ sep :: zs ∧ as = zs ++ sep :: bs) ∨
        ∃ zs, xs = ys ++ sep :: zs ∧ bs = zs ++ sep :: as := by
  rw [List.append_eq_append_iff]
  constructor
  · rintro (⟨mid, rfl, htail⟩ | ⟨mid, rfl, htail⟩)
    · cases mid with
      | nil => simp_all
      | cons c zs =>
        obtain ⟨rfl, rfl⟩ := List.cons.inj htail
        exact .inr (.inl ⟨zs, rfl, rfl⟩)
    · cases mid with
      | nil => simp_all
      | cons c zs =>
        obtain ⟨rfl, rfl⟩ := List.cons.inj htail
        exact .inr (.inr ⟨zs, rfl, rfl⟩)
  · rintro (⟨rfl, rfl⟩ | ⟨zs, rfl, rfl⟩ | ⟨zs, rfl, rfl⟩)
    · exact .inl ⟨[], by simp, by simp⟩
    · exact .inl ⟨sep :: zs, rfl, rfl⟩
    · exact .inr ⟨sep :: zs, rfl, rfl⟩

end TorrentLink.Lib
