import Mathlib.Data.List.Nodup
import Mathlib.Data.List.Perm.Subperm

/-!
# Lists of records with a key

A table kept as a list: a record is found, and changed, as the first one with its key. Where the keys are
distinct, the first record with a key is the only one, so finding and changing by key is the same as by
position.
-/

namespace TorrentLink.Lib

variable {α β κ : Type}

/-- The change of the first element that meets the condition. -/
def modifyFirst (p : α → Bool) (f : α → α) : List α → List α
  | [] => []
  | a :: as => if p a then f a :: as else a :: modifyFirst p f as

/-- What a change keeps of each element that it may hit, it keeps of the list. -/
theorem map_modifyFirst_of_mem {g : α → β} {p : α → Bool} {f : α → α} {l : List α}
    (hf : ∀ a ∈ l, p a = true → g (f a) = g a) : (modifyFirst p f l).map g = l.map g := by
  induction l with
  | nil => rfl
  | cons a as ih =>
    unfold modifyFirst
    split
    · rename_i ha
      rw [List.map_cons, List.map_cons, hf a List.mem_cons_self ha]
    · rw [List.map_cons, List.map_cons, ih fun b hb => hf b (List.mem_cons_of_mem _ hb)]

theorem map_modifyFirst {g : α → β} {p : α → Bool} {f : α → α} (hf : ∀ a, g (f a) = g a)
    (l : List α) : (modifyFirst p f l).map g = l.map g :=
  map_modifyFirst_of_mem fun a _ _ => hf a

theorem map_modify {g : α → β} {f : α → α} (hf : ∀ a, g (f a) = g a) (l : List α) (i : Nat) :
    (l.modify i f).map g = l.map g := by
  apply List.ext_getElem?
  intro j
  rw [List.getElem?_map, List.getElem?_map, List.getElem?_modify]
  split
  · cases l[j]? with
    | none => rfl
    | some a => exact congrArg some (hf a)
  · cases l[j]? <;> rfl

theorem mem_modifyFirst_of_mem {p : α → Bool} {f : α → α} {l : List α} {a : α} (h : a ∈ l)
    (hp : p a = false) : a ∈ modifyFirst p f l := by
  induction l with
  | nil => cases h
  | cons b bs ih =>
    unfold modifyFirst
    split
    · rename_i hb
      rcases List.mem_cons.mp h with rfl | h
      · rw [hp] at hb
        cases hb
      · exact List.mem_cons_of_mem _ h
    · rcases List.mem_cons.mp h with rfl | h
      · exact List.mem_cons_self
      · exact List.mem_cons_of_mem _ (ih h)

/-- The change counts for the element that it hits. -/
theorem countP_modifyFirst {p : α → Bool} {f : α → α} {l : List α} {a : α} (h : l.find? p = some a)
    (q : α → Bool) : (modifyFirst p f l).countP q + (if q a then 1 else 0) =
      l.countP q + if q (f a) then 1 else 0 := by
  induction l with
  | nil => cases h
  | cons b bs ih =>
    unfold modifyFirst
    rw [List.find?_cons] at h
    cases hb : p b with
    | true =>
      rw [hb] at h
      obtain rfl := Option.some.inj h
      rw [if_pos rfl, List.countP_cons, List.countP_cons]
      omega
    | false =>
      rw [hb] at h
      have hrest := ih h
      rw [if_neg (by decide), List.countP_cons, List.countP_cons]
      omega

/-- What the elements contribute changes by what the element that is hit contributes. -/
theorem perm_flatMap_modifyFirst {p : α → Bool} {f : α → α} {l : List α} {a : α}
    (h : l.find? p = some a) (g : α → List β) :
    ((modifyFirst p f l).flatMap g ++ g a).Perm (l.flatMap g ++ g (f a)) := by
  induction l with
  | nil => cases h
  | cons b bs ih =>
    unfold modifyFirst
    rw [List.find?_cons] at h
    cases hb : p b with
    | true =>
      rw [hb] at h
      obtain rfl := Option.some.inj h
      rw [if_pos rfl, List.flatMap_cons, List.flatMap_cons]
      calc (g (f b) ++ bs.flatMap g ++ g b).Perm (g b ++ (g (f b) ++ bs.flatMap g)) :=
            List.perm_append_comm
        _ = (g b ++ g (f b)) ++ bs.flatMap g := (List.append_assoc ..).symm
        _ |>.Perm ((g b ++ bs.flatMap g) ++ g (f b)) := by
            rw [List.append_assoc, List.append_assoc]
            exact List.perm_append_comm.append_left (g b)
    | false =>
      rw [hb] at h
      rw [if_neg (by decide), List.flatMap_cons, List.flatMap_cons, List.append_assoc,
        List.append_assoc]
      exact (ih h).append_left (g b)

theorem sublist_flatMap_modifyFirst (p : α → Bool) {f : α → α} {g : α → List β}
    (hf : ∀ a, (g (f a)).Sublist (g a)) (l : List α) :
    ((modifyFirst p f l).flatMap g).Sublist (l.flatMap g) := by
  induction l with
  | nil => exact List.Sublist.refl []
  | cons a as ih =>
    unfold modifyFirst
    split
    · exact (hf a).append (List.Sublist.refl _)
    · exact (List.Sublist.refl (g a)).append ih

/-- Two lists of records with distinct keys contribute the same, in some order, if each record of the first
contributes what that of the second with its key does, and the others contribute nothing. -/
theorem perm_flatMap_of_keys {γ : Type} {k : α → κ} {k' : β → κ} {f : α → List γ} {g : β → List γ}
    {as : List α} {bs : List β} (has : (as.map k).Nodup) (hbs : (bs.map k').Nodup)
    (hfrom : ∀ a ∈ as, ∃ b ∈ bs, k' b = k a ∧ f a = g b)
    (hback : ∀ b ∈ bs, g b ≠ [] → ∃ a ∈ as, k a = k' b) : (as.flatMap f).Perm (bs.flatMap g) := by
  induction as generalizing bs with
  | nil =>
    have hnone : bs.flatMap g = [] := by
      refine List.flatMap_eq_nil_iff.mpr fun b hb => ?_
      by_contra hne
      obtain ⟨a, ha, -⟩ := hback b hb hne
      cases ha
    rw [hnone]
    exact List.Perm.refl []
  | cons a as ih =>
    obtain ⟨b, hb, hkey, hsame⟩ := hfrom a List.mem_cons_self
    obtain ⟨front, back, rfl⟩ := List.append_of_mem hb
    have hmiddle : (front ++ b :: back).Perm (b :: (front ++ back)) := List.perm_middle
    obtain ⟨hnew, has⟩ := List.nodup_cons.mp has
    obtain ⟨hother, hbs⟩ := List.nodup_cons.mp ((hmiddle.map k').nodup_iff.mp hbs)
    have hrest : (as.flatMap f).Perm ((front ++ back).flatMap g) := by
      refine ih has hbs (fun a' ha' => ?_) fun b' hb' hne => ?_
      · obtain ⟨b', hb', hkey', hsame'⟩ := hfrom a' (List.mem_cons_of_mem a ha')
        rcases List.mem_cons.mp (hmiddle.mem_iff.mp hb') with rfl | hb'
        · exact absurd (List.mem_map.mpr ⟨a', ha', hkey'.symm.trans hkey⟩) hnew
        · exact ⟨b', hb', hkey', hsame'⟩
      · obtain ⟨a', ha', hkey'⟩ := hback b' (hmiddle.mem_iff.mpr (List.mem_cons_of_mem b hb')) hne
        rcases List.mem_cons.mp ha' with rfl | ha'
        · exact absurd (List.mem_map.mpr ⟨b', hb', hkey'.symm.trans hkey.symm⟩) hother
        · exact ⟨a', ha', hkey'⟩
    calc (a :: as).flatMap f = g b ++ as.flatMap f := by rw [List.flatMap_cons, hsame]
      _ |>.Perm (g b ++ (front ++ back).flatMap g) := hrest.append_left (g b)
      _ |>.Perm ((front ++ b :: back).flatMap g) := (hmiddle.flatMap_right g).symm

theorem exists_mem_modifyFirst {p : α → Bool} {f : α → α} {l : List α} (h : ∃ a ∈ l, p a = true) :
    ∃ a ∈ l, p a = true ∧ f a ∈ modifyFirst p f l := by
  induction l with
  | nil => simp at h
  | cons b bs ih =>
    by_cases hb : p b = true
    · refine ⟨b, List.mem_cons_self, hb, ?_⟩
      rw [modifyFirst, if_pos hb]
      exact List.mem_cons_self
    · obtain ⟨a, ha, hp⟩ := h
      have hrest : ∃ a ∈ bs, p a = true := by
        rcases List.mem_cons.mp ha with rfl | ha
        · exact absurd hp hb
        · exact ⟨a, ha, hp⟩
      obtain ⟨a, ha, hp, hmem⟩ := ih hrest
      refine ⟨a, List.mem_cons_of_mem _ ha, hp, ?_⟩
      rw [modifyFirst, if_neg hb]
      exact List.mem_cons_of_mem _ hmem

/-- The element at the first position that meets a condition, among the others. -/
theorem exists_split_of_findIdx? {p : α → Bool} {l : List α} {i : Nat} (h : l.findIdx? p = some i) :
    ∃ before a after, l = before ++ a :: after ∧ p a = true ∧
      ∀ f : α → α, l.modify i f = before ++ f a :: after := by
  induction l generalizing i with
  | nil => simp at h
  | cons b bs ih =>
    rw [List.findIdx?_cons] at h
    by_cases hb : p b = true
    · rw [if_pos hb] at h
      obtain rfl := Option.some.inj h
      exact ⟨[], b, bs, rfl, hb, fun f => rfl⟩
    · rw [if_neg hb] at h
      obtain ⟨j, hj, rfl⟩ := Option.map_eq_some_iff.mp h
      obtain ⟨before, a, after, rfl, ha, hmodify⟩ := ih hj
      exact ⟨b :: before, a, after, rfl, ha, fun f => congrArg (b :: ·) (hmodify f)⟩

/-! ### Distinct keys -/

variable {key : α → κ}

theorem eq_of_key_eq {l : List α} (h : (l.map key).Nodup) {a b : α} (ha : a ∈ l) (hb : b ∈ l)
    (hkey : key a = key b) : a = b :=
  List.inj_on_of_nodup_map h ha hb hkey

theorem nodup_of_subperm {l l' : List α} (h : (l.map key).Nodup) (hsub : l'.Subperm l) :
    (l'.map key).Nodup := by
  obtain ⟨l'', hperm, hsub⟩ := hsub
  exact (hperm.map key).nodup_iff.mp ((hsub.map key).nodup h)

variable [DecidableEq κ]

theorem find?_of_nodup {l : List α} (h : (l.map key).Nodup) {a : α} (ha : a ∈ l) :
    l.find? (fun b => key b = key a) = some a := by
  cases hfind : l.find? fun b => key b = key a with
  | none =>
    have hnone := List.find?_eq_none.mp hfind a ha
    simp at hnone
  | some b =>
    have hkey : key b = key a := by simpa using List.find?_some hfind
    rw [eq_of_key_eq h (List.mem_of_find?_eq_some hfind) ha hkey]

variable (key) in
/-- With distinct keys a change by key is a change at the record's position. -/
theorem modifyFirst_eq_modify {l : List α} (h : (l.map key).Nodup) {i : Nat} {a : α}
    (ha : l[i]? = some a) (f : α → α) :
    modifyFirst (fun b => key b = key a) f l = l.modify i f := by
  induction l generalizing i with
  | nil => simp at ha
  | cons b bs ih =>
    rw [List.map_cons, List.nodup_cons] at h
    cases i with
    | zero =>
      obtain rfl : b = a := by simpa using ha
      rw [modifyFirst, if_pos (by simp)]
      rfl
    | succ i =>
      have hbs : bs[i]? = some a := by simpa using ha
      have hne : key b ≠ key a := fun hkey =>
        h.1 (hkey ▸ List.mem_map_of_mem (List.mem_of_getElem? hbs))
      rw [modifyFirst, if_neg (by simpa using hne), ih h.2 hbs]
      rfl

end TorrentLink.Lib
