import Mathlib.Data.List.Infix

/-!
# A forest whose nodes are placed by keys

The key of a node is that of its parent and one part more, and siblings have different keys (`Placed`).
So the nodes below the one with the key `s` are those whose key goes on after `s`, and a change of that
node and of all below it is a map over the whole forest (`items_mapAt`).
-/

namespace TorrentLink.Lib

/-- A first tree, by its root and the trees below it, and the trees behind it. -/
inductive Forest (α : Type) where
  | nil
  | node (item : α) (children siblings : Forest α)
  deriving DecidableEq, Repr

namespace Forest

variable {α κ : Type}

/-- The nodes, each before those below it. -/
def items : Forest α → List α
  | nil => []
  | node item children siblings => item :: (children.items ++ siblings.items)

def roots : Forest α → List α
  | nil => []
  | node item _ siblings => item :: siblings.roots

def map (g : α → α) : Forest α → Forest α
  | nil => nil
  | node item children siblings => node (g item) (children.map g) (siblings.map g)

/-- The first node on each way down that is `at?` is changed with `f`, and what is below it with `g`. -/
def mapAt (at? : α → Bool) (f g : α → α) : Forest α → Forest α
  | nil => nil
  | node item children siblings =>
    if at? item then node (f item) (children.map g) siblings
    else node item (children.mapAt at? f g) (siblings.mapAt at? f g)

/-- Below the key `acc`, every node stands at its key. -/
def Placed (key : α → List κ) : List κ → Forest α → Prop
  | _, nil => True
  | acc, node item children siblings =>
    (∃ part, key item = acc ++ [part]) ∧ Placed key (key item) children ∧ Placed key acc siblings ∧
      ∀ item' ∈ siblings.roots, key item' ≠ key item

variable {key : α → List κ} {acc s : List κ} {tree : Forest α}

theorem items_map {g : α → α} : (tree.map g).items = tree.items.map g := by
  induction tree with
  | nil => rfl
  | node item children siblings hchildren hsiblings =>
    rw [map, items, items, hchildren, hsiblings, List.map_cons, List.map_append]

theorem Placed.root_key (h : tree.Placed key acc) {root : α} (hroot : root ∈ tree.roots) :
    ∃ part, key root = acc ++ [part] := by
  induction tree with
  | nil => cases hroot
  | node item children siblings _ ih =>
    rcases List.mem_cons.mp hroot with rfl | hroot
    · exact h.1
    · exact ih h.2.2.1 hroot

/-- Every node is at or below a root. -/
theorem Placed.exists_root (h : tree.Placed key acc) {item : α} (hitem : item ∈ tree.items) :
    ∃ root ∈ tree.roots, key root <+: key item := by
  induction tree generalizing acc with
  | nil => cases hitem
  | node root children siblings hchildren hsiblings =>
    obtain ⟨-, hbelow, hbehind, -⟩ := h
    rcases List.mem_cons.mp hitem with rfl | hitem
    · exact ⟨item, List.mem_cons_self, List.prefix_rfl⟩
    · rcases List.mem_append.mp hitem with hitem | hitem
      · obtain ⟨child, hchild, hpre⟩ := hchildren hbelow hitem
        obtain ⟨part, hpart⟩ := hbelow.root_key hchild
        have hroot : key root <+: key child := ⟨[part], hpart.symm⟩
        exact ⟨root, List.mem_cons_self, hroot.trans hpre⟩
      · obtain ⟨root', hroot', hpre⟩ := hsiblings hbehind hitem
        exact ⟨root', List.mem_cons_of_mem _ hroot', hpre⟩

theorem Placed.key_below (h : tree.Placed key acc) {item : α} (hitem : item ∈ tree.items) :
    acc <+: key item ∧ key item ≠ acc := by
  obtain ⟨root, hroot, hpre⟩ := h.exists_root hitem
  obtain ⟨part, hpart⟩ := h.root_key hroot
  rw [hpart] at hpre
  refine ⟨(List.prefix_append _ _).trans hpre, fun hsame => ?_⟩
  have hlength := hpre.length_le
  rw [hsame, List.length_append, List.length_singleton] at hlength
  omega

/-- The trees behind a root have nothing at or below its key. -/
theorem Placed.not_behind {item : α} {children siblings : Forest α}
    (h : (node item children siblings).Placed key acc) {item' : α} (hitem' : item' ∈ siblings.items) :
    ¬ key item <+: key item' := by
  intro hpre
  obtain ⟨⟨part, hpart⟩, -, hbehind, hdistinct⟩ := h
  obtain ⟨root, hroot, hpre'⟩ := hbehind.exists_root hitem'
  obtain ⟨part', hpart'⟩ := hbehind.root_key hroot
  refine hdistinct root hroot ((List.prefix_of_prefix_length_le hpre' hpre ?_).eq_of_length ?_)
  · simp [hpart, hpart']
  · simp [hpart, hpart']

section Change

variable {at? : α → Bool} {f g : α → α} (hat : ∀ item, at? item = true ↔ key item = s)

include hat in
/-- The change of the node at `s`, over the whole forest. -/
theorem items_mapAt [DecidableEq κ] (h : tree.Placed key acc) (hs : ¬ s <+: acc) :
    (tree.mapAt at? f g).items = tree.items.map fun item =>
      if key item = s then f item else if s <+: key item then g item else item := by
  induction tree generalizing acc with
  | nil => rfl
  | node item children siblings hchildren hsiblings =>
    have hnot := fun item' => @Placed.not_behind _ _ _ _ _ _ _ h item'
    obtain ⟨⟨part, hpart⟩, hbelow, hbehind, -⟩ := h
    rw [mapAt]
    by_cases hitem : key item = s
    · rw [if_pos ((hat item).mpr hitem), items, items, items_map, List.map_cons, List.map_append,
        if_pos hitem]
      refine congrArg₂ (fun l l' => f item :: (l ++ l')) ?_ ?_
      · refine List.map_congr_left fun item' hitem' => ?_
        obtain ⟨hpre, hne⟩ := hbelow.key_below hitem'
        rw [hitem] at hpre hne
        rw [if_neg hne, if_pos hpre]
      · refine (List.map_id _).symm.trans (List.map_congr_left fun item' hitem' => ?_)
        have hpre := hnot item' hitem'
        rw [hitem] at hpre
        have hne : key item' ≠ s := fun hsame => hpre (hsame ▸ List.prefix_rfl)
        rw [if_neg hne, if_neg hpre, id]
    · have hpre : ¬ s <+: key item := by
        rw [hpart, List.prefix_concat_iff]
        rintro (hsame | hpre)
        · exact hitem (hpart.trans hsame.symm)
        · exact hs hpre
      rw [if_neg fun htrue => hitem ((hat item).mp htrue), items, items, List.map_cons, List.map_append,
        if_neg hitem, if_neg hpre, hchildren hbelow hpre, hsiblings hbehind hs]

end Change

end Forest

end TorrentLink.Lib
