import Mathlib.Data.List.Pairwise
import Mathlib.Logic.Function.Basic
import TorrentLink.Lib.Forest

/-!
# Visiting a forest before what is below

A traversal visits every node before the nodes below it (`Placed.pairwise_visits`) and keeps a state for
each key. While it writes at the visited node and above it only, it finds everything at and below a node
as it was before the traversal (`foldl_visits_below`): what it reads of the children is never what it
computes for them.
-/

namespace TorrentLink.Lib

namespace Forest

variable {α κ σ : Type}

/-- The nodes in the order of `items`, each with its children. -/
def visits : Forest α → List (α × List α)
  | nil => []
  | node item children siblings => (item, children.roots) :: (children.visits ++ siblings.visits)

theorem map_visits (tree : Forest α) : tree.visits.map Prod.fst = tree.items := by
  induction tree with
  | nil => rfl
  | node item children siblings hchildren hsiblings =>
    rw [visits, items, List.map_cons, List.map_append, hchildren, hsiblings]

theorem mem_items_of_visits {tree : Forest α} {v : α × List α} (hv : v ∈ tree.visits) :
    v.1 ∈ tree.items := by
  rw [← map_visits]
  exact List.mem_map_of_mem hv

theorem exists_visit {tree : Forest α} {item : α} (h : item ∈ tree.items) :
    ∃ children, (item, children) ∈ tree.visits := by
  rw [← map_visits] at h
  obtain ⟨⟨item', children⟩, hv, rfl⟩ := List.mem_map.mp h
  exact ⟨children, hv⟩

theorem roots_subset_items {tree : Forest α} {item : α} (h : item ∈ tree.roots) : item ∈ tree.items := by
  induction tree with
  | nil => exact h
  | node root children siblings _ ih =>
    rcases List.mem_cons.mp h with rfl | h
    · exact List.mem_cons_self
    · exact List.mem_cons_of_mem _ (List.mem_append_right _ (ih h))

variable {key : α → List κ} {acc : List κ} {tree : Forest α}

/-! ### Children -/

/-- The roots are the nodes with one part more. -/
theorem Placed.mem_roots_iff (h : tree.Placed key acc) {item : α} :
    item ∈ tree.roots ↔ item ∈ tree.items ∧ (key item).length = acc.length + 1 := by
  refine ⟨fun hroot => ⟨roots_subset_items hroot, ?_⟩, fun ⟨hitem, hlength⟩ => ?_⟩
  · obtain ⟨part, hpart⟩ := h.root_key hroot
    rw [hpart, List.length_append, List.length_singleton]
  · clear * - h hitem hlength
    induction tree with
    | nil => exact hitem
    | node root children siblings _ ih =>
      rcases List.mem_cons.mp hitem with rfl | hitem
      · exact List.mem_cons_self
      · obtain ⟨⟨part, hpart⟩, hbelow, hbehind, -⟩ := h
        rcases List.mem_append.mp hitem with hitem | hitem
        · -- what is below the first root has two parts more
          obtain ⟨hpre, hne⟩ := hbelow.key_below hitem
          have hlt := lt_of_le_of_ne hpre.length_le fun hsame => hne (hpre.eq_of_length hsame).symm
          rw [hpart, List.length_append, List.length_singleton] at hlt
          omega
        · exact List.mem_cons_of_mem _ (ih hbehind hitem)

/-- What is at or below the first root is not below another one. -/
theorem Placed.apart {root : α} {children siblings : Forest α}
    (h : (node root children siblings).Placed key acc)
    {item : α} (hitem : item ∈ siblings.items) {p : List κ} (hpre : key root <+: p) :
    ¬ key item <+: p := by
  intro hpre'
  obtain ⟨⟨part, hpart⟩, -, hbehind, hdistinct⟩ := h
  obtain ⟨root', hroot', hbelow⟩ := hbehind.exists_root hitem
  obtain ⟨part', hpart'⟩ := hbehind.root_key hroot'
  have hlength : (key root').length = (key root).length := by simp [hpart, hpart']
  refine hdistinct root' hroot' ?_
  exact (List.prefix_of_prefix_length_le (hbelow.trans hpre') hpre hlength.le).eq_of_length hlength

/-- The nodes below a root are in its own children. -/
theorem Placed.mem_children_items_iff {root : α} {children siblings : Forest α}
    (h : (node root children siblings).Placed key acc) {item : α} (hpre : key root <+: key item)
    (hne : key item ≠ key root) :
    item ∈ (node root children siblings).items ↔ item ∈ children.items := by
  refine ⟨fun hitem => ?_, fun hitem => List.mem_cons_of_mem _ (List.mem_append_left _ hitem)⟩
  rcases List.mem_cons.mp hitem with rfl | hitem
  · exact absurd rfl hne
  · refine (List.mem_append.mp hitem).resolve_right fun hitem => ?_
    exact h.apart hitem hpre List.prefix_rfl

/-- The nodes in the order of `items`, each with the forest below it. -/
def nodes : Forest α → List (α × Forest α)
  | nil => []
  | node item children siblings => (item, children) :: (children.nodes ++ siblings.nodes)

theorem map_nodes (tree : Forest α) : tree.nodes.map Prod.fst = tree.items := by
  induction tree with
  | nil => rfl
  | node item children siblings hchildren hsiblings =>
    rw [nodes, items, List.map_cons, List.map_append, hchildren, hsiblings]

theorem visits_eq (tree : Forest α) : tree.visits = tree.nodes.map fun n => (n.1, n.2.roots) := by
  induction tree with
  | nil => rfl
  | node item children siblings hchildren hsiblings =>
    rw [visits, nodes, List.map_cons, List.map_append, hchildren, hsiblings]

/-- The forest below a node has the nodes whose keys go on after its key. -/
theorem Placed.node_below (h : tree.Placed key acc) {n : α × Forest α} (hn : n ∈ tree.nodes) :
    n.2.Placed key (key n.1) ∧
      ∀ item, item ∈ n.2.items ↔ item ∈ tree.items ∧ key n.1 <+: key item ∧ key item ≠ key n.1 := by
  induction tree generalizing acc with
  | nil => cases hn
  | node root children siblings hchildren hsiblings =>
    obtain ⟨-, hbelow, hbehind, -⟩ := id h
    rcases List.mem_cons.mp hn with rfl | hn
    · refine ⟨hbelow, fun item => ⟨fun hitem => ?_, fun ⟨hitem, hpre, hne⟩ => ?_⟩⟩
      · obtain ⟨hpre, hne⟩ := hbelow.key_below hitem
        exact ⟨(h.mem_children_items_iff hpre hne).mpr hitem, hpre, hne⟩
      · exact (h.mem_children_items_iff hpre hne).mp hitem
    · rcases List.mem_append.mp hn with hn | hn
      · obtain ⟨hroot, hne⟩ := hbelow.key_below (map_nodes children ▸ List.mem_map_of_mem hn)
        obtain ⟨hplaced, hmem⟩ := hchildren hbelow hn
        refine ⟨hplaced, fun item => (hmem item).trans (and_congr_left fun ⟨hpre, _⟩ => ?_)⟩
        refine (h.mem_children_items_iff (hroot.trans hpre) fun hsame => hne ?_).symm
        rw [hsame] at hpre
        exact hpre.eq_of_length_le hroot.length_le
      · have hvisit : n.1 ∈ siblings.items := map_nodes siblings ▸ List.mem_map_of_mem hn
        obtain ⟨hplaced, hmem⟩ := hsiblings hbehind hn
        refine ⟨hplaced, fun item => (hmem item).trans (and_congr_left fun ⟨hpre, _⟩ => ?_)⟩
        refine ⟨fun hitem => List.mem_cons_of_mem _ (List.mem_append_right _ hitem), fun hitem => ?_⟩
        rcases List.mem_cons.mp hitem with rfl | hitem
        · exact absurd hpre (h.apart hvisit List.prefix_rfl)
        · refine (List.mem_append.mp hitem).resolve_left fun hitem => ?_
          exact h.apart hvisit (hbelow.key_below hitem).1 hpre

/-- The forest below a visited node. -/
theorem Placed.exists_below (h : tree.Placed key acc) {v : α × List α} (hv : v ∈ tree.visits) :
    ∃ below : Forest α, below.roots = v.2 ∧ below.Placed key (key v.1) ∧
      ∀ item, item ∈ below.items ↔ item ∈ tree.items ∧ key v.1 <+: key item ∧ key item ≠ key v.1 := by
  rw [visits_eq] at hv
  obtain ⟨n, hn, rfl⟩ := List.mem_map.mp hv
  obtain ⟨hplaced, hmem⟩ := h.node_below hn
  exact ⟨n.2, rfl, hplaced, hmem⟩

/-- The children of a node are the nodes below it with one part more. -/
theorem Placed.mem_children_iff (h : tree.Placed key acc) {v : α × List α} (hv : v ∈ tree.visits)
    {item : α} :
    item ∈ v.2 ↔ item ∈ tree.items ∧ key v.1 <+: key item ∧ (key item).length = (key v.1).length + 1 := by
  obtain ⟨below, hroots, hplaced, hmem⟩ := h.exists_below hv
  rw [← hroots, hplaced.mem_roots_iff, hmem, and_assoc, and_assoc]
  refine and_congr_right fun _ => and_congr_right fun _ => and_iff_right_of_imp fun hlength hsame => ?_
  rw [hsame] at hlength
  omega

/-- What is below a node is at or below one of its children. -/
theorem Placed.exists_child (h : tree.Placed key acc) {v : α × List α} (hv : v ∈ tree.visits) {item : α}
    (hitem : item ∈ tree.items) (hpre : key v.1 <+: key item) (hne : key item ≠ key v.1) :
    ∃ child ∈ v.2, key child <+: key item := by
  obtain ⟨below, hroots, hplaced, hmem⟩ := h.exists_below hv
  rw [← hroots]
  exact hplaced.exists_root ((hmem item).mpr ⟨hitem, hpre, hne⟩)

theorem Placed.nodup_roots (h : tree.Placed key acc) : (tree.roots.map key).Nodup := by
  induction tree with
  | nil => exact List.nodup_nil
  | node root children siblings _ ih =>
    obtain ⟨-, -, hbehind, hdistinct⟩ := h
    refine List.nodup_cons.mpr ⟨fun hmem => ?_, ih hbehind⟩
    obtain ⟨root', hroot', hsame⟩ := List.mem_map.mp hmem
    exact hdistinct root' hroot' hsame

theorem Placed.nodup_children (h : tree.Placed key acc) {v : α × List α} (hv : v ∈ tree.visits) :
    (v.2.map key).Nodup := by
  obtain ⟨below, hroots, hplaced, -⟩ := h.exists_below hv
  rw [← hroots]
  exact hplaced.nodup_roots

/-! ### The order -/

/-- No node is visited after one at or below it. -/
theorem Placed.pairwise_items (h : tree.Placed key acc) :
    tree.items.Pairwise fun a b => ¬ key b <+: key a := by
  induction tree generalizing acc with
  | nil => exact List.Pairwise.nil
  | node root children siblings hchildren hsiblings =>
    have hapart := fun item' hitem' p => @Placed.apart _ _ _ _ _ _ _ h item' hitem' p
    obtain ⟨-, hbelow, hbehind, -⟩ := h
    refine List.pairwise_cons.mpr ⟨fun item hitem hpre => ?_, List.pairwise_append.mpr
      ⟨hchildren hbelow, hsiblings hbehind, fun item hitem item' hitem' => ?_⟩⟩
    · rcases List.mem_append.mp hitem with hitem | hitem
      · obtain ⟨hpre', hne⟩ := hbelow.key_below hitem
        exact hne (hpre.eq_of_length_le hpre'.length_le)
      · exact hapart item hitem _ List.prefix_rfl hpre
    · exact hapart item' hitem' _ (hbelow.key_below hitem).1

theorem Placed.nodup_items (h : tree.Placed key acc) : (tree.items.map key).Nodup := by
  refine List.pairwise_map.mpr (h.pairwise_items.imp fun hnot hsame => ?_)
  exact hnot (hsame ▸ List.prefix_rfl)

theorem Placed.pairwise_visits (h : tree.Placed key acc) :
    tree.visits.Pairwise fun v w => ¬ key w.1 <+: key v.1 := by
  have hitems := h.pairwise_items
  rwa [← map_visits, List.pairwise_map] at hitems

/-! ### Traversals -/

section Traversal

variable {step : (List κ → σ) → α × List α → List κ → σ}

/-- The step of a visit writes at the node and above it only. -/
def WritesUp (key : α → List κ) (step : (List κ → σ) → α × List α → List κ → σ) : Prop :=
  ∀ s v p, ¬ p <+: key v.1 → step s v p = s p

theorem foldl_of_not_above (hstep : WritesUp key step) {vs : List (α × List α)} {p : List κ}
    (h : ∀ v ∈ vs, ¬ p <+: key v.1) (s : List κ → σ) : vs.foldl step s p = s p := by
  induction vs generalizing s with
  | nil => rfl
  | cons v vs ih =>
    obtain ⟨hv, h⟩ := List.forall_mem_cons.mp h
    rw [List.foldl_cons, ih h, hstep s v p hv]

/-- When a node is visited, everything at and below it is as it was. -/
theorem Placed.foldl_visits_below (h : tree.Placed key acc) (hstep : WritesUp key step) {s : List κ → σ}
    {before after : List (α × List α)} {v : α × List α}
    (hsplit : tree.visits = before ++ v :: after) {p : List κ}
    (hpre : key v.1 <+: p) : before.foldl step s p = s p := by
  refine foldl_of_not_above hstep (fun w hw habove => ?_) s
  have hpairwise := h.pairwise_visits
  rw [hsplit] at hpairwise
  exact (List.pairwise_append.mp hpairwise).2.2 w hw v List.mem_cons_self (hpre.trans habove)

/-- The step of a visit writes at the node only. -/
def WritesAt (key : α → List κ) (step : (List κ → σ) → α × List α → List κ → σ) : Prop :=
  ∀ s v p, p ≠ key v.1 → step s v p = s p

theorem WritesAt.writesUp (hstep : WritesAt key step) : WritesUp key step :=
  fun s v p hnot => hstep s v p fun hsame => hnot (hsame ▸ List.prefix_rfl)

theorem foldl_of_ne (hstep : WritesAt key step) {vs : List (α × List α)} {p : List κ}
    (h : ∀ v ∈ vs, p ≠ key v.1)
    (s : List κ → σ) : vs.foldl step s p = s p := by
  induction vs generalizing s with
  | nil => rfl
  | cons v vs ih =>
    obtain ⟨hv, h⟩ := List.forall_mem_cons.mp h
    rw [List.foldl_cons, ih h, hstep s v p hv]

/-- What a traversal leaves at a node is what its own visit writes, from what was at and below it
before. -/
theorem Placed.foldl_visits_self (h : tree.Placed key acc) (hstep : WritesAt key step) (s : List κ → σ)
    {v : α × List α} (hv : v ∈ tree.visits) : ∃ s', (∀ p, key v.1 <+: p → s' p = s p) ∧
      tree.visits.foldl step s (key v.1) = step s' v (key v.1) := by
  obtain ⟨before, after, hsplit⟩ := List.append_of_mem hv
  have hpairwise := h.pairwise_visits
  rw [hsplit, List.pairwise_append, List.pairwise_cons] at hpairwise
  refine ⟨before.foldl step s, fun p hpre => h.foldl_visits_below hstep.writesUp hsplit hpre, ?_⟩
  rw [hsplit, List.foldl_append, List.foldl_cons]
  exact foldl_of_ne hstep (fun w hw hsame => hpairwise.2.1.1 w hw (hsame ▸ List.prefix_rfl)) _

end Traversal

/-! ### Positions -/

/-- The nodes with their positions, below the position `acc` and from the child `i` on. -/
def numbered (acc : List Nat) (i : Nat) : Forest α → Forest (List Nat × α)
  | nil => nil
  | node item children siblings =>
    node (acc ++ [i], item) (children.numbered (acc ++ [i]) 0) (siblings.numbered acc (i + 1))

theorem exists_of_mem_roots_numbered {tree : Forest α} {acc : List Nat} {i : Nat} {place : List Nat × α}
    (h : place ∈ (tree.numbered acc i).roots) : ∃ j, i ≤ j ∧ place.1 = acc ++ [j] := by
  induction tree generalizing i with
  | nil => cases h
  | node item children siblings _ ih =>
    rcases List.mem_cons.mp h with rfl | h
    · exact ⟨i, le_rfl, rfl⟩
    · obtain ⟨j, hj, hplace⟩ := ih h
      exact ⟨j, by omega, hplace⟩

theorem placed_numbered (tree : Forest α) (acc : List Nat) (i : Nat) :
    (tree.numbered acc i).Placed Prod.fst acc := by
  induction tree generalizing acc i with
  | nil => trivial
  | node item children siblings hchildren hsiblings =>
    refine ⟨⟨i, rfl⟩, hchildren _ _, hsiblings _ _, fun place hplace hsame => ?_⟩
    obtain ⟨j, hj, hposition⟩ := exists_of_mem_roots_numbered hplace
    have hij : j = i := by simpa using hposition.symm.trans hsame
    omega

end Forest

end TorrentLink.Lib
