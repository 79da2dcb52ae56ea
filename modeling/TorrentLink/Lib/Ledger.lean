import TorrentLink.Lib.Runs
import Mathlib.Logic.Function.Basic

/-!
# Promises in a table

Callers post requests and wait for an answer, each on a cell of its own. A server takes the requests in
order; it answers one at once or files it in a table under a key, and answers it from there later. The
table has one place a key: filing under a key that is taken, and dropping a key, lose the request that
was there.

`Ledger.Good` is what every move keeps, above all that no cell is answered twice. `Ledger.Held` says
that every caller who still waits can still be answered; a filing or a drop keeps it exactly when the
key is free or its caller has given up (`held_hold_iff`, `held_drop_iff`), and every other move keeps
it.
-/

namespace TorrentLink.Lib

/-- The cell a caller waits on. -/
structure Cell (ν : Type) where
  values : List ν := []
  gaveUp : Bool := false

structure Ledger (κ ν : Type) where
  queued : List Nat := []
  entries : κ → Option Nat := fun _ => none
  cells : List (Cell ν) := []

namespace Ledger

variable {κ ν : Type}

/-- The answer of a cell. -/
def setValue (g : Ledger κ ν) (p : Nat) (v : ν) : Ledger κ ν :=
  { g with cells := g.cells.modify p fun c => { c with values := c.values ++ [v] } }

/-- A cell that no one has answered. -/
def Open (g : Ledger κ ν) (p : Nat) : Prop := ∃ c, g.cells[p]? = some c ∧ c.values = []

/-- The caller of the cell has given up. -/
def GaveUp (g : Ledger κ ν) (p : Nat) : Prop := ∃ c, g.cells[p]? = some c ∧ c.gaveUp = true

structure Good (g : Ledger κ ν) : Prop where
  entry_open : ∀ k p, g.entries k = some p → g.Open p
  entry_inj : ∀ k k' p, g.entries k = some p → g.entries k' = some p → k = k'
  queued_open : ∀ p ∈ g.queued, g.Open p
  queued_free : ∀ p ∈ g.queued, ∀ k, g.entries k ≠ some p
  queued_nodup : g.queued.Nodup
  once : ∀ (p : Nat) (c : Cell ν), g.cells[p]? = some c → c.values.length ≤ 1

/-- Every caller who waits has its request in the queue or in the table. -/
def Held (g : Ledger κ ν) : Prop :=
  ∀ (p : Nat) (c : Cell ν), g.cells[p]? = some c →
    c.values ≠ [] ∨ c.gaveUp = true ∨ p ∈ g.queued ∨ ∃ k, g.entries k = some p

theorem good_empty : Good ({} : Ledger κ ν) where
  entry_open _ _ h := by cases h
  entry_inj _ _ _ h := by cases h
  queued_open _ h := by cases h
  queued_free _ h := by cases h
  queued_nodup := List.nodup_nil
  once _ _ h := by simp at h

theorem held_empty : Held ({} : Ledger κ ν) := by
  intro p c h
  simp at h

/-! ### Cells -/

theorem cells_setValue (g : Ledger κ ν) (p q : Nat) (v : ν) :
    (g.setValue p v).cells[q]? =
      if p = q then g.cells[q]?.map fun c => { c with values := c.values ++ [v] }
      else g.cells[q]? := by
  rw [setValue, List.getElem?_modify]
  by_cases h : p = q <;> cases g.cells[q]? <;> simp [h]

theorem open_setValue {g : Ledger κ ν} {p q : Nat} (v : ν) (hq : g.Open q) (hne : p ≠ q) :
    (g.setValue p v).Open q := by
  obtain ⟨c, hc, hv⟩ := hq
  exact ⟨c, by rw [cells_setValue, if_neg hne, hc], hv⟩

theorem once_setValue {g : Ledger κ ν} (h : ∀ (p : Nat) (c : Cell ν), g.cells[p]? = some c → c.values.length ≤ 1)
    {p : Nat} (hp : g.Open p) (v : ν) (q : Nat) (c : Cell ν)
    (hc : (g.setValue p v).cells[q]? = some c) : c.values.length ≤ 1 := by
  rw [cells_setValue] at hc
  by_cases hpq : p = q
  · subst hpq
    obtain ⟨c', hc', hv⟩ := hp
    rw [if_pos rfl, hc'] at hc
    cases hc
    simp [hv]
  · rw [if_neg hpq] at hc
    exact h q c hc

theorem Held.setValue {g g' : Ledger κ ν} (h : g.Held) (p : Nat) (v : ν) (hcells : g'.cells = g.cells)
    (hqueued : ∀ q ∈ g.queued, q = p ∨ q ∈ g'.queued)
    (hentries : ∀ k q, g.entries k = some q → q = p ∨ g'.entries k = some q) :
    (g'.setValue p v).Held := by
  intro q c hc
  rw [cells_setValue, hcells] at hc
  by_cases hpq : p = q
  · rw [if_pos hpq] at hc
    obtain ⟨c', _, rfl⟩ := Option.map_eq_some_iff.mp hc
    exact .inl (by simp)
  · rw [if_neg hpq] at hc
    rcases h q c hc with hv | hg | hq | ⟨k, hk⟩
    · exact .inl hv
    · exact .inr (.inl hg)
    · exact .inr (.inr (.inl ((hqueued q hq).resolve_left fun e => hpq e.symm)))
    · exact .inr (.inr (.inr ⟨k, (hentries k q hk).resolve_left fun e => hpq e.symm⟩))

/-! ### Moves -/

variable [DecidableEq κ]

/-- The moves that can leave no caller behind. -/
inductive Move (κ ν : Type)
  /-- A caller posts a request. -/
  | post
  /-- A caller stops waiting. -/
  | giveUp (p : Nat)
  /-- The first request is answered at once. -/
  | reply (v : ν)
  /-- The request filed under a key is answered. -/
  | answer (k : κ) (v : ν)

/-- What is filed under a key is dropped. -/
def drop (g : Ledger κ ν) (k : κ) : Ledger κ ν :=
  { g with entries := Function.update g.entries k none }

def move (g : Ledger κ ν) : Move κ ν → Ledger κ ν
  | .post => { g with queued := g.queued ++ [g.cells.length], cells := g.cells ++ [{}] }
  | .giveUp p => { g with cells := g.cells.modify p fun c => { c with gaveUp := true } }
  | .reply v =>
    match g.queued with
    | [] => g
    | p :: rest => { g with queued := rest }.setValue p v
  | .answer k v =>
    match g.entries k with
    | none => g
    | some p => (g.drop k).setValue p v

/-- The first request is filed under a key. -/
def hold (g : Ledger κ ν) (k : κ) : Ledger κ ν :=
  match g.queued with
  | [] => g
  | p :: rest => { g with queued := rest, entries := Function.update g.entries k (some p) }

theorem move_reply_nil {g : Ledger κ ν} (hq : g.queued = []) (v : ν) : g.move (.reply v) = g := by
  simp only [move, hq]

theorem move_reply {g : Ledger κ ν} {p : Nat} {rest : List Nat} (hq : g.queued = p :: rest) (v : ν) :
    g.move (.reply v) = { g with queued := rest }.setValue p v := by
  simp only [move, hq]

theorem move_answer_none {g : Ledger κ ν} {k : κ} (hk : g.entries k = none) (v : ν) :
    g.move (.answer k v) = g := by
  simp only [move, hk]

theorem move_answer {g : Ledger κ ν} {k : κ} {p : Nat} (hk : g.entries k = some p) (v : ν) :
    g.move (.answer k v) = (g.drop k).setValue p v := by
  simp only [move, hk]

/-! ### The table -/

theorem entries_drop {g : Ledger κ ν} {k k' : κ} {q : Nat} (h : (g.drop k).entries k' = some q) :
    k' ≠ k ∧ g.entries k' = some q := by
  have h' : Function.update g.entries k none k' = some q := h
  by_cases hkk : k' = k
  · subst hkk
    rw [Function.update_self] at h'
    cases h'
  · rw [Function.update_of_ne hkk] at h'
    exact ⟨hkk, h'⟩

theorem entries_drop_of_ne (g : Ledger κ ν) {k k' : κ} (h : k' ≠ k) :
    (g.drop k).entries k' = g.entries k' := Function.update_of_ne h _ _

theorem update_eq_some {f : κ → Option Nat} {k k' : κ} {p q : Nat}
    (h : Function.update f k (some p) k' = some q) : (k' = k ∧ q = p) ∨ (k' ≠ k ∧ f k' = some q) := by
  by_cases hkk : k' = k
  · subst hkk
    rw [Function.update_self] at h
    exact .inl ⟨rfl, (Option.some.inj h).symm⟩
  · rw [Function.update_of_ne hkk] at h
    exact .inr ⟨hkk, h⟩

/-! ### What every move keeps -/

theorem Good.post {g : Ledger κ ν} (h : g.Good) : (g.move .post).Good := by
  have hopen : ∀ p, g.Open p → (g.move .post).Open p := by
    rintro p ⟨c, hc, hv⟩
    have hlt : p < g.cells.length := (List.getElem?_eq_some_iff.mp hc).1
    exact ⟨c, by rw [← hc]; exact List.getElem?_append_left hlt, hv⟩
  have hlt : ∀ p, g.Open p → p < g.cells.length := by
    rintro p ⟨c, hc, _⟩
    exact (List.getElem?_eq_some_iff.mp hc).1
  have hnew : (g.move .post).Open g.cells.length :=
    ⟨{}, by simp [move], rfl⟩
  refine ⟨fun k p hk => hopen p (h.entry_open k p hk), h.entry_inj, ?_, ?_, ?_, ?_⟩
  · intro p hp
    rcases List.mem_append.mp hp with hp | hp
    · exact hopen p (h.queued_open p hp)
    · rw [List.mem_singleton.mp hp]
      exact hnew
  · intro p hp k hk
    rcases List.mem_append.mp hp with hp | hp
    · exact h.queued_free p hp k hk
    · rw [List.mem_singleton.mp hp] at hk
      exact absurd (hlt _ (h.entry_open k _ hk)) (Nat.lt_irrefl _)
  · refine List.nodup_append.mpr ⟨h.queued_nodup, by simp, ?_⟩
    rintro p hp q hq rfl
    rw [List.mem_singleton.mp hq] at hp
    exact absurd (hlt _ (h.queued_open _ hp)) (Nat.lt_irrefl _)
  · intro p c hc
    by_cases hp : p < g.cells.length
    · exact h.once p c (by rw [← hc]; exact (List.getElem?_append_left hp).symm)
    · have hc' : (g.cells ++ [({} : Cell ν)])[p]? = some c := hc
      rw [List.getElem?_append_right (by omega)] at hc'
      have hmem := List.mem_of_getElem? hc'
      rw [List.mem_singleton.mp hmem]
      simp

theorem cells_giveUp (g : Ledger κ ν) (p q : Nat) :
    (g.move (.giveUp p)).cells[q]? =
      if p = q then g.cells[q]?.map fun c => { c with gaveUp := true } else g.cells[q]? := by
  rw [move, List.getElem?_modify]
  by_cases h : p = q <;> cases g.cells[q]? <;> simp [h]

theorem Good.giveUp {g : Ledger κ ν} (h : g.Good) (p : Nat) : (g.move (.giveUp p)).Good := by
  have hopen : ∀ q, g.Open q → (g.move (.giveUp p)).Open q := by
    rintro q ⟨c, hc, hv⟩
    by_cases hpq : p = q
    · exact ⟨{ c with gaveUp := true }, by rw [cells_giveUp, if_pos hpq, hc]; rfl, hv⟩
    · exact ⟨c, by rw [cells_giveUp, if_neg hpq, hc], hv⟩
  refine ⟨fun k q hk => hopen q (h.entry_open k q hk), h.entry_inj,
    fun q hq => hopen q (h.queued_open q hq), h.queued_free, h.queued_nodup, ?_⟩
  intro q c hc
  rw [cells_giveUp] at hc
  by_cases hpq : p = q
  · rw [if_pos hpq] at hc
    obtain ⟨c', hc', rfl⟩ := Option.map_eq_some_iff.mp hc
    exact h.once q c' hc'
  · rw [if_neg hpq] at hc
    exact h.once q c hc

omit [DecidableEq κ] in
/-- The first request of the queue is in it once. -/
theorem Good.queued_cons {g : Ledger κ ν} (h : g.Good) {p : Nat} {rest : List Nat}
    (hq : g.queued = p :: rest) :
    p ∈ g.queued ∧ (∀ q ∈ rest, q ∈ g.queued) ∧ p ∉ rest ∧ rest.Nodup := by
  have hnodup := h.queued_nodup
  rw [hq] at hnodup
  obtain ⟨hp, hrest⟩ := List.nodup_cons.mp hnodup
  exact ⟨by simp [hq], fun q hq' => by simp [hq, hq'], hp, hrest⟩

theorem Good.reply {g : Ledger κ ν} (h : g.Good) (v : ν) : (g.move (.reply v)).Good := by
  cases hq : g.queued with
  | nil =>
    rw [move_reply_nil hq]
    exact h
  | cons p rest =>
    rw [move_reply hq]
    obtain ⟨hmem, hsub, hp, hrest⟩ := h.queued_cons hq
    refine ⟨?_, h.entry_inj, ?_, fun q hq' => h.queued_free q (hsub q hq'), hrest, ?_⟩
    · intro k q hk
      exact open_setValue v (h.entry_open k q hk) fun hpq => h.queued_free p hmem k (hpq ▸ hk)
    · intro q hq'
      exact open_setValue v (h.queued_open q (hsub q hq')) fun hpq => hp (hpq ▸ hq')
    · exact once_setValue h.once (h.queued_open p hmem) v

theorem Good.answer {g : Ledger κ ν} (h : g.Good) (k : κ) (v : ν) :
    (g.move (.answer k v)).Good := by
  cases hk : g.entries k with
  | none =>
    rw [move_answer_none hk]
    exact h
  | some p =>
    rw [move_answer hk]
    refine ⟨?_, ?_, ?_, ?_, h.queued_nodup, once_setValue h.once (h.entry_open k p hk) v⟩
    · intro k' q hk'
      obtain ⟨hne, hk'⟩ := entries_drop hk'
      exact open_setValue v (h.entry_open k' q hk') fun hpq =>
        hne (h.entry_inj k' k q hk' (hpq ▸ hk))
    · intro k₁ k₂ q h₁ h₂
      exact h.entry_inj k₁ k₂ q (entries_drop h₁).2 (entries_drop h₂).2
    · intro q hq
      exact open_setValue v (h.queued_open q hq) fun hpq => h.queued_free q hq k (hpq ▸ hk)
    · intro q hq k' hk'
      exact h.queued_free q hq k' (entries_drop hk').2

theorem Good.move {g : Ledger κ ν} (h : g.Good) (m : Move κ ν) : (g.move m).Good := by
  cases m with
  | post => exact h.post
  | giveUp p => exact h.giveUp p
  | reply v => exact h.reply v
  | answer k v => exact h.answer k v

theorem Good.hold {g : Ledger κ ν} (h : g.Good) (k : κ) : (g.hold k).Good := by
  unfold Ledger.hold
  cases hq : g.queued with
  | nil => exact h
  | cons p rest =>
    obtain ⟨hmem, hsub, hp, hrest⟩ := h.queued_cons hq
    refine ⟨?_, ?_, fun q hq' => h.queued_open q (hsub q hq'), ?_, hrest, h.once⟩
    · intro k' q hk'
      rcases update_eq_some hk' with ⟨_, rfl⟩ | ⟨_, hk'⟩
      · exact h.queued_open q hmem
      · exact h.entry_open k' q hk'
    · intro k₁ k₂ q h₁ h₂
      rcases update_eq_some h₁ with ⟨rfl, rfl⟩ | ⟨_, h₁'⟩
      · rcases update_eq_some h₂ with ⟨rfl, _⟩ | ⟨_, h₂'⟩
        · rfl
        · exact absurd h₂' (h.queued_free q hmem k₂)
      · rcases update_eq_some h₂ with ⟨rfl, rfl⟩ | ⟨_, h₂'⟩
        · exact absurd h₁' (h.queued_free q hmem k₁)
        · exact h.entry_inj k₁ k₂ q h₁' h₂'
    · intro q hq' k' hk'
      rcases update_eq_some hk' with ⟨_, rfl⟩ | ⟨_, hk'⟩
      · exact hp hq'
      · exact h.queued_free q (hsub q hq') k' hk'

theorem Good.drop {g : Ledger κ ν} (h : g.Good) (k : κ) : (g.drop k).Good :=
  ⟨fun k' q hk' => h.entry_open k' q (entries_drop hk').2,
    fun k₁ k₂ q h₁ h₂ => h.entry_inj k₁ k₂ q (entries_drop h₁).2 (entries_drop h₂).2,
    h.queued_open, fun q hq k' hk' => h.queued_free q hq k' (entries_drop hk').2, h.queued_nodup,
    h.once⟩

/-! ### What leaves no caller behind -/

theorem Held.move {g : Ledger κ ν} (h : g.Held) (m : Move κ ν) : (g.move m).Held := by
  cases m with
  | post =>
    intro p c hc
    have hc' : (g.cells ++ [({} : Cell ν)])[p]? = some c := hc
    by_cases hp : p < g.cells.length
    · rw [List.getElem?_append_left hp] at hc'
      rcases h p c hc' with hv | hg | hq | hk
      · exact .inl hv
      · exact .inr (.inl hg)
      · exact .inr (.inr (.inl (List.mem_append_left _ hq)))
      · exact .inr (.inr (.inr hk))
    · have hlt := (List.getElem?_eq_some_iff.mp hc').1
      rw [List.length_append, List.length_singleton] at hlt
      obtain rfl : p = g.cells.length := by omega
      exact .inr (.inr (.inl (List.mem_append_right _ (by simp))))
  | giveUp p =>
    intro q c hc
    rw [cells_giveUp] at hc
    by_cases hpq : p = q
    · rw [if_pos hpq] at hc
      obtain ⟨c', _, rfl⟩ := Option.map_eq_some_iff.mp hc
      exact .inr (.inl rfl)
    · rw [if_neg hpq] at hc
      exact h q c hc
  | reply v =>
    cases hq : g.queued with
    | nil =>
      rw [move_reply_nil hq]
      exact h
    | cons p rest =>
      rw [move_reply hq]
      refine h.setValue p v rfl ?_ fun k q hk => .inr hk
      intro q hmem
      rw [hq] at hmem
      exact List.mem_cons.mp hmem
  | answer k v =>
    cases hk : g.entries k with
    | none =>
      rw [move_answer_none hk]
      exact h
    | some p =>
      rw [move_answer hk]
      refine h.setValue p v rfl (fun q hq => .inr hq) ?_
      intro k' q hk'
      by_cases hkk : k' = k
      · subst hkk
        exact .inl (Option.some.inj (hk'.symm.trans hk))
      · exact .inr ((entries_drop_of_ne g hkk).trans hk')

/-- The condition of a filing or a drop: the key is free, or its caller has given up. -/
def Free (g : Ledger κ ν) (k : κ) : Prop := ∀ p, g.entries k = some p → g.GaveUp p

theorem held_drop_iff {g : Ledger κ ν} (hg : g.Good) (h : g.Held) (k : κ) :
    (g.drop k).Held ↔ g.Free k := by
  constructor
  · intro hd p hp
    obtain ⟨c, hc, hv⟩ := hg.entry_open k p hp
    rcases hd p c hc with hv' | hgave | hq | ⟨k', hk'⟩
    · exact absurd hv hv'
    · exact ⟨c, hc, hgave⟩
    · exact absurd hp (hg.queued_free p hq k)
    · obtain ⟨hne, hk'⟩ := entries_drop hk'
      exact absurd (hg.entry_inj k' k p hk' hp) hne
  · intro hfree p c hc
    rcases h p c hc with hv | hgave | hq | ⟨k', hk'⟩
    · exact .inl hv
    · exact .inr (.inl hgave)
    · exact .inr (.inr (.inl hq))
    · by_cases hkk : k' = k
      · subst hkk
        obtain ⟨c', hc', hgave⟩ := hfree p hk'
        have hcc : c' = c := Option.some.inj (hc'.symm.trans hc)
        exact .inr (.inl (hcc ▸ hgave))
      · exact .inr (.inr (.inr ⟨k', (entries_drop_of_ne g hkk).trans hk'⟩))

theorem held_hold_iff {g : Ledger κ ν} (hg : g.Good) (h : g.Held) (k : κ) {p : Nat} {rest : List Nat}
    (hqueue : g.queued = p :: rest) : (g.hold k).Held ↔ g.Free k := by
  have hmem : p ∈ g.queued := by simp [hqueue]
  unfold Ledger.hold
  rw [hqueue]
  constructor
  · intro hd q hq
    obtain ⟨c, hc, hv⟩ := hg.entry_open k q hq
    rcases hd q c hc with hv' | hgave | hrest | ⟨k', hk'⟩
    · exact absurd hv hv'
    · exact ⟨c, hc, hgave⟩
    · exact absurd hq (hg.queued_free q (by rw [hqueue]; exact List.mem_cons_of_mem _ hrest) k)
    · rcases update_eq_some hk' with ⟨_, rfl⟩ | ⟨hne, hk'⟩
      · exact absurd hq (hg.queued_free q hmem k)
      · exact absurd (hg.entry_inj k' k q hk' hq) hne
  · intro hfree q c hc
    rcases h q c hc with hv | hgave | hq | ⟨k', hk'⟩
    · exact .inl hv
    · exact .inr (.inl hgave)
    · rw [hqueue] at hq
      rcases List.mem_cons.mp hq with rfl | hq
      · exact .inr (.inr (.inr ⟨k, Function.update_self _ _ _⟩))
      · exact .inr (.inr (.inl hq))
    · by_cases hkk : k' = k
      · subst hkk
        obtain ⟨c', hc', hgave⟩ := hfree q hk'
        have hcc : c' = c := Option.some.inj (hc'.symm.trans hc)
        exact .inr (.inl (hcc ▸ hgave))
      · exact .inr (.inr (.inr ⟨k', (Function.update_of_ne hkk _ _).trans hk'⟩))

/-! ### Steps of a server -/

/-- What a step of a server does to its ledger: it makes moves, or it files or drops under the key it
takes over. -/
def Does (g g' : Ledger κ ν) : Option κ → Prop
  | none => ∃ moves, g' = run move g moves
  | some k => (g.queued ≠ [] ∧ g' = g.hold k) ∨ g' = g.drop k

theorem Good.does {g g' : Ledger κ ν} (h : g.Good) {taken : Option κ} (hd : Does g g' taken) :
    g'.Good := by
  cases taken with
  | none =>
    obtain ⟨moves, rfl⟩ := hd
    exact run_invariant (P := Good) (fun g m hg => hg.move m) h moves
  | some k =>
    rcases hd with ⟨_, rfl⟩ | rfl
    · exact h.hold k
    · exact h.drop k

/-- A step leaves no caller behind exactly when the key it takes over is free. -/
theorem held_does_iff {g g' : Ledger κ ν} (hg : g.Good) (h : g.Held) {taken : Option κ}
    (hd : Does g g' taken) : g'.Held ↔ ∀ k, taken = some k → g.Free k := by
  cases taken with
  | none =>
    obtain ⟨moves, rfl⟩ := hd
    have hheld := run_invariant (P := Held) (fun g m (hg : g.Held) => hg.move m) h moves
    simp [hheld]
  | some k =>
    have hfree : (∀ k', some k = some k' → g.Free k') ↔ g.Free k :=
      ⟨fun hall => hall k rfl, fun hk k' he => Option.some.inj he ▸ hk⟩
    rw [hfree]
    rcases hd with ⟨hq, rfl⟩ | rfl
    · obtain ⟨p, rest, hq⟩ := List.exists_cons_of_ne_nil hq
      exact held_hold_iff hg h k hq
    · exact held_drop_iff hg h k

end Ledger

end TorrentLink.Lib
