import Mathlib.Order.Monotone.Basic

/-!
# While loops that may not return

A loop of an imperative program is run for a bounded number of tests of its condition: `none` says
that it has not returned within the bound. `Returns f r` says that some bound suffices, `Diverges f`
that none does. The body of a loop may itself contain loops, so it is a bounded computation too.

The rules below compose: one turn of a loop (`Returns.loop_step`, `Diverges.loop_body`,
`Diverges.loop_step`), its exit (`Returns.loop_exit`), and the rule of divergence by an invariant
that keeps the condition true (`Diverges.loop_of_invariant`).
-/

namespace TorrentLink.Lib

variable {σ α β : Type*}

/-- A bounded computation: `f n` is its result within the bound `n`, if it has one by then. -/
abbrev Bounded (α : Type*) := Nat → Option α

/-- A result reached within a bound stays the result within every larger one. -/
def Stable (f : Bounded α) : Prop := ∀ n m r, n ≤ m → f n = some r → f m = some r

/-- The computation returns `r`. -/
def Returns (f : Bounded α) (r : α) : Prop := ∃ n, f n = some r

/-- The computation returns within no bound. -/
def Diverges (f : Bounded α) : Prop := ∀ n, f n = none

theorem Stable.returns_unique {f : Bounded α} (hf : Stable f) {r r' : α} (h : Returns f r)
    (h' : Returns f r') : r = r' := by
  obtain ⟨n, hn⟩ := h
  obtain ⟨m, hm⟩ := h'
  have h1 := hf n (max n m) r (le_max_left n m) hn
  have h2 := hf m (max n m) r' (le_max_right n m) hm
  exact Option.some.inj (h1.symm.trans h2)

theorem Diverges.not_returns {f : Bounded α} (h : Diverges f) : ¬ ∃ r, Returns f r := by
  rintro ⟨r, n, hn⟩
  rw [h n] at hn
  simp at hn

/-- A computation that always has its result. -/
def always (a : α) : Bounded α := fun _ => some a

theorem stable_always (a : α) : Stable (always a) := fun _ _ _ _ h => h

theorem returns_always (a : α) : Returns (always a) a := ⟨0, rfl⟩

/-- Whatever the computation returns satisfies `P`. -/
def Ensures (f : Bounded α) (P : α → Prop) : Prop := ∀ n r, f n = some r → P r

theorem ensures_always {P : α → Prop} {a : α} (h : P a) : Ensures (always a) P := by
  intro n r hr
  cases hr
  exact h

/-! ### Sequencing -/

/-- First `f`, then `g` on its result, within one bound. -/
def Bounded.andThen (f : Bounded α) (g : α → Bounded β) : Bounded β :=
  fun n => (f n).bind fun a => g a n

theorem Stable.andThen {f : Bounded α} {g : α → Bounded β} (hf : Stable f)
    (hg : ∀ a, Stable (g a)) : Stable (f.andThen g) := by
  intro n m r hnm h
  obtain ⟨a, ha, hr⟩ := Option.bind_eq_some_iff.mp h
  exact Option.bind_eq_some_iff.mpr ⟨a, hf n m a hnm ha, hg a n m r hnm hr⟩

theorem Returns.andThen {f : Bounded α} {g : α → Bounded β} (hf : Stable f)
    (hg : ∀ a, Stable (g a)) {a : α} {b : β} (ha : Returns f a) (hb : Returns (g a) b) :
    Returns (f.andThen g) b := by
  obtain ⟨n, hn⟩ := ha
  obtain ⟨m, hm⟩ := hb
  refine ⟨max n m, Option.bind_eq_some_iff.mpr ⟨a, ?_, ?_⟩⟩
  · exact hf n _ a (le_max_left n m) hn
  · exact hg a m _ b (le_max_right n m) hm

theorem Ensures.andThen {f : Bounded α} {g : α → Bounded β} {P : α → Prop} {Q : β → Prop}
    (hf : Ensures f P) (hg : ∀ a, P a → Ensures (g a) Q) : Ensures (f.andThen g) Q := by
  intro n r h
  obtain ⟨a, ha, hr⟩ := Option.bind_eq_some_iff.mp h
  exact hg a (hf n a ha) n r hr

theorem Diverges.andThen_left {f : Bounded α} (g : α → Bounded β) (hf : Diverges f) :
    Diverges (f.andThen g) := by
  intro n
  simp [Bounded.andThen, hf n]

theorem Diverges.andThen_right {f : Bounded α} {g : α → Bounded β} (hs : Stable f) {a : α}
    (ha : Returns f a) (hg : Diverges (g a)) : Diverges (f.andThen g) := by
  intro n
  rw [Bounded.andThen]
  cases hn : f n with
  | none => rfl
  | some a' =>
    have haa : a' = a := hs.returns_unique ⟨n, hn⟩ ha
    simpa [haa] using hg n

/-! ### Loops -/

/-- `while (cond s) s = body(s);` with at most `n` tests of the condition. -/
def loop (cond : σ → Bool) (body : σ → Bounded σ) (s : σ) : Bounded σ
  | 0 => none
  | n + 1 => if cond s then (body s n).bind fun s' => loop cond body s' n else some s

variable {cond : σ → Bool} {body : σ → Bounded σ}

theorem stable_loop (hbody : ∀ s, Stable (body s)) (s : σ) : Stable (loop cond body s) := by
  intro n
  induction n generalizing s with
  | zero =>
    intro m r _ h
    simp [loop] at h
  | succ n ih =>
    intro m r hnm h
    obtain ⟨m, rfl⟩ : ∃ k, m = k + 1 := ⟨m - 1, by omega⟩
    rw [loop] at h ⊢
    split at h
    · rename_i hc
      rw [if_pos hc]
      obtain ⟨s', hs', hr⟩ := Option.bind_eq_some_iff.mp h
      exact Option.bind_eq_some_iff.mpr
        ⟨s', hbody s n m s' (by omega) hs', ih s' m r (by omega) hr⟩
    · rename_i hc
      rw [if_neg hc]
      exact h

theorem Returns.loop_exit {s : σ} (hc : cond s = false) : Returns (loop cond body s) s :=
  ⟨1, by simp [loop, hc]⟩

theorem Returns.loop_step (hbody : ∀ s, Stable (body s)) {s s' r : σ} (hc : cond s = true)
    (hs : Returns (body s) s') (hr : Returns (loop cond body s') r) :
    Returns (loop cond body s) r := by
  obtain ⟨n, hn⟩ := hs
  obtain ⟨m, hm⟩ := hr
  refine ⟨max n m + 1, ?_⟩
  rw [loop, if_pos hc]
  refine Option.bind_eq_some_iff.mpr ⟨s', ?_, ?_⟩
  · exact hbody s n _ s' (le_max_left n m) hn
  · exact stable_loop hbody s' m _ r (le_max_right n m) hm

theorem Diverges.loop_body {s : σ} (hc : cond s = true) (hs : Diverges (body s)) :
    Diverges (loop cond body s) := by
  intro n
  cases n with
  | zero => rfl
  | succ n => simp [loop, hc, hs n]

theorem Diverges.loop_step (hbody : ∀ s, Stable (body s)) {s s' : σ} (hc : cond s = true)
    (hs : Returns (body s) s') (hr : Diverges (loop cond body s')) :
    Diverges (loop cond body s) := by
  intro n
  cases n with
  | zero => rfl
  | succ n =>
    rw [loop, if_pos hc]
    cases hn : body s n with
    | none => rfl
    | some s'' =>
      have hss : s'' = s' := (hbody s).returns_unique ⟨n, hn⟩ hs
      simpa [hss] using hr n

/-- The rule of invariants: what every turn keeps holds when the loop has ended. -/
theorem Ensures.loop {P : σ → Prop} (hbody : ∀ s, P s → Ensures (body s) P) {s : σ} (hs : P s) :
    Ensures (loop cond body s) P := by
  intro n
  induction n generalizing s with
  | zero =>
    intro r h
    cases h
  | succ n ih =>
    intro r h
    rw [Lib.loop] at h
    split at h
    · obtain ⟨s', hs', hr⟩ := Option.bind_eq_some_iff.mp h
      exact ih (hbody s hs n s' hs') r hr
    · cases h
      exact hs

/-- A loop whose condition holds on a set of states that the body does not leave never ends. -/
theorem Diverges.loop_of_invariant (P : σ → Prop) (hcond : ∀ s, P s → cond s = true)
    (hstep : ∀ s n s', P s → body s n = some s' → P s') {s : σ} (hs : P s) :
    Diverges (loop cond body s) := by
  intro n
  induction n generalizing s with
  | zero => rfl
  | succ n ih =>
    rw [loop, if_pos (hcond s hs)]
    cases hn : body s n with
    | none => rfl
    | some s' => simpa using ih (hstep s n s' hs hn)

end TorrentLink.Lib
