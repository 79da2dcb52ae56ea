import Mathlib.Data.List.Basic

/-!
# Runs of a state machine

A machine is a step function on states and labels; a run is the list of the labels of its steps.
`RunOk` says that every step of a run meets a condition on the state before it and on its label. The
rules are the induction over runs, packaged once: an invariant that every step keeps holds at the end
of every run (`run_invariant`), and one that every step meeting the condition keeps holds at the end of
every run whose steps meet it (`RunOk.invariant`), hence in every state on the way (`RunOk.take`). Two
machines that take the same steps are compared by a relation that every step keeps (`run_simulation`).
-/

namespace TorrentLink.Lib

variable {σ ι : Type*} (step : σ → ι → σ)

/-- The state after the steps with these labels. -/
def run (s : σ) (labels : List ι) : σ := labels.foldl step s

@[simp] theorem run_nil (s : σ) : run step s [] = s := rfl

@[simp] theorem run_cons (s : σ) (l : ι) (ls : List ι) :
    run step s (l :: ls) = run step (step s l) ls := rfl

theorem run_append (s : σ) (ls ls' : List ι) :
    run step s (ls ++ ls') = run step (run step s ls) ls' := List.foldl_append

/-- Every step of the run meets `ok`. -/
def RunOk (ok : σ → ι → Prop) : σ → List ι → Prop
  | _, [] => True
  | s, l :: ls => ok s l ∧ RunOk ok (step s l) ls

variable {step} {ok : σ → ι → Prop}

@[simp] theorem runOk_nil (s : σ) : RunOk step ok s [] := trivial

@[simp] theorem runOk_cons {s : σ} {l : ι} {ls : List ι} :
    RunOk step ok s (l :: ls) ↔ ok s l ∧ RunOk step ok (step s l) ls := Iff.rfl

instance decidableRunOk [∀ s l, Decidable (ok s l)] :
    ∀ (s : σ) (ls : List ι), Decidable (RunOk step ok s ls)
  | _, [] => isTrue trivial
  | s, l :: ls => @instDecidableAnd _ _ inferInstance (decidableRunOk (step s l) ls)

theorem runOk_append {s : σ} {ls ls' : List ι} :
    RunOk step ok s (ls ++ ls') ↔ RunOk step ok s ls ∧ RunOk step ok (run step s ls) ls' := by
  induction ls generalizing s with
  | nil => exact ⟨fun h => ⟨trivial, h⟩, fun h => h.2⟩
  | cons l ls ih => exact (and_congr_right fun _ => ih).trans and_assoc.symm

theorem RunOk.imp {ok' : σ → ι → Prop} (himp : ∀ s l, ok s l → ok' s l) {s : σ} {ls : List ι}
    (h : RunOk step ok s ls) : RunOk step ok' s ls := by
  induction ls generalizing s with
  | nil => trivial
  | cons l ls ih => exact ⟨himp s l h.1, ih h.2⟩

theorem RunOk.and {ok' : σ → ι → Prop} {s : σ} {ls : List ι} (h : RunOk step ok s ls)
    (h' : RunOk step ok' s ls) : RunOk step (fun s l => ok s l ∧ ok' s l) s ls := by
  induction ls generalizing s with
  | nil => trivial
  | cons l ls ih => exact ⟨⟨h.1, h'.1⟩, ih h.2 h'.2⟩

/-- The condition holds along every initial part of the run. -/
theorem RunOk.take {s : σ} {ls : List ι} (h : RunOk step ok s ls) (n : Nat) :
    RunOk step ok s (ls.take n) := by
  rw [← List.take_append_drop n ls] at h
  exact (runOk_append.mp h).1

/-- The rule of invariants of runs whose steps meet a condition. -/
theorem RunOk.invariant {P : σ → Prop} (hstep : ∀ s l, P s → ok s l → P (step s l)) {s : σ}
    {ls : List ι} (hs : P s) (h : RunOk step ok s ls) : P (run step s ls) := by
  induction ls generalizing s with
  | nil => exact hs
  | cons l ls ih => exact ih (hstep s l hs h.1) h.2

/-- The rule of invariants of all runs. -/
theorem run_invariant {P : σ → Prop} (hstep : ∀ s l, P s → P (step s l)) {s : σ} (hs : P s)
    (ls : List ι) : P (run step s ls) := by
  induction ls generalizing s with
  | nil => exact hs
  | cons l ls ih => exact ih (hstep s l hs)

/-- Two conditions agree on the runs of a class, if they agree on the states of an invariant that the
first of them keeps. -/
theorem RunOk.congr_kept {I : σ → Prop} {adm ok' : σ → ι → Prop}
    (hI : ∀ s l, I s → adm s l → ok s l → I (step s l))
    (hok : ∀ s l, I s → adm s l → (ok s l ↔ ok' s l)) {s : σ} {ls : List ι} (hi : I s)
    (h : RunOk step adm s ls) : RunOk step ok s ls ↔ RunOk step ok' s ls := by
  induction ls generalizing s with
  | nil => exact Iff.rfl
  | cons l ls ih =>
    have hl := hok s l hi h.1
    constructor
    · rintro ⟨hs, hrest⟩
      exact ⟨hl.mp hs, (ih (hI s l hi h.1 hs) h.2).mp hrest⟩
    · rintro ⟨hs, hrest⟩
      exact ⟨hl.mpr hs, (ih (hI s l hi h.1 (hl.mpr hs)) h.2).mpr hrest⟩

theorem runOk_of_forall {adm : ι → Prop} {ls : List ι} (h : ∀ l ∈ ls, adm l) (s : σ) :
    RunOk step (fun _ l => adm l) s ls := by
  induction ls generalizing s with
  | nil => trivial
  | cons l ls ih =>
    exact ⟨h l List.mem_cons_self, ih (fun l' hl' => h l' (List.mem_cons_of_mem l hl')) _⟩

/-- The rule of exact conditions, for the runs of a class: if a step keeps `P` exactly when it meets
the condition, then `P` holds all along a run exactly when every step of the run meets it. -/
theorem always_iff_runOk_of {I P : σ → Prop} {adm : σ → ι → Prop}
    (hI : ∀ s l, I s → adm s l → I (step s l))
    (hP : ∀ s l, I s → adm s l → P s → (P (step s l) ↔ ok s l)) {s : σ} {ls : List ι} (hi : I s)
    (hp : P s) (h : RunOk step adm s ls) :
    (∀ n, P (run step s (ls.take n))) ↔ RunOk step ok s ls := by
  induction ls generalizing s with
  | nil => simp [hp]
  | cons l ls ih =>
    have hl := hP s l hi h.1 hp
    constructor
    · intro hall
      have hstep : P (step s l) := hall 1
      exact ⟨hl.mp hstep, (ih (hI s l hi h.1) hstep h.2).mp fun n => hall (n + 1)⟩
    · rintro ⟨hok, hrest⟩ n
      cases n with
      | zero => exact hp
      | succ n => exact (ih (hI s l hi h.1) (hl.mpr hok) h.2).mpr hrest n

/-- The rule of exact conditions, for all runs. -/
theorem always_iff_runOk {I P : σ → Prop} (hI : ∀ s l, I s → I (step s l))
    (hP : ∀ s l, I s → P s → (P (step s l) ↔ ok s l)) {s : σ} (hi : I s) (hp : P s) (ls : List ι) :
    (∀ n, P (run step s (ls.take n))) ↔ RunOk step ok s ls :=
  have hadm : RunOk step (fun _ _ => True) s ls := runOk_of_forall (by simp) s
  always_iff_runOk_of (fun s l hi _ => hI s l hi) (fun s l hi _ => hP s l hi) hi hp hadm

/-! ### Two machines -/

/-- The rule of simulation: two machines that take the same steps stay related, if every step keeps them
so. -/
theorem run_simulation {τ : Type*} {step' : τ → ι → τ} {R : σ → τ → Prop} {adm : ι → Prop}
    (hstep : ∀ s t l, adm l → R s t → R (step s l) (step' t l)) {s : σ} {t : τ} (h : R s t)
    {ls : List ι} (hls : ∀ l ∈ ls, adm l) : R (run step s ls) (run step' t ls) := by
  induction ls generalizing s t with
  | nil => exact h
  | cons l ls ih =>
    exact ih (hstep s t l (hls l List.mem_cons_self) h) fun l' hl' =>
      hls l' (List.mem_cons_of_mem l hl')

/-! ### Records

A record is kept beside the machine and never read by it. -/

section Records

variable {ρ : Type*} {record : σ → ρ → ι → ρ}

/-- The machine with a record of its run. -/
def recorded (step : σ → ι → σ) (record : σ → ρ → ι → ρ) (x : σ × ρ) (l : ι) : σ × ρ :=
  (step x.1 l, record x.1 x.2 l)

end Records

end TorrentLink.Lib
