import Mathlib.Data.List.Basic

/-!
# Jobs that may run once

A log records when the job of a key is started and when it is settled, with success or without. From
the log alone follows where each job stands; a failed job may be started again. `NeverRestarted` says
that no start finds its job running or done. The rules: the log grows by one event at a time
(`neverRestarted_snoc`), and a key that is never restarted is done at most once
(`NeverRestarted.completions_le_one`).
-/

namespace TorrentLink.Lib

inductive JobEvent (κ : Type*)
  | started (key : κ)
  | settled (key : κ) (success : Bool)
  deriving DecidableEq, Repr

inductive Job
  | idle | running | done
  deriving DecidableEq, Repr

variable {κ : Type*} [DecidableEq κ] (k : κ)

/-- Where the job of `k` stands after an event. -/
def Job.next (j : Job) : JobEvent κ → Job
  | .started key => if key = k then .running else j
  | .settled key success =>
    if key = k ∧ j = .running then (if success then .done else .idle) else j

/-- Where the job of `k` stands after the events. -/
def standing (log : List (JobEvent κ)) : Job := log.foldl (Job.next k) .idle

/-- Every start of the job finds it idle. -/
def NeverRestarted (log : List (JobEvent κ)) : Prop :=
  ∀ before after, log = before ++ .started k :: after → standing k before = .idle

/-- Whether an event that finds the job in `j` ends it with success. -/
def Completes (j : Job) (e : JobEvent κ) : Bool := j = .running && e = .settled k true

/-- How often the job ends with success, from `j` on. -/
def completionsFrom (j : Job) : List (JobEvent κ) → Nat
  | [] => 0
  | e :: log => (if Completes k j e then 1 else 0) + completionsFrom (j.next k e) log

def completions (log : List (JobEvent κ)) : Nat := completionsFrom k .idle log

variable {k}

@[simp] theorem standing_nil : standing k [] = .idle := rfl

theorem standing_snoc (log : List (JobEvent κ)) (e : JobEvent κ) :
    standing k (log ++ [e]) = (standing k log).next k e := by
  unfold standing
  rw [List.foldl_append]
  rfl

@[simp] theorem Job.next_started (j : Job) (key : κ) :
    j.next k (.started key) = if key = k then .running else j := rfl

theorem Job.next_settled (j : Job) (key : κ) (success : Bool) :
    j.next k (.settled key success) =
      if key = k ∧ j = .running then (if success then .done else .idle) else j := rfl

theorem neverRestarted_nil : NeverRestarted k [] := by
  intro before after h
  simp at h

/-- One more event: if it is a start, the job has to be idle. -/
theorem neverRestarted_snoc {log : List (JobEvent κ)} {e : JobEvent κ} (h : NeverRestarted k log)
    (he : e = .started k → standing k log = .idle) : NeverRestarted k (log ++ [e]) := by
  intro before after hsplit
  rcases List.eq_nil_or_concat after with rfl | ⟨after, e', rfl⟩
  · obtain ⟨rfl, hlast⟩ := List.append_inj' hsplit rfl
    exact he (List.cons.inj hlast).1
  · have hsplit' : log ++ [e] = (before ++ .started k :: after) ++ [e'] := by
      rw [hsplit]
      simp
    obtain ⟨hlog, _⟩ := List.append_inj' hsplit' rfl
    exact h before after hlog

/-- Events of other kinds never restart anything. -/
theorem neverRestarted_settled {log : List (JobEvent κ)} (h : NeverRestarted k log) (key : κ)
    (success : Bool) : NeverRestarted k (log ++ [.settled key success]) :=
  neverRestarted_snoc h fun he => by cases he

/-- Once done, a job that is never restarted is not done again; the invariant of the induction is
stated from any standing. -/
theorem completionsFrom_le (log : List (JobEvent κ)) (j : Job)
    (h : ∀ before after, log = before ++ .started k :: after →
      before.foldl (Job.next k) j = .idle) :
    completionsFrom k j log ≤ if j = .done then 0 else 1 := by
  induction log generalizing j with
  | nil => exact Nat.zero_le _
  | cons e log ih =>
    have hrest := ih (j.next k e) fun before after hsplit =>
      h (e :: before) after (by rw [hsplit]; rfl)
    have hstart : e = .started k → j = .idle := by
      rintro rfl
      exact h [] log rfl
    rw [completionsFrom]
    by_cases hc : Completes k j e = true
    · obtain ⟨hj, he⟩ : j = .running ∧ e = .settled k true := by simpa [Completes] using hc
      subst hj he
      have hdone : completionsFrom k .done log ≤ 0 := by simpa [Job.next_settled] using hrest
      have hnext : Job.next k .running (.settled k true) = .done := by simp [Job.next_settled]
      rw [if_pos hc, if_neg (by decide), hnext]
      omega
    · rw [if_neg hc, Nat.zero_add]
      refine Nat.le_trans hrest ?_
      by_cases hj : j = .done
      · have hnext : j.next k e = .done := by
          cases e with
          | started key =>
            have hkey : key ≠ k := by
              rintro rfl
              exact absurd (hj.symm.trans (hstart rfl)) (by decide)
            rw [Job.next_started, if_neg hkey]
            exact hj
          | settled key success =>
            rw [Job.next_settled, if_neg fun hr => absurd (hj.symm.trans hr.2) (by decide)]
            exact hj
        rw [if_pos hnext]
        exact Nat.zero_le _
      · rw [if_neg hj]
        split_ifs <;> omega

/-- A job that is never restarted succeeds at most once. -/
theorem NeverRestarted.completions_le_one {log : List (JobEvent κ)} (h : NeverRestarted k log) :
    completions k log ≤ 1 :=
  completionsFrom_le log .idle h

end TorrentLink.Lib
