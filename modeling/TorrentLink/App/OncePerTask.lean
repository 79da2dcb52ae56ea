import TorrentLink.Core.TaskEvent
import TorrentLink.Lib.KeyMemory
import TorrentLink.Lib.Runs

/-!
# What is done once for a task

Every batch of snapshots is gone through for seeding tasks that have reached their ratio or time, and every
batch of alerts is followed by a look for finished tasks. A memory keeps the controller from pausing a task
again while the pause is under way, and from announcing a finished task twice. The two memories of the
seeding policy are forgotten together when settings are applied, but only that of the ratio is when the
policy is changed from its dialog.
-/

namespace TorrentLink.App

open Lib

/-! ### The seeding policy -/

/-- `ρ` are the floating-point numbers. -/
structure SeedPolicy (ρ : Type) where
  seedUnlimited : Bool
  autoStopSeedRatio : ρ
  seedMaxMinutes : Int

structure SeedState (ρ : Type) where
  policy : SeedPolicy ρ
  autoStoppedBySeedRatio : Finset TaskId := ∅
  autoStoppedBySeedTime : Finset TaskId := ∅

/-- Why a task is paused. -/
inductive SeedPause
  | ratio
  | time
  deriving DecidableEq

section

variable {ρ : Type} (reached : Int → Int → ρ → Bool)

/-- The bytes uploaded, divided by those downloaded, are at least the target. -/
def SeedPolicy.ratioDue (p : SeedPolicy ρ) (s : TaskSnapshot) : Bool :=
  0 < s.downloadedBytes && reached s.uploadedBytes s.downloadedBytes p.autoStopSeedRatio

/-- Whole minutes since the completion. -/
def SeedPolicy.timeDue (p : SeedPolicy ρ) (nowMs : Int) (s : TaskSnapshot) : Bool :=
  0 < p.seedMaxMinutes && 0 < s.completedOnMs &&
    p.seedMaxMinutes ≤ (nowMs - s.completedOnMs).tdiv 60000

/-- One turn of the loop of `applySeedingPolicy`, with the pause it asks for. -/
def applySeedingPolicyTo (nowMs : Int) (st : SeedState ρ) (s : TaskSnapshot) :
    SeedState ρ × Option SeedPause :=
  if s.status ≠ .seeding then
    ({ st with
        autoStoppedBySeedRatio := st.autoStoppedBySeedRatio.erase s.taskId
        autoStoppedBySeedTime := st.autoStoppedBySeedTime.erase s.taskId }, none)
  else if st.policy.seedUnlimited then (st, none)
  else if st.policy.ratioDue reached s && s.taskId ∉ st.autoStoppedBySeedRatio then
    ({ st with autoStoppedBySeedRatio := insert s.taskId st.autoStoppedBySeedRatio }, some .ratio)
  else if st.policy.timeDue nowMs s && s.taskId ∉ st.autoStoppedBySeedTime then
    ({ st with autoStoppedBySeedTime := insert s.taskId st.autoStoppedBySeedTime }, some .time)
  else (st, none)

inductive SeedEvent (ρ : Type)
  /-- `applySeedingPolicy`, with a batch. -/
  | evaluate (nowMs : Int) (snapshots : List TaskSnapshot)
  /-- The callback of `setOnSeedPolicyChanged`. -/
  | seedPolicyChanged (unlimited : Bool) (ratio : ρ)
  /-- `applyRuntimeSettingsFromConfig` -/
  | settingsApplied (policy : SeedPolicy ρ)

/-- A look at a task under the policy then in force, and the changes of the policy. -/
inductive SeedEntry (ρ : Type)
  | look (policy : SeedPolicy ρ) (nowMs : Int) (s : TaskSnapshot) (pause : Option SeedPause)
  | seedPolicyChanged
  | settingsApplied

/-- The look at a task, with its record. -/
def lookAt (nowMs : Int) (x : SeedState ρ × List (SeedEntry ρ)) (s : TaskSnapshot) :
    SeedState ρ × List (SeedEntry ρ) :=
  ((applySeedingPolicyTo reached nowMs x.1 s).1,
    x.2 ++ [.look x.1.policy nowMs s (applySeedingPolicyTo reached nowMs x.1 s).2])

def seedStep (x : SeedState ρ × List (SeedEntry ρ)) : SeedEvent ρ → SeedState ρ × List (SeedEntry ρ)
  | .evaluate nowMs snapshots => snapshots.foldl (lookAt reached nowMs) x
  | .seedPolicyChanged unlimited ratio =>
    ({ x.1 with
        policy := { x.1.policy with seedUnlimited := unlimited, autoStopSeedRatio := ratio }
        autoStoppedBySeedRatio := ∅ }, x.2 ++ [.seedPolicyChanged])
  | .settingsApplied policy => (⟨policy, ∅, ∅⟩, x.2 ++ [.settingsApplied])

/-- The state and the record after a run. -/
def seedRun (policy : SeedPolicy ρ) (events : List (SeedEvent ρ)) : SeedState ρ × List (SeedEntry ρ) :=
  run (seedStep reached) (⟨policy, ∅, ∅⟩, []) events

/-! ### What the memories hold -/

/-- What an entry does to the memory of the ratio. -/
def SeedEntry.ratioOp : SeedEntry ρ → MemoryOp TaskId
  | .look _ _ s pause =>
    if s.status ≠ .seeding then .erase s.taskId
    else if pause = some .ratio then .insert s.taskId else .keep
  | .seedPolicyChanged | .settingsApplied => .clear

/-- What an entry does to the memory of the time. -/
def SeedEntry.timeOp : SeedEntry ρ → MemoryOp TaskId
  | .look _ _ s pause =>
    if s.status ≠ .seeding then .erase s.taskId
    else if pause = some .time then .insert s.taskId else .keep
  | .seedPolicyChanged => .keep
  | .settingsApplied => .clear

/-- A look pauses a task by its ratio exactly if the task is seeding and limited, its ratio is due, and
it was not paused by its ratio since that was forgotten; by its time likewise, where it is not paused by its
ratio. -/
def SeedEntry.Explained (before : List (SeedEntry ρ)) : SeedEntry ρ → Prop
  | .look p nowMs s pause =>
    (pause = some .ratio ↔ s.status = .seeding ∧ p.seedUnlimited = false ∧ p.ratioDue reached s = true ∧
      ¬Remembered (before.map SeedEntry.ratioOp) s.taskId) ∧
    (pause = some .time ↔ s.status = .seeding ∧ p.seedUnlimited = false ∧ pause ≠ some .ratio ∧
      p.timeDue nowMs s = true ∧ ¬Remembered (before.map SeedEntry.timeOp) s.taskId)
  | .seedPolicyChanged | .settingsApplied => True

/-- The memories hold what the record says, and the record is explained. -/
structure SeedInv (x : SeedState ρ × List (SeedEntry ρ)) : Prop where
  ratio : x.1.autoStoppedBySeedRatio = remember (x.2.map SeedEntry.ratioOp)
  time : x.1.autoStoppedBySeedTime = remember (x.2.map SeedEntry.timeOp)
  explained : EachAfter (SeedEntry.Explained reached) x.2

/-- One turn of the loop, case by case. -/
theorem applySeedingPolicyTo_cases (nowMs : Int) (st : SeedState ρ) (s : TaskSnapshot) :
    (s.status ≠ .seeding ∧ applySeedingPolicyTo reached nowMs st s =
      ({ st with
          autoStoppedBySeedRatio := st.autoStoppedBySeedRatio.erase s.taskId
          autoStoppedBySeedTime := st.autoStoppedBySeedTime.erase s.taskId }, none)) ∨
    (s.status = .seeding ∧ st.policy.seedUnlimited = false ∧ st.policy.ratioDue reached s = true ∧
      s.taskId ∉ st.autoStoppedBySeedRatio ∧ applySeedingPolicyTo reached nowMs st s =
        ({ st with autoStoppedBySeedRatio := insert s.taskId st.autoStoppedBySeedRatio }, some .ratio)) ∨
    (s.status = .seeding ∧ st.policy.seedUnlimited = false ∧
      ¬(st.policy.ratioDue reached s = true ∧ s.taskId ∉ st.autoStoppedBySeedRatio) ∧
      st.policy.timeDue nowMs s = true ∧ s.taskId ∉ st.autoStoppedBySeedTime ∧
      applySeedingPolicyTo reached nowMs st s =
        ({ st with autoStoppedBySeedTime := insert s.taskId st.autoStoppedBySeedTime }, some .time)) ∨
    (s.status = .seeding ∧ (st.policy.seedUnlimited = false →
        ¬(st.policy.ratioDue reached s = true ∧ s.taskId ∉ st.autoStoppedBySeedRatio) ∧
        ¬(st.policy.timeDue nowMs s = true ∧ s.taskId ∉ st.autoStoppedBySeedTime)) ∧
      applySeedingPolicyTo reached nowMs st s = (st, none)) := by
  unfold applySeedingPolicyTo
  by_cases hseeding : s.status = .seeding
  · by_cases hunlimited : st.policy.seedUnlimited = true
    · simp [hseeding, hunlimited]
    · by_cases hratio : st.policy.ratioDue reached s = true ∧ s.taskId ∉ st.autoStoppedBySeedRatio
      · simp [hseeding, hunlimited, hratio]
      · by_cases htime : st.policy.timeDue nowMs s = true ∧ s.taskId ∉ st.autoStoppedBySeedTime
        · simp [hseeding, hunlimited, hratio, htime]
        · simp [hseeding, hunlimited, hratio, htime]
  · simp [hseeding]

variable {reached}

theorem SeedInv.look {x : SeedState ρ × List (SeedEntry ρ)} (h : SeedInv reached x) (nowMs : Int)
    (s : TaskSnapshot) : SeedInv reached (lookAt reached nowMs x s) := by
  have hratio := mem_remember_iff (x.2.map SeedEntry.ratioOp) s.taskId
  have htime := mem_remember_iff (x.2.map SeedEntry.timeOp) s.taskId
  rw [← h.ratio] at hratio
  rw [← h.time] at htime
  unfold lookAt
  rcases applySeedingPolicyTo_cases reached nowMs x.1 s with
    ⟨hother, heq⟩ | ⟨hseeding, hlimited, hdue, hnew, heq⟩ | ⟨hseeding, hlimited, hnot, hdue, hnew, heq⟩ |
    ⟨hseeding, hnot, heq⟩
  all_goals rw [heq]
  · refine ⟨?_, ?_, h.explained.concat ?_⟩
    · simp [SeedEntry.ratioOp, hother, remember_concat, MemoryOp.apply, h.ratio]
    · simp [SeedEntry.timeOp, hother, remember_concat, MemoryOp.apply, h.time]
    · simp [SeedEntry.Explained, hother]
  · refine ⟨?_, ?_, h.explained.concat ?_⟩
    · simp [SeedEntry.ratioOp, hseeding, remember_concat, MemoryOp.apply, h.ratio]
    · simp [SeedEntry.timeOp, hseeding, remember_concat, MemoryOp.apply, h.time]
    · rw [SeedEntry.Explained, ← hratio, ← htime]
      simp [hseeding, hlimited, hdue, hnew]
  · refine ⟨?_, ?_, h.explained.concat ?_⟩
    · simp [SeedEntry.ratioOp, hseeding, remember_concat, MemoryOp.apply, h.ratio]
    · simp [SeedEntry.timeOp, hseeding, remember_concat, MemoryOp.apply, h.time]
    · rw [SeedEntry.Explained, ← hratio, ← htime]
      simp [hseeding, hlimited, hdue, hnew, hnot]
  · refine ⟨?_, ?_, h.explained.concat ?_⟩
    · simp [SeedEntry.ratioOp, hseeding, remember_concat, MemoryOp.apply, h.ratio]
    · simp [SeedEntry.timeOp, hseeding, remember_concat, MemoryOp.apply, h.time]
    · rw [SeedEntry.Explained, ← hratio, ← htime]
      cases hlimited : x.1.policy.seedUnlimited with
      | true => simp
      | false => simpa [hseeding] using hnot hlimited

theorem SeedInv.step {x : SeedState ρ × List (SeedEntry ρ)} (h : SeedInv reached x)
    (e : SeedEvent ρ) : SeedInv reached (seedStep reached x e) := by
  cases e with
  | evaluate nowMs snapshots =>
    show SeedInv reached (snapshots.foldl (lookAt reached nowMs) x)
    induction snapshots generalizing x with
    | nil => exact h
    | cons s snapshots ih => exact ih (h.look nowMs s)
  | seedPolicyChanged unlimited ratio =>
    refine ⟨?_, ?_, h.explained.concat trivial⟩
    · simp [seedStep, SeedEntry.ratioOp, remember_concat, MemoryOp.apply]
    · simp [seedStep, SeedEntry.timeOp, remember_concat, MemoryOp.apply, h.time]
  | settingsApplied policy =>
    refine ⟨?_, ?_, h.explained.concat trivial⟩
    · simp [seedStep, SeedEntry.ratioOp, remember_concat, MemoryOp.apply]
    · simp [seedStep, SeedEntry.timeOp, remember_concat, MemoryOp.apply]

variable (reached)

/-- Along every run, a seeding task is paused by its ratio at the first look that finds it due, and not
again until that pause is forgotten; and by its time likewise. -/
theorem seedRun_explained (policy : SeedPolicy ρ) (events : List (SeedEvent ρ)) :
    EachAfter (SeedEntry.Explained reached) (seedRun reached policy events).2 := by
  have hrun : SeedInv reached (seedRun reached policy events) :=
    run_invariant (fun _ e h => h.step e) ⟨rfl, rfl, eachAfter_nil⟩ events
  exact hrun.explained

end

/-! ### Finished tasks -/

section

variable (idText : TaskId → String)

/-- The text of a notification: the name, or the first characters of the id where there is none. -/
def noticeName (s : TaskSnapshot) : String :=
  if s.name = "" then String.ofList ((idText s.taskId).toList.take 8) else s.name

/-- One turn of the loop after a batch of alerts, with the notification it shows. -/
def noticeFinished (notified : Finset TaskId) (s : TaskSnapshot) : Finset TaskId × Option String :=
  if s.status ≠ .finished then (notified, none)
  else if s.taskId ∈ notified then (notified, none)
  else (insert s.taskId notified, some (noticeName idText s))

/-- A look at a task, with the notification shown. -/
structure NoticeLook where
  s : TaskSnapshot
  notice : Option String

def noticeStep (x : Finset TaskId × List NoticeLook) (snapshots : List TaskSnapshot) :
    Finset TaskId × List NoticeLook :=
  snapshots.foldl (fun x s =>
    ((noticeFinished idText x.1 s).1, x.2 ++ [⟨s, (noticeFinished idText x.1 s).2⟩])) x

/-- The looks after the batches, each with the snapshots at its end. -/
def noticeRun (batches : List (List TaskSnapshot)) : Finset TaskId × List NoticeLook :=
  run (noticeStep idText) (∅, []) batches

/-- The look found a task finished. -/
def NoticeLook.finished (l : NoticeLook) : Bool := l.s.status = .finished

/-- A notification is shown for a finished task that no look before found finished. -/
def NoticeLook.Explained (before : List NoticeLook) (l : NoticeLook) : Prop :=
  (∀ text, l.notice = some text ↔ text = noticeName idText l.s ∧ l.finished = true ∧
    ∀ l' ∈ before, l'.s.taskId = l.s.taskId → l'.finished = false)

/-- The tasks found finished are remembered. -/
structure NoticeInv (x : Finset TaskId × List NoticeLook) : Prop where
  notified : ∀ k, k ∈ x.1 ↔ ∃ l ∈ x.2, l.s.taskId = k ∧ l.finished = true
  explained : EachAfter (NoticeLook.Explained idText) x.2

variable {idText}

theorem NoticeInv.look {x : Finset TaskId × List NoticeLook} (h : NoticeInv idText x)
    (s : TaskSnapshot) : NoticeInv idText
      ((noticeFinished idText x.1 s).1, x.2 ++ [⟨s, (noticeFinished idText x.1 s).2⟩]) := by
  unfold noticeFinished
  by_cases hother : s.status ≠ .finished
  · rw [if_pos hother]
    refine ⟨?_, h.explained.concat ?_⟩
    · intro k
      simp [h.notified, NoticeLook.finished, hother]
    · intro text
      simp [NoticeLook.finished, hother]
  · rw [if_neg hother]
    rw [not_not] at hother
    by_cases hknown : s.taskId ∈ x.1
    · rw [if_pos hknown]
      obtain ⟨l, hl, hid, hfinished⟩ := (h.notified s.taskId).mp hknown
      refine ⟨?_, h.explained.concat ?_⟩
      · intro k
        rw [h.notified]
        constructor
        · rintro ⟨l', hl', hk, hfinished'⟩
          exact ⟨l', List.mem_append_left _ hl', hk, hfinished'⟩
        · rintro ⟨l', hl', hk, hfinished'⟩
          rcases List.mem_append.mp hl' with hl' | hl'
          · exact ⟨l', hl', hk, hfinished'⟩
          · rw [List.mem_singleton.mp hl'] at hk
            exact ⟨l, hl, hid.trans hk, hfinished⟩
      · intro text
        constructor
        · rintro ⟨⟩
        · rintro ⟨-, -, hnone⟩
          rw [hnone l hl hid] at hfinished
          cases hfinished
    · rw [if_neg hknown]
      refine ⟨?_, h.explained.concat ?_⟩
      · intro k
        rw [Finset.mem_insert, h.notified]
        constructor
        · rintro (rfl | ⟨l', hl', hk, hfinished'⟩)
          · exact ⟨⟨s, _⟩, List.mem_append_right _ (List.mem_singleton.mpr rfl), rfl, by
              simp [NoticeLook.finished, hother]⟩
          · exact ⟨l', List.mem_append_left _ hl', hk, hfinished'⟩
        · rintro ⟨l', hl', hk, hfinished'⟩
          rcases List.mem_append.mp hl' with hl' | hl'
          · exact .inr ⟨l', hl', hk, hfinished'⟩
          · rw [List.mem_singleton.mp hl'] at hk
            exact .inl hk.symm
      · intro text
        have hnone : ∀ l' ∈ x.2, l'.s.taskId = s.taskId → l'.finished = false := by
          intro l' hl' hid
          by_contra hfinished
          exact hknown ((h.notified s.taskId).mpr ⟨l', hl', hid, by simpa using hfinished⟩)
        constructor
        · rintro ⟨⟩
          exact ⟨rfl, by simp [NoticeLook.finished, hother], hnone⟩
        · rintro ⟨rfl, -, -⟩
          rfl

variable (idText)

/-- Along every run, a finished task is announced at the first look that finds it finished, and at no other:
not even if it was removed and added again in between. -/
theorem noticeRun_explained (batches : List (List TaskSnapshot)) :
    EachAfter (NoticeLook.Explained idText) (noticeRun idText batches).2 := by
  have hstep : ∀ (x : Finset TaskId × List NoticeLook) (snapshots : List TaskSnapshot),
      NoticeInv idText x → NoticeInv idText (noticeStep idText x snapshots) := by
    intro x snapshots h
    unfold noticeStep
    induction snapshots generalizing x with
    | nil => exact h
    | cons s snapshots ih => exact ih _ (h.look s)
  have hrun : NoticeInv idText (noticeRun idText batches) :=
    run_invariant hstep ⟨by simp, eachAfter_nil⟩ batches
  exact hrun.explained

end

end TorrentLink.App
