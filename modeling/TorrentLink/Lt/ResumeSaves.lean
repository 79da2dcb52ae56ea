import TorrentLink.Lt.WorkerSteps

/-!
# Saving resume data

`saveAllResumeData` posts a command and waits for its promise; the worker asks every torrent whose
handle it has for its resume data, and counts the answers down in one pair of counters. Each call of
`save_resume_data` gets one answer, in any order. The wait of the caller may run out, which changes
nothing here: the promise stays with the command.

One set of counters and one place for the promise serve all commands. So each promise is resolved once,
when all that its command asked have answered, with the number of files written for the answers, as long
as no command is handled while an earlier one still waits for answers, and no file takes only a part of
its data (`saves_kept`). Who asked is kept beside requests, alerts and files for the statements, and read
by no handler.
-/

namespace TorrentLink.Lt

open Lib

variable {H : Type}

abbrev SaveId := Nat

/-! ### The worker's part -/

/-- `SaveAllResumeDataCmd` -/
structure SaveCmd where
  resumeDir : String
  done : SaveId
  deriving DecidableEq, Repr

/-- A call of `save_resume_data` that has no answer yet. -/
structure SaveRequest where
  asker : SaveId
  handle : Handle
  deriving DecidableEq, Repr

/-- `save_resume_data_alert`, with the info-hashes of its params and what they are written as, and
`save_resume_data_failed_alert`. -/
inductive SaveAlert (H : Type)
  | saved (asker : SaveId) (infoHashes : H) (buf : Bytes)
  | failed (asker : SaveId)
  deriving DecidableEq, Repr

def SaveAlert.asker : SaveAlert H → SaveId
  | .saved asker _ _ => asker
  | .failed asker => asker

/-- The data to be written for an alert. -/
def SaveAlert.buf : SaveAlert H → Bytes
  | .saved _ _ buf => buf
  | .failed _ => []

/-- A file that was opened for an answer, what was to be written to it and what it took. -/
structure SavedFile where
  asker : SaveId
  path : String
  buf : Bytes
  content : Bytes
  deriving DecidableEq, Repr

structure Saves (H : Type) where
  cmds : List SaveCmd := []
  pendingResumeDataSaves : Int := 0
  completedResumeDataSaves : Int := 0
  resumeDataDir : String := ""
  resumeDataDone : Option SaveId := none
  requests : List SaveRequest := []
  alerts : List (SaveAlert H) := []
  /-- The values that each promise was set to. -/
  promises : List (List Int) := []
  files : List SavedFile := []

/-- `done->set_value(value)` -/
def Saves.setValue (s : Saves H) (done : SaveId) (value : Int) : Saves H :=
  { s with promises := s.promises.modify done (· ++ [value]) }

/-- `saveAllResumeData`, up to its wait. -/
def saveAllResumeData (s : Saves H) (resumeDir : String) : Saves H :=
  { s with
    promises := s.promises ++ [[]]
    cmds := s.cmds ++ [⟨resumeDir, s.promises.length⟩] }

/-- The handles that are asked. -/
def askedHandles (w : Worker H) : List Handle :=
  (w.handlesByTaskId.entries.map (·.2)).filter w.session.isValid

def handleSaveAllResumeData (w : Worker H) (s : Saves H) (resumeDir : String) (done : SaveId) :
    Saves H :=
  let asked := askedHandles w
  let s := { s with
    resumeDataDir := resumeDir
    resumeDataDone := some done
    requests := s.requests ++ asked.map fun h => ⟨done, h⟩
    pendingResumeDataSaves := asked.length
    completedResumeDataSaves := 0 }
  if s.pendingResumeDataSaves = 0 then { s.setValue done 0 with resumeDataDone := none } else s

/-- The end of both alert handlers. -/
def countAnswer (s : Saves H) : Saves H :=
  let s := { s with pendingResumeDataSaves := s.pendingResumeDataSaves - 1 }
  match s.resumeDataDone with
  | some done =>
    if s.pendingResumeDataSaves ≤ 0 then
      { s.setValue done s.completedResumeDataSaves with resumeDataDone := none }
    else s
  | none => s

/-- The handler of a save's alert. The file opens unless `disk` is `none`, and takes so many bytes. -/
def handleSaveAlert (env : WorkerEnv H) (s : Saves H) (disk : Option Nat) : SaveAlert H → Saves H
  | .failed _ => countAnswer s
  | .saved asker infoHashes buf =>
    let s :=
      if s.resumeDataDir = "" then s
      else
        match disk with
        | none => s
        | some n =>
          let key := env.taskIdKey (env.taskIdFromInfoHashes infoHashes)
          let path := dirFilePath s.resumeDataDir (key ++ ".rd")
          -- what `write` returns is not looked at
          { s with
            files := s.files ++ [⟨asker, path, buf, buf.take n⟩]
            completedResumeDataSaves := s.completedResumeDataSaves + 1 }
    countAnswer s

/-! ### The system -/

structure SaveSystem (H : Type) where
  worker : Worker H := {}
  saves : Saves H := {}

inductive SaveLabel (H : Type)
  /-- Any other step of the worker and the session. -/
  | worker (l : Label H)
  /-- A caller posts a command. -/
  | call (resumeDir : String)
  /-- The worker handles the first SaveAllResumeData. -/
  | handle
  /-- libtorrent answers a call: with the data, or that it failed. -/
  | answer (i : Nat) (data : Option (H × Bytes))
  /-- The worker handles the first alert of a save. -/
  | alert (disk : Option Nat)

/-- The alert that answers a request. -/
def SaveRequest.answer (r : SaveRequest) : Option (H × Bytes) → SaveAlert H
  | some (infoHashes, buf) => .saved r.asker infoHashes buf
  | none => .failed r.asker

def saveStep (env : WorkerEnv H) (s : SaveSystem H) : SaveLabel H → SaveSystem H
  | .worker l => { s with worker := step env s.worker l }
  | .call resumeDir => { s with saves := saveAllResumeData s.saves resumeDir }
  | .handle =>
    match s.saves.cmds with
    | [] => s
    | c :: rest =>
      { s with saves :=
          handleSaveAllResumeData s.worker { s.saves with cmds := rest } c.resumeDir c.done }
  | .answer i data =>
    match s.saves.requests[i]? with
    | some r =>
      { s with saves := { s.saves with
          requests := s.saves.requests.eraseIdx i
          alerts := s.saves.alerts ++ [r.answer data] } }
    | none => s
  | .alert disk =>
    match s.saves.alerts with
    | [] => s
    | a :: rest => { s with saves := handleSaveAlert env { s.saves with alerts := rest } disk a }

/-! ### What a promise is worth -/

/-- The command is not handled yet, or someone it asked has not answered. -/
def Saves.Awaits (s : Saves H) (id : SaveId) : Prop :=
  (∃ c ∈ s.cmds, c.done = id) ∨ (∃ r ∈ s.requests, r.asker = id) ∨ ∃ a ∈ s.alerts, a.asker = id

instance (s : Saves H) (id : SaveId) : Decidable (s.Awaits id) := by
  unfold Saves.Awaits
  infer_instance

/-- How many files were written for the answers to a command. -/
def Saves.written (s : Saves H) (id : SaveId) : Nat :=
  s.files.countP fun f => f.asker = id ∧ f.content = f.buf

/-- A promise is resolved once, as soon as all answers to its command have come and not before, with the
number of files written for them. -/
def SavesKept (s : Saves H) : Prop :=
  ∀ id values, s.promises[id]? = some values →
    (s.Awaits id → values = []) ∧ (¬ s.Awaits id → values = [(s.written id : Int)])

/-- A command is handled when no answer to an earlier one is to come, and a file that opens takes all
its data. -/
def SaveOk (s : SaveSystem H) : SaveLabel H → Prop
  | .handle => s.saves.cmds = [] ∨ s.saves.requests = [] ∧ s.saves.alerts = []
  | .alert disk => ∀ n ∈ disk, ∀ a ∈ s.saves.alerts.head?, a.buf.length ≤ n
  | _ => True

instance (s : SaveSystem H) : ∀ l : SaveLabel H, Decidable (SaveOk s l)
  | .handle => inferInstanceAs (Decidable (_ ∨ _ ∧ _))
  | .alert disk => inferInstanceAs (Decidable (∀ n ∈ disk, ∀ a ∈ s.saves.alerts.head?, a.buf.length ≤ n))
  | .worker _ => isTrue trivial
  | .call _ => isTrue trivial
  | .answer _ _ => isTrue trivial

/-! ### Between and during the answers -/

/-- No answer is to come. -/
structure Saves.Idle (s : Saves H) : Prop where
  done : s.resumeDataDone = none
  requests : s.requests = []
  alerts : s.alerts = []

/-- Answers to one command are to come, and are counted for it. -/
structure Saves.Answering (s : Saves H) (id : SaveId) : Prop where
  done : s.resumeDataDone = some id
  lt : id < s.promises.length
  requests : ∀ r ∈ s.requests, r.asker = id
  alerts : ∀ a ∈ s.alerts, a.asker = id
  pending : s.pendingResumeDataSaves = s.requests.length + s.alerts.length
  pos : 0 < s.pendingResumeDataSaves
  completed : s.completedResumeDataSaves = s.written id

/-- What holds between steps that meet the condition. -/
structure SavesGood (s : Saves H) : Prop where
  kept : SavesKept s
  phase : s.Idle ∨ ∃ id, s.Answering id ∧ ∀ c ∈ s.cmds, c.done ≠ id
  cmds_lt : ∀ c ∈ s.cmds, c.done < s.promises.length
  cmds_nodup : (s.cmds.map (·.done)).Nodup
  files_lt : ∀ f ∈ s.files, f.asker < s.promises.length ∧ ∀ c ∈ s.cmds, c.done ≠ f.asker

theorem savesGood_empty : SavesGood ({} : Saves H) where
  kept id values h := by simp at h
  phase := .inl ⟨rfl, rfl, rfl⟩
  cmds_lt c h := by cases h
  cmds_nodup := List.nodup_nil
  files_lt f h := by cases h

/-- When no answer is to come, only an unhandled command keeps a promise waiting. -/
theorem awaits_iff_of_answered {s : Saves H} (hrequests : s.requests = []) (halerts : s.alerts = [])
    (id : SaveId) : s.Awaits id ↔ ∃ c ∈ s.cmds, c.done = id := by
  unfold Saves.Awaits
  rw [hrequests, halerts]
  simp

section

variable {s : Saves H} {id : SaveId} (hrequests : ∀ r ∈ s.requests, r.asker = id)
  (halerts : ∀ a ∈ s.alerts, a.asker = id)

include hrequests halerts

/-- When all answers to come are for one promise, only an unhandled command keeps another waiting. -/
theorem awaits_iff_of_ne {k : SaveId} (hk : k ≠ id) : s.Awaits k ↔ ∃ c ∈ s.cmds, c.done = k := by
  unfold Saves.Awaits
  refine or_iff_left ?_
  rintro (⟨r, hr, rfl⟩ | ⟨a, ha, rfl⟩)
  · exact hk (hrequests r hr)
  · exact hk (halerts a ha)

theorem awaits_of_length_ne (hlength : s.requests.length + s.alerts.length ≠ 0) : s.Awaits id := by
  rcases List.eq_nil_or_concat s.requests with hnil | ⟨_, r, hr⟩
  · rcases List.eq_nil_or_concat s.alerts with hnil' | ⟨_, a, ha⟩
    · rw [hnil, hnil'] at hlength
      exact absurd rfl hlength
    · have ha : a ∈ s.alerts := by simp [ha]
      exact .inr (.inr ⟨a, ha, halerts a ha⟩)
  · have hr : r ∈ s.requests := by simp [hr]
    exact .inr (.inl ⟨r, hr, hrequests r hr⟩)

end

theorem promises_setValue (s : Saves H) (done id : SaveId) (value : Int) :
    (s.setValue done value).promises[id]? =
      if done = id then s.promises[id]?.map (· ++ [value]) else s.promises[id]? := by
  rw [Saves.setValue, List.getElem?_modify]
  by_cases h : done = id <;> cases s.promises[id]? <;> simp [h]

/-- A promise is set to what it is worth when its last answer has come. -/
theorem SavesKept.resolve {s s' : Saves H} (hs : SavesKept s) (id : SaveId) (value : Int)
    (hpromises : s'.promises = (s.setValue id value).promises) (hawaited : s.Awaits id)
    (hdone : ¬ s'.Awaits id) (hvalue : value = s'.written id)
    (hothers : ∀ k, k ≠ id → (s'.Awaits k ↔ s.Awaits k) ∧ s'.written k = s.written k) :
    SavesKept s' := by
  intro k values hk
  rw [hpromises, promises_setValue] at hk
  by_cases hkid : id = k
  · subst hkid
    rw [if_pos rfl] at hk
    obtain ⟨old, hold, rfl⟩ := Option.map_eq_some_iff.mp hk
    refine ⟨fun h => absurd h hdone, fun _ => ?_⟩
    rw [(hs id old hold).1 hawaited, hvalue]
    rfl
  · rw [if_neg hkid] at hk
    obtain ⟨hiff, hwritten⟩ := hothers k (Ne.symm hkid)
    rw [hiff, hwritten]
    exact hs k values hk

/-- No promise is set, and each is worth what it was. -/
theorem SavesKept.same {s s' : Saves H} (hs : SavesKept s) (hpromises : s'.promises = s.promises)
    (hawaits : ∀ id < s.promises.length, s'.Awaits id ↔ s.Awaits id)
    (hwritten : ∀ id, ¬ s.Awaits id → s'.written id = s.written id) : SavesKept s' := by
  intro id values hid
  rw [hpromises] at hid
  have hlt : id < s.promises.length := (List.getElem?_eq_some_iff.mp hid).1
  rw [hawaits id hlt]
  refine ⟨(hs id values hid).1, fun hno => ?_⟩
  rw [hwritten id hno]
  exact (hs id values hid).2 hno

/-! ### Steps -/

theorem SavesGood.call {s : Saves H} (hs : SavesGood s) (resumeDir : String) :
    SavesGood (saveAllResumeData s resumeDir) := by
  have hlt : ∀ c ∈ (saveAllResumeData s resumeDir).cmds, c ∈ s.cmds ∨ c.done = s.promises.length := by
    intro c hc
    rcases List.mem_append.mp hc with hc | hc
    · exact .inl hc
    · rw [List.mem_singleton.mp hc]
      exact .inr rfl
  have hlength : (saveAllResumeData s resumeDir).promises.length = s.promises.length + 1 := by
    simp [saveAllResumeData]
  have hawaits : ∀ id < s.promises.length,
      (saveAllResumeData s resumeDir).Awaits id ↔ s.Awaits id := by
    intro id hid
    refine or_congr_left ⟨?_, fun ⟨c, hc, h⟩ => ⟨c, List.mem_append_left _ hc, h⟩⟩
    rintro ⟨c, hc, rfl⟩
    rcases hlt c hc with hc | hc
    · exact ⟨c, hc, rfl⟩
    · rw [hc] at hid
      exact absurd hid (lt_irrefl _)
  refine ⟨fun id values hid => ?_, ?_, fun c hc => ?_, ?_, fun f hf => ?_⟩
  · by_cases hnew : id < s.promises.length
    · change (s.promises ++ [[]])[id]? = some values at hid
      rw [List.getElem?_append_left hnew] at hid
      rw [hawaits id hnew]
      exact hs.kept id values hid
    · have hidlt := (List.getElem?_eq_some_iff.mp hid).1
      rw [hlength] at hidlt
      obtain rfl : id = s.promises.length :=
        Nat.le_antisymm (Nat.lt_succ_iff.mp hidlt) (Nat.not_lt.mp hnew)
      change (s.promises ++ [[]])[s.promises.length]? = some values at hid
      rw [List.getElem?_concat_length] at hid
      refine ⟨fun _ => (Option.some.inj hid).symm, fun hno => absurd ?_ hno⟩
      exact .inl ⟨_, List.mem_append_right _ (List.mem_singleton_self _), rfl⟩
  · rcases hs.phase with hidle | ⟨id, hans, hcmds⟩
    · exact .inl ⟨hidle.done, hidle.requests, hidle.alerts⟩
    · refine .inr ⟨id, ⟨hans.done, ?_, hans.requests, hans.alerts, hans.pending, hans.pos,
        hans.completed⟩, fun c hc => ?_⟩
      · rw [hlength]
        exact Nat.lt_succ_of_lt hans.lt
      · rcases hlt c hc with hc | hc
        · exact hcmds c hc
        · rw [hc]
          exact (Nat.ne_of_lt hans.lt).symm
  · rw [hlength]
    rcases hlt c hc with hc | hc
    · exact Nat.lt_succ_of_lt (hs.cmds_lt c hc)
    · rw [hc]
      exact Nat.lt_succ_self _
  · simp only [saveAllResumeData, List.map_append, List.map_cons, List.map_nil]
    refine List.nodup_append.mpr ⟨hs.cmds_nodup, List.nodup_singleton _, ?_⟩
    rintro _ hid _ hid' rfl
    obtain ⟨c, hc, rfl⟩ := List.mem_map.mp hid
    rw [List.mem_singleton] at hid'
    exact absurd (hs.cmds_lt c hc) (hid' ▸ lt_irrefl _)
  · obtain ⟨hf, hcmds⟩ := hs.files_lt f hf
    rw [hlength]
    refine ⟨Nat.lt_succ_of_lt hf, fun c hc => ?_⟩
    rcases hlt c hc with hc | hc
    · exact hcmds c hc
    · rw [hc]
      exact (Nat.ne_of_lt hf).symm

/-- A command is handled when no answer is to come: all that it asks are counted. -/
theorem SavesGood.handle {s : Saves H} (hs : SavesGood s) (hidle : s.Idle) (w : Worker H)
    {c : SaveCmd} {rest : List SaveCmd} (hcmds : s.cmds = c :: rest) :
    SavesGood (handleSaveAllResumeData w { s with cmds := rest } c.resumeDir c.done) := by
  have hmem : c ∈ s.cmds := by
    rw [hcmds]
    exact List.mem_cons_self
  have hsub : ∀ c' ∈ rest, c' ∈ s.cmds := by
    intro c' hc'
    rw [hcmds]
    exact List.mem_cons_of_mem c hc'
  have hnodup := hs.cmds_nodup
  rw [hcmds, List.map_cons, List.nodup_cons] at hnodup
  have hne : ∀ c' ∈ rest, c'.done ≠ c.done :=
    fun c' hc' heq => hnodup.1 (heq ▸ List.mem_map_of_mem hc')
  have hfresh : s.written c.done = 0 := by
    refine List.countP_eq_zero.mpr fun f hf => ?_
    simp [((hs.files_lt f hf).2 c hmem).symm]
  have hfiles : ∀ f ∈ s.files, f.asker < s.promises.length ∧ ∀ c' ∈ rest, c'.done ≠ f.asker :=
    fun f hf => ⟨(hs.files_lt f hf).1, fun c' hc' => (hs.files_lt f hf).2 c' (hsub c' hc')⟩
  have hawaits := awaits_iff_of_answered hidle.requests hidle.alerts
  have hcons : ∀ k, (∃ c' ∈ s.cmds, c'.done = k) ↔ c.done = k ∨ ∃ c' ∈ rest, c'.done = k := by
    intro k
    rw [hcmds]
    simp
  unfold handleSaveAllResumeData
  simp only
  by_cases hasked : askedHandles w = []
  · rw [if_pos (by simp [hasked])]
    have hlength : (s.setValue c.done 0).promises.length = s.promises.length := List.length_modify _ _ _
    have hnone : s.requests ++ (askedHandles w).map (fun h => (⟨c.done, h⟩ : SaveRequest)) = [] := by
      simp [hidle.requests, hasked]
    refine ⟨?_, .inl ⟨rfl, hnone, hidle.alerts⟩, fun c' hc' => ?_, hnodup.2, fun f hf => ?_⟩
    · refine hs.kept.resolve c.done 0 rfl ?_ ?_ ?_ fun k hk => ⟨?_, rfl⟩
      · exact (hawaits c.done).mpr ⟨c, hmem, rfl⟩
      · refine fun h => ?_
        obtain ⟨c', hc', hid⟩ :=
          (awaits_iff_of_answered (by exact hnone) (by exact hidle.alerts) _).mp h
        exact hne c' hc' hid
      · exact (congrArg Int.ofNat hfresh).symm
      · rw [hawaits, hcons]
        refine (awaits_iff_of_answered ?_ ?_ k).trans (or_iff_right hk.symm).symm
        · exact hnone
        · exact hidle.alerts
    · exact hlength.symm ▸ hs.cmds_lt c' (hsub c' hc')
    · exact hlength.symm ▸ hfiles f hf
  · have hlength : (askedHandles w).length ≠ 0 := fun h => hasked (List.length_eq_zero_iff.mp h)
    rw [if_neg (by simpa using hlength)]
    refine ⟨hs.kept.same rfl (fun k _ => ?_) (fun _ _ => rfl), .inr ⟨c.done, ?_, hne⟩,
      fun c' hc' => hs.cmds_lt c' (hsub c' hc'), hnodup.2, hfiles⟩
    · obtain ⟨h, hh⟩ := List.exists_mem_of_ne_nil _ hasked
      rw [hawaits, hcons]
      simp only [Saves.Awaits, hidle.requests, hidle.alerts, List.nil_append, List.mem_map]
      constructor
      · rintro (hk | ⟨_, ⟨_, _, rfl⟩, hk⟩ | ⟨a, ha, _⟩)
        · exact .inr hk
        · exact .inl hk
        · cases ha
      · rintro (hk | hk)
        · exact .inr (.inl ⟨_, ⟨h, hh, rfl⟩, hk⟩)
        · exact .inl hk
    · refine ⟨rfl, hs.cmds_lt c hmem, fun r hr => ?_, fun a ha => ?_, ?_, ?_, ?_⟩
      · simp only [hidle.requests, List.nil_append, List.mem_map] at hr
        obtain ⟨_, _, rfl⟩ := hr
        rfl
      · change a ∈ s.alerts at ha
        rw [hidle.alerts] at ha
        cases ha
      · simp [hidle.requests, hidle.alerts]
      · simp only
        omega
      · exact (congrArg Int.ofNat hfresh).symm

theorem SavesGood.answer {s : Saves H} (hs : SavesGood s) {i : Nat} {r : SaveRequest}
    (hr : s.requests[i]? = some r) (data : Option (H × Bytes)) :
    SavesGood { s with
      requests := s.requests.eraseIdx i
      alerts := s.alerts ++ [r.answer data] } := by
  have hi : i < s.requests.length := (List.getElem?_eq_some_iff.mp hr).1
  have hmem : r ∈ s.requests := List.mem_of_getElem? hr
  have hasker : (r.answer data).asker = r.asker := by cases data <;> rfl
  have hperm : ∀ r', r' ∈ s.requests ↔ r' = r ∨ r' ∈ s.requests.eraseIdx i := by
    intro r'
    rw [List.mem_eraseIdx_iff_getElem?, List.mem_iff_getElem?]
    constructor
    · rintro ⟨j, hj⟩
      by_cases hji : j = i
      · rw [hji, hr] at hj
        exact .inl (Option.some.inj hj).symm
      · exact .inr ⟨j, hji, hj⟩
    · rintro (rfl | ⟨j, _, hj⟩)
      · exact ⟨i, hr⟩
      · exact ⟨j, hj⟩
  have hawaits : ∀ k, Saves.Awaits { s with
      requests := s.requests.eraseIdx i
      alerts := s.alerts ++ [r.answer data] } k ↔ s.Awaits k := by
    intro k
    simp only [Saves.Awaits, List.mem_append, List.mem_singleton]
    refine or_congr_right ⟨?_, ?_⟩
    · rintro (⟨r', hr', hk⟩ | ⟨a, ha | rfl, hk⟩)
      · exact .inl ⟨r', (hperm r').mpr (.inr hr'), hk⟩
      · exact .inr ⟨a, ha, hk⟩
      · exact .inl ⟨r, hmem, hasker ▸ hk⟩
    · rintro (⟨r', hr', hk⟩ | ⟨a, ha, hk⟩)
      · rcases (hperm r').mp hr' with rfl | hr'
        · exact .inr ⟨_, .inr rfl, hasker.trans hk⟩
        · exact .inl ⟨r', hr', hk⟩
      · exact .inr ⟨a, .inl ha, hk⟩
  refine ⟨hs.kept.same rfl (fun k _ => hawaits k) (fun _ _ => rfl), ?_, hs.cmds_lt, hs.cmds_nodup,
    hs.files_lt⟩
  rcases hs.phase with hidle | ⟨id, hans, hcmds⟩
  · rw [hidle.requests] at hmem
    cases hmem
  · refine .inr ⟨id, ⟨hans.done, hans.lt, fun r' hr' => ?_, fun a ha => ?_, ?_, hans.pos,
      hans.completed⟩, hcmds⟩
    · exact hans.requests r' ((hperm r').mpr (.inr hr'))
    · rcases List.mem_append.mp ha with ha | ha
      · exact hans.alerts a ha
      · rw [List.mem_singleton.mp ha, hasker]
        exact hans.requests r hmem
    · have hlength := List.length_eraseIdx_of_lt hi
      have hpending := hans.pending
      simp only [hlength, List.length_append, List.length_singleton]
      omega

/-- An answer to the command is counted, and its file with it. -/
theorem SavesGood.count {s s' : Saves H} (hs : SavesGood s) {id : SaveId} (hans : s.Answering id)
    (hcmds : ∀ c ∈ s.cmds, c.done ≠ id) {a : SaveAlert H} {rest : List (SaveAlert H)}
    (halerts : s.alerts = a :: rest) (hsame : s'.cmds = s.cmds ∧ s'.requests = s.requests ∧
      s'.alerts = rest ∧ s'.promises = s.promises ∧ s'.resumeDataDone = s.resumeDataDone ∧
      s'.pendingResumeDataSaves = s.pendingResumeDataSaves)
    (hcompleted : s'.completedResumeDataSaves = s'.written id)
    (hfiles : ∀ f ∈ s'.files, f ∈ s.files ∨ f.asker = id)
    (hwritten : ∀ k, k ≠ id → s'.written k = s.written k) : SavesGood (countAnswer s') := by
  obtain ⟨hc, hr, ha, hp, hd, hn⟩ := hsame
  have haid : a.asker = id := hans.alerts a (halerts ▸ List.mem_cons_self)
  have hpending := hans.pending
  rw [halerts, List.length_cons] at hpending
  have hcmds_lt : ∀ c ∈ s'.cmds, c.done < s'.promises.length := by
    rw [hc, hp]
    exact hs.cmds_lt
  have hnodup : (s'.cmds.map (·.done)).Nodup := hc ▸ hs.cmds_nodup
  have hfiles_lt : ∀ f ∈ s'.files, f.asker < s'.promises.length ∧ ∀ c ∈ s'.cmds, c.done ≠ f.asker := by
    intro f hf
    rw [hc, hp]
    rcases hfiles f hf with hf | hf
    · exact hs.files_lt f hf
    · rw [hf]
      exact ⟨hans.lt, hcmds⟩
  have hcmds' : ∀ c ∈ s'.cmds, c.done ≠ id := hc ▸ hcmds
  have hrequests : ∀ r ∈ s'.requests, r.asker = id := hr ▸ hans.requests
  have hrest : ∀ b ∈ s'.alerts, b.asker = id := by
    rw [ha]
    exact fun b hb => hans.alerts b (halerts ▸ List.mem_cons_of_mem a hb)
  have hothers : ∀ k, k ≠ id → (s'.Awaits k ↔ s.Awaits k) := by
    intro k hk
    rw [awaits_iff_of_ne hrequests hrest hk, hc, awaits_iff_of_ne hans.requests hans.alerts hk]
  have hawaited : s.Awaits id := .inr (.inr ⟨a, halerts ▸ List.mem_cons_self, haid⟩)
  have hlength : s'.alerts.length = rest.length := by rw [ha]
  have hlength' : s'.requests.length = s.requests.length := by rw [hr]
  unfold countAnswer
  rw [hd, hans.done]
  simp only
  by_cases hlast : s'.pendingResumeDataSaves - 1 ≤ 0
  · -- the last answer
    rw [if_pos hlast]
    have hnil : s'.requests = [] := List.length_eq_zero_iff.mp (by omega)
    have hnil' : s'.alerts = [] := List.length_eq_zero_iff.mp (by omega)
    have hplength : (s'.promises.modify id (· ++ [s'.completedResumeDataSaves])).length =
        s'.promises.length := List.length_modify _ _ _
    refine ⟨?_, .inl ⟨rfl, hnil, hnil'⟩, fun c hc' => ?_, hnodup, fun f hf => ?_⟩
    · refine hs.kept.resolve id s'.completedResumeDataSaves ?_ hawaited ?_
        hcompleted fun k hk => ⟨hothers k hk, hwritten k hk⟩
      · show s'.promises.modify id _ = s.promises.modify id _
        rw [hp]
      · rw [awaits_iff_of_answered]
        · rintro ⟨c, hc', hid⟩
          exact hcmds' c hc' hid
        · exact hnil
        · exact hnil'
    · exact hplength.symm ▸ hcmds_lt c hc'
    · exact hplength.symm ▸ hfiles_lt f hf
  · rw [if_neg hlast]
    have hsome : s'.Awaits id := awaits_of_length_ne hrequests hrest (by omega)
    refine ⟨hs.kept.same hp (fun k _ => ?_) fun k hk => ?_, .inr ⟨id, ?_, hcmds'⟩, hcmds_lt,
      hnodup, hfiles_lt⟩
    · by_cases hk : k = id
      · rw [hk]
        exact iff_of_true hsome hawaited
      · exact hothers k hk
    · exact hwritten k fun heq => hk (heq ▸ hawaited)
    · refine ⟨rfl, hp ▸ hans.lt, hrequests, hrest, ?_, ?_, hcompleted⟩
      · show s'.pendingResumeDataSaves - 1 = s'.requests.length + s'.alerts.length
        omega
      · show 0 < s'.pendingResumeDataSaves - 1
        omega

theorem SavesGood.alert (env : WorkerEnv H) {s : Saves H} (hs : SavesGood s) {a : SaveAlert H}
    {rest : List (SaveAlert H)} (halerts : s.alerts = a :: rest) (disk : Option Nat)
    (hdisk : ∀ n ∈ disk, a.buf.length ≤ n) :
    SavesGood (handleSaveAlert env { s with alerts := rest } disk a) := by
  obtain ⟨id, hans, hcmds⟩ : ∃ id, s.Answering id ∧ ∀ c ∈ s.cmds, c.done ≠ id := by
    rcases hs.phase with hidle | h
    · rw [hidle.alerts] at halerts
      cases halerts
    · exact h
  have haid : a.asker = id := hans.alerts a (halerts ▸ List.mem_cons_self)
  have hnofile : SavesGood (countAnswer { s with alerts := rest }) :=
    hs.count hans hcmds halerts ⟨rfl, rfl, rfl, rfl, rfl, rfl⟩ hans.completed
      (fun f hf => .inl hf) fun _ _ => rfl
  cases a with
  | failed asker => exact hnofile
  | saved asker infoHashes buf =>
    obtain rfl : asker = id := haid
    unfold handleSaveAlert
    by_cases hdir : s.resumeDataDir = ""
    · simp only [hdir, if_true]
      exact hdir ▸ hnofile
    · cases disk with
      | none =>
        simp only [hdir, if_false]
        exact hnofile
      | some n =>
        simp only [hdir, if_false]
        have hwhole : buf.take n = buf := List.take_of_length_le (hdisk n rfl)
        refine hs.count hans hcmds halerts ⟨rfl, rfl, rfl, rfl, rfl, rfl⟩ ?_ (fun f hf => ?_)
          fun k hk => ?_
        · show s.completedResumeDataSaves + 1 = _
          rw [hans.completed]
          simp [Saves.written, List.countP_append, hwhole]
        · exact (List.mem_append.mp hf).imp_right fun hf => by rw [List.mem_singleton.mp hf]
        · simp [Saves.written, List.countP_append, hk.symm]

theorem savesGood_step (env : WorkerEnv H) (s : SaveSystem H) (l : SaveLabel H)
    (hs : SavesGood s.saves) (hok : SaveOk s l) : SavesGood (saveStep env s l).saves := by
  cases l with
  | worker l => exact hs
  | call resumeDir => exact hs.call resumeDir
  | handle =>
    unfold saveStep
    cases hcmds : s.saves.cmds with
    | nil => exact hs
    | cons c rest =>
      obtain ⟨hrequests, halerts⟩ := hok.resolve_left (by simp [hcmds])
      refine hs.handle ?_ s.worker hcmds
      rcases hs.phase with hidle | ⟨id, hans, _⟩
      · exact hidle
      · have hpending := hans.pending
        rw [hrequests, halerts] at hpending
        exact absurd hans.pos (by simp [hpending])
  | answer i data =>
    unfold saveStep
    cases hr : s.saves.requests[i]? with
    | none =>
      simp only [hr]
      exact hs
    | some r =>
      simp only [hr]
      exact hs.answer hr data
  | alert disk =>
    unfold saveStep
    cases halerts : s.saves.alerts with
    | nil => exact hs
    | cons a rest =>
      refine hs.alert env halerts disk fun n hn => hok n hn a ?_
      rw [halerts]
      rfl

/-- Along every run whose steps meet the condition, each promise is resolved once, when all answers to
its command have come and not before, with the number of files written for them. -/
theorem saves_kept (env : WorkerEnv H) (labels : List (SaveLabel H))
    (hok : RunOk (saveStep env) (SaveOk (H := H)) {} labels) (n : Nat) :
    SavesKept (run (saveStep env) {} (labels.take n)).saves :=
  ((hok.take n).invariant (P := fun s => SavesGood s.saves) (savesGood_step env) savesGood_empty).kept

/-- One torrent, saved twice, the second time after the answer to the first. -/
theorem saves_kept_twice :
    RunOk (saveStep oneTorrentEnv) (SaveOk (H := TaskId)) {}
        [.worker (.enqueue (.addTorrentFile oneTorrentFile "/tmp" [] none)), .worker .command,
          .worker (.session .created), .worker (.alert 0), .call "/rd", .handle, .answer 0 (some (1, [0])),
          .alert (some 1), .call "/rd", .handle, .answer 0 none, .alert none] ∧
      ∀ n, SavesKept (run (saveStep oneTorrentEnv) {} (List.take n
        [.worker (.enqueue (.addTorrentFile oneTorrentFile "/tmp" [] none)), .worker .command,
          .worker (.session .created), .worker (.alert 0), .call "/rd", .handle, .answer 0 (some (1, [0])),
          .alert (some 1), .call "/rd", .handle, .answer 0 none, .alert none])).saves := by
  have hok : RunOk (saveStep oneTorrentEnv) (SaveOk (H := TaskId)) {}
      [.worker (.enqueue (.addTorrentFile oneTorrentFile "/tmp" [] none)), .worker .command,
        .worker (.session .created), .worker (.alert 0), .call "/rd", .handle, .answer 0 (some (1, [0])),
        .alert (some 1), .call "/rd", .handle, .answer 0 none, .alert none] := by decide
  exact ⟨hok, saves_kept oneTorrentEnv _ hok⟩

/-- One torrent, saved twice, the second time before the answer to the first: the first promise is never
resolved. -/
theorem save_lost_overlap :
    ¬ ∀ (env : WorkerEnv TaskId) (labels : List (SaveLabel TaskId)) (n : Nat),
      SavesKept (run (saveStep env) {} (labels.take n)).saves := by
  intro h
  have hkept := h oneTorrentEnv
    [.worker (.enqueue (.addTorrentFile oneTorrentFile "/tmp" [] none)), .worker .command,
      .worker (.session .created), .worker (.alert 0), .call "/rd", .handle, .call "/rd", .handle,
      .answer 0 (some (1, [0])), .answer 0 (some (1, [0])), .alert (some 1), .alert (some 1)] 12
  have hvalues := (hkept 0 [] (by decide)).2 (by decide)
  cases hvalues

end TorrentLink.Lt
