import TorrentLink.Lt.WorkerFacts

/-!
# What a cancelled preparation removes

A Cancel removes whatever torrent is under its task id. A torrent is a task once a task add was answered
with it, and the session executes its calls in order. So, whatever the session answers, no Cancel ever
takes out a task exactly when none is handled while its handle is that of a torrent which a task add was
answered with, and no task add is answered with a torrent that a Cancel is about to remove
(`cancel_safe_iff`).
-/

namespace TorrentLink.Lt

open Lib Session

variable {H : Type}

/-- No task was removed by a Cancel, and no Cancel's queued removal is of a task. -/
def CancelSafe (s : Worker H) : Prop :=
  (∀ t ∈ s.session.cancelled, t.asTask = false) ∧
    ∀ h t, .remove h true ∈ s.session.ops → s.session.torrents.lookup h = some t → t.asTask = false

/-- A Cancel finds no torrent that a task add was answered with, and no task add is answered with a
torrent that a Cancel removes. -/
def CancelOk (s : Worker H) : Act H → Prop
  | .cancels k => ∀ h ∈ s.handlesByTaskId.lookup k, s.session.isValid h = true →
      ∀ e ∈ s.session.succeeded, e.2 = h → e.1.purpose.task = false
  | .gives p h => p.purpose.task = true → .remove h true ∉ s.session.ops
  | _ => True

/-! ### Tasks and their adds -/

/-- The tasks are the torrents that task adds were answered with. -/
structure Answered (s : Session H) : Prop where
  lt : ∀ e ∈ s.succeeded, e.2 < s.floor
  task : ∀ h t, s.torrents.lookup h = some t →
    (t.asTask = true ↔ ∃ e ∈ s.succeeded, e.2 = h ∧ e.1.purpose.task = true)

/-- No add is answered. -/
theorem Answered.sub {s s' : Session H} (hs : Answered s) (hsucceeded : s'.succeeded = s.succeeded)
    (hfloor : s.floor ≤ s'.floor)
    (htorrents : ∀ h t', s'.torrents.lookup h = some t' →
      ∃ t, s.torrents.lookup h = some t ∧ t.asTask = t'.asTask) : Answered s' where
  lt e he := (hs.lt e (hsucceeded ▸ he)).trans_le hfloor
  task h t' ht' := by
    obtain ⟨t, ht, htask⟩ := htorrents h t' ht'
    rw [← htask, hsucceeded]
    exact hs.task h t ht

theorem Answered.same {s s' : Session H} (hs : Answered s) (h : Same kind s s') : Answered s' := by
  refine hs.sub h.succeeded h.floor.ge fun n t' ht' => ?_
  obtain ⟨t, ht, hkind⟩ := h.lookup ht'
  exact ⟨t, ht, congrArg Kind.asTask hkind⟩

theorem Answered.removing {s : Worker H} (hs : Answered s.session) (k : TaskId) (c : Bool) :
    Answered (removeHandle s k c).session := by
  rcases removeHandle_session s k c with heq | ⟨h, _, heq⟩
  · rw [heq]
    exact hs
  · rw [heq]
    exact hs.sub rfl (floor_removeTorrent _ _ _).ge fun n t ht => ⟨t, ht, rfl⟩

theorem Answered.asyncAdd {s : Session H} (hs : Answered s) (p : AddParams H) :
    Answered (s.asyncAddTorrent p) :=
  hs.sub rfl (s.floor_asyncAdd p).ge fun _ t ht => ⟨t, ht, rfl⟩

theorem Answered.gives {s : Session H} (hs : Answered s) (hsound : s.Sound) {p : AddParams H}
    {rest : List (SessionOp H)} {h : Handle} {t : Torrent H} (hops : s.ops = .add p :: rest)
    (ht : s.torrents.lookup h = some t) : Answered (s.afterFound rest p h t) where
  lt e he := by
    refine lt_of_lt_of_le ?_ (hsound.popOp hops).2.1
    rcases List.mem_append.mp he with he | he
    · exact hs.lt e he
    · rw [List.mem_singleton.mp he]
      exact hsound.torrents_lt h t ht
  task n u hu := by
    have hmem : ∀ e, e ∈ (s.afterFound rest p h t).succeeded ↔ e ∈ s.succeeded ∨ e = (p, h) := by
      simp [afterFound]
    simp only [hmem, or_and_right, exists_or, exists_eq_left]
    rcases afterFound_lookup hu with ⟨rfl, rfl⟩ | ⟨hne, hold⟩
    · rw [← hs.task n t ht]
      simp [Torrent.give]
    · rw [hs.task n u hold]
      simp [hne.symm]

theorem Answered.creates {s : Session H} (hs : Answered s) (hsound : s.Sound) {p : AddParams H}
    {rest : List (SessionOp H)} (hops : s.ops = .add p :: rest) : Answered (s.afterAdd rest p) where
  lt e he := by
    obtain ⟨_, hle, hlt⟩ := hsound.popOp hops
    obtain ⟨heq, hlt⟩ := hlt p rfl
    rcases List.mem_append.mp he with he | he
    · exact (hs.lt e he).trans_le hle
    · rw [List.mem_singleton.mp he]
      exact heq ▸ hlt
  task n u hu := by
    have hmem : ∀ e, e ∈ (s.afterAdd rest p).succeeded ↔
        e ∈ s.succeeded ∨ e = (p, p.purpose.serial) := by simp [afterAdd]
    simp only [hmem, or_and_right, exists_or, exists_eq_left]
    rcases afterAdd_lookup hu with ⟨rfl, rfl⟩ | ⟨hne, hold⟩
    · have hnone : ¬ ∃ e ∈ s.succeeded, e.2 = p.purpose.serial ∧ e.1.purpose.task = true := by
        rintro ⟨e, he, heq, _⟩
        have hlt := hs.lt e he
        rw [heq, ((hsound.popOp hops).2.2 p rfl).1] at hlt
        exact absurd hlt (lt_irrefl _)
      simp only [hnone, newTorrent, true_and, false_or]
    · rw [hs.task n u hold]
      simp [hne.symm]

variable {env : WorkerEnv H}

theorem answered_does {s s' : Worker H} {a : Act H} (hs : Answered s.session) (hsound : Sound env s)
    (h : Does env s a s') : Answered s'.session := by
  cases h with
  | quiet h => exact hs.same h.session.forgetPaused.kindOfLimit
  | flags k paused h => exact hs.same h.keeps.session.kindOfLimit
  | adds rest p => exact hs.asyncAdd p
  | stores rest p opts => exact hs.asyncAdd p
  | files rest p entry => exact hs.asyncAdd p
  | cancels k rest => exact hs.removing k true
  | finalizes k opts rest p => exact (hs.removing k false).asyncAdd p
  | removes k rest => exact hs.removing k false
  | setsDefault limit rest => exact hs.same (same_defaultLimit { s with cmds := rest } limit).kindOfPaused
  | setsLimit k limit rest => exact hs.same (same_taskLimit env { s with cmds := rest } k limit).kindOfPaused
  | gives p rest h t hops ht => exact hs.gives hsound.session hops ht
  | creates p rest hops => exact hs.creates hsound.session hops
  | fails p rest message hops =>
    exact hs.sub rfl (hsound.session.popOp hops).2.1 fun _ t ht => ⟨t, ht, rfl⟩
  | takesOut h c rest t hops ht =>
    exact hs.sub rfl (hsound.session.popOp hops).2.1 fun _ u hu => ⟨u, (afterRemove_lookup hu).2, rfl⟩
  | gone h c rest hops ht =>
    exact hs.sub rfl (hsound.session.popOp hops).2.1 fun _ t ht => ⟨t, ht, rfl⟩
  | reveals h t info ih ht =>
    refine hs.sub rfl (le_refl _) fun n u hu => ?_
    rcases Map.lookup_insert_cases hu with ⟨rfl, rfl⟩ | ⟨_, hold⟩
    · exact ⟨t, ht, rfl⟩
    · exact ⟨u, hold, rfl⟩
  | posts h hv => exact hs.sub rfl (le_refl _) fun _ t ht => ⟨t, ht, rfl⟩
  | added i p h ha =>
    have hpop : Answered (popAlert s i).session := hs.sub rfl (le_refl _) fun _ t ht => ⟨t, ht, rfl⟩
    exact hpop.same (same_configureAdded (popAlert s i) (p.taskId env) h)
  | removed i ih h ha => exact hs.sub rfl (le_refl _) fun _ t ht => ⟨t, ht, rfl⟩
  | popped i a ha _ _ h =>
    have hpop : Answered (popAlert s i).session := hs.sub rfl (le_refl _) fun _ t ht => ⟨t, ht, rfl⟩
    exact hpop.same h.session.forgetPaused.kindOfLimit
  | polls h => exact hs.same h.keeps.session.kindOfLimit

/-! ### What Cancels remove -/

/-- The removals by Cancels are those of before, and the torrents look the same. -/
theorem CancelSafe.sub {s s' : Worker H} (hs : CancelSafe s)
    (hcancelled : s'.session.cancelled = s.session.cancelled)
    (hops : ∀ h, .remove h true ∈ s'.session.ops → .remove h true ∈ s.session.ops)
    (htorrents : ∀ h t', .remove h true ∈ s'.session.ops → s'.session.torrents.lookup h = some t' →
      ∃ t, s.session.torrents.lookup h = some t ∧ t.asTask = t'.asTask) : CancelSafe s' := by
  refine ⟨fun t ht => hs.1 t (hcancelled ▸ ht), fun h t' hmem ht' => ?_⟩
  obtain ⟨t, ht, htask⟩ := htorrents h t' hmem ht'
  rw [← htask]
  exact hs.2 h t (hops h hmem) ht

theorem CancelSafe.same {s s' : Worker H} (hs : CancelSafe s) (h : Same kind s.session s'.session) :
    CancelSafe s' := by
  refine hs.sub h.cancelled (fun n hn => h.ops ▸ hn) fun n t' _ ht' => ?_
  obtain ⟨t, ht, hkind⟩ := h.lookup ht'
  exact ⟨t, ht, congrArg Kind.asTask hkind⟩

/-- Calls are queued, none of them a Cancel's removal. -/
theorem CancelSafe.queue {s s' : Worker H} (hs : CancelSafe s) {ops : List (SessionOp H)}
    (hops : s'.session.ops = s.session.ops ++ ops) (hnone : ∀ h, .remove h true ∉ ops)
    (hcancelled : s'.session.cancelled = s.session.cancelled)
    (htorrents : s'.session.torrents = s.session.torrents) : CancelSafe s' := by
  refine hs.sub hcancelled (fun h hmem => ?_) fun h t' _ ht' => ⟨t', htorrents ▸ ht', rfl⟩
  rw [hops] at hmem
  exact (List.mem_append.mp hmem).resolve_right (hnone h)

theorem CancelSafe.asyncAdd {s s' : Worker H} (hs : CancelSafe s) (p : AddParams H)
    (hsession : s'.session = s.session.asyncAddTorrent p) : CancelSafe s' :=
  hs.queue (by rw [hsession]; rfl) (by simp) (by rw [hsession]; rfl) (by rw [hsession]; rfl)

/-- A removal is queued that no Cancel asked for. -/
theorem CancelSafe.removing {s s' : Worker H} (hs : CancelSafe s) (k : TaskId)
    (hsession : s'.session = (removeHandle s k false).session) : CancelSafe s' := by
  have hremove := removeHandle_session s k false
  rw [← hsession] at hremove
  rcases hremove with heq | ⟨h, _, heq⟩
  · exact hs.same (by rw [heq]; exact .refl _)
  · exact hs.queue (by rw [heq]; rfl) (by simp) (by rw [heq]; rfl) (by rw [heq]; rfl)

/-- The first call is taken off the queue. -/
theorem mem_ops_of_rest {s : Session H} {op : SessionOp H} {rest : List (SessionOp H)}
    (hops : s.ops = op :: rest) {x : SessionOp H} (hx : x ∈ rest) : x ∈ s.ops := by
  rw [hops]
  exact List.mem_cons_of_mem op hx

/-- A Cancel removes the torrent under its id. -/
theorem cancelSafe_cancels {s : Worker H} (hs : CancelSafe s) (hanswered : Answered s.session)
    (k : TaskId) (rest : List Cmd) :
    CancelSafe (handleCancelPreparedMagnet { s with cmds := rest } k) ↔ CancelOk s (.cancels k) := by
  unfold CancelOk
  have hremove := removeHandle_session { s with cmds := rest } k true
  change (handleCancelPreparedMagnet { s with cmds := rest } k).session = s.session ∨
    ∃ h, s.handlesByTaskId.lookup k = some h ∧
      (handleCancelPreparedMagnet { s with cmds := rest } k).session = s.session.removeTorrent h true
    at hremove
  cases hk : s.handlesByTaskId.lookup k with
  | none =>
    rw [hk] at hremove
    obtain heq | ⟨_, hnone, _⟩ := hremove
    · exact iff_of_true (hs.same (by rw [heq]; exact .refl _)) (by simp [hk])
    · cases hnone
  | some h =>
    -- the torrent under the handle is a task if a task add was answered with it
    have hnow : (handleCancelPreparedMagnet { s with cmds := rest } k).session =
        s.session.removeTorrent h true := by
      unfold handleCancelPreparedMagnet removeHandle
      simp only [hk]
    have hmem : ∀ n, .remove n true ∈ (s.session.removeTorrent h true).ops ↔
        .remove n true ∈ s.session.ops ∨ n = h := by
      simp [removeTorrent]
    constructor
    · rintro ⟨_, hqueued⟩ n hn hv e he heq
      rw [Option.mem_def, hk] at hn
      cases hn
      obtain ⟨t, ht⟩ := (s.session.isValid_iff _).mp hv
      rw [hnow] at hqueued
      have hno := hqueued _ t ((hmem _).mpr (.inr rfl)) ht
      refine Bool.eq_false_iff.mpr fun htask => ?_
      rw [(hanswered.task _ t ht).mpr ⟨e, he, heq, htask⟩] at hno
      cases hno
    · intro hok
      refine ⟨?_, fun n t hn ht => ?_⟩
      · rw [hnow]
        exact hs.1
      · rw [hnow] at hn ht
        rcases (hmem n).mp hn with hn | rfl
        · exact hs.2 n t hn ht
        · refine Bool.eq_false_iff.mpr fun htask => ?_
          obtain ⟨e, he, heq, htask⟩ := (hanswered.task n t ht).mp htask
          rw [hok n hk ((s.session.isValid_iff n).mpr ⟨t, ht⟩) e he heq] at htask
          cases htask

/-- An add is answered with a torrent that is there. -/
theorem cancelSafe_gives {s : Worker H} (hs : CancelSafe s) {p : AddParams H}
    {rest : List (SessionOp H)} {h : Handle} {t : Torrent H} (hops : s.session.ops = .add p :: rest)
    (ht : s.session.torrents.lookup h = some t) :
    CancelSafe { s with session := s.session.afterFound rest p h t } ↔ CancelOk s (.gives p h) := by
  have hgiven : (s.session.afterFound rest p h t).torrents.lookup h = some (t.give p) := by
    rw [afterFound, Map.lookup_insert, if_pos rfl]
  constructor
  · rintro ⟨_, hqueued⟩ htask hmem
    rw [hops] at hmem
    rcases List.mem_cons.mp hmem with heq | hmem
    · cases heq
    · have hno := hqueued h (t.give p) hmem hgiven
      simp [Torrent.give, htask] at hno
  · intro hok
    refine ⟨hs.1, fun n u hmem hu => ?_⟩
    have hmem' := mem_ops_of_rest hops hmem
    rcases afterFound_lookup hu with ⟨rfl, rfl⟩ | ⟨_, hold⟩
    · have hnot : p.purpose.task = false := Bool.eq_false_iff.mpr fun htask => hok htask hmem'
      simp [Torrent.give, hnot, hs.2 n t hmem' ht]
    · exact hs.2 n u hmem' hold

/-- A queued removal is executed. -/
theorem cancelSafe_takesOut {s : Worker H} (hs : CancelSafe s) {h : Handle} {c : Bool}
    {rest : List (SessionOp H)} {t : Torrent H} (hops : s.session.ops = .remove h c :: rest)
    (ht : s.session.torrents.lookup h = some t) :
    CancelSafe { s with session := s.session.afterRemove rest h c t } := by
  refine ⟨fun u hu => ?_, fun n u hmem hu => ?_⟩
  · cases c with
    | false => exact hs.1 u hu
    | true =>
      rcases List.mem_append.mp hu with hu | hu
      · exact hs.1 u hu
      · rw [List.mem_singleton.mp hu]
        exact hs.2 h t (by rw [hops]; exact List.mem_cons_self) ht
  · exact hs.2 n u (mem_ops_of_rest hops hmem) (afterRemove_lookup hu).2

/-! ### Runs -/

/-- A step keeps the tasks from the Cancels exactly when it meets the condition. -/
theorem cancelSafe_does {s s' : Worker H} {a : Act H} (hs : CancelSafe s) (hsound : Sound env s)
    (hanswered : Answered s.session) (h : Does env s a s') : CancelSafe s' ↔ CancelOk s a := by
  -- a step of the session that only takes a call off its queue
  have hrest : ∀ {op : SessionOp H} {rest : List (SessionOp H)} {ses : Session H},
      s.session.ops = op :: rest → ses.ops = rest → ses.cancelled = s.session.cancelled →
      (∀ n t', .remove n true ∈ rest → ses.torrents.lookup n = some t' →
        s.session.torrents.lookup n = some t') → CancelSafe { s with session := ses } := by
    intro op rest ses hops hops' hcancelled htorrents
    refine hs.sub hcancelled (fun n hn => mem_ops_of_rest hops (hops' ▸ hn)) fun n t' hn ht' => ?_
    exact ⟨t', htorrents n t' (hops' ▸ hn) ht', rfl⟩
  cases h with
  | quiet h => exact iff_of_true (hs.same h.session.forgetPaused.kindOfLimit) trivial
  | flags k paused h => exact iff_of_true (hs.same h.keeps.session.kindOfLimit) trivial
  | adds rest p => exact iff_of_true (hs.asyncAdd p rfl) trivial
  | stores rest p opts => exact iff_of_true (hs.asyncAdd p rfl) trivial
  | files rest p entry => exact iff_of_true (hs.asyncAdd p rfl) trivial
  | cancels k rest => exact cancelSafe_cancels hs hanswered k rest
  | finalizes k opts rest p =>
    have hdrop : CancelSafe (dropHandle s k false) := hs.removing k rfl
    exact iff_of_true (hdrop.asyncAdd p rfl) trivial
  | removes k rest => exact iff_of_true (hs.removing k rfl) trivial
  | setsDefault limit rest =>
    exact iff_of_true (hs.same (same_defaultLimit { s with cmds := rest } limit).kindOfPaused) trivial
  | setsLimit k limit rest =>
    exact iff_of_true (hs.same (same_taskLimit env { s with cmds := rest } k limit).kindOfPaused) trivial
  | gives p rest h t hops ht => exact cancelSafe_gives hs hops ht
  | creates p rest hops =>
    refine iff_of_true (hrest hops rfl rfl fun n t' hn ht' => ?_) trivial
    rcases afterAdd_lookup ht' with ⟨rfl, _⟩ | ⟨_, hold⟩
    · exact absurd (mem_ops_of_rest hops hn) ((hsound.session.fresh hops).2.2 true)
    · exact hold
  | fails p rest message hops => exact iff_of_true (hrest hops rfl rfl fun _ _ _ ht' => ht') trivial
  | takesOut h c rest t hops ht => exact iff_of_true (cancelSafe_takesOut hs hops ht) trivial
  | gone h c rest hops ht => exact iff_of_true (hrest hops rfl rfl fun _ _ _ ht' => ht') trivial
  | reveals h t info ih ht =>
    refine iff_of_true (hs.sub rfl (fun _ hn => hn) fun n u _ hu => ?_) trivial
    rcases Map.lookup_insert_cases hu with ⟨rfl, rfl⟩ | ⟨_, hold⟩
    · exact ⟨t, ht, rfl⟩
    · exact ⟨u, hold, rfl⟩
  | posts h hv => exact iff_of_true (hs.sub rfl (fun _ hn => hn) fun _ t _ ht => ⟨t, ht, rfl⟩) trivial
  | added i p h ha =>
    have hpop : CancelSafe (popAlert s i) := hs
    exact iff_of_true (hpop.same (same_configureAdded (popAlert s i) (p.taskId env) h)) trivial
  | removed i ih h ha => exact iff_of_true hs trivial
  | popped i a ha _ _ h =>
    have hpop : CancelSafe (popAlert s i) := hs
    exact iff_of_true (hpop.same h.session.forgetPaused.kindOfLimit) trivial
  | polls h => exact iff_of_true (hs.same h.keeps.session.kindOfLimit) trivial

/-- Along every run from the start, whatever the session answers, no task is ever removed by a Cancel
exactly when every step meets the condition. -/
theorem cancel_safe_iff (env : WorkerEnv H) (labels : List (Label H)) :
    (∀ n, CancelSafe (run (step env) {} (labels.take n))) ↔
      RunOk (step env) (fun s l => CancelOk s (act env s l)) {} labels := by
  have hinv : ∀ (s : Worker H) (l : Label H), Sound env s ∧ Answered s.session →
      Sound env (step env s l) ∧ Answered (step env s l).session := by
    rintro s l ⟨hsound, hanswered⟩
    exact ⟨sound_step s l hsound, answered_does hanswered hsound (step_does_outcome env s l)⟩
  refine always_iff_runOk hinv ?_ ⟨sound_empty, by simp, by simp⟩ ?_ labels
  · rintro s l ⟨hsound, hanswered⟩ hs
    exact cancelSafe_does hs hsound hanswered (step_does_outcome env s l)
  · exact ⟨by simp, by simp⟩

/-- A caller prepares a magnet that is a task and times out before its command is handled: its Cancel
removes the task. -/
theorem cancel_removes_task :
    ¬ ∀ (env : WorkerEnv InfoHash) (labels : List (Label InfoHash)),
      RunOk (step env) (Documented InfoHash.sharing) {} labels →
      ∀ n, CancelSafe (run (step env) {} (labels.take n)) := by
  intro h
  have hsafe := (h hybridEnv
    [.enqueue (.addMagnet oneMagnet "/tmp" []), .command, .session .created, .alert 0,
      .prepare oneMagnet "/tmp" [], .timeout 0, .command, .command, .session .created]
    (by decide +kernel) 9).1
  revert hsafe
  decide +kernel

end TorrentLink.Lt
