import TorrentLink.Lt.StepOutcomes

/-!
# What holds of the worker's handles

The worker's handles are handles of the session that have come up, and each is kept under an id that its
torrent is known as (`Sound`). Every step of the system keeps this (`sound_step`).
-/

namespace TorrentLink.Lt

open Lib Session

variable {H : Type} (env : WorkerEnv H)

/-- Beside the session's own facts: the worker's handles have come up, and each is kept under an id of
its torrent. -/
structure Sound (s : Worker H) : Prop where
  session : s.session.Sound
  handles_lt : ∀ k h, s.handlesByTaskId.lookup k = some h → h < s.session.floor
  handle_known : ∀ k h t, s.handlesByTaskId.lookup k = some h → s.session.torrents.lookup h = some t →
    t.knownAs env k = true

variable {env}

theorem knownAs_iff {t : Torrent H} {k : TaskId} :
    t.knownAs env k = true ↔ ∃ ih ∈ t.had, env.taskIdFromInfoHashes ih = k := by
  unfold Torrent.knownAs
  simp

theorem knownAs_mono {t t' : Torrent H} {k : TaskId} (h : t.knownAs env k = true)
    (hhad : ∀ ih ∈ t.had, ih ∈ t'.had) : t'.knownAs env k = true := by
  obtain ⟨ih, hmem, hid⟩ := knownAs_iff.mp h
  exact knownAs_iff.mpr ⟨ih, hhad ih hmem, hid⟩

theorem knownAs_congr {t t' : Torrent H} (h : kind t = kind t') (k : TaskId) :
    t.knownAs env k = t'.knownAs env k := by
  unfold Torrent.knownAs
  rw [show t.had = t'.had from congrArg Kind.had h]

/-- The session posts, queues or executes, and the worker forgets handles. -/
theorem Sound.sub {s s' : Worker H} (hs : Sound env s) (hsession : s'.session.Sound)
    (hfloor : s.session.floor ≤ s'.session.floor)
    (hhandles : ∀ k h, s'.handlesByTaskId.lookup k = some h → s.handlesByTaskId.lookup k = some h)
    (htorrents : ∀ h t', s'.session.torrents.lookup h = some t' →
      (∃ t, s.session.torrents.lookup h = some t ∧ ∀ ih ∈ t.had, ih ∈ t'.had) ∨
        s.session.floor ≤ h) : Sound env s' where
  session := hsession
  handles_lt k h hk := (hs.handles_lt k h (hhandles k h hk)).trans_le hfloor
  handle_known k h t' hk ht' := by
    rcases htorrents h t' ht' with ⟨t, ht, hhad⟩ | hnew
    · exact knownAs_mono (hs.handle_known k h t (hhandles k h hk) ht) hhad
    · exact absurd (hs.handles_lt k h (hhandles k h hk)) (Nat.not_lt.mpr hnew)

/-- The same torrents. -/
theorem Sound.calls {s s' : Worker H} (hs : Sound env s) (h : Same kind s.session s'.session)
    (hhandles : ∀ k h, s'.handlesByTaskId.lookup k = some h → s.handlesByTaskId.lookup k = some h) :
    Sound env s' := by
  refine hs.sub (hs.session.congr h) h.floor.ge hhandles fun n t' ht' => .inl ?_
  obtain ⟨t, ht, hkind⟩ := h.lookup ht'
  have hhad : t.had = t'.had := congrArg Kind.had hkind
  exact ⟨t, ht, fun ih hih => by rwa [← hhad]⟩

theorem Sound.same {s s' : Worker H} (hs : Sound env s) (h : Keeps kindLimit s s') : Sound env s' := by
  refine hs.calls h.session.kindOfLimit fun k n hk => ?_
  rw [← h.handles]
  exact hk

theorem Sound.asyncAdd {s s' : Worker H} (hs : Sound env s) (p : AddParams H)
    (hsession : s'.session = s.session.asyncAddTorrent p)
    (hhandles : s'.handlesByTaskId = s.handlesByTaskId) : Sound env s' := by
  refine hs.sub ?_ ?_ (fun k h hk => hhandles ▸ hk) fun h t ht => .inl ?_
  · rw [hsession]
    exact hs.session.asyncAdd p
  · rw [hsession, floor_asyncAdd]
  · rw [hsession] at ht
    exact ⟨t, ht, fun _ hih => hih⟩

/-- A removal is queued, and handles may be forgotten. -/
theorem Sound.removing {s s' : Worker H} (hs : Sound env s) (k : TaskId) (c : Bool)
    (hsession : s'.session = (removeHandle s k c).session)
    (hhandles : ∀ k h, s'.handlesByTaskId.lookup k = some h → s.handlesByTaskId.lookup k = some h) :
    Sound env s' := by
  have hremove := removeHandle_session s k c
  rw [← hsession] at hremove
  rcases hremove with heq | ⟨h, hk, heq⟩
  · exact hs.calls (by rw [heq]; exact .refl _) hhandles
  · refine hs.sub ?_ ?_ hhandles fun n t ht => .inl ?_
    · rw [heq]
      exact hs.session.removeTorrent (hs.handles_lt k h hk) c
    · rw [heq, floor_removeTorrent]
    · rw [heq] at ht
      exact ⟨t, ht, fun _ hih => hih⟩

theorem mem_of_popAlert {s : Worker H} {i : Nat} {a : Alert H}
    (h : a ∈ (popAlert s i).session.alerts) : a ∈ s.session.alerts := List.mem_of_mem_eraseIdx h

/-- What is not the alert that is handled is still there. -/
theorem mem_popAlert {s : Worker H} {i : Nat} {a b : Alert H} (ha : s.session.alerts[i]? = some a)
    (hb : b ∈ s.session.alerts) : b = a ∨ b ∈ (popAlert s i).session.alerts := by
  by_cases hba : b = a
  · exact .inl hba
  · obtain ⟨j, hj⟩ := List.mem_iff_getElem?.mp hb
    refine .inr (List.mem_eraseIdx_iff_getElem?.mpr ⟨j, fun hji => hba ?_, hj⟩)
    rw [hji, ha] at hj
    exact (Option.some.inj hj).symm

theorem Sound.pop {s : Worker H} (hs : Sound env s) (i : Nat) : Sound env (popAlert s i) := by
  refine hs.sub ?_ (le_refl _) (fun _ _ hk => hk) fun n t ht => .inl ⟨t, ht, fun _ hih => hih⟩
  exact hs.session.sub rfl rfl (fun a ha => mem_of_popAlert ha) fun _ t ht => ⟨t, ht, rfl, rfl⟩

theorem Sound.added {s : Worker H} (hs : Sound env s) {i : Nat} {p : AddParams H} {h : Handle}
    (ha : s.session.alerts[i]? = some (.added p h)) : Sound env (handleAdded env (popAlert s i) p h) := by
  have hpop := hs.pop i
  have hsame := same_configureAdded (popAlert s i) (p.taskId env) h
  have hmem := List.mem_of_getElem? ha
  refine ⟨hpop.session.congr hsame, fun k n hk => ?_, fun k n u hk hu => ?_⟩
  · show n < (configureAdded (popAlert s i) (p.taskId env) h).floor
    rw [hsame.floor]
    rcases Map.lookup_insert_cases hk with ⟨_, rfl⟩ | ⟨_, hk⟩
    · exact hs.session.alerts_lt _ hmem _ rfl
    · exact hs.handles_lt k n hk
  · obtain ⟨t, ht, hkind⟩ := hsame.lookup hu
    rw [← knownAs_congr hkind]
    rcases Map.lookup_insert_cases hk with ⟨rfl, rfl⟩ | ⟨_, hk⟩
    · exact knownAs_iff.mpr ⟨p.infoHashes, hs.session.alert_had p _ hmem t ht, rfl⟩
    · exact hs.handle_known k n t hk ht

theorem sound_does {s s' : Worker H} {a : Act H} (hs : Sound env s) (h : Does env s a s') :
    Sound env s' := by
  -- a torrent that was there before
  have hold : ∀ {torrents : Map Handle (Torrent H)} {n : Handle} {t' : Torrent H},
      torrents.lookup n = some t' → s.session.torrents = torrents →
      (∃ t, s.session.torrents.lookup n = some t ∧ ∀ ih ∈ t.had, ih ∈ t'.had) ∨
        s.session.floor ≤ n := by
    rintro torrents n t' ht' rfl
    exact .inl ⟨t', ht', fun _ hih => hih⟩
  cases h with
  | quiet h => exact hs.same h.forgetPaused
  | flags k paused h => exact hs.same h.keeps
  | adds rest p => exact hs.asyncAdd p rfl rfl
  | stores rest p opts => exact hs.asyncAdd p rfl rfl
  | files rest p entry => exact hs.asyncAdd p rfl rfl
  | cancels k rest => exact hs.removing k true rfl fun _ _ hk => (Map.lookup_erase_some hk).2
  | finalizes k opts rest p =>
    have hdrop : Sound env (dropHandle s k false) :=
      hs.removing k false rfl fun _ _ hk => (Map.lookup_erase_some hk).2
    exact hdrop.asyncAdd p rfl rfl
  | removes k rest => exact hs.removing k false rfl fun _ _ hk => hk
  | setsDefault limit rest =>
    exact hs.calls (same_defaultLimit { s with cmds := rest } limit).kindOfPaused fun _ _ hk => hk
  | setsLimit k limit rest =>
    exact hs.calls (same_taskLimit env { s with cmds := rest } k limit).kindOfPaused fun _ _ hk => hk
  | gives p rest h t hops ht =>
    refine hs.sub (hs.session.found hops ht) (hs.session.popOp hops).2.1 (fun _ _ hk => hk)
      fun n u hu => ?_
    rcases afterFound_lookup hu with ⟨rfl, rfl⟩ | ⟨_, hu⟩
    · exact .inl ⟨t, ht, fun _ hih => List.mem_append_left _ hih⟩
    · exact hold hu rfl
  | creates p rest hops =>
    refine hs.sub (hs.session.created hops) (hs.session.popOp hops).2.1 (fun _ _ hk => hk)
      fun n u hu => ?_
    rcases afterAdd_lookup hu with ⟨rfl, rfl⟩ | ⟨_, hu⟩
    · exact .inr ((hs.session.popOp hops).2.2 p rfl).1.le
    · exact hold hu rfl
  | fails p rest message hops =>
    exact hs.sub (hs.session.failed hops message) (hs.session.popOp hops).2.1 (fun _ _ hk => hk)
      fun n u hu => hold hu rfl
  | takesOut h c rest t hops ht =>
    exact hs.sub (hs.session.removed hops ht) (hs.session.popOp hops).2.1 (fun _ _ hk => hk)
      fun n u hu => hold (afterRemove_lookup hu).2 rfl
  | gone h c rest hops ht =>
    exact hs.sub (hs.session.popOp hops).1 (hs.session.popOp hops).2.1 (fun _ _ hk => hk)
      fun n u hu => hold hu rfl
  | reveals h t info ih ht =>
    refine hs.sub (hs.session.revealed ht info ih) (le_refl _) (fun _ _ hk => hk) fun n u hu => ?_
    rcases Map.lookup_insert_cases hu with ⟨rfl, rfl⟩ | ⟨_, hu⟩
    · exact .inl ⟨t, ht, fun _ hih => List.mem_append_left _ hih⟩
    · exact hold hu rfl
  | posts h hv =>
    obtain ⟨t, ht⟩ := (s.session.isValid_iff h).mp hv
    refine hs.sub (hs.session.post _ ?_ (by simp)) (le_refl _) (fun _ _ hk => hk) fun n u hu => hold hu rfl
    rintro n ⟨⟩
    exact hs.session.torrents_lt _ t ht
  | added i p h ha => exact hs.added ha
  | removed i ih h ha =>
    exact (hs.pop i).calls (.refl _) fun _ _ hk => (Map.lookup_erase_some hk).2
  | popped i a ha _ _ h => exact (hs.pop i).same h.forgetPaused
  | polls h => exact hs.same h.keeps

theorem sound_step (s : Worker H) (l : Label H) (hs : Sound env s) : Sound env (step env s l) :=
  sound_does hs (step_does_outcome _ s l)

/-- The start: no torrent, nothing queued. -/
theorem sound_empty : Sound env ({} : Worker H) where
  session :=
    { sorted := by simp [Session.serials]
      torrents_lt := by simp
      adds_lt := by simp
      alerts_lt := by simp
      removes_lt := by simp
      alert_had := by simp }
  handles_lt := by simp
  handle_known := by simp

end TorrentLink.Lt
