import TorrentLink.Lt.WorkerFacts

/-!
# One add at a time

An add command is rejected as a duplicate when the worker has a valid handle under its task id. The
handle comes with the alert of the earlier add, so between the command and that alert the worker does not
know of it; and a torrent with both hashes that was added under one of them is not known under the id of
both. There is at most one add for each info-hash, outstanding or with its torrent alive, and later add
commands for it are rejected, exactly when no add command comes without a handle while there is another
add or torrent with a hash of its own, and metadata reveal no hash of another (`single_add_iff`).
-/

namespace TorrentLink.Lt

open Lib Session

variable {H : Type}

/-! ### Outstanding adds -/

/-- The add that an alert answers. -/
def Alert.answers : Alert H → Option (AddParams H)
  | .added p _ => some p
  | .addFailed p _ => some p
  | _ => none

/-- The adds whose alerts have not been handled. -/
def Session.outstanding (s : Session H) : List (AddParams H) :=
  s.ops.filterMap SessionOp.params ++ s.alerts.filterMap Alert.answers

/-- An add of these info-hashes, known by its number, is outstanding, or its torrent is alive. -/
def Session.Holds (s : Session H) (ih : H) (n : Nat) : Prop :=
  (∃ p ∈ s.outstanding, p.infoHashes = ih ∧ p.purpose.serial = n) ∨
    ∃ t, s.torrents.lookup n = some t ∧ t.infoHashes = ih

variable (sharing : Sharing H)

/-- No two adds with a hash in common are outstanding or have their torrents alive. -/
def AtMostOneAdd (s : Worker H) : Prop :=
  ∀ ih n ih' n', s.session.Holds ih n → s.session.Holds ih' n' → sharing.shares ih ih' = true → n = n'

/-- The outstanding adds and the torrents with a hash in common with these have this number, if any. -/
def Session.OnlyHeldBy (s : Session H) (ih : H) (n : Option Nat) : Prop :=
  (∀ p ∈ s.outstanding, sharing.shares p.infoHashes ih = true → some p.purpose.serial = n) ∧
    ∀ e ∈ s.torrents.entries, sharing.shares e.2.infoHashes ih = true → some e.1 = n

instance (s : Session H) (ih : H) (n : Option Nat) : Decidable (s.OnlyHeldBy sharing ih n) := by
  unfold Session.OnlyHeldBy
  infer_instance

variable (env : WorkerEnv H)

/-- The info-hashes that an AddMagnet, AddTorrentFile or AddFromResumeData is to add, when it passes its
own checks. -/
def Cmd.addHashes : Cmd → Option H
  | .addMagnet uri _ _ =>
    if (validateMagnetUri (trimmed uri)).isSome then none
    else (env.parseMagnetUri (trimmed uri)).map (·.infoHashes)
  | .addTorrentFile filePath _ _ _ =>
    if (validateTorrentFilePath env.qt filePath).isSome then none
    else (env.loadTorrentFile filePath).map (·.1)
  | .addFromResumeData resumeData _ =>
    if resumeData = [] then none else (env.readResumeData resumeData).map (·.infoHashes)
  | _ => none

/-- The command that the step handles. -/
def handled (s : Worker H) : Label H → Option Cmd
  | .command => s.cmds.head?
  | _ => none

/-- The info-hashes that the command handled by the step is to add. -/
def addHandled (s : Worker H) (l : Label H) : Option H := (handled s l).bind (Cmd.addHashes env)

/-- The commands of preparations. -/
def Cmd.preparation : Cmd → Bool
  | .prepareMagnetMetadata .. => true
  | .cancelPreparedMagnet _ => true
  | .finalizePreparedMagnet .. => true
  | _ => false

/-- The step handles no command of a preparation. -/
def NoPreparation (s : Worker H) (l : Label H) : Prop := ∀ cmd ∈ handled s l, cmd.preparation = false

/-- An add command with a hash of an outstanding add or of a torrent changes nothing but that one
DuplicateRejected view is added. -/
def RejectsDuplicate (s : Worker H) (l : Label H) : Prop :=
  ∀ ih ∈ addHandled env s l, (∃ ih' n, s.session.Holds ih' n ∧ sharing.shares ih' ih = true) →
    step env s l = emitDuplicateRejected env { s with cmds := s.cmds.tail } ih

/-- When an add command is handled for whose task id the worker has no valid handle, no outstanding add
and no torrent has a hash in common with it. -/
def WindowClosed (s : Worker H) (l : Label H) : Prop :=
  ∀ ih ∈ addHandled env s l, hasActiveTaskForInfoHashes env s ih = false →
    s.session.OnlyHeldBy sharing ih none

/-- Metadata reveal no hash of an outstanding add or of another torrent. -/
def RevealsApart (s : Worker H) : Label H → Prop
  | .metadata h _ ih => s.session.isValid h = true → s.session.OnlyHeldBy sharing ih (some h)
  | _ => True

instance (s : Worker H) (l : Label H) : Decidable (WindowClosed sharing env s l) := by
  unfold WindowClosed
  infer_instance

instance (s : Worker H) : ∀ l : Label H, Decidable (RevealsApart sharing s l)
  | .metadata h _ ih =>
    inferInstanceAs (Decidable (s.session.isValid h = true → s.session.OnlyHeldBy sharing ih (some h)))
  | .enqueue _ => isTrue trivial
  | .prepare .. => isTrue trivial
  | .timeout _ => isTrue trivial
  | .command => isTrue trivial
  | .session _ => isTrue trivial
  | .metadataFailure _ => isTrue trivial
  | .alert _ => isTrue trivial
  | .poll => isTrue trivial

instance (s : Worker H) (l : Label H) : Decidable (NoPreparation s l) := by
  unfold NoPreparation
  infer_instance

variable {sharing env}

theorem onlyHeldBy_iff {s : Session H} {ih : H} {n : Option Nat} :
    s.OnlyHeldBy sharing ih n ↔
      ∀ ih' m, s.Holds ih' m → sharing.shares ih' ih = true → some m = n := by
  constructor
  · rintro ⟨hout, htorrents⟩ ih' m (⟨p, hp, rfl, rfl⟩ | ⟨t, ht, rfl⟩) hshares
    · exact hout p hp hshares
    · exact htorrents ⟨m, t⟩ (AList.mem_lookup_iff.mp ht) hshares
  · intro h
    refine ⟨fun p hp => h _ _ (.inl ⟨p, hp, rfl, rfl⟩), fun e he => h _ _ (.inr ⟨e.2, ?_, rfl⟩)⟩
    exact AList.mem_lookup_iff.mpr he

/-! ### What add commands do -/

/-- An add command that passes its checks is rejected, or adds a task. -/
theorem handleCmd_addHashes {cmd : Cmd} {ih : H} (h : cmd.addHashes env = some ih) (s : Worker H) :
    (hasActiveTaskForInfoHashes env s ih = true → handleCmd env s cmd = emitDuplicateRejected env s ih) ∧
      (hasActiveTaskForInfoHashes env s ih = false → ∃ p : AddParams H, p.infoHashes = ih ∧
        (handleCmd env s cmd).session = s.session.asyncAddTorrent p ∧
        (handleCmd env s cmd).handlesByTaskId = s.handlesByTaskId ∧
        (handleCmd env s cmd).cmds = s.cmds) := by
  cases cmd with
  | addMagnet uri savePath trackers =>
    simp only [Cmd.addHashes, Option.ite_none_left_eq_some] at h
    obtain ⟨hv, atp, hatp, rfl⟩ : _ ∧ ∃ atp, _ ∧ _ := ⟨h.1, Option.map_eq_some_iff.mp h.2⟩
    refine ⟨fun ha => ?_, fun ha => ?_⟩
    · simp [handleCmd, handleAddMagnet, hv, hatp, ha]
    · simp only [handleCmd, handleAddMagnet, hv, hatp, ha]
      exact ⟨_, by rfl, rfl, rfl, rfl⟩
  | addTorrentFile filePath savePath trackers opts =>
    simp only [Cmd.addHashes, Option.ite_none_left_eq_some] at h
    obtain ⟨hv, ⟨_, ti⟩, hload, rfl⟩ : _ ∧ ∃ file, _ ∧ _ := ⟨h.1, Option.map_eq_some_iff.mp h.2⟩
    refine ⟨fun ha => ?_, fun ha => ?_⟩
    · simp [handleCmd, handleAddTorrentFile, hv, hload, ha]
    · simp only [handleCmd, handleAddTorrentFile, hv, hload, ha]
      cases opts with
      | none => exact ⟨_, by rfl, rfl, rfl, rfl⟩
      | some opts => exact ⟨_, by rfl, rfl, rfl, rfl⟩
  | addFromResumeData resumeData startPaused =>
    simp only [Cmd.addHashes, Option.ite_none_left_eq_some] at h
    obtain ⟨hv, atp, hatp, rfl⟩ : _ ∧ ∃ atp, _ ∧ _ := ⟨h.1, Option.map_eq_some_iff.mp h.2⟩
    refine ⟨fun ha => ?_, fun ha => ?_⟩
    · simp [handleCmd, handleAddFromResumeData, hv, hatp, ha]
    · simp only [handleCmd, handleAddFromResumeData, hv, hatp, ha]
      exact ⟨_, by rfl, rfl, rfl, rfl⟩
  | _ => cases h

/-! ### What outstanding adds become -/

theorem mem_outstanding {s : Session H} {p : AddParams H} :
    p ∈ s.outstanding ↔ .add p ∈ s.ops ∨ ∃ a ∈ s.alerts, a.answers = some p := by
  unfold outstanding
  rw [List.mem_append, List.mem_filterMap, List.mem_filterMap]
  refine or_congr_left ⟨?_, fun hop => ⟨_, hop, rfl⟩⟩
  rintro ⟨op, hop, hp⟩
  cases op with
  | add q => exact Option.some.inj hp ▸ hop
  | remove h c => cases hp

/-- No add is issued: outstanding adds become torrents or are answered, and torrents go. -/
structure Issuesless (s s' : Session H) : Prop where
  holds : ∀ ih n, s'.Holds ih n → s.Holds ih n
  nextSerial : s'.nextSerial = s.nextSerial

theorem Issuesless.refl (s : Session H) : Issuesless s s := ⟨fun _ _ h => h, rfl⟩

theorem Issuesless.trans {s₁ s₂ s₃ : Session H} (h : Issuesless s₁ s₂) (h' : Issuesless s₂ s₃) :
    Issuesless s₁ s₃ :=
  ⟨fun ih n hn => h.holds ih n (h'.holds ih n hn), h'.nextSerial.trans h.nextSerial⟩

/-- No call is queued but removals, no answer comes, and torrents may go. -/
theorem Issuesless.of_sub {s s' : Session H} (hops : ∀ p, .add p ∈ s'.ops → .add p ∈ s.ops)
    (halerts : ∀ a ∈ s'.alerts, ∀ p, a.answers = some p → a ∈ s.alerts)
    (htorrents : ∀ n t', s'.torrents.lookup n = some t' →
      ∃ t, s.torrents.lookup n = some t ∧ t.infoHashes = t'.infoHashes)
    (hnext : s'.nextSerial = s.nextSerial) : Issuesless s s' := by
  refine ⟨?_, hnext⟩
  rintro ih n (⟨p, hp, hih, hn⟩ | ⟨t', ht', rfl⟩)
  · refine .inl ⟨p, ?_, hih, hn⟩
    rw [mem_outstanding] at hp ⊢
    rcases hp with hp | ⟨a, ha, hp⟩
    · exact .inl (hops p hp)
    · exact .inr ⟨a, halerts a ha p hp, hp⟩
  · exact .inr (htorrents n t' ht')

theorem Issuesless.same {s s' : Session H} (h : Same kind s s') : Issuesless s s' := by
  refine .of_sub (fun p hp => ?_) (fun a ha _ _ => ?_) (fun n t' ht' => ?_) h.nextSerial
  · rw [← h.ops]
    exact hp
  · rw [← h.alerts]
    exact ha
  · obtain ⟨t, ht, hkind⟩ := h.lookup ht'
    exact ⟨t, ht, congrArg Kind.infoHashes hkind⟩

theorem issuesless_removeHandle (s : Worker H) (k : TaskId) (c : Bool) :
    Issuesless s.session (removeHandle s k c).session := by
  rcases removeHandle_session s k c with heq | ⟨h, _, heq⟩
  · rw [heq]
    exact .refl _
  · rw [heq]
    refine .of_sub (fun p hp => ?_) (fun _ ha _ _ => ha) (fun _ t ht => ⟨t, ht, rfl⟩) rfl
    exact (List.mem_append.mp hp).resolve_right (by simp)

/-- An add that is executed is answered. -/
theorem issuesless_answers {s s' : Session H} {p : AddParams H} {rest : List (SessionOp H)} {a : Alert H}
    (hops : s.ops = .add p :: rest) (hops' : s'.ops = rest) (halerts : s'.alerts = s.alerts ++ [a])
    (ha : a.answers = some p) (hnext : s'.nextSerial = s.nextSerial)
    (htorrents : ∀ n t', s'.torrents.lookup n = some t' →
      (∃ t, s.torrents.lookup n = some t ∧ t.infoHashes = t'.infoHashes) ∨
        n = p.purpose.serial ∧ t'.infoHashes = p.infoHashes) : Issuesless s s' := by
  have hp : p ∈ s.outstanding := mem_outstanding.mpr (.inl (by rw [hops]; exact List.mem_cons_self))
  refine ⟨?_, hnext⟩
  rintro ih n (⟨q, hq, hih, hn⟩ | ⟨t', ht', rfl⟩)
  · refine .inl ⟨q, ?_, hih, hn⟩
    rw [mem_outstanding, hops', halerts] at hq
    rcases hq with hq | ⟨b, hb, hq⟩
    · exact mem_outstanding.mpr (.inl (by rw [hops]; exact List.mem_cons_of_mem _ hq))
    · rcases List.mem_append.mp hb with hb | hb
      · exact mem_outstanding.mpr (.inr ⟨b, hb, hq⟩)
      · rw [List.mem_singleton.mp hb, ha] at hq
        exact Option.some.inj hq ▸ hp
  · rcases htorrents n t' ht' with hold | ⟨rfl, heq⟩
    · exact .inr hold
    · exact .inl ⟨p, hp, heq.symm, rfl⟩

/-- The session executes a call. -/
theorem issuesless_exec (s : Session H) (outcome : AddOutcome) : Issuesless s (s.exec outcome) := by
  unfold exec
  cases hops : s.ops with
  | nil => exact .refl s
  | cons op rest =>
    have hpop : ∀ p, .add p ∈ rest → .add p ∈ s.ops := fun p hp => hops ▸ List.mem_cons_of_mem op hp
    cases op with
    | add p =>
      cases outcome with
      | found h =>
        rcases ht : s.torrents.lookup h with _ | t
        · simp only [ht]
          exact .refl s
        · simp only [ht]
          refine issuesless_answers hops rfl rfl rfl rfl fun n u hu => .inl ?_
          rcases afterFound_lookup hu with ⟨rfl, rfl⟩ | ⟨_, hold⟩
          · exact ⟨t, ht, rfl⟩
          · exact ⟨u, hold, rfl⟩
      | created =>
        refine issuesless_answers hops rfl rfl rfl rfl fun n u hu => ?_
        rcases afterAdd_lookup hu with ⟨rfl, rfl⟩ | ⟨_, hold⟩
        · exact .inr ⟨rfl, rfl⟩
        · exact .inl ⟨u, hold, rfl⟩
      | failed message =>
        exact issuesless_answers hops rfl rfl rfl rfl fun n u hu => .inl ⟨u, hu, rfl⟩
    | remove h c =>
      rcases ht : s.torrents.lookup h with _ | t
      · simp only [ht]
        exact .of_sub hpop (fun _ ha _ _ => ha) (fun _ u hu => ⟨u, hu, rfl⟩) rfl
      · simp only [ht]
        refine .of_sub hpop (fun a ha p hp => ?_) (fun n u hu => ?_) rfl
        · refine (List.mem_append.mp ha).resolve_right fun ha => ?_
          rw [List.mem_singleton.mp ha] at hp
          cases hp
        · exact ⟨u, (afterRemove_lookup hu).2, rfl⟩

/-- A command that is neither an add that passes its checks nor one of a preparation. -/
theorem issuesless_command (s : Worker H) {cmd : Cmd} (hadd : cmd.addHashes env = none)
    (hprep : cmd.preparation = false) : Issuesless s.session (handleCmd env s cmd).session := by
  have hflags : ∀ k f, Issuesless s.session (setHandleFlags s k f).session := fun k f =>
    .same (setHandleFlags_keeps s k f).session.kindOfLimit
  cases cmd with
  | addMagnet uri savePath trackers =>
    rw [handleCmd, handleAddMagnet]
    simp only [Cmd.addHashes] at hadd
    split at hadd
    · rename_i hv
      rw [if_pos hv]
      exact .refl _
    · rename_i hv
      rw [if_neg hv, Option.map_eq_none_iff.mp hadd]
      exact .refl _
  | addTorrentFile filePath savePath trackers opts =>
    rw [handleCmd, handleAddTorrentFile]
    simp only [Cmd.addHashes] at hadd
    split at hadd
    · rename_i hv
      rw [if_pos hv]
      exact .refl _
    · rename_i hv
      rw [if_neg hv, Option.map_eq_none_iff.mp hadd]
      exact .refl _
  | addFromResumeData resumeData startPaused =>
    rw [handleCmd, handleAddFromResumeData]
    simp only [Cmd.addHashes] at hadd
    split at hadd
    · rename_i hv
      rw [if_pos hv]
      exact .refl _
    · rename_i hv
      rw [if_neg hv, Option.map_eq_none_iff.mp hadd]
      exact .refl _
  | prepareMagnetMetadata uri tempSavePath trackers done => cases hprep
  | cancelPreparedMagnet k => cases hprep
  | finalizePreparedMagnet k savePath trackers opts => cases hprep
  | pause k => exact hflags k _
  | resume k => exact .same (handleResume_sets s k).keeps.session.kindOfLimit
  | forceStart k => exact hflags k _
  | remove k removeFiles => exact issuesless_removeHandle s k false
  | setAutoManaged k enabled => exact hflags k _
  | setDefaultPerTorrentConnectionsLimit limit => exact .same (same_defaultLimit s limit).kindOfPaused
  | setTaskConnectionsLimit k limit => exact .same (same_taskLimit env s k limit).kindOfPaused

/-- Handling an alert calls handles at most. -/
theorem same_handleAlert (s : Worker H) (a : Alert H) :
    Same kind s.session (handleAlert env s a).session := by
  cases a with
  | added p h => exact same_configureAdded s (p.taskId env) h
  | addFailed p message => exact .refl _
  | removed ih h => exact .refl _
  | metadataReceived h =>
    have hkeeps : Keeps kind s (handleAlert env s (.metadataReceived h)) := tryFulfill_keeps s _ h
    exact hkeeps.session
  | metadataFailed h =>
    unfold handleAlert handleMetadataFailed
    simp only
    split
    · exact .refl _
    · exact .refl _

/-- A step other than the handling of a command, or the arrival of metadata. -/
theorem issuesless_step (s : Worker H) {l : Label H} (hl : l ≠ .command)
    (hm : ∀ h info ih, l ≠ .metadata h info ih) : Issuesless s.session (step env s l).session := by
  cases l with
  | enqueue cmd =>
    obtain ⟨_, heq⟩ := step_enqueue_frame env s cmd
    rw [heq]
    exact .refl _
  | prepare uri tempSavePath trackers =>
    obtain ⟨_, _, heq⟩ := step_prepare_frame env s uri tempSavePath trackers
    rw [heq]
    exact .refl _
  | timeout done =>
    obtain ⟨_, _, heq⟩ := step_timeout_frame env s done
    rw [heq]
    exact .refl _
  | command => exact absurd rfl hl
  | session outcome => exact issuesless_exec s.session outcome
  | metadata h info ih => exact absurd rfl (hm h info ih)
  | metadataFailure h =>
    unfold step failMetadata
    simp only
    split
    · refine .of_sub (fun _ hp => hp) (fun a ha p hp => ?_) (fun _ t ht => ⟨t, ht, rfl⟩) rfl
      refine (List.mem_append.mp ha).resolve_right fun ha => ?_
      rw [List.mem_singleton.mp ha] at hp
      cases hp
    · exact .refl _
  | alert i =>
    cases ha : s.session.alerts[i]? with
    | none =>
      rw [step_alert_none env ha]
      exact .refl _
    | some a =>
      rw [step_alert env ha]
      have hpop : Issuesless s.session (popAlert s i).session :=
        .of_sub (fun _ hp => hp) (fun _ hb _ _ => mem_of_popAlert hb) (fun _ t ht => ⟨t, ht, rfl⟩) rfl
      exact hpop.trans (.same (same_handleAlert (popAlert s i) a))
  | poll => exact .same (pollKeys_polls env s.pendingMagnetMeta.keys s).keeps.session.kindOfLimit

/-- Outstanding adds and torrents have the numbers of adds that were issued. -/
def Numbers (s : Session H) : Prop := ∀ ih n, s.Holds ih n → n < s.nextSerial

theorem holds_asyncAdd (s : Session H) (p : AddParams H) (ih : H) (n : Nat) :
    (s.asyncAddTorrent p).Holds ih n ↔ s.Holds ih n ∨ p.infoHashes = ih ∧ n = s.nextSerial := by
  constructor
  · rintro (⟨q, hq, hih, hn⟩ | hh)
    · rw [mem_outstanding] at hq
      rcases hq with hq | hq
      · rcases List.mem_append.mp hq with hq | hq
        · exact .inl (.inl ⟨q, mem_outstanding.mpr (.inl hq), hih, hn⟩)
        · cases List.mem_singleton.mp hq
          exact .inr ⟨hih, hn.symm⟩
      · exact .inl (.inl ⟨q, mem_outstanding.mpr (.inr hq), hih, hn⟩)
    · exact .inl (.inr hh)
  · rintro ((⟨q, hq, hih, hn⟩ | hh) | ⟨hih, rfl⟩)
    · refine .inl ⟨q, ?_, hih, hn⟩
      rw [mem_outstanding] at hq ⊢
      exact hq.imp_left (List.mem_append_left _)
    · exact .inr hh
    · refine .inl ⟨{ p with purpose := { p.purpose with serial := s.nextSerial } }, ?_, hih, rfl⟩
      rw [mem_outstanding]
      exact .inl (List.mem_append_right _ (List.mem_singleton_self _))

/-- Metadata give the torrent its info-hashes, and leave all other adds and torrents alone. -/
structure Revealed (s s' : Session H) (h : Handle) (ih : H) : Prop where
  holds : ∀ ih' n, s'.Holds ih' n → s.Holds ih' n ∨ ih' = ih ∧ n = h
  now : s'.Holds ih h
  others : ∀ ih' n, n ≠ h → s.Holds ih' n → s'.Holds ih' n
  nextSerial : s'.nextSerial = s.nextSerial

theorem revealed_receiveMetadata {s : Session H} {h : Handle} {t : Torrent H}
    (ht : s.torrents.lookup h = some t) (info : Option TorrentInfo) (ih : H) :
    Revealed s (s.receiveMetadata h info ih) h ih := by
  have hreceived : s.receiveMetadata h info ih =
      { s with
        torrents := s.torrents.insert h (t.reveal info ih)
        alerts := s.alerts ++ [.metadataReceived h] } := by
    unfold receiveMetadata
    rw [ht]
  have hout : ∀ p, p ∈ (s.receiveMetadata h info ih).outstanding ↔ p ∈ s.outstanding := by
    intro p
    rw [mem_outstanding, mem_outstanding, hreceived]
    simp [Alert.answers]
  have hlookup : ∀ n, (s.receiveMetadata h info ih).torrents.lookup n =
      if n = h then some (t.reveal info ih) else s.torrents.lookup n := by
    intro n
    rw [hreceived, Map.lookup_insert]
  refine ⟨?_, .inr ⟨t.reveal info ih, by rw [hlookup, if_pos rfl], rfl⟩, ?_, by rw [hreceived]⟩
  · rintro ih' n (⟨p, hp, hih, hn⟩ | ⟨u, hu, rfl⟩)
    · exact .inl (.inl ⟨p, (hout p).mp hp, hih, hn⟩)
    · rw [hlookup] at hu
      by_cases hn : n = h
      · rw [if_pos hn] at hu
        cases hu
        exact .inr ⟨rfl, hn⟩
      · rw [if_neg hn] at hu
        exact .inl (.inr ⟨u, hu, rfl⟩)
  · rintro ih' n hn (⟨p, hp, hih, hserial⟩ | ⟨u, hu, rfl⟩)
    · exact .inl ⟨p, (hout p).mpr hp, hih, hserial⟩
    · exact .inr ⟨u, by rw [hlookup, if_neg hn, hu], rfl⟩

/-! ### Steps -/

/-- The outcomes of a step, as far as adds go. -/
inductive AddStep (env : WorkerEnv H) (s : Worker H) : Label H → Worker H → Prop
  | none {l : Label H} {s' : Worker H} (hadd : addHandled env s l = none)
      (hm : ∀ h info ih, l = .metadata h info ih → s.session.isValid h = false)
      (h : Issuesless s.session s'.session) : AddStep env s l s'
  | rejected (ih : H) (hadd : addHandled env s .command = some ih)
      (ha : hasActiveTaskForInfoHashes env s ih = true) :
      AddStep env s .command (emitDuplicateRejected env { s with cmds := s.cmds.tail } ih)
  | issued {s' : Worker H} (p : AddParams H) (hadd : addHandled env s .command = some p.infoHashes)
      (ha : hasActiveTaskForInfoHashes env s p.infoHashes = false)
      (h : s'.session = s.session.asyncAddTorrent p) : AddStep env s .command s'
  | revealed {s' : Worker H} (h : Handle) (info : Option TorrentInfo) (ih : H)
      (hv : s.session.isValid h = true) (hr : Revealed s.session s'.session h ih) :
      AddStep env s (.metadata h info ih) s'

theorem command_addStep {s : Worker H} (hplain : NoPreparation s (.command : Label H)) :
    AddStep env s .command (step env s .command) := by
  cases hcmds : s.cmds with
  | nil =>
    rw [step_command_nil env hcmds]
    exact .none (by rw [addHandled, handled, hcmds]; rfl) (by simp) (.refl _)
  | cons cmd rest =>
    have hhandled : handled s (.command : Label H) = some cmd := by
      rw [handled, hcmds]
      rfl
    have hadd : addHandled env s .command = cmd.addHashes env := by
      rw [addHandled, hhandled]
      rfl
    have htail : s.cmds.tail = rest := by rw [hcmds]; rfl
    rw [step_command env hcmds]
    cases hih : cmd.addHashes env with
    | none =>
      exact .none (hadd.trans hih) (by simp)
        (issuesless_command { s with cmds := rest } hih (hplain cmd hhandled))
    | some ih =>
      obtain ⟨hrejects, hadds⟩ := handleCmd_addHashes hih { s with cmds := rest }
      by_cases ha : hasActiveTaskForInfoHashes env s ih = true
      · rw [hrejects ha, ← htail]
        exact .rejected ih (hadd.trans hih) ha
      · have ha : hasActiveTaskForInfoHashes env s ih = false := Bool.eq_false_iff.mpr ha
        obtain ⟨p, rfl, hsession, _⟩ := hadds ha
        exact .issued p (hadd.trans hih) ha hsession

variable (env) in
theorem step_addStep {s : Worker H} {l : Label H} (hplain : NoPreparation s l) :
    AddStep env s l (step env s l) := by
  by_cases hl : l = .command
  · subst hl
    exact command_addStep hplain
  · have hadd : addHandled env s l = none := by
      cases l with
      | command => exact absurd rfl hl
      | _ => rfl
    by_cases hm : ∀ h info ih, l ≠ .metadata h info ih
    · exact .none hadd (fun h info ih heq => absurd heq (hm h info ih)) (issuesless_step s hl hm)
    · push Not at hm
      obtain ⟨h, info, ih, rfl⟩ := hm
      rcases ht : s.session.torrents.lookup h with _ | t
      · have hv : s.session.isValid h = false := by simp only [isValid, ht, Option.isSome_none]
        refine .none hadd (by rintro _ _ _ ⟨⟩; exact hv) ?_
        simp only [step, receiveMetadata, ht]
        exact .refl _
      · exact .revealed h info ih ((s.session.isValid_iff h).mpr ⟨t, ht⟩)
          (revealed_receiveMetadata ht info ih)

theorem numbers_addStep {s s' : Worker H} {l : Label H} (hs : Numbers s.session)
    (hsound : Sound env s) (h : AddStep env s l s') : Numbers s'.session := by
  intro ih n hn
  cases h with
  | none _ _ h =>
    rw [h.nextSerial]
    exact hs ih n (h.holds ih n hn)
  | rejected ih' _ _ => exact hs ih n hn
  | issued p _ _ h =>
    rw [h] at hn ⊢
    show n < s.session.nextSerial + 1
    rcases (holds_asyncAdd s.session p ih n).mp hn with hn | ⟨_, rfl⟩
    · exact Nat.lt_succ_of_lt (hs ih n hn)
    · exact Nat.lt_succ_self _
  | revealed h info ih₀ hv hr =>
    rw [hr.nextSerial]
    rcases hr.holds ih n hn with hn | ⟨_, rfl⟩
    · exact hs ih n hn
    · obtain ⟨t, ht⟩ := (s.session.isValid_iff _).mp hv
      exact (hsound.session.torrents_lt _ t ht).trans_le hsound.session.floor_le_nextSerial

/-- A step keeps adds single exactly when it meets the conditions. -/
theorem atMostOneAdd_addStep {s s' : Worker H} {l : Label H} (hone : AtMostOneAdd sharing s)
    (hnumbers : Numbers s.session) (h : AddStep env s l s') :
    AtMostOneAdd sharing s' ↔ WindowClosed sharing env s l ∧ RevealsApart sharing s l := by
  cases h with
  | none hadd hm h =>
    refine iff_of_true (fun ih n ih' n' hn hn' => ?_) ⟨by simp [WindowClosed, hadd], ?_⟩
    · exact hone ih n ih' n' (h.holds ih n hn) (h.holds ih' n' hn')
    · unfold RevealsApart
      split
      · rename_i h info ih
        simp [hm h info ih rfl]
      · trivial
  | rejected ih hadd ha => exact iff_of_true hone ⟨by simp [WindowClosed, hadd, ha], trivial⟩
  | issued p hadd ha h =>
    have hwindow : WindowClosed sharing env s .command ↔
        ∀ ih n, s.session.Holds ih n → sharing.shares ih p.infoHashes = true → some n = none := by
      rw [← onlyHeldBy_iff]
      simp [WindowClosed, hadd, ha]
    have hholds : ∀ ih n, s'.session.Holds ih n ↔
        s.session.Holds ih n ∨ p.infoHashes = ih ∧ n = s.session.nextSerial := by
      rw [h]
      exact holds_asyncAdd s.session p
    rw [hwindow]
    constructor
    · refine fun hone' => ⟨fun ih n hn hshares => ?_, trivial⟩
      have heq := hone' ih n p.infoHashes s.session.nextSerial ((hholds _ _).mpr (.inl hn))
        ((hholds _ _).mpr (.inr ⟨rfl, rfl⟩)) hshares
      exact absurd (hnumbers _ n hn) (heq ▸ lt_irrefl _)
    · rintro ⟨hno, _⟩ ih n ih' n' hn hn' hshares
      rcases (hholds ih n).mp hn with hn | ⟨rfl, rfl⟩
      · rcases (hholds ih' n').mp hn' with hn' | ⟨rfl, rfl⟩
        · exact hone ih n ih' n' hn hn' hshares
        · cases hno ih n hn hshares
      · rcases (hholds ih' n').mp hn' with hn' | ⟨_, rfl⟩
        · cases hno ih' n' hn' (sharing.comm ih' _ ▸ hshares)
        · rfl
  | revealed h info ih₀ hv hr =>
    have hapart : RevealsApart sharing s (.metadata h info ih₀) ↔
        ∀ ih n, s.session.Holds ih n → sharing.shares ih ih₀ = true → some n = some h := by
      rw [← onlyHeldBy_iff]
      simp [RevealsApart, hv]
    rw [hapart]
    constructor
    · intro hone'
      refine ⟨by simp [WindowClosed, addHandled, handled], fun ih n hn hshares => ?_⟩
      by_cases hnh : n = h
      · rw [hnh]
      · exact congrArg some (hone' ih n ih₀ h (hr.others ih n hnh hn) hr.now hshares)
    · rintro ⟨_, honly⟩ ih n ih' n' hn hn' hshares
      rcases hr.holds ih n hn with hn | ⟨rfl, rfl⟩
      · rcases hr.holds ih' n' hn' with hn' | ⟨rfl, rfl⟩
        · exact hone ih n ih' n' hn hn' hshares
        · exact Option.some.inj (honly ih n hn hshares)
      · rcases hr.holds ih' n' hn' with hn' | ⟨_, rfl⟩
        · exact (Option.some.inj (honly ih' n' hn' (sharing.comm ih' _ ▸ hshares))).symm
        · rfl

/-- A step rejects a duplicate as it should exactly when it meets the condition. -/
theorem rejectsDuplicate_iff {s : Worker H} {l : Label H} (hplain : NoPreparation s l) :
    RejectsDuplicate sharing env s l ↔ WindowClosed sharing env s l := by
  have hstep := step_addStep env hplain
  generalize hs' : step env s l = s' at hstep
  unfold RejectsDuplicate
  rw [hs']
  cases hstep with
  | none hadd => exact iff_of_true (by simp [hadd]) (by simp [WindowClosed, hadd])
  | rejected ih hadd ha =>
    refine iff_of_true (fun ih' hih' _ => ?_) (by simp [WindowClosed, hadd, ha])
    rw [hadd] at hih'
    cases hih'
    rfl
  | issued p hadd ha h =>
    have hne : s' ≠ emitDuplicateRejected env { s with cmds := s.cmds.tail } p.infoHashes := by
      rintro rfl
      have hops := congrArg (fun ses : Session H => ses.ops.length) h
      simp [emitDuplicateRejected, asyncAddTorrent] at hops
    have hwindow : WindowClosed sharing env s .command ↔
        ∀ ih n, s.session.Holds ih n → sharing.shares ih p.infoHashes = true → some n = none := by
      rw [← onlyHeldBy_iff]
      simp [WindowClosed, hadd, ha]
    rw [hwindow]
    constructor
    · exact fun hrejects ih n hn hshares => absurd (hrejects p.infoHashes hadd ⟨ih, n, hn, hshares⟩) hne
    · rintro hno ih hih ⟨ih', n, hn, hshares⟩
      rw [hadd] at hih
      cases hih
      cases hno ih' n hn hshares
  | revealed h info ih hv hr =>
    have hadd : addHandled env s (.metadata h info ih) = none := rfl
    exact iff_of_true (by simp [hadd]) (by simp [WindowClosed, hadd])

/-! ### Runs -/

/-- In every run without preparations, whatever the session answers, at most one add for each info-hash
is outstanding or has its torrent alive and add commands for it are rejected, exactly when every step
meets the two conditions. -/
theorem single_add_iff (sharing : Sharing H) (env : WorkerEnv H) (labels : List (Label H))
    (hplain : RunOk (step env) NoPreparation {} labels) :
    ((∀ n, AtMostOneAdd sharing (run (step env) {} (labels.take n))) ∧
        RunOk (step env) (RejectsDuplicate sharing env) {} labels) ↔
      RunOk (step env) (fun s l => WindowClosed sharing env s l ∧ RevealsApart sharing s l) {} labels := by
  let I : Worker H → Prop := fun s => Sound env s ∧ Numbers s.session
  have hI : ∀ s l, I s → NoPreparation s l → I (step env s l) := by
    rintro s l ⟨hsound, hnumbers⟩ hp
    exact ⟨sound_step s l hsound, numbers_addStep hnumbers hsound (step_addStep env hp)⟩
  have hnone : ∀ ih n, ¬ ({} : Session H).Holds ih n := by simp [Session.Holds, Session.outstanding]
  have hstart : I {} := ⟨sound_empty, fun ih n hn => absurd hn (hnone ih n)⟩
  have hone : (∀ n, AtMostOneAdd sharing (run (step env) {} (labels.take n))) ↔
      RunOk (step env) (fun s l => WindowClosed sharing env s l ∧ RevealsApart sharing s l) {} labels :=
    always_iff_runOk_of hI (fun s l hi hp hs => atMostOneAdd_addStep hs hi.2 (step_addStep env hp)) hstart
      (fun ih n _ _ hn => absurd hn (hnone ih n)) hplain
  have hrejects : RunOk (step env) (RejectsDuplicate sharing env) {} labels ↔
      RunOk (step env) (WindowClosed sharing env) {} labels :=
    RunOk.congr_kept (fun s l hi hp _ => hI s l hi hp) (fun s l _ hp => rejectsDuplicate_iff hp) hstart
      hplain
  rw [hone, hrejects]
  exact and_iff_left_of_imp fun hok => hok.imp fun _ _ h => h.1

/-- The same file twice: the second command comes when the alert of the first has been handled. -/
def fileAddedTwice : List (Label InfoHash) :=
  [.enqueue (.addTorrentFile oneTorrentFile "/tmp" [] none), .command, .session .created, .alert 0,
    .enqueue (.addTorrentFile oneTorrentFile "/tmp" [] none), .command]

theorem single_add_known :
    RunOk (step hybridEnv) (RejectsDuplicate InfoHash.sharing hybridEnv) {} fileAddedTwice :=
  ((single_add_iff InfoHash.sharing hybridEnv fileAddedTwice (by decide +kernel)).mpr
    (by decide +kernel)).2

/-- The same file twice before the session has executed the first add: both are issued. -/
theorem second_add_issued :
    ¬ ∀ (env : WorkerEnv InfoHash) (labels : List (Label InfoHash)),
      RunOk (step env) (Documented InfoHash.sharing) {} labels → RunOk (step env) NoPreparation {} labels →
        ∀ n, AtMostOneAdd InfoHash.sharing (run (step env) {} (labels.take n)) := by
  intro h
  have hone := h hybridEnv
    [.enqueue (.addTorrentFile oneTorrentFile "/tmp" [] (some {})), .command,
      .enqueue (.addTorrentFile oneTorrentFile "/tmp" [] (some { addToTopQueue := true })), .command]
    (by decide +kernel) (by decide +kernel) 4 hybridFile 0 hybridFile 1 (.inl (by decide +kernel))
    (.inl (by decide +kernel)) (by decide +kernel)
  cases hone

end TorrentLink.Lt
