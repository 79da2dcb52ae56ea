import TorrentLink.Lib.Ledger
import TorrentLink.Lt.WorkerSteps

/-!
# Who answers a waiting `prepareMagnetMetadata`

The callers' promises, the Prepare commands in the queue and `pendingMagnetMeta` are a ledger of
promises: `step_does` says which of its moves each step of the system makes. Only two handlers can
lose a caller: Prepare, which overwrites the entry of a magnet that is being prepared, and Cancel, which
erases it. So every promise is answered at most once, and every waiting caller keeps an entry, exactly
when each step that takes an entry over finds none, or one whose caller has timed out
(`promises_kept_iff`).
-/

namespace TorrentLink.Lt

open Lib

variable {H : Type}

/-! ### The ledger -/

/-- The promise that a command brings. -/
def Cmd.done : Cmd → Option PromiseId
  | .prepareMagnetMetadata _ _ _ done => some done
  | _ => none

def Promise.cell (pr : Promise) : Cell (Option MagnetMetadata) := ⟨pr.values, pr.timedOut⟩

def Worker.ledger (s : Worker H) : Ledger TaskId (Option MagnetMetadata) where
  queued := s.cmds.filterMap Cmd.done
  entries key := (s.pendingMagnetMeta.lookup key).map (·.done)
  cells := s.promises.map Promise.cell

theorem ledger_congr {s s' : Worker H} (hc : s'.cmds = s.cmds)
    (hp : s'.pendingMagnetMeta = s.pendingMagnetMeta) (hpr : s'.promises = s.promises) :
    s'.ledger = s.ledger := by
  unfold Worker.ledger
  rw [hc, hp, hpr]

/-- A change of a promise that its cell sees as `g` changes that cell of the ledger by `g`. -/
theorem cells_modify {f : Promise → Promise}
    {g : Cell (Option MagnetMetadata) → Cell (Option MagnetMetadata)}
    (h : ∀ pr, (f pr).cell = g pr.cell) (promises : List Promise) (p : PromiseId) :
    (promises.modify p f).map Promise.cell = (promises.map Promise.cell).modify p g := by
  refine List.ext_getElem? fun i => ?_
  simp only [List.getElem?_map, List.getElem?_modify]
  cases promises[i]? with
  | none => simp
  | some pr => by_cases hi : p = i <;> simp [hi, h]

theorem ledger_setValue (s : Worker H) (p : PromiseId) (v : Option MagnetMetadata) :
    (s.setValue p v).ledger = s.ledger.setValue p v := by
  have hcells := cells_modify (f := fun pr => { pr with values := pr.values ++ [v] })
    (g := fun c => { c with values := c.values ++ [v] }) (fun _ => rfl) s.promises p
  unfold Ledger.setValue
  rw [Worker.ledger, Worker.setValue]
  simp only [hcells]
  rfl

theorem ledger_giveUp (s : Worker H) (p : PromiseId) :
    { s with promises := s.promises.modify p fun pr => { pr with timedOut := true } }.ledger =
      s.ledger.move (.giveUp p) := by
  have hcells := cells_modify (f := fun pr => { pr with timedOut := true })
    (g := fun c => { c with gaveUp := true }) (fun _ => rfl) s.promises p
  unfold Ledger.move
  rw [Worker.ledger]
  simp only [hcells]
  rfl

theorem ledger_eraseEntry (s : Worker H) (key : TaskId) :
    { s with pendingMagnetMeta := s.pendingMagnetMeta.erase key }.ledger = s.ledger.drop key := by
  have hentries : (fun k => ((s.pendingMagnetMeta.erase key).lookup k).map (·.done)) =
      Function.update (fun k => (s.pendingMagnetMeta.lookup k).map (·.done)) key none := by
    funext k
    rw [Map.lookup_erase]
    by_cases hk : k = key
    · subst hk
      simp
    · simp [hk]
  unfold Ledger.drop
  rw [Worker.ledger]
  simp only [hentries]
  rfl

theorem entries_insert (pending : Map TaskId PendingMagnetMetaEntry) (key : TaskId)
    (e : PendingMagnetMetaEntry) :
    (fun k => ((pending.insert key e).lookup k).map (·.done)) =
      Function.update (fun k => (pending.lookup k).map (·.done)) key (some e.done) := by
  funext k
  rw [Map.lookup_insert]
  by_cases hk : k = key
  · subst hk
    simp
  · simp [hk]

/-- An entry is answered and erased. -/
theorem ledger_answer {s : Worker H} {key : TaskId} {entry : PendingMagnetMetaEntry}
    (h : s.pendingMagnetMeta.lookup key = some entry) (v : Option MagnetMetadata) :
    ({ s with pendingMagnetMeta := s.pendingMagnetMeta.erase key }.setValue entry.done v).ledger =
      s.ledger.move (.answer key v) := by
  have hentry : s.ledger.entries key = some entry.done := by
    simp [Worker.ledger, h]
  rw [ledger_setValue, ledger_eraseEntry, Ledger.move_answer hentry]

variable (env : WorkerEnv H)

/-! ### The key that a step takes over -/

/-- The key whose entry the step overwrites or erases without an answer. -/
def takesOver (s : Worker H) : Label H → Option TaskId
  | .command =>
    match s.cmds with
    | .cancelPreparedMagnet taskId :: _ => some taskId
    | .prepareMagnetMetadata uri _ _ _ :: _ => acceptedPrepare env s uri
    | _ => none
  | _ => none

/-- The caller of an entry has timed out. -/
def EntryTimedOut (s : Worker H) (e : PendingMagnetMetaEntry) : Prop :=
  ∃ pr, s.promises[e.done]? = some pr ∧ pr.timedOut = true

/-- A step that takes a key over finds no entry there, or one whose caller has timed out. -/
def TakeoverOk (s : Worker H) (l : Label H) : Prop :=
  ∀ key e, takesOver env s l = some key → s.pendingMagnetMeta.lookup key = some e → EntryTimedOut s e

/-- Every promise whose command was handled has at most one value, and is set, given up by its
caller, or held by an entry. -/
def PromisesKept (s : Worker H) : Prop :=
  ∀ p pr, s.promises[p]? = some pr → (∀ cmd ∈ s.cmds, cmd.done ≠ some p) →
    pr.values.length ≤ 1 ∧
      (pr.values ≠ [] ∨ pr.timedOut = true ∨
        ∃ key e, s.pendingMagnetMeta.lookup key = some e ∧ e.done = p)

theorem ledger_cells (s : Worker H) (p : PromiseId) (c : Cell (Option MagnetMetadata)) :
    s.ledger.cells[p]? = some c ↔ ∃ pr, s.promises[p]? = some pr ∧ pr.cell = c := by
  rw [Worker.ledger, List.getElem?_map, Option.map_eq_some_iff]

theorem ledger_entries (s : Worker H) (key : TaskId) (p : PromiseId) :
    s.ledger.entries key = some p ↔ ∃ e, s.pendingMagnetMeta.lookup key = some e ∧ e.done = p := by
  rw [Worker.ledger, Option.map_eq_some_iff]

theorem mem_ledger_queued (s : Worker H) (p : PromiseId) :
    p ∈ s.ledger.queued ↔ ∃ cmd ∈ s.cmds, cmd.done = some p := List.mem_filterMap

theorem promisesKept_iff {s : Worker H} (hg : s.ledger.Good) : PromisesKept s ↔ s.ledger.Held := by
  constructor
  · intro h p c hc
    obtain ⟨pr, hpr, rfl⟩ := (ledger_cells s p c).mp hc
    by_cases hq : p ∈ s.ledger.queued
    · exact .inr (.inr (.inl hq))
    · have hhandled : ∀ cmd ∈ s.cmds, cmd.done ≠ some p :=
        fun cmd hcmd hd => hq ((mem_ledger_queued s p).mpr ⟨cmd, hcmd, hd⟩)
      obtain ⟨_, hv | ht | ⟨key, e, he, hd⟩⟩ := h p pr hpr hhandled
      · exact .inl hv
      · exact .inr (.inl ht)
      · exact .inr (.inr (.inr ⟨key, (ledger_entries s key p).mpr ⟨e, he, hd⟩⟩))
  · intro h p pr hpr hhandled
    have hc := (ledger_cells s p pr.cell).mpr ⟨pr, hpr, rfl⟩
    refine ⟨hg.once p pr.cell hc, ?_⟩
    rcases h p pr.cell hc with hv | ht | hq | ⟨key, hk⟩
    · exact .inl hv
    · exact .inr (.inl ht)
    · obtain ⟨cmd, hcmd, hd⟩ := (mem_ledger_queued s p).mp hq
      exact absurd hd (hhandled cmd hcmd)
    · obtain ⟨e, he, hd⟩ := (ledger_entries s key p).mp hk
      exact .inr (.inr ⟨key, e, he, hd⟩)

theorem takeoverOk_iff (s : Worker H) (l : Label H) :
    TakeoverOk env s l ↔ ∀ key, takesOver env s l = some key → s.ledger.Free key := by
  constructor
  · intro h key hkey p hp
    obtain ⟨e, he, rfl⟩ := (ledger_entries s key p).mp hp
    obtain ⟨pr, hpr, ht⟩ := h key e hkey he
    exact ⟨pr.cell, (ledger_cells s e.done pr.cell).mpr ⟨pr, hpr, rfl⟩, ht⟩
  · intro h key e hkey he
    obtain ⟨c, hc, ht⟩ := h key hkey e.done ((ledger_entries s key e.done).mpr ⟨e, he, rfl⟩)
    obtain ⟨pr, hpr, rfl⟩ := (ledger_cells s e.done c).mp hc
    exact ⟨pr, hpr, ht⟩

/-! ### What a step does to the ledger -/

theorem ledger_rejected {s s' : Worker H} (h : Rejected env s s') : s'.ledger = s.ledger := by
  rcases h with rfl | ⟨ih, rfl⟩ <;> rfl

theorem ledger_adds {s s' : Worker H} (h : Adds env s s') : s'.ledger = s.ledger := by
  rcases h with h | ⟨p, _, _, rfl⟩
  · exact ledger_rejected env h
  · rfl

theorem ledger_addTorrentFile (s : Worker H) (filePath savePath : String) (trackers : List String)
    (opts : Option AddTorrentOptions) :
    (handleAddTorrentFile env s filePath savePath trackers opts).ledger = s.ledger := by
  obtain ⟨hadds, hstores⟩ := handleAddTorrentFile_cases env s filePath savePath trackers opts
  cases hfile : storesFile env s filePath opts with
  | none => exact ledger_adds env (hadds hfile)
  | some k =>
    obtain ⟨p, o, _, _, _, heq⟩ := hstores k hfile
    rw [heq]
    rfl

theorem ledger_finalize (s : Worker H) (taskId : TaskId) (savePath : String)
    (trackers : List String) (opts : AddTorrentOptions) :
    (handleFinalizePreparedMagnet env s taskId savePath trackers opts).ledger = s.ledger := by
  rcases handleFinalizePreparedMagnet_cases env s taskId savePath trackers opts with
    ⟨_, h⟩ | ⟨p, ti, _, _, h⟩
  · rw [h]
  · rw [h]
    rfl

theorem ledger_cancel (s : Worker H) (taskId : TaskId) :
    (handleCancelPreparedMagnet s taskId).ledger = s.ledger.drop taskId := by
  rw [← ledger_eraseEntry]
  rfl

/-- A handled Prepare is answered at once or filed. -/
theorem prepare_does (s : Worker H) (uri tempSavePath : String) (trackers : List String)
    (done : PromiseId) {g : Ledger TaskId (Option MagnetMetadata)}
    (hg : g = { s.ledger with queued := done :: s.ledger.queued }) :
    Ledger.Does g (handlePrepareMagnetMetadata env s uri tempSavePath trackers done).ledger
      (acceptedPrepare env s uri) := by
  rcases handlePrepareMagnetMetadata_cases env s uri tempSavePath trackers done with
    ⟨s', hkey, hs', heq⟩ | ⟨p, entry, hkey, _, _, _, rfl, heq⟩
  · rw [hkey, heq]
    refine ⟨[.reply none], ?_⟩
    rw [ledger_setValue, ledger_rejected env hs', run_cons, run_nil, hg]
    rfl
  · rw [hkey, heq]
    refine .inl ⟨by rw [hg]; simp, ?_⟩
    rw [hg]
    exact congrArg (fun entries => Ledger.mk s.ledger.queued entries s.ledger.cells)
      (entries_insert s.pendingMagnetMeta _ _)

/-- Fulfilling answers the entry or does nothing. -/
theorem fulfill_does (s : Worker H) (key : TaskId) (h : Handle) :
    ∃ moves, (tryFulfillPendingMagnetMeta env s key h).ledger = run Ledger.move s.ledger moves := by
  unfold tryFulfillPendingMagnetMeta
  split
  · rename_i entry t hentry _
    by_cases hm : t.hasMetadata = true
    · rw [if_pos hm]
      cases t.info with
      | none => exact ⟨[.answer key none], ledger_answer hentry none⟩
      | some ti =>
        refine ⟨[.answer key (preparedMetadata env t.infoHashes key entry ti)], ?_⟩
        exact (ledger_congr rfl rfl rfl).trans (ledger_answer hentry _)
    · rw [if_neg hm]
      exact ⟨[], rfl⟩
  · exact ⟨[], rfl⟩

theorem pollKey_does (s : Worker H) (key : TaskId) :
    ∃ moves, (pollKey env s key).ledger = run Ledger.move s.ledger moves := by
  unfold pollKey
  split
  · exact ⟨[], rfl⟩
  · split
    · exact ⟨[], rfl⟩
    · split
      · exact fulfill_does env _ key _
      · exact ⟨[], rfl⟩

theorem poll_does (s : Worker H) :
    ∃ moves, (pollPendingMagnetMetadata env s).ledger = run Ledger.move s.ledger moves := by
  unfold pollPendingMagnetMetadata
  generalize s.pendingMagnetMeta.keys = keys
  induction keys generalizing s with
  | nil => exact ⟨[], rfl⟩
  | cons key keys ih =>
    obtain ⟨moves, hmoves⟩ := pollKey_does env s key
    obtain ⟨moves', hmoves'⟩ := ih (pollKey env s key)
    refine ⟨moves ++ moves', ?_⟩
    rw [List.foldl_cons, hmoves', hmoves, run_append]

theorem alert_does (s : Worker H) (a : Alert H) :
    ∃ moves, (handleAlert env s a).ledger = run Ledger.move s.ledger moves := by
  cases a with
  | added p h => exact ⟨[], rfl⟩
  | addFailed p message => exact ⟨[], rfl⟩
  | removed ih h => exact ⟨[], rfl⟩
  | metadataReceived h => exact fulfill_does env s _ h
  | metadataFailed h =>
    unfold handleAlert handleMetadataFailed
    simp only
    split
    · rename_i entry hentry
      exact ⟨[.answer _ none], ledger_answer hentry none⟩
    · exact ⟨[], rfl⟩

theorem quiet_does (s : Worker H) {cmd : Cmd} {rest : List Cmd} (hcmds : s.cmds = cmd :: rest)
    (hdone : cmd.done = none) {s' : Worker H} (hs' : s'.ledger = { s with cmds := rest }.ledger) :
    Ledger.Does s.ledger s'.ledger none := by
  refine ⟨[], ?_⟩
  rw [hs', run_nil, Worker.ledger, Worker.ledger, hcmds, List.filterMap_cons_none hdone]

theorem command_does (s : Worker H) (cmd : Cmd) (rest : List Cmd) (hcmds : s.cmds = cmd :: rest) :
    Ledger.Does s.ledger (handleCmd env { s with cmds := rest } cmd).ledger
      (takesOver env s .command) := by
  unfold takesOver
  rw [hcmds]
  cases cmd with
  | prepareMagnetMetadata uri tempSavePath trackers done =>
    have hqueued : s.ledger = { { s with cmds := rest }.ledger with
        queued := done :: { s with cmds := rest }.ledger.queued } := by
      rw [Worker.ledger, hcmds]
      rfl
    have hdoes := prepare_does env { s with cmds := rest } uri tempSavePath trackers done hqueued
    rw [acceptedPrepare_cmds] at hdoes
    exact hdoes
  | cancelPreparedMagnet taskId =>
    refine .inr ((ledger_cancel _ taskId).trans ?_)
    rw [Worker.ledger, Worker.ledger, hcmds]
    rfl
  | addMagnet uri savePath trackers =>
    exact quiet_does s hcmds rfl (ledger_adds env (handleAddMagnet_cases env _ uri savePath trackers))
  | finalizePreparedMagnet taskId savePath trackers opts =>
    exact quiet_does s hcmds rfl (ledger_finalize env _ taskId savePath trackers opts)
  | addTorrentFile filePath savePath trackers opts =>
    exact quiet_does s hcmds rfl (ledger_addTorrentFile env _ filePath savePath trackers opts)
  | addFromResumeData data startPaused =>
    exact quiet_does s hcmds rfl
      (ledger_adds env (handleAddFromResumeData_cases env _ data startPaused))
  | pause taskId => exact quiet_does s hcmds rfl rfl
  | resume taskId => exact quiet_does s hcmds rfl rfl
  | forceStart taskId => exact quiet_does s hcmds rfl rfl
  | remove taskId removeFiles => exact quiet_does s hcmds rfl rfl
  | setAutoManaged taskId enabled => exact quiet_does s hcmds rfl rfl
  | setDefaultPerTorrentConnectionsLimit limit => exact quiet_does s hcmds rfl rfl
  | setTaskConnectionsLimit taskId limit => exact quiet_does s hcmds rfl rfl

theorem post_does (s : Worker H) (uri tempSavePath : String) (trackers : List String) :
    ∃ moves, (prepare env s uri tempSavePath trackers).ledger = run Ledger.move s.ledger moves := by
  unfold prepare
  split
  · exact ⟨[], rfl⟩
  · refine ⟨[.post], ?_⟩
    rw [run_cons, run_nil, Ledger.move, Worker.ledger, Worker.ledger]
    simp [Cmd.done, Promise.cell]

theorem timeout_does (s : Worker H) (done : PromiseId) :
    ∃ moves, (timeout s done).ledger = run Ledger.move s.ledger moves := by
  unfold timeout
  split
  · split
    · refine ⟨[.giveUp done], ?_⟩
      rw [run_cons, run_nil, ← ledger_giveUp, Worker.ledger, Worker.ledger]
      simp [Cmd.done]
    · exact ⟨[], rfl⟩
  · exact ⟨[], rfl⟩

/-- Every step makes moves of the ledger, or files or drops under the key it takes over. -/
theorem step_does (s : Worker H) (l : Label H) :
    Ledger.Does s.ledger (step env s l).ledger (takesOver env s l) := by
  cases l with
  | enqueue cmd =>
    by_cases hcmd : cmd.isPrepare = true
    · refine ⟨[], ?_⟩
      simp only [step, hcmd, if_true, run_nil]
    · have hdone : cmd.done = none := by
        cases cmd <;> first | rfl | exact absurd rfl hcmd
      refine ⟨[], ?_⟩
      simp [step, hcmd, Worker.ledger, hdone]
  | prepare uri tempSavePath trackers => exact post_does env s uri tempSavePath trackers
  | timeout done => exact timeout_does s done
  | command =>
    cases hcmds : s.cmds with
    | nil =>
      rw [step_command_nil env hcmds]
      simp only [takesOver, hcmds]
      exact ⟨[], rfl⟩
    | cons cmd rest =>
      rw [step_command env hcmds]
      exact command_does env s cmd rest hcmds
  | session outcome => exact ⟨[], rfl⟩
  | metadata h info infoHashes => exact ⟨[], rfl⟩
  | metadataFailure h => exact ⟨[], rfl⟩
  | alert i =>
    cases ha : s.session.alerts[i]? with
    | none =>
      rw [step_alert_none env ha]
      exact ⟨[], rfl⟩
    | some a =>
      rw [step_alert env ha]
      exact alert_does env (popAlert s i) a
  | poll => exact poll_does env s

/-! ### Runs -/

/-- Along every run from the start, promises are answered at most once and no waiting caller loses its
entry, exactly when every step that takes an entry over may. -/
theorem promises_kept_iff (labels : List (Label H)) :
    (∀ n, PromisesKept (run (step env) {} (labels.take n))) ↔
      RunOk (step env) (TakeoverOk env) {} labels := by
  have hgood : ∀ (s : Worker H) l, s.ledger.Good → (step env s l).ledger.Good :=
    fun s l h => h.does (step_does env s l)
  refine always_iff_runOk hgood ?_ Ledger.good_empty ?_ labels
  · intro s l hg hkept
    rw [promisesKept_iff (hgood s l hg), takeoverOk_iff]
    exact Ledger.held_does_iff hg ((promisesKept_iff hg).mp hkept) (step_does env s l)
  · exact (promisesKept_iff Ledger.good_empty).mpr Ledger.held_empty

/-- Two callers prepare one magnet: the second command overwrites the first caller's entry. -/
theorem promises_lost_secondPrepare :
    ¬ ∀ (env : WorkerEnv TaskId) (labels : List (Label TaskId)) (n : Nat),
      PromisesKept (run (step env) {} (labels.take n)) := by
  intro h
  have hkept := h oneTorrentEnv
    [.prepare oneMagnet "/tmp" [], .prepare oneMagnet "/tmp" [], .command, .command] 4
  obtain ⟨_, hv | ht | ⟨key, e, he, hd⟩⟩ := hkept 0 { taskId := 1 } (by decide) (by decide)
  · exact hv rfl
  · cases ht
  · have hmem := AList.mem_lookup_iff.mp he
    revert hd
    exact (by decide : ∀ e ∈ (run (step oneTorrentEnv) {} [.prepare oneMagnet "/tmp" [],
      .prepare oneMagnet "/tmp" [], .command, .command]).pendingMagnetMeta.entries,
      e.2.done ≠ 0) _ hmem

end TorrentLink.Lt
