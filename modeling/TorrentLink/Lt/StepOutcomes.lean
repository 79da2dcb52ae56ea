import TorrentLink.Lt.SessionFacts
import TorrentLink.Lt.WorkerActs

/-!
# The outcomes of a step

`Does` says once what a step of each kind can do. Most plain steps keep all that the invariants speak of
(`Keeps`): they touch promises, views and places in the queue. The others issue an add, drop a handle,
ask for a removal, set flags or a limit, execute a queued call, post an alert about metadata, or handle
the alert of an add or of a removal. Every invariant of the worker is proved by cases on `Does` and never
unfolds a handler.
-/

namespace TorrentLink.Lt

open Lib Session

variable {H : Type}

/-- The maps of handles, limits and options stay, and of the torrents what `view` shows. -/
structure Keeps {β : Type} (view : Torrent H → β) (s s' : Worker H) : Prop where
  handles : s'.handlesByTaskId = s.handlesByTaskId
  limits : s'.perTaskConnectionsLimit = s.perTaskConnectionsLimit
  defaultLimit : s'.defaultPerTorrentConnectionsLimit = s.defaultPerTorrentConnectionsLimit
  limitsSet : s'.limitsSet = s.limitsSet
  opts : s'.pendingAddOpts = s.pendingAddOpts
  session : Same view s.session s'.session

variable {env : WorkerEnv H} {β : Type} {view : Torrent H → β}

theorem Keeps.refl (s : Worker H) : Keeps view s s := ⟨rfl, rfl, rfl, rfl, rfl, .refl _⟩

theorem Keeps.forgetPaused {s s' : Worker H} (h : Keeps kindLimitPaused s s') : Keeps kindLimit s s' :=
  ⟨h.handles, h.limits, h.defaultLimit, h.limitsSet, h.opts, h.session.forgetPaused⟩

theorem Keeps.trans {s₁ s₂ s₃ : Worker H} (h : Keeps view s₁ s₂) (h' : Keeps view s₂ s₃) :
    Keeps view s₁ s₃ where
  handles := h'.handles.trans h.handles
  limits := h'.limits.trans h.limits
  defaultLimit := h'.defaultLimit.trans h.defaultLimit
  limitsSet := h'.limitsSet.trans h.limitsSet
  opts := h'.opts.trans h.opts
  session := h.session.trans h'.session

/-- A call on handles. -/
theorem keeps_session (s : Worker H) {ses : Session H} (h : Same view s.session ses) :
    Keeps view s { s with session := ses } := ⟨rfl, rfl, rfl, rfl, rfl, h⟩

/-! ### Fulfilling and polling -/

/-- What fulfilling an entry does: other keys' entries, handles and the session stay. -/
structure Fulfills (s s' : Worker H) (key : TaskId) : Prop where
  others : ∀ k, k ≠ key → (k ∈ s'.pendingMagnetMeta ↔ k ∈ s.pendingMagnetMeta)
  pending : key ∈ s'.pendingMagnetMeta → key ∈ s.pendingMagnetMeta
  intents : s'.intents = s.intents
  session : s'.session = s.session

theorem mem_erase_iff {k key : TaskId} (m : Map TaskId PendingMagnetMetaEntry) :
    k ∈ m.erase key ↔ k ≠ key ∧ k ∈ m := AList.mem_erase

theorem fulfills_refl (s : Worker H) (key : TaskId) : Fulfills s s key :=
  ⟨fun _ _ => Iff.rfl, fun h => h, rfl, rfl⟩

theorem fulfills_erase {s s' : Worker H} {key : TaskId}
    (hp : s'.pendingMagnetMeta = s.pendingMagnetMeta.erase key) (hi : s'.intents = s.intents)
    (hs : s'.session = s.session) : Fulfills s s' key := by
  refine ⟨fun k hk => ?_, fun hk => ?_, hi, hs⟩
  · rw [hp, mem_erase_iff]
    exact and_iff_right hk
  · rw [hp, mem_erase_iff] at hk
    exact hk.2

variable (env) in
theorem tryFulfill_fulfills (s : Worker H) (key : TaskId) (h : Handle) :
    Fulfills s (tryFulfillPendingMagnetMeta env s key h) key := by
  unfold tryFulfillPendingMagnetMeta
  split
  · split
    · split
      · exact fulfills_erase rfl rfl rfl
      · exact fulfills_erase rfl rfl rfl
    · exact fulfills_refl s key
  · exact fulfills_refl s key

theorem tryFulfill_keeps (s : Worker H) (key : TaskId) (h : Handle) :
    Keeps view s (tryFulfillPendingMagnetMeta env s key h) := by
  unfold tryFulfillPendingMagnetMeta
  split
  · split
    · split
      · exact ⟨rfl, rfl, rfl, rfl, rfl, .refl _⟩
      · exact ⟨rfl, rfl, rfl, rfl, rfl, .refl _⟩
    · exact .refl s
  · exact .refl s

/-- A poll finds the torrent: it is under the handle of a key that is being prepared. -/
def Polled (s : Worker H) (keys : List TaskId) (h : Handle) : Prop :=
  ∃ key ∈ keys, key ∈ s.pendingMagnetMeta ∧ s.handlesByTaskId.lookup key = some h

/-- What polling these keys does: the torrents that it finds are resumed. -/
structure Polls (s s' : Worker H) (keys : List TaskId) : Prop where
  keeps : Keeps kindLimit s s'
  intents : s'.intents = s.intents
  resumed : ∀ h t, s'.session.torrents.lookup h = some t → Polled s keys h → t.flags.paused = false
  others : ∀ h, ¬ Polled s keys h → (s'.session.torrents.lookup h).map kindLimitPaused =
    (s.session.torrents.lookup h).map kindLimitPaused

theorem same_configureFetch (s : Session H) (h : Handle) :
    Same kindLimit s (configureHandleForMagnetMetadataFetch s h) := same_setFlags s h _

variable (env) in
theorem pollKey_polls (s : Worker H) (key : TaskId) :
    Polls s (pollKey env s key) [key] ∧
      (∀ k, k ≠ key → (k ∈ (pollKey env s key).pendingMagnetMeta ↔ k ∈ s.pendingMagnetMeta)) ∧
      (key ∈ (pollKey env s key).pendingMagnetMeta → key ∈ s.pendingMagnetMeta) := by
  have hnothing (hn : ∀ h, s.session.isValid h = true → ¬ Polled s [key] h) :
      Polls s s [key] := by
    refine ⟨.refl s, rfl, fun h t ht hp => ?_, fun _ _ => rfl⟩
    refine absurd hp (hn h ?_)
    unfold isValid
    rw [ht]
    rfl
  have hstay : (∀ k, k ≠ key → (k ∈ s.pendingMagnetMeta ↔ k ∈ s.pendingMagnetMeta)) ∧
      (key ∈ s.pendingMagnetMeta → key ∈ s.pendingMagnetMeta) := ⟨fun _ _ => Iff.rfl, fun h => h⟩
  unfold pollKey
  by_cases hkey : key ∉ s.pendingMagnetMeta
  · rw [if_pos hkey]
    refine ⟨hnothing fun h _ => ?_, hstay⟩
    rintro ⟨k, hk, hpending, _⟩
    rw [List.mem_singleton.mp hk] at hpending
    exact hkey hpending
  · rw [if_neg hkey]
    cases hh : s.handlesByTaskId.lookup key with
    | none =>
      refine ⟨hnothing fun h _ => ?_, hstay⟩
      rintro ⟨k, hk, _, hlookup⟩
      rw [List.mem_singleton.mp hk, hh] at hlookup
      cases hlookup
    | some h =>
      simp only
      by_cases hv : s.session.isValid h = true
      · rw [if_pos hv]
        let s₁ : Worker H := { s with session := configureHandleForMagnetMetadataFetch s.session h }
        have hsame : Same kindLimit s.session s₁.session := same_configureFetch s.session h
        have hful := tryFulfill_fulfills env s₁ key h
        have hkeeps : Keeps kindLimit s₁ (tryFulfillPendingMagnetMeta env s₁ key h) :=
          tryFulfill_keeps s₁ key h
        have hpolled : ∀ h', Polled s [key] h' ↔ h' = h := by
          intro h'
          constructor
          · rintro ⟨k, hk, _, hlookup⟩
            rw [List.mem_singleton.mp hk, hh] at hlookup
            exact (Option.some.inj hlookup).symm
          · rintro rfl
            exact ⟨key, List.mem_singleton_self key, not_not.mp hkey, hh⟩
        refine ⟨⟨(keeps_session s hsame).trans hkeeps, hful.intents, ?_, ?_⟩, hful.others, hful.pending⟩
        · intro h' t ht hp
          rw [hful.session] at ht
          change (s.session.modify h _).torrents.lookup h' = some t at ht
          rw [lookup_modify, if_pos ((hpolled h').mp hp)] at ht
          obtain ⟨t₀, _, rfl⟩ := Option.map_eq_some_iff.mp ht
          rfl
        · intro h' hp
          rw [hful.session]
          change ((s.session.modify h _).torrents.lookup h').map kindLimitPaused = _
          rw [lookup_modify, if_neg fun heq => hp ((hpolled h').mpr heq)]
      · rw [if_neg hv]
        refine ⟨hnothing fun h' hv' => ?_, hstay⟩
        rintro ⟨k, hk, _, hlookup⟩
        rw [List.mem_singleton.mp hk, hh] at hlookup
        rw [Option.some.inj hlookup] at hv
        exact hv hv'

variable (env) in
theorem pollKeys_polls (keys : List TaskId) (s : Worker H) :
    Polls s (keys.foldl (pollKey env) s) keys := by
  induction keys generalizing s with
  | nil =>
    refine ⟨.refl s, rfl, fun h t _ hp => ?_, fun _ _ => rfl⟩
    obtain ⟨k, hk, _⟩ := hp
    cases hk
  | cons key keys ih =>
    obtain ⟨hfirst, hothers, hkey⟩ := pollKey_polls env s key
    have hrest := ih (pollKey env s key)
    have hback : ∀ h, Polled (pollKey env s key) keys h → Polled s (key :: keys) h := by
      rintro h ⟨k, hk, hpending, hlookup⟩
      rw [hfirst.keeps.handles] at hlookup
      refine ⟨k, List.mem_cons_of_mem key hk, ?_, hlookup⟩
      by_cases hkk : k = key
      · rw [hkk] at hpending ⊢
        exact hkey hpending
      · exact (hothers k hkk).mp hpending
    have hone : ∀ h, Polled s [key] h → Polled s (key :: keys) h := by
      rintro h ⟨k, hk, hp⟩
      rw [List.mem_singleton.mp hk] at hp
      exact ⟨key, List.mem_cons_self, hp⟩
    rw [List.foldl_cons]
    refine ⟨hfirst.keeps.trans hrest.keeps, hrest.intents.trans hfirst.intents, ?_, ?_⟩
    · rintro h t ht ⟨k, hk, hpending, hlookup⟩
      by_cases hlater : Polled (pollKey env s key) keys h
      · exact hrest.resumed h t ht hlater
      · obtain ⟨t₁, ht₁, hview⟩ := Option.map_eq_some_iff.mp
          ((hrest.others h hlater).symm.trans (congrArg (Option.map kindLimitPaused) ht))
        have hp : Polled s [key] h := by
          by_cases hkk : k = key
          · exact ⟨key, List.mem_singleton_self key, hkk ▸ hpending, hkk ▸ hlookup⟩
          · refine absurd ⟨k, (List.mem_cons.mp hk).resolve_left hkk, (hothers k hkk).mpr hpending, ?_⟩
              hlater
            rw [hfirst.keeps.handles]
            exact hlookup
        have hpaused := congrArg (fun x => x.2.2) hview
        exact hpaused.symm.trans (hfirst.resumed h t₁ ht₁ hp)
    · intro h hp
      rw [hrest.others h fun hlater => hp (hback h hlater)]
      exact hfirst.others h fun hnow => hp (hone h hnow)

/-- A removal is queued if there is a handle. -/
theorem removeHandle_session (s : Worker H) (k : TaskId) (c : Bool) :
    (removeHandle s k c).session = s.session ∨ ∃ h, s.handlesByTaskId.lookup k = some h ∧
      (removeHandle s k c).session = s.session.removeTorrent h c := by
  unfold removeHandle
  cases s.handlesByTaskId.lookup k with
  | none => exact .inl rfl
  | some h => exact .inr ⟨h, rfl, rfl⟩

/-! ### Flags -/

theorem setHandleFlags_keeps (s : Worker H) (k : TaskId) (f : TorrentFlags → TorrentFlags) :
    Keeps kindLimit s (setHandleFlags s k f) := by
  unfold setHandleFlags
  cases s.handlesByTaskId.lookup k with
  | none => exact .refl s
  | some h => exact keeps_session s (same_setFlags s.session h f)

/-- The torrent under the handle is paused or resumed, and no other. -/
theorem setHandleFlags_paused (s : Worker H) (k : TaskId) (f : TorrentFlags → TorrentFlags)
    (paused : Bool) (hf : ∀ fl, (f fl).paused = paused) (h : Handle) :
    ((setHandleFlags s k f).session.torrents.lookup h).map (·.flags.paused) =
      (s.session.torrents.lookup h).map fun t =>
        if s.handlesByTaskId.lookup k = some h then paused else t.flags.paused := by
  unfold setHandleFlags
  cases hk : s.handlesByTaskId.lookup k with
  | none => simp
  | some h' =>
    show ((s.session.setFlags h' f).torrents.lookup h).map _ = _
    unfold setFlags
    rw [lookup_modify]
    by_cases hh : h = h'
    · subst hh
      rw [if_pos rfl, Option.map_map]
      simp [Function.comp_def, hf]
    · have hne : some h' ≠ some h := fun heq => hh (Option.some.inj heq).symm
      simp [hh, hne]

theorem rejected_quiet {s s' : Worker H} (h : Rejected env s s') :
    Keeps kindLimitPaused s s' ∧ s'.intents = s.intents := by
  rcases h with rfl | ⟨ih, rfl⟩
  · exact ⟨.refl s', rfl⟩
  · exact ⟨⟨rfl, rfl, rfl, rfl, rfl, .refl _⟩, rfl⟩

theorem same_defaultLimit (s : Worker H) (limit : Int) :
    Same kindPaused s.session (handleSetDefaultPerTorrentConnectionsLimit s limit).session := by
  unfold handleSetDefaultPerTorrentConnectionsLimit
  generalize s.handlesByTaskId.entries = entries
  show Same kindPaused s.session (entries.foldl _ s.session)
  generalize s.session = ses
  induction entries generalizing ses with
  | nil => exact .refl ses
  | cons e entries ih => exact (same_setMaxConnections ses e.2 _).trans (ih _)

variable (env) in
theorem same_taskLimit (s : Worker H) (k : TaskId) (limit : Int) :
    Same kindPaused s.session (handleSetTaskConnectionsLimit env s k limit).session := by
  unfold handleSetTaskConnectionsLimit
  cases s.handlesByTaskId.lookup k with
  | none => exact .refl _
  | some h => exact same_setMaxConnections s.session h _

/-- A resume moves the torrent to the top of its queue, after its flags. -/
theorem same_resumeTop (s : Worker H) (k : TaskId) :
    Same view
      (setHandleFlags s k fun f => { f with autoManaged := true, paused := false }).session
      (handleResume s k).session := by
  unfold handleResume
  dsimp only
  cases s.handlesByTaskId.lookup k with
  | none => exact .refl _
  | some h => exact same_queuePositionTop _ h

/-- A command pauses or resumes the torrent under the handle of an id, and says what is wanted for it. -/
structure SetsPaused (k : TaskId) (paused : Bool) (s s' : Worker H) : Prop where
  keeps : Keeps kindLimit s s'
  intents : s'.intents = ⟨.task k, paused⟩ :: s.intents
  flags : ∀ h, (s'.session.torrents.lookup h).map (·.flags.paused) =
    (s.session.torrents.lookup h).map fun t =>
      if s.handlesByTaskId.lookup k = some h then paused else t.flags.paused

theorem handlePause_sets (s : Worker H) (k : TaskId) : SetsPaused k true s (handlePause s k) where
  keeps := ⟨rfl, rfl, rfl, rfl, rfl, (setHandleFlags_keeps s k _).session⟩
  intents := rfl
  flags := setHandleFlags_paused s k (fun f => { f with autoManaged := false, paused := true }) true
    fun _ => rfl

theorem handleForceStart_sets (s : Worker H) (k : TaskId) :
    SetsPaused k false s (handleForceStart s k) where
  keeps := ⟨rfl, rfl, rfl, rfl, rfl, (setHandleFlags_keeps s k _).session⟩
  intents := rfl
  flags := setHandleFlags_paused s k (fun f => { f with autoManaged := false, paused := false }) false
    fun _ => rfl

theorem handleResume_sets (s : Worker H) (k : TaskId) :
    SetsPaused k false s (handleResume s k) := by
  have hkeeps := setHandleFlags_keeps s k fun f => { f with autoManaged := true, paused := false }
  have hpaused := setHandleFlags_paused s k
    (fun f => { f with autoManaged := true, paused := false }) false fun _ => rfl
  refine ⟨⟨rfl, rfl, rfl, rfl, rfl, hkeeps.session.trans (same_resumeTop s k)⟩, rfl, fun h => ?_⟩
  rw [← hpaused h]
  exact (same_resumeTop s k).torrents h

/-- The calls on an added torrent's handle: its flags are set, its place in the queue is taken, and its
own limit or the default is set. -/
theorem configureAdded_calls (s : Worker H) (key : TaskId) (h : Handle) :
    ∃ (f : TorrentFlags → TorrentFlags) (ses : Session H), (∀ fl, (f fl).paused = false) ∧
      (∀ {β : Type} (view : Torrent H → β), Same view (s.session.setFlags h f) ses) ∧
      (∀ l, s.perTaskConnectionsLimit.lookup key = some l →
        configureAdded s key h = ses.setMaxConnections h l.limit) ∧
      (s.perTaskConnectionsLimit.lookup key = none →
        configureAdded s key h =
          if 0 < s.defaultPerTorrentConnectionsLimit then
            ses.setMaxConnections h s.defaultPerTorrentConnectionsLimit
          else ses) := by
  unfold configureAdded
  extract_lets ses₁ ses₂
  have hflags : ∃ f : TorrentFlags → TorrentFlags, (∀ fl, (f fl).paused = false) ∧
      ses₁ = s.session.setFlags h f := by
    unfold ses₁
    split
    · exact ⟨_, fun _ => rfl, rfl⟩
    · exact ⟨_, fun _ => rfl, rfl⟩
  obtain ⟨f, hf, hses₁⟩ := hflags
  refine ⟨f, ses₂, hf, fun view => ?_, fun l hl => ?_, fun hnone => ?_⟩
  · rw [← hses₁]
    unfold ses₂
    split
    · split
      · exact same_queuePositionTop ses₁ h
      · exact .refl ses₁
    · exact .refl ses₁
  · simp only [hl]
  · simp only [hnone]

theorem same_configureAdded (s : Worker H) (key : TaskId) (h : Handle) :
    Same kind s.session (configureAdded s key h) := by
  obtain ⟨f, ses, _, hplace, hown, hdefault⟩ := configureAdded_calls s key h
  refine ((same_setFlags s.session h f).kindOfLimit.trans (hplace kind)).trans ?_
  cases hl : s.perTaskConnectionsLimit.lookup key with
  | some l =>
    rw [hown l hl]
    exact (same_setMaxConnections ses h l.limit).kindOfPaused
  | none =>
    rw [hdefault hl]
    split
    · exact (same_setMaxConnections ses h _).kindOfPaused
    · exact .refl ses

/-! ### All outcomes -/

/-- The outcomes of a step. -/
inductive Does (env : WorkerEnv H) (s : Worker H) : Act H → Worker H → Prop
  | quiet {s' : Worker H} (h : Keeps kindLimitPaused s s') (hi : s'.intents = s.intents) :
      Does env s .plain s'
  | flags {s' : Worker H} (k : TaskId) (paused : Bool) (h : SetsPaused k paused s s') :
      Does env s (.flags k paused) s'
  | adds (rest : List Cmd) (p : AddParams H) (h : AddsTask env s p)
      (hopts : p.purpose.storesOpts = false) : Does env s .plain (addTask { s with cmds := rest } p)
  | stores (rest : List Cmd) (p : AddParams H) (opts : AddTorrentOptions) (h : AddsTask env s p)
      (hopts : p.purpose.storesOpts = true) :
      Does env s (.stores (p.taskId env))
        (addTask (storeOpts { s with cmds := rest } (p.taskId env) opts) p)
  | files (rest : List Cmd) (p : AddParams H) (entry : PendingMagnetMetaEntry)
      (hactive : hasActiveTaskForInfoHashes env s p.infoHashes = false)
      (hp : p.purpose = { task := false }) :
      Does env s .plain (fileEntry env { s with cmds := rest } p entry)
  | cancels (k : TaskId) (rest : List Cmd) :
      Does env s (.cancels k) (handleCancelPreparedMagnet { s with cmds := rest } k)
  | finalizes (k : TaskId) (opts : AddTorrentOptions) (rest : List Cmd) (p : AddParams H)
      (hp : p.purpose = { task := true, startPaused := !opts.startTorrent, storesOpts := true }) :
      Does env s (.finalizes k p.infoHashes) (addTask (storeOpts
        { dropHandle { s with cmds := rest } k false with
          preparedTorrentInfo := s.preparedTorrentInfo.erase k } k opts) p)
  | removes (k : TaskId) (rest : List Cmd) :
      Does env s .plain (removeHandle { s with cmds := rest } k false)
  | setsDefault (limit : Int) (rest : List Cmd) :
      Does env s (.setsDefault limit)
        (handleSetDefaultPerTorrentConnectionsLimit { s with cmds := rest } limit)
  | setsLimit (k : TaskId) (limit : Int) (rest : List Cmd) :
      Does env s (.setsLimit k limit)
        (handleSetTaskConnectionsLimit env { s with cmds := rest } k limit)
  | gives (p : AddParams H) (rest : List (SessionOp H)) (h : Handle) (t : Torrent H)
      (hops : s.session.ops = .add p :: rest) (ht : s.session.torrents.lookup h = some t) :
      Does env s (.gives p h) { s with session := s.session.afterFound rest p h t }
  | creates (p : AddParams H) (rest : List (SessionOp H)) (hops : s.session.ops = .add p :: rest) :
      Does env s (.creates p) { s with session := s.session.afterAdd rest p }
  | fails (p : AddParams H) (rest : List (SessionOp H)) (message : String)
      (hops : s.session.ops = .add p :: rest) :
      Does env s .plain { s with session := s.session.afterFail rest p message }
  | takesOut (h : Handle) (c : Bool) (rest : List (SessionOp H)) (t : Torrent H)
      (hops : s.session.ops = .remove h c :: rest) (ht : s.session.torrents.lookup h = some t) :
      Does env s (.takesOut h) { s with session := s.session.afterRemove rest h c t }
  | gone (h : Handle) (c : Bool) (rest : List (SessionOp H)) (hops : s.session.ops = .remove h c :: rest)
      (ht : s.session.torrents.lookup h = none) :
      Does env s .plain { s with session := { s.session with ops := rest } }
  | reveals (h : Handle) (t : Torrent H) (info : Option TorrentInfo) (ih : H)
      (ht : s.session.torrents.lookup h = some t) :
      Does env s (.reveals h ih) { s with
        session := { s.session with
          torrents := s.session.torrents.insert h (t.reveal info ih)
          alerts := s.session.alerts ++ [.metadataReceived h] } }
  | posts (h : Handle) (hv : s.session.isValid h = true) :
      Does env s .plain { s with
        session := { s.session with alerts := s.session.alerts ++ [.metadataFailed h] } }
  | added (i : Nat) (p : AddParams H) (h : Handle) (ha : s.session.alerts[i]? = some (.added p h)) :
      Does env s (.added i p h) (handleAdded env (popAlert s i) p h)
  | removed (i : Nat) (ih : H) (h : Handle) (ha : s.session.alerts[i]? = some (.removed ih h)) :
      Does env s (.removed i ih) (handleRemoved env (popAlert s i) ih)
  | popped {s' : Worker H} (i : Nat) (a : Alert H) (ha : s.session.alerts[i]? = some a)
      (hadded : ∀ p h, a ≠ .added p h) (hremoved : ∀ ih h, a ≠ .removed ih h)
      (h : Keeps kindLimitPaused (popAlert s i) s') (hi : s'.intents = s.intents) :
      Does env s .plain s'
  | polls {s' : Worker H} (h : Polls s s' s.pendingMagnetMeta.keys) : Does env s .polls s'

theorem Keeps.ofCmds {s s' : Worker H} {rest : List Cmd} (h : Keeps view { s with cmds := rest } s') :
    Keeps view s s' :=
  ⟨h.handles, h.limits, h.defaultLimit, h.limitsSet, h.opts, h.session⟩

theorem AddsTask.ofCmds {s : Worker H} {rest : List Cmd} {p : AddParams H}
    (h : AddsTask env { s with cmds := rest } p) : AddsTask env s p := ⟨h.active, h.task⟩

theorem adds_does {s s' : Worker H} {rest : List Cmd} (h : Adds env { s with cmds := rest } s') :
    Does env s .plain s' := by
  rcases h with h | ⟨p, hp, hopts, rfl⟩
  · obtain ⟨hkeeps, hi⟩ := rejected_quiet h
    exact .quiet hkeeps.ofCmds hi
  · exact .adds rest p hp.ofCmds hopts

theorem setsPaused_does {s s' : Worker H} {rest : List Cmd} {k : TaskId} {paused : Bool}
    (h : SetsPaused k paused { s with cmds := rest } s') : Does env s (.flags k paused) s' :=
  .flags k paused ⟨h.keeps.ofCmds, h.intents, h.flags⟩

theorem command_outcome (s : Worker H) (cmd : Cmd) (rest : List Cmd) :
    Does env s (commandAct env s cmd) (handleCmd env { s with cmds := rest } cmd) := by
  cases cmd with
  | addMagnet uri savePath trackers =>
    exact adds_does (handleAddMagnet_cases env { s with cmds := rest } uri savePath trackers)
  | prepareMagnetMetadata uri tempSavePath trackers done =>
    rw [handleCmd]
    show Does env s .plain _
    rcases handlePrepareMagnetMetadata_cases env { s with cmds := rest } uri tempSavePath trackers done
      with ⟨s', _, hs', heq⟩ | ⟨p, entry, _, hactive, hp, _, _, heq⟩
    · rw [heq]
      obtain ⟨hkeeps, hi⟩ := rejected_quiet hs'
      have hquiet := hkeeps.ofCmds
      exact .quiet ⟨hquiet.handles, hquiet.limits, hquiet.defaultLimit, hquiet.limitsSet, hquiet.opts,
        hquiet.session⟩ hi
    · rw [heq]
      exact .files rest p entry hactive hp
  | cancelPreparedMagnet k => exact .cancels k rest
  | finalizePreparedMagnet k savePath trackers opts =>
    rw [commandAct, handleCmd]
    rcases handleFinalizePreparedMagnet_cases env { s with cmds := rest } k savePath trackers opts with
      ⟨hnone, heq⟩ | ⟨p, ti, hprepared, hp, heq⟩
    · change s.preparedTorrentInfo.lookup k = none at hnone
      rw [heq, hnone]
      exact .quiet ⟨rfl, rfl, rfl, rfl, rfl, .refl _⟩ rfl
    · change s.preparedTorrentInfo.lookup k = some (p.infoHashes, ti) at hprepared
      rw [heq, hprepared]
      exact .finalizes k opts rest p hp
  | addTorrentFile filePath savePath trackers opts =>
    obtain ⟨hadds, hstores⟩ :=
      handleAddTorrentFile_cases env { s with cmds := rest } filePath savePath trackers opts
    have hkey : storesFile env { s with cmds := rest } filePath opts = storesFile env s filePath opts := by
      simp only [storesFile, acceptedFile_cmds]
    rw [hkey] at hadds hstores
    rw [commandAct, handleCmd]
    cases hfile : storesFile env s filePath opts with
    | none => exact adds_does (hadds hfile)
    | some k =>
      obtain ⟨p, o, hp, hopts, rfl, heq⟩ := hstores k hfile
      rw [heq]
      exact .stores rest p o hp.ofCmds hopts
  | addFromResumeData data startPaused =>
    exact adds_does (handleAddFromResumeData_cases env { s with cmds := rest } data startPaused)
  | pause k => exact setsPaused_does (handlePause_sets { s with cmds := rest } k)
  | resume k => exact setsPaused_does (handleResume_sets { s with cmds := rest } k)
  | forceStart k => exact setsPaused_does (handleForceStart_sets { s with cmds := rest } k)
  | remove k removeFiles => exact .removes k rest
  | setAutoManaged k enabled =>
    refine .quiet ⟨rfl, rfl, rfl, rfl, rfl, ?_⟩ rfl
    show Same kindLimitPaused s.session
      (setHandleFlags s k fun f => { f with autoManaged := enabled }).session
    unfold setHandleFlags
    dsimp only
    cases s.handlesByTaskId.lookup k with
    | none => exact .refl _
    | some h => exact same_modify s.session h fun _ => rfl
  | setDefaultPerTorrentConnectionsLimit limit => exact .setsDefault limit rest
  | setTaskConnectionsLimit k limit => exact .setsLimit k limit rest

theorem session_outcome (s : Worker H) (outcome : AddOutcome) :
    Does env s (sessionAct s.session outcome) { s with session := s.session.exec outcome } := by
  unfold sessionAct exec
  cases hops : s.session.ops with
  | nil => exact .quiet (.refl s) rfl
  | cons op rest =>
    cases op with
    | add p =>
      cases outcome with
      | found h =>
        rcases ht : s.session.torrents.lookup h with _ | t
        · simp only [isValid, ht]
          exact .quiet (.refl s) rfl
        · simp only [isValid, ht]
          exact .gives p rest h t hops ht
      | created => exact .creates p rest hops
      | failed message => exact .fails p rest message hops
    | remove h c =>
      rcases ht : s.session.torrents.lookup h with _ | t
      · simp only [isValid, ht]
        exact .gone h c rest hops ht
      · simp only [isValid, ht]
        exact .takesOut h c rest t hops ht

theorem alert_outcome (s : Worker H) {i : Nat} {a : Alert H} (ha : s.session.alerts[i]? = some a) :
    Does env s (alertAct s.session i) (handleAlert env (popAlert s i) a) := by
  unfold alertAct
  rw [ha]
  cases a with
  | added p h => exact .added i p h ha
  | removed ih h => exact .removed i ih h ha
  | addFailed p message =>
    exact .popped i _ ha (by simp) (by simp) ⟨rfl, rfl, rfl, rfl, rfl, .refl _⟩ rfl
  | metadataReceived h =>
    exact .popped i _ ha (by simp) (by simp) (tryFulfill_keeps _ _ h)
      (tryFulfill_fulfills env _ _ h).intents
  | metadataFailed h =>
    refine .popped i _ ha (by simp) (by simp) ?_ ?_
    · unfold handleAlert handleMetadataFailed
      simp only
      split
      · exact ⟨rfl, rfl, rfl, rfl, rfl, .refl _⟩
      · exact .refl _
    · unfold handleAlert handleMetadataFailed
      simp only
      split <;> rfl

variable (env) in
theorem step_does_outcome (s : Worker H) (l : Label H) : Does env s (act env s l) (step env s l) := by
  cases l with
  | enqueue cmd =>
    obtain ⟨_, heq⟩ := step_enqueue_frame env s cmd
    rw [heq]
    exact .quiet ⟨rfl, rfl, rfl, rfl, rfl, .refl _⟩ rfl
  | prepare uri tempSavePath trackers =>
    obtain ⟨_, _, heq⟩ := step_prepare_frame env s uri tempSavePath trackers
    rw [heq]
    exact .quiet ⟨rfl, rfl, rfl, rfl, rfl, .refl _⟩ rfl
  | timeout done =>
    obtain ⟨_, _, heq⟩ := step_timeout_frame env s done
    rw [heq]
    exact .quiet ⟨rfl, rfl, rfl, rfl, rfl, .refl _⟩ rfl
  | command =>
    cases hcmds : s.cmds with
    | nil =>
      rw [step_command_nil env hcmds, act, hcmds]
      exact .quiet (.refl s) rfl
    | cons cmd rest =>
      rw [step_command env hcmds, act, hcmds]
      exact command_outcome s cmd rest
  | session outcome => exact session_outcome s outcome
  | metadata h info ih =>
    rcases ht : s.session.torrents.lookup h with _ | t
    · simp only [act, step, receiveMetadata, isValid, ht]
      exact .quiet (.refl s) rfl
    · simp only [act, step, receiveMetadata, isValid, ht]
      exact .reveals h t info ih ht
  | metadataFailure h =>
    unfold step failMetadata
    by_cases hv : s.session.isValid h = true
    · simp only [hv, if_true]
      exact .posts h hv
    · simp only [hv]
      exact .quiet (.refl s) rfl
  | alert i =>
    cases ha : s.session.alerts[i]? with
    | none =>
      rw [step_alert_none env ha, act, alertAct, ha]
      exact .quiet (.refl s) rfl
    | some a =>
      rw [step_alert env ha]
      exact alert_outcome s ha
  | poll => exact .polls (pollKeys_polls env s.pendingMagnetMeta.keys s)

end TorrentLink.Lt
