import TorrentLink.Lt.WorkerFacts

/-!
# Paused as intended

A task is paused or not by its add, by Pause, Resume and ForceStart, and by two handlers that nobody
asked: the handler of an add's alert and the poll of the preparations both resume the torrent. The
latest intent for a torrent is the latest that was for one of its adds or for an id that it is known as.
Whatever the session answers, the flag is as intended all along a run exactly when no Pause or Resume
misses a torrent that has its id, neither of the two handlers resumes a task that is meant to be paused,
and no metadata bring an id for which something else was meant (`paused_iff`).
-/

namespace TorrentLink.Lt

open Lib Session

variable {H : Type} (env : WorkerEnv H)

/-- The intent is for the torrent. -/
def Torrent.concerned (t : Torrent H) : IntentFor → Bool
  | .add n => n ∈ t.adds
  | .task k => t.knownAs env k

/-- The latest intent for the torrent is that it be paused. -/
def Torrent.meantPaused (t : Torrent H) (intents : List Intent) : Bool :=
  ((intents.find? fun i => t.concerned env i.whose).map (·.paused)).getD false

/-- A task in the session with no removal queued, and every alert that an add was answered with it has
been handled. -/
structure HeardTask (s : Session H) (h : Handle) (t : Torrent H) : Prop where
  lookup : s.torrents.lookup h = some t
  task : t.asTask = true
  stays : ∀ op ∈ s.ops, op.removes h = false
  heard : ∀ p, .added p h ∉ s.alerts

/-- The flag of every live task whose add alerts have been handled is the latest intent for it. -/
def PausedAsIntended (s : Worker H) : Prop :=
  ∀ h t, HeardTask s.session h t → t.flags.paused = t.meantPaused env s.intents

/-- The step leaves every flag as it is meant: a Pause or Resume finds the torrents that have its id,
or what is meant for them is no news; a torrent whose alert is handled, or that a poll finds, is not
meant to be paused; the info-hashes that metadata reveal bring no other intent. -/
def PausedOk (s : Worker H) : Act H → Prop
  | .flags k paused => ∀ h t, HeardTask s.session h t → t.knownAs env k = true →
      s.handlesByTaskId.lookup k = some h ∨ t.meantPaused env s.intents = paused
  | .added i _ h => ∀ t, HeardTask (popAlert s i).session h t → t.meantPaused env s.intents = false
  | .reveals h ih => ∀ t, HeardTask s.session h t →
      (t.reveal none ih).meantPaused env s.intents = t.meantPaused env s.intents
  | .polls => ∀ h t, HeardTask s.session h t → Polled s s.pendingMagnetMeta.keys h →
      t.meantPaused env s.intents = false
  | _ => True

variable {env}

/-! ### What is meant -/

theorem concerned_congr {t u : Torrent H} (h : kind t = kind u) (whose : IntentFor) :
    t.concerned env whose = u.concerned env whose := by
  cases whose with
  | add n =>
    have hadds : t.adds = u.adds := congrArg Kind.adds h
    simp only [Torrent.concerned, hadds]
  | task k => exact knownAs_congr h k

theorem meantPaused_congr {t u : Torrent H} (h : kind t = kind u) (intents : List Intent) :
    t.meantPaused env intents = u.meantPaused env intents := by
  unfold Torrent.meantPaused
  simp only [concerned_congr h]

theorem meantPaused_cons (t : Torrent H) (i : Intent) (intents : List Intent) :
    t.meantPaused env (i :: intents) =
      if t.concerned env i.whose then i.paused else t.meantPaused env intents := by
  unfold Torrent.meantPaused
  rw [List.find?_cons]
  cases t.concerned env i.whose <;> rfl

/-- An add that has not been executed is the add of no torrent. -/
theorem meantPaused_add {s : Worker H} (hs : Sound env s) {h : Handle} {t : Torrent H}
    (ht : s.session.torrents.lookup h = some t) (paused : Bool) :
    t.meantPaused env (⟨.add s.session.nextSerial, paused⟩ :: s.intents) =
      t.meantPaused env s.intents := by
  have hnone : t.concerned env (.add s.session.nextSerial) = false := by
    refine decide_eq_false fun hmem => ?_
    have hlt := hs.session.adds_lt h t ht _ hmem
    exact absurd hlt (Nat.not_lt.mpr hs.session.floor_le_nextSerial)
  rw [meantPaused_cons, hnone, if_neg Bool.false_ne_true]

/-! ### Steps that nobody minds -/

/-- Every task that is heard of was as intended before, or is now. -/
theorem PausedAsIntended.of_back {s s' : Worker H} (hs : PausedAsIntended env s)
    (hback : ∀ h u, HeardTask s'.session h u →
      (∃ t, HeardTask s.session h t ∧ t.flags.paused = u.flags.paused ∧
        t.meantPaused env s.intents = u.meantPaused env s'.intents) ∨
      u.flags.paused = u.meantPaused env s'.intents) : PausedAsIntended env s' := by
  intro h u hu
  rcases hback h u hu with ⟨t, ht, hpaused, hmeant⟩ | hnow
  · rw [← hpaused, ← hmeant]
    exact hs h t ht
  · exact hnow

/-- Handles are called. -/
theorem HeardTask.of_same {s s' : Session H} (hsame : Same kind s s') {h : Handle} {u : Torrent H}
    (hu : HeardTask s' h u) : ∃ t, HeardTask s h t ∧ kind t = kind u := by
  obtain ⟨t, ht, hkind⟩ := hsame.lookup hu.lookup
  refine ⟨t, ⟨ht, (congrArg Kind.asTask hkind).trans hu.task, ?_, ?_⟩, hkind⟩
  · rw [← hsame.ops]
    exact hu.stays
  · rw [← hsame.alerts]
    exact hu.heard

theorem HeardTask.to_same {s s' : Session H} (hsame : Same kind s s') {h : Handle} {t : Torrent H}
    (ht : HeardTask s h t) : ∃ u, HeardTask s' h u ∧ kind u = kind t := by
  obtain ⟨u, hu, hkind⟩ := hsame.lookup' ht.lookup
  refine ⟨u, ⟨hu, (congrArg Kind.asTask hkind).trans ht.task, ?_, ?_⟩, hkind⟩
  · rw [hsame.ops]
    exact ht.stays
  · rw [hsame.alerts]
    exact ht.heard

theorem PausedAsIntended.same {s s' : Worker H} (hs : PausedAsIntended env s)
    (hsame : Same kindPaused s.session s'.session) (hi : s'.intents = s.intents) :
    PausedAsIntended env s' := by
  refine hs.of_back fun h u hu => .inl ?_
  obtain ⟨t, ht, hkind⟩ := hu.of_same hsame.kindOfPaused
  refine ⟨t, ht, ?_, by rw [hi, meantPaused_congr hkind]⟩
  have hview := hsame.torrents h
  rw [ht.lookup, hu.lookup] at hview
  exact (congrArg Prod.snd (Option.some.inj hview)).symm

/-- The queues and the torrents change, but the tasks that are heard of were so before and stay the
same. -/
theorem PausedAsIntended.sub {s s' : Worker H} (hs : PausedAsIntended env s)
    (hback : ∀ h u, HeardTask s'.session h u → HeardTask s.session h u)
    (hmeant : ∀ h t, s.session.torrents.lookup h = some t →
      t.meantPaused env s'.intents = t.meantPaused env s.intents) : PausedAsIntended env s' :=
  hs.of_back fun h u hu => .inl ⟨u, hback h u hu, rfl, (hmeant h u (hback h u hu).lookup).symm⟩

/-- Calls are queued. -/
theorem HeardTask.of_queue {s : Session H} {ops : List (SessionOp H)} {n : Nat} {h : Handle}
    {u : Torrent H} (hu : HeardTask { s with ops := s.ops ++ ops, nextSerial := n } h u) :
    HeardTask s h u :=
  ⟨hu.lookup, hu.task, fun op hop => hu.stays op (List.mem_append_left _ hop), hu.heard⟩

/-- An add of a task is issued. -/
theorem PausedAsIntended.adds {s s' : Worker H} (hs : PausedAsIntended env s) (hsound : Sound env s)
    {p : AddParams H} {paused : Bool} (hsession : s'.session = s.session.asyncAddTorrent p)
    (hi : s'.intents = ⟨.add s.session.nextSerial, paused⟩ :: s.intents) : PausedAsIntended env s' := by
  refine hs.sub (fun h u hu => ?_) fun h t ht => ?_
  · rw [hsession] at hu
    exact hu.of_queue
  · rw [hi]
    exact meantPaused_add hsound ht paused

/-- A removal is queued. -/
theorem PausedAsIntended.removing {s s' : Worker H} (hs : PausedAsIntended env s) {k : TaskId} {c : Bool}
    (hsession : s'.session = (removeHandle s k c).session) (hi : s'.intents = s.intents) :
    PausedAsIntended env s' := by
  refine hs.sub (fun h u hu => ?_) fun h t _ => by rw [hi]
  rw [hsession] at hu
  rcases removeHandle_session s k c with heq | ⟨_, _, heq⟩
  · rw [heq] at hu
    exact hu
  · rw [heq] at hu
    exact hu.of_queue

/-! ### The session's steps -/

/-- A call is executed that removes another torrent or none, and an alert is posted. -/
theorem HeardTask.of_exec {s s' : Session H} {op : SessionOp H} {rest : List (SessionOp H)} {h : Handle}
    {u : Torrent H} (hu : HeardTask s' h u) (hops : s.ops = op :: rest) (hops' : s'.ops = rest)
    (halerts : ∀ a ∈ s.alerts, a ∈ s'.alerts) (hlookup : s.torrents.lookup h = some u)
    (hop : op.removes h = false) : HeardTask s h u := by
  refine ⟨hlookup, hu.task, fun op' hop' => ?_, fun p hp => hu.heard p (halerts _ hp)⟩
  rw [hops] at hop'
  rcases List.mem_cons.mp hop' with rfl | hop'
  · exact hop
  · exact hu.stays op' (hops' ▸ hop')

theorem heard_gives {s : Session H} {p : AddParams H} {rest : List (SessionOp H)} {h n : Handle}
    {t u : Torrent H} (hops : s.ops = .add p :: rest) (hu : HeardTask (s.afterFound rest p h t) n u) :
    HeardTask s n u := by
  rcases afterFound_lookup hu.lookup with ⟨rfl, _⟩ | ⟨_, hold⟩
  · exact absurd (List.mem_append_right _ (List.mem_singleton_self _)) (hu.heard p)
  · exact hu.of_exec hops rfl (fun a ha => List.mem_append_left _ ha) hold rfl

theorem heard_creates {s : Session H} {p : AddParams H} {rest : List (SessionOp H)} {n : Handle}
    {u : Torrent H} (hops : s.ops = .add p :: rest) (hu : HeardTask (s.afterAdd rest p) n u) :
    HeardTask s n u := by
  rcases afterAdd_lookup hu.lookup with ⟨rfl, _⟩ | ⟨_, hold⟩
  · exact absurd (List.mem_append_right _ (List.mem_singleton_self _)) (hu.heard p)
  · exact hu.of_exec hops rfl (fun a ha => List.mem_append_left _ ha) hold rfl

theorem heard_takesOut {s : Session H} {h n : Handle} {c : Bool} {rest : List (SessionOp H)}
    {t u : Torrent H} (hops : s.ops = .remove h c :: rest)
    (hu : HeardTask (s.afterRemove rest h c t) n u) : HeardTask s n u := by
  obtain ⟨hne, hold⟩ := afterRemove_lookup hu.lookup
  exact hu.of_exec hops rfl (fun a ha => List.mem_append_left _ ha) hold (decide_eq_false hne.symm)

theorem heard_gone {s : Session H} {h n : Handle} {c : Bool} {rest : List (SessionOp H)}
    {u : Torrent H} (hops : s.ops = .remove h c :: rest) (ht : s.torrents.lookup h = none)
    (hu : HeardTask { s with ops := rest } n u) : HeardTask s n u := by
  refine hu.of_exec hops rfl (fun _ ha => ha) hu.lookup (decide_eq_false ?_)
  rintro rfl
  have hlookup := hu.lookup
  change s.torrents.lookup h = some u at hlookup
  rw [ht] at hlookup
  cases hlookup

theorem heard_posts {s : Session H} {a : Alert H} {n : Handle} {u : Torrent H}
    (hu : HeardTask { s with alerts := s.alerts ++ [a] } n u) : HeardTask s n u :=
  ⟨hu.lookup, hu.task, hu.stays, fun p hp => hu.heard p (List.mem_append_left _ hp)⟩

/-- An alert other than one of a successful add is taken off the queue. -/
theorem heard_popped {s : Worker H} {i : Nat} {a : Alert H} (ha : s.session.alerts[i]? = some a)
    (hadded : ∀ p h, a ≠ .added p h) {n : Handle} {u : Torrent H}
    (hu : HeardTask (popAlert s i).session n u) : HeardTask s.session n u := by
  refine ⟨hu.lookup, hu.task, hu.stays, fun p hp => ?_⟩
  rcases mem_popAlert ha hp with heq | hp
  · exact hadded p n heq.symm
  · exact hu.heard p hp

/-! ### Steps that set flags -/

/-- A Pause or Resume reaches the torrent under its id. -/
theorem paused_flags {s s' : Worker H} (hs : PausedAsIntended env s) (hsound : Sound env s) {k : TaskId}
    {paused : Bool} (h : SetsPaused k paused s s') :
    PausedAsIntended env s' ↔ PausedOk env s (.flags k paused) := by
  have hsame := h.keeps.session.kindOfLimit
  -- the flag and the intent of a torrent after the command
  have hnow : ∀ n t u, HeardTask s.session n t → s'.session.torrents.lookup n = some u →
      kind u = kind t →
      (u.flags.paused = if s.handlesByTaskId.lookup k = some n then paused else t.flags.paused) ∧
      u.meantPaused env s'.intents =
        if t.knownAs env k = true then paused else t.meantPaused env s.intents := by
    intro n t u ht hu hkind
    constructor
    · have hflag := h.flags n
      rw [hu, ht.lookup] at hflag
      exact Option.some.inj hflag
    · rw [h.intents, meantPaused_congr hkind, meantPaused_cons]
      rfl
  constructor
  · intro hs' n t ht hknown
    obtain ⟨u, hu, hkind⟩ := ht.to_same hsame
    obtain ⟨hflag, hmeant⟩ := hnow n t u ht hu.lookup hkind
    rw [if_pos hknown] at hmeant
    refine or_iff_not_imp_left.mpr fun hk => ?_
    rw [if_neg hk] at hflag
    rw [← hs n t ht, ← hflag, hs' n u hu, hmeant]
  · intro hok n u hu
    obtain ⟨t, ht, hkind⟩ := hu.of_same hsame
    obtain ⟨hflag, hmeant⟩ := hnow n t u ht hu.lookup hkind.symm
    rw [hflag, hmeant]
    by_cases hknown : t.knownAs env k = true
    · rw [if_pos hknown]
      rcases hok n t ht hknown with hk | heq
      · rw [if_pos hk]
      · split
        · rfl
        · rw [hs n t ht, heq]
    · have hk : s.handlesByTaskId.lookup k ≠ some n := fun hk =>
        hknown (hsound.handle_known k n t hk ht.lookup)
      rw [if_neg hknown, if_neg hk, hs n t ht]

/-- A handler resumes some torrents, and does nothing else that matters. -/
theorem paused_resumes {s s' : Worker H} (hs : PausedAsIntended env s) {ses : Session H}
    (resumed : Handle → Prop) (hsame : Same kind ses s'.session) (hi : s'.intents = s.intents)
    (hback : ∀ h t, HeardTask ses h t → ¬ resumed h → HeardTask s.session h t)
    (hresumed : ∀ h u, s'.session.torrents.lookup h = some u → resumed h → u.flags.paused = false)
    (hothers : ∀ h, ¬ resumed h → (s'.session.torrents.lookup h).map (·.flags.paused) =
      (ses.torrents.lookup h).map (·.flags.paused)) :
    PausedAsIntended env s' ↔
      ∀ h t, HeardTask ses h t → resumed h → t.meantPaused env s.intents = false := by
  constructor
  · intro hs' h t ht hh
    obtain ⟨u, hu, hkind⟩ := ht.to_same hsame
    rw [← meantPaused_congr hkind, ← hi, ← hs' h u hu]
    exact hresumed h u hu.lookup hh
  · intro hok h u hu
    obtain ⟨t, ht, hkind⟩ := hu.of_same hsame
    rw [hi, ← meantPaused_congr hkind]
    by_cases hh : resumed h
    · rw [hresumed h u hu.lookup hh, hok h t ht hh]
    · have hflag := hothers h hh
      rw [hu.lookup, ht.lookup] at hflag
      exact (Option.some.inj hflag).trans (hs h t (hback h t ht hh))

/-- The added torrent is resumed, and no other. -/
theorem configureAdded_paused (s : Worker H) (key : TaskId) (h : Handle) :
    (∀ u, (configureAdded s key h).torrents.lookup h = some u → u.flags.paused = false) ∧
      ∀ n, n ≠ h → ((configureAdded s key h).torrents.lookup n).map (·.flags.paused) =
        (s.session.torrents.lookup n).map (·.flags.paused) := by
  obtain ⟨f, ses, hf, hplace, hown, hdefault⟩ := configureAdded_calls s key h
  have hlimit : Same kindPaused ses (configureAdded s key h) := by
    cases hl : s.perTaskConnectionsLimit.lookup key with
    | some l =>
      rw [hown l hl]
      exact same_setMaxConnections ses h l.limit
    | none =>
      rw [hdefault hl]
      split
      · exact same_setMaxConnections ses h _
      · exact .refl ses
  have hsame := ((hplace kindPaused).trans hlimit).coarser Prod.snd
  refine ⟨fun u hu => ?_, fun n hn => ?_⟩
  · obtain ⟨t, ht, hview⟩ := hsame.lookup hu
    unfold setFlags at ht
    rw [lookup_modify, if_pos rfl] at ht
    obtain ⟨t₀, _, rfl⟩ := Option.map_eq_some_iff.mp ht
    exact hview.symm.trans (hf t₀.flags)
  · refine (hsame.torrents n).trans ?_
    unfold setFlags
    rw [lookup_modify, if_neg hn]
    rfl

theorem paused_added {s : Worker H} (hs : PausedAsIntended env s) {i : Nat} {p : AddParams H} {h : Handle}
    (ha : s.session.alerts[i]? = some (.added p h)) :
    PausedAsIntended env (handleAdded env (popAlert s i) p h) ↔ PausedOk env s (.added i p h) := by
  obtain ⟨hpaused, hothers⟩ := configureAdded_paused (popAlert s i) (p.taskId env) h
  have hsame := same_configureAdded (popAlert s i) (p.taskId env) h
  have hresumes : PausedAsIntended env (handleAdded env (popAlert s i) p h) ↔
      ∀ n t, HeardTask (popAlert s i).session n t → n = h → t.meantPaused env s.intents = false := by
    refine paused_resumes hs (fun n => n = h) hsame rfl (fun n t ht hne => ?_) ?_ hothers
    · refine ⟨ht.lookup, ht.task, ht.stays, fun q hq => ?_⟩
      rcases mem_popAlert ha hq with heq | hq
      · cases heq
        exact hne rfl
      · exact ht.heard q hq
    · rintro n u hu rfl
      exact hpaused u hu
  rw [hresumes]
  exact ⟨fun hok t ht => hok h t ht rfl, fun hok n t ht hn => hok t (hn ▸ ht)⟩

theorem paused_polls {s s' : Worker H} (hs : PausedAsIntended env s)
    (h : Polls s s' s.pendingMagnetMeta.keys) : PausedAsIntended env s' ↔ PausedOk env s .polls := by
  refine paused_resumes hs (Polled s _) h.keeps.session.kindOfLimit h.intents (fun _ _ ht _ => ht) h.resumed
    fun n hn => ?_
  have hview := congrArg (Option.map fun x => x.2.2) (h.others n hn)
  rw [Option.map_map, Option.map_map] at hview
  exact hview

/-- Metadata arrive. -/
theorem paused_reveals {s : Worker H} (hs : PausedAsIntended env s) {h : Handle} {t : Torrent H}
    (info : Option TorrentInfo) (ih : H) (ht : s.session.torrents.lookup h = some t) :
    PausedAsIntended env { s with
      session := { s.session with
        torrents := s.session.torrents.insert h (t.reveal info ih)
        alerts := s.session.alerts ++ [.metadataReceived h] } } ↔ PausedOk env s (.reveals h ih) := by
  have hmeant : (t.reveal info ih).meantPaused env s.intents =
      (t.reveal none ih).meantPaused env s.intents := meantPaused_congr rfl s.intents
  have hnew : HeardTask s.session h t →
      HeardTask { s.session with
        torrents := s.session.torrents.insert h (t.reveal info ih)
        alerts := s.session.alerts ++ [.metadataReceived h] } h (t.reveal info ih) := by
    intro hold
    refine ⟨?_, hold.task, hold.stays, fun p hp => ?_⟩
    · rw [Map.lookup_insert, if_pos rfl]
    · rcases List.mem_append.mp hp with hp | hp
      · exact hold.heard p hp
      · cases List.mem_singleton.mp hp
  constructor
  · intro hs' u hu
    cases Option.some.inj (hu.lookup.symm.trans ht)
    rw [← hmeant, ← hs' h _ (hnew hu), ← hs h t hu]
    rfl
  · intro hok n u hu
    have hheard : ∀ p, .added p n ∉ s.session.alerts := fun p hp =>
      hu.heard p (List.mem_append_left _ hp)
    rcases Map.lookup_insert_cases hu.lookup with ⟨rfl, rfl⟩ | ⟨_, hold⟩
    · have hwas : HeardTask s.session n t := ⟨ht, hu.task, hu.stays, hheard⟩
      exact (hs n t hwas).trans ((hok t hwas).symm.trans hmeant.symm)
    · exact hs n u ⟨hold, hu.task, hu.stays, hheard⟩

/-! ### Runs -/

/-- A step keeps the flags as intended exactly when it meets the condition. -/
theorem paused_does {s s' : Worker H} {a : Act H} (hs : PausedAsIntended env s) (hsound : Sound env s)
    (h : Does env s a s') : PausedAsIntended env s' ↔ PausedOk env s a := by
  -- a step of the session that posts an alert at most
  have hsub : ∀ {ses : Session H}, (∀ n u, HeardTask ses n u → HeardTask s.session n u) →
      PausedAsIntended env { s with session := ses } := fun hback => hs.sub hback fun _ _ _ => rfl
  cases h with
  | quiet h hi => exact iff_of_true (hs.same h.session.forgetLimit hi) trivial
  | flags k paused h => exact paused_flags hs hsound h
  | adds rest p => exact iff_of_true (hs.adds hsound rfl rfl) trivial
  | stores rest p opts => exact iff_of_true (hs.adds hsound rfl rfl) trivial
  | files rest p entry => exact iff_of_true (hs.sub (fun _ _ hu => hu.of_queue) fun _ _ _ => rfl) trivial
  | cancels k rest => exact iff_of_true (hs.removing (k := k) (c := true) rfl rfl) trivial
  | finalizes k opts rest p =>
    have hdrop : PausedAsIntended env (dropHandle s k false) := hs.removing rfl rfl
    have hsound' : Sound env (dropHandle s k false) :=
      hsound.removing k false rfl fun _ _ hk => (Map.lookup_erase_some hk).2
    exact iff_of_true (hdrop.adds hsound' rfl rfl) trivial
  | removes k rest => exact iff_of_true (hs.removing (k := k) (c := false) rfl rfl) trivial
  | setsDefault limit rest =>
    exact iff_of_true (hs.same (same_defaultLimit { s with cmds := rest } limit) rfl) trivial
  | setsLimit k limit rest =>
    exact iff_of_true (hs.same (same_taskLimit env { s with cmds := rest } k limit) rfl) trivial
  | gives p rest h t hops ht => exact iff_of_true (hsub fun _ _ hu => heard_gives hops hu) trivial
  | creates p rest hops => exact iff_of_true (hsub fun _ _ hu => heard_creates hops hu) trivial
  | fails p rest message hops =>
    exact iff_of_true (hsub fun _ _ hu => hu.of_exec hops rfl
      (fun a ha => List.mem_append_left _ ha) hu.lookup rfl) trivial
  | takesOut h c rest t hops ht => exact iff_of_true (hsub fun _ _ hu => heard_takesOut hops hu) trivial
  | gone h c rest hops ht => exact iff_of_true (hsub fun _ _ hu => heard_gone hops ht hu) trivial
  | reveals h t info ih ht => exact paused_reveals hs info ih ht
  | posts h hv => exact iff_of_true (hsub fun _ _ hu => heard_posts hu) trivial
  | added i p h ha => exact paused_added hs ha
  | removed i ih h ha =>
    exact iff_of_true (hs.sub (fun _ _ hu => heard_popped ha (by simp) hu) fun _ _ _ => rfl) trivial
  | popped i a ha hadded _ h hi =>
    have hpop : PausedAsIntended env (popAlert s i) :=
      hsub fun _ _ hu => heard_popped ha hadded hu
    exact iff_of_true (hpop.same h.session.forgetLimit hi) trivial
  | polls h => exact paused_polls hs h

/-- Along every run from the start, whatever the session answers, each task's flag is the latest intent
for it once the alerts of its adds have been handled, exactly when every step meets the condition. -/
theorem paused_iff (env : WorkerEnv H) (labels : List (Label H)) :
    (∀ n, PausedAsIntended env (run (step env) {} (labels.take n))) ↔
      RunOk (step env) (fun s l => PausedOk env s (act env s l)) {} labels := by
  refine always_iff_runOk (I := Sound env) sound_step ?_ sound_empty ?_ labels
  · intro s l hsound hs
    exact paused_does hs hsound (step_does_outcome env s l)
  · intro h t ht
    have hnone := ht.lookup
    simp at hnone

/-- A torrent file is added so as not to start, up to the alert of its add. -/
def notStarted : List (Label InfoHash) :=
  [.enqueue (.addTorrentFile oneTorrentFile "/tmp" [] (some { startTorrent := false })), .command,
    .session .created, .alert 0]

/-- The handler of the alert resumes it. -/
theorem paused_lost_addedPaused :
    ¬ ∀ (env : WorkerEnv InfoHash) (labels : List (Label InfoHash)),
      RunOk (step env) (Documented InfoHash.sharing) {} labels →
      ∀ n, PausedAsIntended env (run (step env) {} (labels.take n)) := by
  intro h
  have hs := h hybridEnv notStarted (by decide +kernel) 4
  have halerts : (run (step hybridEnv) {} (notStarted.take 4)).session.alerts = [] := by decide +kernel
  have hpaused := hs 0
    { infoHashes := hybridFile
      flags := { autoManaged := true }
      hasMetadata := true
      info := some oneTorrentInfo
      had := [hybridFile]
      adds := [0]
      asTask := true } ⟨by decide +kernel, rfl, by decide +kernel, fun p hp => ?_⟩
  · revert hpaused
    decide +kernel
  · rw [halerts] at hp
    cases hp

end TorrentLink.Lt
