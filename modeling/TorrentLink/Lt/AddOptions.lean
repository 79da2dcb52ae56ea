import TorrentLink.Lt.AddNumbers

/-!
# What waits for an add

Between an add and its alert the add's options wait in `pendingAddOpts` under the task id, where the
alert of another add, the removal of an older torrent of the same id, or another add with options finds
them. A limit set for the new torrent is kept under the same id, and so is its handle. `Undisturbed` says
that nothing takes them from the new torrent. Whatever the session answers and in whatever order its
alerts are handled, it holds all along a run exactly when every step meets `TakesOk`: no step takes the
options of another add in flight, and no removal is heard of when the id has a limit or the handle of a
newer torrent (`undisturbed_iff`).
-/

namespace TorrentLink.Lt

open Lib Session

variable {H : Type}

/-- The limit was set for an add that is in flight, or that a torrent of the session was given to. -/
def Session.Belongs (s : Session H) (l : TaskLimit) : Prop :=
  ∃ n ∈ l.owners, (∃ p ∈ s.inFlight, p.purpose.serial = n) ∨
    ∃ h t, s.torrents.lookup h = some t ∧ n ∈ t.adds

variable (env : WorkerEnv H)

/-- The options wait for the adds in flight, and no longer. -/
structure Waiting (s : Worker H) : Prop where
  /-- The options of an add in flight are there. -/
  opts : ∀ p ∈ s.session.inFlight, p.purpose.storesOpts = true →
    ∃ e, s.pendingAddOpts.lookup (p.taskId env) = some e ∧ e.serial = p.purpose.serial
  /-- Once the alert of an add is handled, its options are gone. -/
  once : ∀ k e, s.pendingAddOpts.lookup k = some e → ∀ p h, (p, h) ∈ s.session.succeeded →
    p.purpose.serial = e.serial → .added p h ∈ s.session.alerts

/-- The limit set for the new torrent is there. -/
def LimitsStay (s : Worker H) : Prop :=
  ∀ k l, s.limitsSet.lookup k = some l → s.session.Belongs l →
    s.perTaskConnectionsLimit.lookup k = some l

/-- A removal that is yet to be heard of erases no handle of a torrent that is there. -/
def HandlesStay (s : Worker H) : Prop :=
  ∀ ih h₀, .removed ih h₀ ∈ s.session.alerts → ∀ h,
    s.handlesByTaskId.lookup (env.taskIdFromInfoHashes ih) = some h → s.session.isValid h = false

/-- Nothing takes from the new torrent what is its own. -/
structure Undisturbed (s : Worker H) : Prop where
  waiting : Waiting env s
  limits : LimitsStay s
  handles : HandlesStay env s

/-! ### The condition -/

/-- No add in flight has options under this id. -/
def Session.NoneWaits (s : Session H) (k : TaskId) : Prop :=
  ∀ p ∈ s.inFlight, p.purpose.storesOpts = true → p.taskId env ≠ k

/-- The step overwrites or erases no options of another add in flight, and stores those of its own add
under its id. -/
def OptsOk (s : Worker H) : Act H → Prop
  | .stores k => s.session.NoneWaits env k
  | .finalizes k ih => s.session.NoneWaits env k ∧ env.taskIdFromInfoHashes ih = k
  | .added i p _ => (popAlert s i).session.NoneWaits env (p.taskId env)
  | .removed i ih => (popAlert s i).session.NoneWaits env (env.taskIdFromInfoHashes ih)
  | _ => True

/-- The step erases no limit of a newer torrent. -/
def LimitOk (s : Worker H) : Act H → Prop
  | .removed i ih => ∀ l ∈ s.perTaskConnectionsLimit.lookup (env.taskIdFromInfoHashes ih),
      ¬ (popAlert s i).session.Belongs l
  | _ => True

/-- No removal of an older torrent is to be heard of when a handle is stored, and no torrent goes whose
id has the handle of another one. -/
def HandleOk (s : Worker H) : Act H → Prop
  | .added _ p h => s.session.isValid h = true → ∀ ih h₀, .removed ih h₀ ∈ s.session.alerts →
      env.taskIdFromInfoHashes ih ≠ p.taskId env
  | .takesOut h => ∀ t ∈ s.session.torrents.lookup h,
      ∀ h' ∈ s.handlesByTaskId.lookup (env.taskIdFromInfoHashes t.infoHashes),
        h' = h ∨ s.session.isValid h' = false
  | _ => True

/-- The step takes nothing from a new torrent. -/
structure TakesOk (s : Worker H) (a : Act H) : Prop where
  opts : OptsOk env s a
  limit : LimitOk env s a
  handle : HandleOk env s a

variable {env}

/-! ### The options -/

/-- No add with options is issued, no entry changes, and of the alerts none of an add goes. -/
theorem Waiting.sub {s s' : Worker H} (hs : Waiting env s) (hopts : s'.pendingAddOpts = s.pendingAddOpts)
    (hflight : ∀ p ∈ s'.session.inFlight, p.purpose.storesOpts = true → p ∈ s.session.inFlight)
    (hsucceeded : ∀ p h, (p, h) ∈ s'.session.succeeded →
      (p, h) ∈ s.session.succeeded ∧ (.added p h ∈ s.session.alerts → .added p h ∈ s'.session.alerts) ∨
        .added p h ∈ s'.session.alerts) : Waiting env s' where
  opts p hp hstores := by
    rw [hopts]
    exact hs.opts p (hflight p hp hstores) hstores
  once k e he p h hp hserial := by
    rcases hsucceeded p h hp with ⟨hold, hstays⟩ | hnow
    · exact hstays (hs.once k e (hopts ▸ he) p h hold hserial)
    · exact hnow

theorem Session.Same.inFlight {s s' : Session H} (h : Same kind s s') : s'.inFlight = s.inFlight := by
  unfold Session.inFlight
  rw [h.ops, h.alerts]

theorem Waiting.same {s s' : Worker H} (hs : Waiting env s) (h : Same kind s.session s'.session)
    (hopts : s'.pendingAddOpts = s.pendingAddOpts) : Waiting env s' := by
  refine hs.sub hopts (fun p hp _ => h.inFlight ▸ hp) fun p n hp => .inl ⟨h.succeeded ▸ hp, ?_⟩
  rw [h.alerts]
  exact fun ha => ha

/-- An add without options is issued. -/
theorem Waiting.adds {s s' : Worker H} (hs : Waiting env s) {p : AddParams H}
    (hstores : p.purpose.storesOpts = false) (hsession : s'.session = s.session.asyncAddTorrent p)
    (hopts : s'.pendingAddOpts = s.pendingAddOpts) : Waiting env s' := by
  refine hs.sub hopts (fun q hq hstores' => ?_) fun q h hq => .inl ?_
  · rw [hsession] at hq
    rcases mem_inFlight_asyncAdd.mp hq with hq | rfl
    · exact hq
    · exact absurd (hstores'.symm.trans hstores) Bool.true_eq_false_eq_False
  · rw [hsession] at hq ⊢
    exact ⟨hq, fun ha => ha⟩

/-- A removal is queued. -/
theorem inFlight_removeHandle (s : Worker H) (k : TaskId) (c : Bool) :
    (removeHandle s k c).session.inFlight = s.session.inFlight ∧
      (removeHandle s k c).session.alerts = s.session.alerts ∧
      (removeHandle s k c).session.succeeded = s.session.succeeded := by
  rcases removeHandle_session s k c with heq | ⟨h, _, heq⟩
  · rw [heq]
    exact ⟨rfl, rfl, rfl⟩
  · rw [heq]
    refine ⟨?_, rfl, rfl⟩
    unfold Session.inFlight removeTorrent
    rw [List.filterMap_append]
    simp [SessionOp.params]

theorem Waiting.removing {s s' : Worker H} (hs : Waiting env s) (k : TaskId) (c : Bool)
    (hsession : s'.session = (removeHandle s k c).session)
    (hopts : s'.pendingAddOpts = s.pendingAddOpts) : Waiting env s' := by
  obtain ⟨hflight, halerts, hsucceeded⟩ := inFlight_removeHandle s k c
  rw [← hsession] at hflight halerts hsucceeded
  refine hs.sub hopts (fun p hp _ => hflight ▸ hp) fun p h hp => .inl ⟨hsucceeded ▸ hp, ?_⟩
  rw [halerts]
  exact fun ha => ha

/-- An add with options is issued. -/
theorem waiting_stores {s s' : Worker H} (hs : Waiting env s) (hnum : Numbered s)
    (hsound : s.session.Sound) {p : AddParams H} {k : TaskId} {o : AddTorrentOptions}
    (hstores : p.purpose.storesOpts = true) (hsession : s'.session = s.session.asyncAddTorrent p)
    (hopts : s'.pendingAddOpts = s.pendingAddOpts.insert k ⟨o, s.session.nextSerial⟩) :
    Waiting env s' ↔ s.session.NoneWaits env k ∧ p.taskId env = k := by
  have hflight : ∀ q, q ∈ s'.session.inFlight ↔
      q ∈ s.session.inFlight ∨ q = numbered s.session p := fun q => by
    rw [hsession]
    exact mem_inFlight_asyncAdd
  constructor
  · intro hs'
    refine ⟨fun q hq hq' hk => ?_, by_contra fun hk => ?_⟩
    · obtain ⟨e, he, hserial⟩ := hs'.opts q ((hflight q).mpr (.inl hq)) hq'
      rw [hopts, hk, Map.lookup_insert, if_pos rfl] at he
      cases he
      exact absurd hserial.symm (hnum.issued_lt hsound (hnum.inFlight_issued hq)).ne
    · obtain ⟨e, he, hserial⟩ := hs'.opts _ ((hflight _).mpr (.inr rfl)) hstores
      change s'.pendingAddOpts.lookup (p.taskId env) = some e at he
      rw [hopts, Map.lookup_insert, if_neg hk] at he
      exact absurd hserial (hnum.opts_lt _ e he).ne
  · rintro ⟨hnone, hk⟩
    refine ⟨fun q hq hq' => ?_, fun k' e he q h hq hserial => ?_⟩
    · rw [hopts, Map.lookup_insert]
      rcases (hflight q).mp hq with hq | rfl
      · rw [if_neg (hnone q hq hq')]
        exact hs.opts q hq hq'
      · exact ⟨⟨o, s.session.nextSerial⟩, if_pos hk, rfl⟩
    · rw [hsession] at hq ⊢
      rw [hopts] at he
      rcases Map.lookup_insert_cases he with ⟨_, rfl⟩ | ⟨_, he⟩
      · exact absurd hserial (hnum.issued_lt hsound (.inr ⟨h, hq⟩)).ne
      · exact hs.once k' e he q h hq hserial

/-- A call is executed. -/
theorem Waiting.exec {s : Worker H} (hs : Waiting env s) {ses : Session H} {op : SessionOp H}
    {rest : List (SessionOp H)} {a : Alert H} (hops : s.session.ops = op :: rest)
    (hops' : ses.ops = rest) (halerts : ses.alerts = s.session.alerts ++ [a])
    (hadded : ∀ p h, a = .added p h → op = .add p)
    (hsucceeded : ∀ p h, (p, h) ∈ ses.succeeded → (p, h) ∈ s.session.succeeded ∨ a = .added p h) :
    Waiting env { s with session := ses } := by
  refine hs.sub rfl (fun p hp _ => ?_) fun p h hp => ?_
  · rcases mem_inFlight.mp hp with hp | ⟨h, hp⟩
    · change .add p ∈ ses.ops at hp
      rw [hops'] at hp
      exact mem_inFlight.mpr (.inl (hops ▸ List.mem_cons_of_mem op hp))
    · change .added p h ∈ ses.alerts at hp
      rw [halerts] at hp
      rcases List.mem_append.mp hp with hp | hp
      · exact mem_inFlight.mpr (.inr ⟨h, hp⟩)
      · have hop := hadded p h (List.mem_singleton.mp hp).symm
        exact mem_inFlight.mpr (.inl (by rw [hops, hop]; exact List.mem_cons_self))
  · show _ ∧ (_ → .added p h ∈ ses.alerts) ∨ .added p h ∈ ses.alerts
    rw [halerts]
    rcases hsucceeded p h hp with hold | rfl
    · exact .inl ⟨hold, fun ha => List.mem_append_left _ ha⟩
    · exact .inr (List.mem_append_right _ (List.mem_singleton_self _))

theorem mem_inFlight_of_pop {s : Worker H} {i : Nat} {p : AddParams H}
    (hp : p ∈ (popAlert s i).session.inFlight) : p ∈ s.session.inFlight := by
  rcases mem_inFlight.mp hp with hp | ⟨h, hp⟩
  · exact mem_inFlight.mpr (.inl hp)
  · exact mem_inFlight.mpr (.inr ⟨h, mem_of_popAlert hp⟩)

/-- An alert is handled that takes the entry under this id. -/
theorem waiting_takes {s s' : Worker H} (hs : Waiting env s) {i : Nat} {a : Alert H} {k : TaskId}
    (ha : s.session.alerts[i]? = some a) (hsame : Same kind (popAlert s i).session s'.session)
    (hopts : s'.pendingAddOpts = s.pendingAddOpts.erase k)
    (hown : ∀ p h, a = .added p h → ∀ k' e, s.pendingAddOpts.lookup k' = some e →
      p.purpose.serial = e.serial → k' = k) :
    Waiting env s' ↔ (popAlert s i).session.NoneWaits env k := by
  constructor
  · intro hs' p hp hstores hk
    obtain ⟨e, he, _⟩ := hs'.opts p (hsame.inFlight ▸ hp) hstores
    rw [hopts, hk, Map.lookup_erase, if_pos rfl] at he
    cases he
  · intro hnone
    refine ⟨fun p hp hstores => ?_, fun k' e he p h hp hserial => ?_⟩
    · rw [hsame.inFlight] at hp
      rw [hopts, Map.lookup_erase, if_neg (hnone p hp hstores)]
      exact hs.opts p (mem_inFlight_of_pop hp) hstores
    · rw [hopts] at he
      obtain ⟨hk, he⟩ := Map.lookup_erase_some he
      rw [hsame.succeeded] at hp
      rw [hsame.alerts]
      rcases mem_popAlert ha (hs.once k' e he p h hp hserial) with heq | hmem
      · exact absurd (hown p h heq.symm k' e he hserial) hk
      · exact hmem

/-- The options wait after a step exactly when it meets their condition. -/
theorem waiting_does {s s' : Worker H} {a : Act H} (hs : Waiting env s) (hsound : Sound env s)
    (hnum : Numbered s) (h : Does env s a s') : Waiting env s' ↔ OptsOk env s a := by
  -- an alert other than one of an add is posted, or taken off the queue
  have hposts : ∀ {ses : Session H} {b : Alert H}, ses.ops = s.session.ops →
      ses.alerts = s.session.alerts ++ [b] → (∀ p h, b ≠ .added p h) →
      ses.succeeded = s.session.succeeded → Waiting env { s with session := ses } := by
    intro ses b hops halerts hb hsucceeded
    refine hs.sub rfl (fun p hp _ => ?_) fun p h hp => .inl ⟨hsucceeded ▸ hp, fun hp => ?_⟩
    · rcases mem_inFlight.mp hp with hp | ⟨h, hp⟩
      · exact mem_inFlight.mpr (.inl (hops ▸ hp))
      · change .added p h ∈ ses.alerts at hp
        rw [halerts] at hp
        rcases List.mem_append.mp hp with hp | hp
        · exact mem_inFlight.mpr (.inr ⟨h, hp⟩)
        · exact absurd (List.mem_singleton.mp hp).symm (hb p h)
    · show .added p h ∈ ses.alerts
      rw [halerts]
      exact List.mem_append_left _ hp
  cases h with
  | quiet h => exact iff_of_true (hs.same h.session.forgetPaused.kindOfLimit h.opts) trivial
  | flags k paused h => exact iff_of_true (hs.same h.keeps.session.kindOfLimit h.keeps.opts) trivial
  | adds rest p _ hopts => exact iff_of_true (hs.adds hopts rfl rfl) trivial
  | stores rest p opts _ hopts =>
    exact (waiting_stores hs hnum hsound.session hopts rfl rfl).trans (and_iff_left rfl)
  | files rest p entry _ hp => exact iff_of_true (hs.adds (by rw [hp]) rfl rfl) trivial
  | cancels k rest => exact iff_of_true (hs.removing k true rfl rfl) trivial
  | finalizes k opts rest p hp =>
    have hdrop : Waiting env (dropHandle s k false) := hs.removing k false rfl rfl
    have hnum' : Numbered (dropHandle s k false) := hnum.removing k false rfl rfl rfl rfl
    have hsound' : Sound env (dropHandle s k false) :=
      hsound.removing k false rfl fun _ _ hk => (Map.lookup_erase_some hk).2
    refine (waiting_stores hdrop hnum' hsound'.session (by rw [hp]) rfl rfl).trans ?_
    unfold Session.NoneWaits OptsOk
    rw [show (dropHandle s k false).session.inFlight = s.session.inFlight from
      (inFlight_removeHandle s k false).1]
    exact Iff.rfl
  | removes k rest => exact iff_of_true (hs.removing k false rfl rfl) trivial
  | setsDefault limit rest =>
    exact iff_of_true (hs.same (same_defaultLimit { s with cmds := rest } limit).kindOfPaused rfl) trivial
  | setsLimit k limit rest =>
    exact iff_of_true (hs.same (same_taskLimit env { s with cmds := rest } k limit).kindOfPaused rfl) trivial
  | gives p rest h t hops ht =>
    refine iff_of_true (hs.exec hops rfl rfl (by rintro q n ⟨⟩; rfl) fun q n hq => ?_) trivial
    simpa [afterFound, eq_comm] using hq
  | creates p rest hops =>
    refine iff_of_true (hs.exec hops rfl rfl (by rintro q n ⟨⟩; rfl) fun q n hq => ?_) trivial
    simpa [afterAdd, eq_comm] using hq
  | fails p rest message hops =>
    exact iff_of_true (hs.exec hops rfl rfl (by simp) fun _ _ hq => .inl hq) trivial
  | takesOut h c rest t hops ht =>
    exact iff_of_true (hs.exec hops rfl rfl (by simp) fun _ _ hq => .inl hq) trivial
  | gone h c rest hops ht =>
    refine iff_of_true (hs.sub rfl (fun p hp _ => ?_) fun p n hp => .inl ⟨hp, fun ha => ha⟩) trivial
    rcases mem_inFlight.mp hp with hp | hp
    · exact mem_inFlight.mpr (.inl (hops ▸ List.mem_cons_of_mem _ hp))
    · exact mem_inFlight.mpr (.inr hp)
  | reveals h t info ih ht => exact iff_of_true (hposts rfl rfl (by simp) rfl) trivial
  | posts h hv => exact iff_of_true (hposts rfl rfl (by simp) rfl) trivial
  | added i p h ha =>
    refine waiting_takes hs ha (same_configureAdded (popAlert s i) (p.taskId env) h) rfl ?_
    rintro q n ⟨⟩ k' e he hserial
    have hp : p ∈ s.session.inFlight := mem_inFlight.mpr (.inr ⟨h, List.mem_of_getElem? ha⟩)
    have hstores := hnum.opts_stored k' e he p (hnum.inFlight_issued hp) hserial
    obtain ⟨e', he', hserial'⟩ := hs.opts p hp hstores
    exact hnum.opts_unique k' e he _ e' he' (hserial.symm.trans hserial'.symm)
  | removed i ih h ha => exact waiting_takes hs ha (.refl _) rfl (by simp)
  | popped i a ha hadded _ h =>
    have hpop : Waiting env (popAlert s i) := by
      refine hs.sub rfl (fun _ hp _ => mem_inFlight_of_pop hp) fun p n hp => .inl ⟨hp, fun hp => ?_⟩
      exact (mem_popAlert ha hp).resolve_left fun heq => hadded p n heq.symm
    exact iff_of_true (hpop.same h.session.forgetPaused.kindOfLimit h.opts) trivial
  | polls h => exact iff_of_true (hs.same h.keeps.session.kindOfLimit h.keeps.opts) trivial

/-! ### The limits -/

/-- A limit belongs to no more adds and torrents than before. -/
theorem Session.Belongs.of_sub {s s' : Session H} {l : TaskLimit} (h : s'.Belongs l)
    (hflight : ∀ p ∈ s'.inFlight, p.purpose.serial ∈ l.owners → p ∈ s.inFlight)
    (htorrents : ∀ h t', s'.torrents.lookup h = some t' → ∀ n ∈ t'.adds,
      (∃ p ∈ s.inFlight, p.purpose.serial = n) ∨ ∃ t, s.torrents.lookup h = some t ∧ n ∈ t.adds) :
    s.Belongs l := by
  obtain ⟨n, hn, ⟨p, hp, rfl⟩ | ⟨h, t', ht', hmem⟩⟩ := h
  · exact ⟨_, hn, .inl ⟨p, hflight p hp hn, rfl⟩⟩
  · exact ⟨n, hn, (htorrents h t' ht' n hmem).imp_right fun ⟨t, ht, hmem⟩ => ⟨h, t, ht, hmem⟩⟩

theorem LimitsStay.sub {s s' : Worker H} (hs : LimitsStay s) (hset : s'.limitsSet = s.limitsSet)
    (hlimits : s'.perTaskConnectionsLimit = s.perTaskConnectionsLimit)
    (hbelongs : ∀ k l, s.limitsSet.lookup k = some l → s'.session.Belongs l → s.session.Belongs l) :
    LimitsStay s' := by
  intro k l hl hb
  rw [hset] at hl
  rw [hlimits]
  exact hs k l hl (hbelongs k l hl hb)

theorem Session.Belongs.of_same {s s' : Session H} {l : TaskLimit} (hb : s'.Belongs l)
    (h : Same kind s s') : s.Belongs l := by
  refine hb.of_sub (fun p hp _ => h.inFlight ▸ hp) fun n t' ht' m hm => .inr ?_
  obtain ⟨t, ht, hkind⟩ := h.lookup ht'
  have hadds : t.adds = t'.adds := congrArg Kind.adds hkind
  exact ⟨t, ht, hadds ▸ hm⟩

theorem LimitsStay.same {s s' : Worker H} (hs : LimitsStay s) (h : Same kind s.session s'.session)
    (hset : s'.limitsSet = s.limitsSet)
    (hlimits : s'.perTaskConnectionsLimit = s.perTaskConnectionsLimit) : LimitsStay s' :=
  hs.sub hset hlimits fun _ _ _ hb => hb.of_same h

/-- An add is issued: it is no limit's yet. -/
theorem LimitsStay.issue {s s' : Worker H} (hs : LimitsStay s) (hnum : Numbered s) (p : AddParams H)
    (hsession : s'.session = s.session.asyncAddTorrent p) (hset : s'.limitsSet = s.limitsSet)
    (hlimits : s'.perTaskConnectionsLimit = s.perTaskConnectionsLimit) : LimitsStay s' := by
  refine hs.sub hset hlimits fun k l hl hb => ?_
  rw [hsession] at hb
  refine hb.of_sub (fun q hq hn => ?_) fun h t ht n hn => .inr ⟨t, ht, hn⟩
  refine (mem_inFlight_asyncAdd.mp hq).resolve_right ?_
  rintro rfl
  exact absurd (hnum.limits_lt k l hl _ hn) (lt_irrefl _)

theorem LimitsStay.removing {s s' : Worker H} (hs : LimitsStay s) (k : TaskId) (c : Bool)
    (hsession : s'.session = (removeHandle s k c).session) (hset : s'.limitsSet = s.limitsSet)
    (hlimits : s'.perTaskConnectionsLimit = s.perTaskConnectionsLimit) : LimitsStay s' := by
  refine hs.sub hset hlimits fun _ l _ hb => ?_
  rw [hsession] at hb
  refine hb.of_sub (fun q hq _ => (inFlight_removeHandle s k c).1 ▸ hq) fun h t ht n hn => .inr ⟨t, ?_, hn⟩
  rcases removeHandle_session s k c with heq | ⟨_, _, heq⟩
  · rwa [heq] at ht
  · rwa [heq] at ht

/-- A call is executed: the add of a torrent was in flight. -/
theorem LimitsStay.exec {s : Worker H} (hs : LimitsStay s) {ses : Session H} {op : SessionOp H}
    {rest : List (SessionOp H)} (hops : s.session.ops = op :: rest) (hops' : ses.ops = rest)
    (halerts : ∀ p h, .added p h ∈ ses.alerts → .added p h ∈ s.session.alerts ∨ op = .add p)
    (htorrents : ∀ h t', ses.torrents.lookup h = some t' → ∀ n ∈ t'.adds,
      (∃ p, op = .add p ∧ p.purpose.serial = n) ∨
        ∃ t, s.session.torrents.lookup h = some t ∧ n ∈ t.adds) :
    LimitsStay { s with session := ses } := by
  have hfirst : ∀ p, op = .add p → p ∈ s.session.inFlight := by
    rintro p rfl
    exact mem_inFlight.mpr (.inl (by rw [hops]; exact List.mem_cons_self))
  refine hs.sub rfl rfl fun k l _ hb => hb.of_sub (fun p hp _ => ?_) fun h t' ht' n hn => ?_
  · rcases mem_inFlight.mp hp with hp | ⟨h, hp⟩
    · change .add p ∈ ses.ops at hp
      rw [hops'] at hp
      exact mem_inFlight.mpr (.inl (hops ▸ List.mem_cons_of_mem op hp))
    · rcases halerts p h hp with hp | hp
      · exact mem_inFlight.mpr (.inr ⟨h, hp⟩)
      · exact hfirst p hp
  · exact (htorrents h t' ht' n hn).imp_left fun ⟨p, hp, heq⟩ => ⟨p, hfirst p hp, heq⟩

/-- A limit is set. -/
theorem LimitsStay.setsLimit {s : Worker H} (hs : LimitsStay s) (k : TaskId) (limit : Int) :
    LimitsStay (handleSetTaskConnectionsLimit env s k limit) := by
  intro k' l hl hb
  have hset : (handleSetTaskConnectionsLimit env s k limit).limitsSet.lookup k' = some l := hl
  show (s.perTaskConnectionsLimit.insert k _).lookup k' = some l
  rcases Map.lookup_insert_cases hset with ⟨rfl, rfl⟩ | ⟨hne, hold⟩
  · rw [Map.lookup_insert, if_pos rfl]
  · rw [Map.lookup_insert, if_neg hne]
    exact hs k' l hold (hb.of_same (same_taskLimit env s k limit).kindOfPaused)

/-- An alert is taken off the queue. -/
theorem LimitsStay.pop {s : Worker H} (hs : LimitsStay s) (i : Nat) : LimitsStay (popAlert s i) :=
  hs.sub rfl rfl fun _ _ _ hb => hb.of_sub (fun _ hp _ => mem_inFlight_of_pop hp) fun _ t ht _ hn =>
    .inr ⟨t, ht, hn⟩

/-- A removal is heard of. -/
theorem limitsStay_removed {s : Worker H} (hs : LimitsStay s) (hnum : Numbered s) (i : Nat) (ih : H) :
    LimitsStay (handleRemoved env (popAlert s i) ih) ↔ LimitOk env s (.removed i ih) := by
  let key := env.taskIdFromInfoHashes ih
  have herased : ∀ k, (handleRemoved env (popAlert s i) ih).perTaskConnectionsLimit.lookup k =
      if k = key then none else s.perTaskConnectionsLimit.lookup k := fun k => Map.lookup_erase _ _ _
  constructor
  · intro hs' l hl hb
    have hnow := hs' key l (hnum.limits_sub key l hl) hb
    rw [herased, if_pos rfl] at hnow
    cases hnow
  · intro hok k l hl hb
    have hnow := hs.pop i k l hl hb
    rw [herased]
    by_cases hk : k = key
    · rw [hk] at hnow
      exact absurd hb (hok l hnow)
    · rw [if_neg hk]
      exact hnow

/-- The limits stay after a step exactly when it meets their condition. -/
theorem limitsStay_does {s s' : Worker H} {a : Act H} (hs : LimitsStay s) (hnum : Numbered s)
    (h : Does env s a s') : LimitsStay s' ↔ LimitOk env s a := by
  -- an alert other than one of an add is posted
  have hposts : ∀ {torrents : Map Handle (Torrent H)} {b : Alert H}, (∀ p h, b ≠ .added p h) →
      (∀ h t', torrents.lookup h = some t' →
        ∃ t, s.session.torrents.lookup h = some t ∧ t.adds = t'.adds) →
      LimitsStay { s with
        session := { s.session with torrents := torrents, alerts := s.session.alerts ++ [b] } } := by
    intro torrents b hb htorrents
    refine hs.sub rfl rfl fun k l _ hbelongs => hbelongs.of_sub (fun p hp _ => ?_) fun h t' ht' n hn => ?_
    · rcases mem_inFlight.mp hp with hp | ⟨h, hp⟩
      · exact mem_inFlight.mpr (.inl hp)
      · rcases List.mem_append.mp hp with hp | hp
        · exact mem_inFlight.mpr (.inr ⟨h, hp⟩)
        · exact absurd (List.mem_singleton.mp hp).symm (hb p h)
    · obtain ⟨t, ht, hadds⟩ := htorrents h t' ht'
      exact .inr ⟨t, ht, hadds ▸ hn⟩
  cases h with
  | quiet h => exact iff_of_true (hs.same h.session.forgetPaused.kindOfLimit h.limitsSet h.limits) trivial
  | flags k paused h =>
    exact iff_of_true (hs.same h.keeps.session.kindOfLimit h.keeps.limitsSet h.keeps.limits) trivial
  | adds rest p => exact iff_of_true (hs.issue hnum p rfl rfl rfl) trivial
  | stores rest p opts => exact iff_of_true (hs.issue hnum p rfl rfl rfl) trivial
  | files rest p entry => exact iff_of_true (hs.issue hnum p rfl rfl rfl) trivial
  | cancels k rest => exact iff_of_true (hs.removing k true rfl rfl rfl) trivial
  | finalizes k opts rest p =>
    have hdrop : LimitsStay (dropHandle s k false) := hs.removing k false rfl rfl rfl
    have hnum' : Numbered (dropHandle s k false) := hnum.removing k false rfl rfl rfl rfl
    exact iff_of_true (hdrop.issue hnum' p rfl rfl rfl) trivial
  | removes k rest => exact iff_of_true (hs.removing k false rfl rfl rfl) trivial
  | setsDefault limit rest =>
    exact iff_of_true (hs.same (same_defaultLimit { s with cmds := rest } limit).kindOfPaused rfl rfl) trivial
  | setsLimit k limit rest =>
    have hcmds : LimitsStay { s with cmds := rest } := hs
    exact iff_of_true (hcmds.setsLimit k limit) trivial
  | gives p rest h t hops ht =>
    refine iff_of_true (hs.exec hops rfl (fun q n hq => ?_) fun n u hu m hm => ?_) trivial
    · rcases List.mem_append.mp hq with hq | hq
      · exact .inl hq
      · cases List.mem_singleton.mp hq
        exact .inr rfl
    · rcases afterFound_lookup hu with ⟨rfl, rfl⟩ | ⟨_, hold⟩
      · rcases List.mem_append.mp hm with hm | hm
        · exact .inr ⟨t, ht, hm⟩
        · exact .inl ⟨p, rfl, (List.mem_singleton.mp hm).symm⟩
      · exact .inr ⟨u, hold, hm⟩
  | creates p rest hops =>
    refine iff_of_true (hs.exec hops rfl (fun q n hq => ?_) fun n u hu m hm => ?_) trivial
    · rcases List.mem_append.mp hq with hq | hq
      · exact .inl hq
      · cases List.mem_singleton.mp hq
        exact .inr rfl
    · rcases afterAdd_lookup hu with ⟨rfl, rfl⟩ | ⟨_, hold⟩
      · exact .inl ⟨p, rfl, (List.mem_singleton.mp hm).symm⟩
      · exact .inr ⟨u, hold, hm⟩
  | fails p rest message hops =>
    refine iff_of_true (hs.exec hops rfl (fun q n hq => .inl ?_) fun _ u hu _ hm => .inr ⟨u, hu, hm⟩) trivial
    simpa [afterFail] using hq
  | takesOut h c rest t hops ht =>
    refine iff_of_true (hs.exec hops rfl (fun q n hq => .inl ?_) fun n u hu _ hm => .inr ?_) trivial
    · simpa [afterRemove] using hq
    · exact ⟨u, (afterRemove_lookup hu).2, hm⟩
  | gone h c rest hops ht =>
    exact iff_of_true (hs.exec hops rfl (fun _ _ hq => .inl hq) fun _ u hu _ hm => .inr ⟨u, hu, hm⟩) trivial
  | reveals h t info ih ht =>
    refine iff_of_true (hposts (by simp) fun n u hu => ?_) trivial
    rcases Map.lookup_insert_cases hu with ⟨rfl, rfl⟩ | ⟨_, hold⟩
    · exact ⟨t, ht, rfl⟩
    · exact ⟨u, hold, rfl⟩
  | posts h hv => exact iff_of_true (hposts (by simp) fun _ u hu => ⟨u, hu, rfl⟩) trivial
  | added i p h ha =>
    exact iff_of_true
      ((hs.pop i).same (same_configureAdded (popAlert s i) (p.taskId env) h) rfl rfl) trivial
  | removed i ih h ha => exact limitsStay_removed hs hnum i ih
  | popped i a ha _ _ h =>
    exact iff_of_true ((hs.pop i).same h.session.forgetPaused.kindOfLimit h.limitsSet h.limits) trivial
  | polls h =>
    exact iff_of_true (hs.same h.keeps.session.kindOfLimit h.keeps.limitsSet h.keeps.limits) trivial

/-! ### The handles -/

/-- Handles are forgotten, and no removal is posted. -/
theorem HandlesStay.sub {s s' : Worker H} (hs : HandlesStay env s)
    (halerts : ∀ ih h₀, .removed ih h₀ ∈ s'.session.alerts → .removed ih h₀ ∈ s.session.alerts)
    (hhandles : ∀ k h, s'.handlesByTaskId.lookup k = some h → s.handlesByTaskId.lookup k = some h)
    (hvalid : ∀ k h, s.handlesByTaskId.lookup k = some h → s.session.isValid h = false →
      s'.session.isValid h = false) : HandlesStay env s' := by
  intro ih h₀ hmem h hh
  exact hvalid _ h (hhandles _ h hh) (hs ih h₀ (halerts ih h₀ hmem) h (hhandles _ h hh))

theorem HandlesStay.same {s s' : Worker H} (hs : HandlesStay env s)
    (h : Same kind s.session s'.session)
    (hhandles : ∀ k h, s'.handlesByTaskId.lookup k = some h → s.handlesByTaskId.lookup k = some h) :
    HandlesStay env s' :=
  hs.sub (fun _ _ ha => h.alerts ▸ ha) hhandles fun _ n _ hv => (h.isValid n).trans hv

/-- A call is queued. -/
theorem HandlesStay.queue {s s' : Worker H} (hs : HandlesStay env s)
    (halerts : s'.session.alerts = s.session.alerts) (htorrents : s'.session.torrents = s.session.torrents)
    (hhandles : ∀ k h, s'.handlesByTaskId.lookup k = some h → s.handlesByTaskId.lookup k = some h) :
    HandlesStay env s' := by
  refine hs.sub (fun _ _ ha => halerts ▸ ha) hhandles fun _ n _ hv => ?_
  unfold isValid at hv ⊢
  rw [htorrents]
  exact hv

theorem HandlesStay.removing {s s' : Worker H} (hs : HandlesStay env s) (k : TaskId) (c : Bool)
    (hsession : s'.session = (removeHandle s k c).session)
    (hhandles : ∀ k h, s'.handlesByTaskId.lookup k = some h → s.handlesByTaskId.lookup k = some h) :
    HandlesStay env s' := by
  have hremove := removeHandle_session s k c
  rw [← hsession] at hremove
  rcases hremove with heq | ⟨h, _, heq⟩
  · exact hs.same (by rw [heq]; exact .refl _) hhandles
  · exact hs.queue (by rw [heq]; rfl) (by rw [heq]; rfl) hhandles

/-- A torrent is taken out. -/
theorem handlesStay_takesOut {s : Worker H} (hs : HandlesStay env s) {h : Handle} {c : Bool}
    {rest : List (SessionOp H)} {t : Torrent H} (ht : s.session.torrents.lookup h = some t) :
    HandlesStay env { s with session := s.session.afterRemove rest h c t } ↔
      HandleOk env s (.takesOut h) := by
  have hvalid : ∀ n, (s.session.afterRemove rest h c t).isValid n = true ↔
      n ≠ h ∧ s.session.isValid n = true := by
    intro n
    unfold isValid afterRemove
    rw [Map.lookup_erase]
    by_cases hn : n = h
    · simp [hn]
    · simp [hn]
  have hposted : .removed t.infoHashes h ∈ (s.session.afterRemove rest h c t).alerts :=
    List.mem_append_right _ (List.mem_singleton_self _)
  constructor
  · intro hs' u hu h' hh'
    cases Option.some.inj (hu.symm.trans ht)
    have hgone := hs' t.infoHashes h hposted h' hh'
    refine or_iff_not_imp_left.mpr fun hne => Bool.eq_false_iff.mpr fun hv => ?_
    rw [(hvalid h').mpr ⟨hne, hv⟩] at hgone
    cases hgone
  · intro hok ih h₀ hmem n hn
    refine Bool.eq_false_iff.mpr fun hv => ?_
    obtain ⟨hne, hv⟩ := (hvalid n).mp hv
    rcases List.mem_append.mp hmem with hmem | hmem
    · rw [hs ih h₀ hmem n hn] at hv
      cases hv
    · cases List.mem_singleton.mp hmem
      rcases hok t ht n hn with heq | hinvalid
      · exact hne heq
      · rw [hinvalid] at hv
        cases hv

/-- The handle of an added torrent is stored. -/
theorem handlesStay_added {s : Worker H} (hs : HandlesStay env s) {i : Nat} {p : AddParams H} {h : Handle}
    (ha : s.session.alerts[i]? = some (.added p h)) :
    HandlesStay env (handleAdded env (popAlert s i) p h) ↔ HandleOk env s (.added i p h) := by
  have hsame := same_configureAdded (popAlert s i) (p.taskId env) h
  have hvalid : ∀ n, (handleAdded env (popAlert s i) p h).session.isValid n = s.session.isValid n :=
    hsame.isValid
  have hlookup : ∀ k, (handleAdded env (popAlert s i) p h).handlesByTaskId.lookup k =
      if k = p.taskId env then some h else s.handlesByTaskId.lookup k := fun k => Map.lookup_insert _ _ _ _
  have halerts : (handleAdded env (popAlert s i) p h).session.alerts = (popAlert s i).session.alerts :=
    hsame.alerts
  constructor
  · intro hs' hv ih h₀ hmem hid
    have hmem' := (mem_popAlert ha hmem).resolve_left (by simp)
    have hgone := hs' ih h₀ (halerts ▸ hmem') h (by rw [hlookup, if_pos hid])
    rw [hvalid, hv] at hgone
    cases hgone
  · intro hok ih h₀ hmem n hn
    rw [halerts] at hmem
    have hmem' := mem_of_popAlert hmem
    rw [hvalid]
    rw [hlookup] at hn
    by_cases hid : env.taskIdFromInfoHashes ih = p.taskId env
    · rw [if_pos hid] at hn
      cases hn
      exact Bool.eq_false_iff.mpr fun hv => hok hv ih h₀ hmem' hid
    · rw [if_neg hid] at hn
      exact hs ih h₀ hmem' n hn

/-- The handles stay after a step exactly when it meets their condition. -/
theorem handlesStay_does {s s' : Worker H} {a : Act H} (hs : HandlesStay env s) (hsound : Sound env s)
    (h : Does env s a s') : HandlesStay env s' ↔ HandleOk env s a := by
  have hpop : ∀ i, HandlesStay env (popAlert s i) := fun i =>
    hs.sub (fun _ _ ha => mem_of_popAlert ha) (fun _ _ hk => hk) fun _ _ _ hv => hv
  -- the same handles are valid, and no removal is posted
  have hkept : ∀ {ses : Session H},
      (∀ ih h₀, .removed ih h₀ ∈ ses.alerts → .removed ih h₀ ∈ s.session.alerts) →
      (∀ h, h < s.session.floor → s.session.isValid h = false → ses.isValid h = false) →
      HandlesStay env { s with session := ses } := fun halerts hvalid =>
    hs.sub halerts (fun _ _ hk => hk) fun k h hk => hvalid h (hsound.handles_lt k h hk)
  have hinsert : ∀ {n h : Handle} {u : Torrent H}, n ≠ h → s.session.isValid n = false →
      ((s.session.torrents.insert h u).lookup n).isSome = false := by
    intro n h u hne hv
    rw [Map.lookup_insert, if_neg hne]
    exact hv
  have hlive : ∀ {n h : Handle} {t : Torrent H}, s.session.torrents.lookup h = some t →
      s.session.isValid n = false → n ≠ h := by
    rintro n h t ht hv rfl
    rw [(s.session.isValid_iff n).mpr ⟨t, ht⟩] at hv
    cases hv
  cases h with
  | quiet h =>
    exact iff_of_true (hs.same h.session.forgetPaused.kindOfLimit fun _ _ hk => h.handles ▸ hk) trivial
  | flags k paused h =>
    exact iff_of_true (hs.same h.keeps.session.kindOfLimit fun _ _ hk => h.keeps.handles ▸ hk) trivial
  | adds rest p => exact iff_of_true (hs.queue rfl rfl fun _ _ hk => hk) trivial
  | stores rest p opts => exact iff_of_true (hs.queue rfl rfl fun _ _ hk => hk) trivial
  | files rest p entry => exact iff_of_true (hs.queue rfl rfl fun _ _ hk => hk) trivial
  | cancels k rest =>
    exact iff_of_true (hs.removing k true rfl fun _ _ hk => (Map.lookup_erase_some hk).2) trivial
  | finalizes k opts rest p =>
    have hdrop : HandlesStay env (dropHandle s k false) :=
      hs.removing k false rfl fun _ _ hk => (Map.lookup_erase_some hk).2
    exact iff_of_true (hdrop.queue rfl rfl fun _ _ hk => hk) trivial
  | removes k rest => exact iff_of_true (hs.removing k false rfl fun _ _ hk => hk) trivial
  | setsDefault limit rest =>
    exact iff_of_true
      (hs.same (same_defaultLimit { s with cmds := rest } limit).kindOfPaused fun _ _ hk => hk) trivial
  | setsLimit k limit rest =>
    exact iff_of_true
      (hs.same (same_taskLimit env { s with cmds := rest } k limit).kindOfPaused fun _ _ hk => hk) trivial
  | gives p rest h t hops ht =>
    exact iff_of_true (hkept (by simp [afterFound]) fun n _ hv => hinsert (hlive ht hv) hv) trivial
  | creates p rest hops =>
    refine iff_of_true (hkept (by simp [afterAdd]) fun n hlt hv => hinsert ?_ hv) trivial
    rw [((hsound.session.popOp hops).2.2 p rfl).1] at hlt
    exact hlt.ne
  | fails p rest message hops =>
    exact iff_of_true (hkept (by simp [afterFail]) fun _ _ hv => hv) trivial
  | takesOut h c rest t hops ht => exact handlesStay_takesOut hs ht
  | gone h c rest hops ht => exact iff_of_true (hkept (fun _ _ ha => ha) fun _ _ hv => hv) trivial
  | reveals h t info ih ht =>
    exact iff_of_true (hkept (by simp) fun n _ hv => hinsert (hlive ht hv) hv) trivial
  | posts h hv => exact iff_of_true (hkept (by simp) fun _ _ hv => hv) trivial
  | added i p h ha => exact handlesStay_added hs ha
  | removed i ih h ha =>
    exact iff_of_true ((hpop i).sub (fun _ _ ha => ha) (fun _ _ hk => (Map.lookup_erase_some hk).2)
      fun _ _ _ hv => hv) trivial
  | popped i a ha _ _ h =>
    exact iff_of_true
      ((hpop i).same h.session.forgetPaused.kindOfLimit fun _ _ hk => h.handles ▸ hk) trivial
  | polls h =>
    exact iff_of_true (hs.same h.keeps.session.kindOfLimit fun _ _ hk => h.keeps.handles ▸ hk) trivial

/-! ### Runs -/

theorem undisturbed_empty : Undisturbed env ({} : Worker H) where
  waiting := ⟨by simp [Session.inFlight], by simp⟩
  limits := by simp [LimitsStay]
  handles := by simp [HandlesStay]

/-- A prepared magnet is finalised, up to the alert that the preparation's torrent was removed. -/
def finalizedMagnet : List (Label InfoHash) :=
  [.prepare oneMagnet "/tmp" [], .command, .session .created, .alert 0,
    .metadata 0 (some oneTorrentInfo) hybridMagnet, .alert 0,
    .enqueue (.finalizePreparedMagnet (taskIdFromInfoHashes tailEnv hybridMagnet) "/tmp" [] {}), .command,
    .session .created, .session .created, .alert 0]

end TorrentLink.Lt
