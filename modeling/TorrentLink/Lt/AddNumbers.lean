import TorrentLink.Lt.WorkerFacts

/-!
# The numbers of adds

Each add has a number, and what the worker keeps for an add (its options, the limit set for it) is kept
with it. The numbers of adds that succeeded are below those in the queue, and no two entries of
`pendingAddOpts` have one number (`Numbered`).
-/

namespace TorrentLink.Lt

open Lib Session

variable {H : Type}

/-! ### Adds in flight -/

theorem mem_inFlight {s : Session H} {p : AddParams H} :
    p ∈ s.inFlight ↔ .add p ∈ s.ops ∨ ∃ h, .added p h ∈ s.alerts := by
  unfold inFlight
  rw [List.mem_append, List.mem_filterMap, List.mem_filterMap]
  constructor
  · rintro (⟨op, hop, hp⟩ | ⟨a, ha, hp⟩)
    · cases op with
      | add q => exact .inl (Option.some.inj hp ▸ hop)
      | remove h c => cases hp
    · cases a with
      | added q h => exact .inr ⟨h, Option.some.inj hp ▸ ha⟩
      | _ => cases hp
  · rintro (hop | ⟨h, ha⟩)
    · exact .inl ⟨_, hop, rfl⟩
    · exact .inr ⟨_, ha, rfl⟩

/-! ### What is numbered -/

/-- The add was issued, and has not failed. -/
def Session.Issued (s : Session H) (p : AddParams H) : Prop :=
  .add p ∈ s.ops ∨ ∃ h, (p, h) ∈ s.succeeded

/-- What is kept of adds has the numbers of adds that were issued, and each number is kept once. -/
structure Numbered (s : Worker H) : Prop where
  succeeded_lt : ∀ p h, (p, h) ∈ s.session.succeeded → p.purpose.serial < s.session.floor
  alerts_succeeded : ∀ p h, .added p h ∈ s.session.alerts → (p, h) ∈ s.session.succeeded
  opts_lt : ∀ k e, s.pendingAddOpts.lookup k = some e → e.serial < s.session.nextSerial
  opts_unique : ∀ k e, s.pendingAddOpts.lookup k = some e → ∀ k' e',
    s.pendingAddOpts.lookup k' = some e' → e.serial = e'.serial → k = k'
  opts_stored : ∀ k e, s.pendingAddOpts.lookup k = some e → ∀ p, s.session.Issued p →
    p.purpose.serial = e.serial → p.purpose.storesOpts = true
  limits_lt : ∀ k l, s.limitsSet.lookup k = some l → ∀ n ∈ l.owners, n < s.session.nextSerial
  limits_sub : ∀ k l, s.perTaskConnectionsLimit.lookup k = some l → s.limitsSet.lookup k = some l

variable {env : WorkerEnv H}

theorem Numbered.issued_lt {s : Worker H} (hs : Numbered s) (hsound : s.session.Sound) {p : AddParams H}
    (hp : s.session.Issued p) : p.purpose.serial < s.session.nextSerial := by
  rcases hp with hp | ⟨h, hp⟩
  · exact hsound.queued_lt hp
  · exact (hs.succeeded_lt p h hp).trans_le hsound.floor_le_nextSerial

theorem Numbered.inFlight_issued {s : Worker H} (hs : Numbered s) {p : AddParams H}
    (hp : p ∈ s.session.inFlight) : s.session.Issued p := by
  rcases mem_inFlight.mp hp with hp | ⟨h, hp⟩
  · exact .inl hp
  · exact .inr ⟨h, hs.alerts_succeeded p h hp⟩

/-- Nothing is issued, no add succeeds, and nothing new is kept. -/
theorem Numbered.sub {s s' : Worker H} (hs : Numbered s)
    (hsucceeded : s'.session.succeeded = s.session.succeeded)
    (hfloor : s.session.floor ≤ s'.session.floor)
    (hnext : s'.session.nextSerial = s.session.nextSerial)
    (hops : ∀ p, .add p ∈ s'.session.ops → .add p ∈ s.session.ops)
    (halerts : ∀ p h, .added p h ∈ s'.session.alerts → .added p h ∈ s.session.alerts)
    (hopts : ∀ k e, s'.pendingAddOpts.lookup k = some e → s.pendingAddOpts.lookup k = some e)
    (hset : s'.limitsSet = s.limitsSet)
    (hlimits : ∀ k l, s'.perTaskConnectionsLimit.lookup k = some l →
      s.perTaskConnectionsLimit.lookup k = some l) : Numbered s' where
  succeeded_lt p h hp := (hs.succeeded_lt p h (hsucceeded ▸ hp)).trans_le hfloor
  alerts_succeeded p h hmem := by
    rw [hsucceeded]
    exact hs.alerts_succeeded p h (halerts p h hmem)
  opts_lt k e he := by
    rw [hnext]
    exact hs.opts_lt k e (hopts k e he)
  opts_unique k e he k' e' he' := hs.opts_unique k e (hopts k e he) k' e' (hopts k' e' he')
  opts_stored k e he p hp := by
    refine hs.opts_stored k e (hopts k e he) p ?_
    unfold Issued at hp ⊢
    rw [hsucceeded] at hp
    exact hp.imp_left (hops p)
  limits_lt k l hl := by
    rw [hnext]
    exact hs.limits_lt k l (hset ▸ hl)
  limits_sub k l hl := by
    rw [hset]
    exact hs.limits_sub k l (hlimits k l hl)

/-- Calls on handles are made. -/
theorem Numbered.calls {s s' : Worker H} (hs : Numbered s) (hsame : Same kind s.session s'.session)
    (hopts : ∀ k e, s'.pendingAddOpts.lookup k = some e → s.pendingAddOpts.lookup k = some e)
    (hset : s'.limitsSet = s.limitsSet)
    (hlimits : ∀ k l, s'.perTaskConnectionsLimit.lookup k = some l →
      s.perTaskConnectionsLimit.lookup k = some l) : Numbered s' := by
  refine hs.sub hsame.succeeded hsame.floor.ge hsame.nextSerial ?_ ?_ hopts hset hlimits
  · rw [hsame.ops]
    exact fun _ hp => hp
  · rw [hsame.alerts]
    exact fun _ _ hp => hp

theorem Numbered.same {s s' : Worker H} (hs : Numbered s) (h : Keeps kindLimit s s') : Numbered s' :=
  hs.calls h.session.kindOfLimit (fun _ _ he => h.opts ▸ he) h.limitsSet fun _ _ hl => h.limits ▸ hl

/-- A removal is queued. -/
theorem Numbered.removing {s s' : Worker H} (hs : Numbered s) (k : TaskId) (c : Bool)
    (hsession : s'.session = (removeHandle s k c).session) (hopts : s'.pendingAddOpts = s.pendingAddOpts)
    (hset : s'.limitsSet = s.limitsSet)
    (hlimits : s'.perTaskConnectionsLimit = s.perTaskConnectionsLimit) : Numbered s' := by
  have hremove := removeHandle_session s k c
  rw [← hsession] at hremove
  rcases hremove with heq | ⟨h, _, heq⟩
  · exact hs.calls (by rw [heq]; exact .refl _) (fun _ _ he => hopts ▸ he) hset fun _ _ hl =>
      hlimits ▸ hl
  · refine hs.sub (by rw [heq]; rfl) (by rw [heq, floor_removeTorrent]) (by rw [heq]; rfl) (fun p hp => ?_)
      (fun p n hn => ?_) (fun _ _ he => hopts ▸ he) hset fun _ _ hl => hlimits ▸ hl
    · rw [heq] at hp
      simpa [removeTorrent] using hp
    · rw [heq] at hn
      exact hn

/-- The add as it is queued. -/
def numbered (s : Session H) (p : AddParams H) : AddParams H :=
  { p with purpose := { p.purpose with serial := s.nextSerial } }

theorem mem_ops_asyncAdd {s : Session H} {p q : AddParams H} :
    .add q ∈ (s.asyncAddTorrent p).ops ↔ .add q ∈ s.ops ∨ q = numbered s p := by
  simp [asyncAddTorrent, numbered]

theorem mem_inFlight_asyncAdd {s : Session H} {p q : AddParams H} :
    q ∈ (s.asyncAddTorrent p).inFlight ↔ q ∈ s.inFlight ∨ q = numbered s p := by
  rw [mem_inFlight, mem_inFlight, mem_ops_asyncAdd]
  exact or_right_comm

/-- An add is issued, and its options may be stored. -/
theorem Numbered.issue {s s' : Worker H} (hs : Numbered s) (hsound : s.session.Sound)
    (p : AddParams H) (hsession : s'.session = s.session.asyncAddTorrent p)
    (hopts : s'.pendingAddOpts = s.pendingAddOpts ∨ p.purpose.storesOpts = true ∧
      ∃ k o, s'.pendingAddOpts = s.pendingAddOpts.insert k ⟨o, s.session.nextSerial⟩)
    (hset : s'.limitsSet = s.limitsSet)
    (hlimits : s'.perTaskConnectionsLimit = s.perTaskConnectionsLimit) : Numbered s' := by
  have hnext : s'.session.nextSerial = s.session.nextSerial + 1 := by rw [hsession]; rfl
  have hissued : ∀ q, s'.session.Issued q → s.session.Issued q ∨ q = numbered s.session p := by
    intro q hq
    rw [hsession] at hq
    rcases hq with hq | hq
    · exact (mem_ops_asyncAdd.mp hq).imp_left .inl
    · exact .inl (.inr hq)
  -- an entry was there, or has the number of the add
  have hentry : ∀ k e, s'.pendingAddOpts.lookup k = some e → s.pendingAddOpts.lookup k = some e ∨
      e.serial = s.session.nextSerial ∧ p.purpose.storesOpts = true ∧
        ∀ k' e', s'.pendingAddOpts.lookup k' = some e' → e'.serial = s.session.nextSerial → k' = k := by
    intro k e he
    rcases hopts with heq | ⟨hstores, key, o, heq⟩
    · exact .inl (heq ▸ he)
    · rw [heq] at he ⊢
      rcases Map.lookup_insert_cases he with ⟨rfl, rfl⟩ | ⟨_, he⟩
      · refine .inr ⟨rfl, hstores, fun k' e' he' hserial => ?_⟩
        rcases Map.lookup_insert_cases he' with ⟨rfl, _⟩ | ⟨_, he'⟩
        · rfl
        · exact absurd (hserial ▸ hs.opts_lt k' e' he') (lt_irrefl _)
      · exact .inl he
  refine ⟨?_, ?_, fun k e he => ?_, fun k e he k' e' he' heq => ?_, fun k e he q hq hserial => ?_,
    fun k l hl n hn => ?_, ?_⟩
  · rw [hsession, floor_asyncAdd]
    exact hs.succeeded_lt
  · rw [hsession]
    exact hs.alerts_succeeded
  · rw [hnext]
    rcases hentry k e he with he | ⟨he, _⟩
    · exact Nat.lt_succ_of_lt (hs.opts_lt k e he)
    · exact he ▸ Nat.lt_succ_self _
  · rcases hentry k e he with hold | ⟨hnew, _, hunique⟩
    · rcases hentry k' e' he' with hold' | ⟨hnew', _, hunique'⟩
      · exact hs.opts_unique k e hold k' e' hold' heq
      · exact hunique' k e he (heq.trans hnew')
    · exact (hunique k' e' he' (heq.symm.trans hnew)).symm
  · rcases hissued q hq with hold | rfl
    · rcases hentry k e he with he | ⟨hnew, _⟩
      · exact hs.opts_stored k e he q hold hserial
      · exact absurd (hserial.trans hnew) (hs.issued_lt hsound hold).ne
    · rcases hentry k e he with he | ⟨_, hstores, _⟩
      · exact absurd (hs.opts_lt k e he) (hserial ▸ lt_irrefl _)
      · exact hstores
  · rw [hnext]
    exact Nat.lt_succ_of_lt (hs.limits_lt k l (hset ▸ hl) n hn)
  · rw [hlimits, hset]
    exact hs.limits_sub

/-- An add succeeds. -/
theorem Numbered.answers {s : Worker H} (hs : Numbered s) (hsound : s.session.Sound) {ses : Session H}
    {p : AddParams H} {rest : List (SessionOp H)} {h : Handle} (hops : s.session.ops = .add p :: rest)
    (hops' : ses.ops = rest) (halerts : ses.alerts = s.session.alerts ++ [.added p h])
    (hnext : ses.nextSerial = s.session.nextSerial)
    (hsucceeded : ses.succeeded = s.session.succeeded ++ [(p, h)]) :
    Numbered { s with session := ses } := by
  obtain ⟨_, hle, hfirst⟩ := hsound.popOp hops
  obtain ⟨heq, hlt⟩ := hfirst p rfl
  have hfloor : ses.floor = floor { s.session with ops := rest } := by
    unfold floor serials
    rw [hops', hnext]
  have hqueued : .add p ∈ s.session.ops := by
    rw [hops]
    exact List.mem_cons_self
  have hmem : ∀ q n, (q, n) ∈ ses.succeeded → (q, n) ∈ s.session.succeeded ∨ q = p ∧ n = h := by
    intro q n hq
    rw [hsucceeded] at hq
    exact (List.mem_append.mp hq).imp_right fun hq => Prod.mk.inj (List.mem_singleton.mp hq)
  refine ⟨fun q n hq => ?_, fun q n hq => ?_, fun k e he => hnext ▸ hs.opts_lt k e he, hs.opts_unique,
    fun k e he q hq hserial => ?_, fun k l hl n hn => hnext ▸ hs.limits_lt k l hl n hn, hs.limits_sub⟩
  · show q.purpose.serial < ses.floor
    rw [hfloor]
    rcases hmem q n hq with hq | ⟨rfl, rfl⟩
    · exact (hs.succeeded_lt q n hq).trans_le hle
    · exact heq ▸ hlt
  · change .added q n ∈ ses.alerts at hq
    show (q, n) ∈ ses.succeeded
    rw [halerts] at hq
    rw [hsucceeded]
    rcases List.mem_append.mp hq with hq | hq
    · exact List.mem_append_left _ (hs.alerts_succeeded q n hq)
    · cases List.mem_singleton.mp hq
      exact List.mem_append_right _ (List.mem_singleton_self _)
  · refine hs.opts_stored k e he q ?_ hserial
    rcases hq with hq | ⟨n, hq⟩
    · change .add q ∈ ses.ops at hq
      rw [hops'] at hq
      exact .inl (hops ▸ List.mem_cons_of_mem _ hq)
    · rcases hmem q n hq with hq | ⟨rfl, _⟩
      · exact .inr ⟨n, hq⟩
      · exact .inl hqueued

/-- A limit is set, for adds that were issued. -/
theorem Numbered.setsLimit {s : Worker H} (hs : Numbered s) (hsound : s.session.Sound) (k : TaskId)
    (limit : Int) : Numbered (handleSetTaskConnectionsLimit env s k limit) := by
  have hsame := (same_taskLimit env s k limit).kindOfPaused
  have hmid : Numbered { s with session := (handleSetTaskConnectionsLimit env s k limit).session } :=
    hs.calls hsame (fun _ _ he => he) rfl fun _ _ hl => hl
  have howners : ∀ n ∈ s.session.owners env k, n < s.session.nextSerial := by
    intro n hn
    rcases List.mem_append.mp hn with hn | hn
    · obtain ⟨p, hp, rfl⟩ := List.mem_map.mp hn
      exact hs.issued_lt hsound (hs.inFlight_issued (List.mem_filter.mp hp).1)
    · obtain ⟨e, he, rfl⟩ := List.mem_map.mp hn
      have ht := AList.mem_lookup_iff.mpr (List.mem_filter.mp he).1
      exact (hsound.torrents_lt e.1 e.2 ht).trans_le hsound.floor_le_nextSerial
  refine ⟨hmid.succeeded_lt, hmid.alerts_succeeded, hmid.opts_lt, hmid.opts_unique, hmid.opts_stored, ?_, ?_⟩
  · intro k' l hl n hn
    rw [hsame.nextSerial]
    rcases Map.lookup_insert_cases hl with ⟨_, rfl⟩ | ⟨_, hl⟩
    · exact howners n hn
    · exact hs.limits_lt k' l hl n hn
  · intro k' l hl
    show (s.limitsSet.insert k _).lookup k' = some l
    rcases Map.lookup_insert_cases hl with ⟨rfl, rfl⟩ | ⟨hne, hl⟩
    · rw [Map.lookup_insert, if_pos rfl]
    · rw [Map.lookup_insert, if_neg hne]
      exact hs.limits_sub k' l hl

theorem numbered_does {s s' : Worker H} {a : Act H} (hs : Numbered s) (hsound : Sound env s)
    (h : Does env s a s') : Numbered s' := by
  have hsame : ∀ {ses : Session H}, Same kind s.session ses → Numbered { s with session := ses } :=
    fun h => hs.calls h (fun _ _ he => he) rfl fun _ _ hl => hl
  -- a call is executed that is no successful add
  have hrest : ∀ {op : SessionOp H} {rest : List (SessionOp H)} {ses : Session H},
      s.session.ops = op :: rest → ses.ops = rest → ses.nextSerial = s.session.nextSerial →
      ses.succeeded = s.session.succeeded →
      (∀ p n, .added p n ∈ ses.alerts → .added p n ∈ s.session.alerts) →
      Numbered { s with session := ses } := by
    intro op rest ses hops hops' hnext hsucceeded halerts
    refine hs.sub hsucceeded ?_ hnext (fun p hp => ?_) halerts (fun _ _ he => he) rfl fun _ _ hl => hl
    · have hle := (hsound.session.popOp hops).2.1
      unfold floor serials at hle ⊢
      rw [hops', hnext]
      exact hle
    · change .add p ∈ ses.ops at hp
      rw [hops'] at hp
      exact hops ▸ List.mem_cons_of_mem op hp
  have hpop : ∀ i, Numbered (popAlert s i) := fun i =>
    hs.sub rfl (le_refl _) rfl (fun _ hp => hp) (fun _ _ ha => mem_of_popAlert ha) (fun _ _ he => he) rfl
      fun _ _ hl => hl
  cases h with
  | quiet h => exact hs.same h.forgetPaused
  | flags k paused h => exact hs.same h.keeps
  | adds rest p => exact hs.issue hsound.session p rfl (.inl rfl) rfl rfl
  | stores rest p opts _ hopts =>
    exact hs.issue hsound.session p rfl (.inr ⟨hopts, p.taskId env, opts, rfl⟩) rfl rfl
  | files rest p entry => exact hs.issue hsound.session p rfl (.inl rfl) rfl rfl
  | cancels k rest => exact hs.removing k true rfl rfl rfl rfl
  | finalizes k opts rest p hp =>
    have hdrop : Numbered (dropHandle s k false) := hs.removing k false rfl rfl rfl rfl
    have hsound' : Sound env (dropHandle s k false) :=
      hsound.removing k false rfl fun _ _ hk => (Map.lookup_erase_some hk).2
    refine hdrop.issue hsound'.session p rfl (.inr ⟨by rw [hp], k, opts, rfl⟩) rfl rfl
  | removes k rest => exact hs.removing k false rfl rfl rfl rfl
  | setsDefault limit rest =>
    exact hs.calls (same_defaultLimit { s with cmds := rest } limit).kindOfPaused (fun _ _ he => he) rfl
      fun _ _ hl => hl
  | setsLimit k limit rest =>
    have hcmds : Numbered { s with cmds := rest } :=
      hs.calls (.refl _) (fun _ _ he => he) rfl fun _ _ hl => hl
    exact hcmds.setsLimit hsound.session k limit
  | gives p rest h t hops ht => exact hs.answers hsound.session hops rfl rfl rfl rfl
  | creates p rest hops => exact hs.answers hsound.session hops rfl rfl rfl rfl
  | fails p rest message hops => exact hrest hops rfl rfl rfl (by simp [afterFail])
  | takesOut h c rest t hops ht => exact hrest hops rfl rfl rfl (by simp [afterRemove])
  | gone h c rest hops ht => exact hrest hops rfl rfl rfl fun _ _ ha => ha
  | reveals h t info ih ht =>
    exact hs.sub rfl (le_refl _) rfl (fun _ hp => hp) (by simp) (fun _ _ he => he) rfl fun _ _ hl => hl
  | posts h hv =>
    exact hs.sub rfl (le_refl _) rfl (fun _ hp => hp) (by simp) (fun _ _ he => he) rfl fun _ _ hl => hl
  | added i p h ha =>
    exact (hpop i).calls (same_configureAdded (popAlert s i) (p.taskId env) h)
      (fun _ _ he => (Map.lookup_erase_some he).2) rfl fun _ _ hl => hl
  | removed i ih h ha =>
    exact (hpop i).calls (.refl _) (fun _ _ he => (Map.lookup_erase_some he).2) rfl
      fun _ _ hl => (Map.lookup_erase_some hl).2
  | popped i a ha _ _ h => exact (hpop i).same h.forgetPaused
  | polls h => exact hs.same h.keeps

theorem numbered_empty : Numbered ({} : Worker H) where
  succeeded_lt := by simp
  alerts_succeeded := by simp
  opts_lt := by simp
  opts_unique := by simp
  opts_stored := by simp
  limits_lt := by simp
  limits_sub := by simp

end TorrentLink.Lt
