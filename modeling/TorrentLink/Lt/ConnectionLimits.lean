import TorrentLink.Lt.WorkerFacts

/-!
# Connection limits

A torrent's limit is written when the default changes, when its task gets a limit of its own, and when
the alert of an add is handled; the worker's own limits are forgotten when the alert of a removal is
handled. The record `OwnLimits` says what was asked for: SetTaskConnectionsLimit sets the limit of the
torrents that have the id, or of the next one to get it, and the limit goes with its torrent. Whatever
the session answers, each torrent whose handle the worker has keeps its own limit, or the default, all
along a run exactly when every step meets `LimitsOk` (`limits_hold_iff`).
-/

namespace TorrentLink.Lt

open Lib Session

variable {H : Type}

/-! ### Limits -/

/-- The same limit: values from 0 down mean unlimited. -/
def SameLimit (a b : Int) : Prop := a = b ∨ a ≤ 0 ∧ b ≤ 0

instance (a b : Int) : Decidable (SameLimit a b) := inferInstanceAs (Decidable (_ ∨ _))

theorem SameLimit.refl (a : Int) : SameLimit a a := .inl rfl

theorem SameLimit.symm {a b : Int} (h : SameLimit a b) : SameLimit b a :=
  h.imp Eq.symm And.symm

/-- The limit that a command sets. -/
def clampLimit (limit : Int) : Int := max 0 (min limit 20000)

/-! ### Own limits -/

/-- The limits that torrents have of their own, and those set for the next torrent of an id. -/
structure OwnLimits where
  own : Handle → Option Int := fun _ => none
  waiting : TaskId → Option Int := fun _ => none

/-- A torrent gets the limit that waits for its id. -/
def OwnLimits.take (r : OwnLimits) (h : Handle) (k : TaskId) : OwnLimits where
  own n := if n = h then r.waiting k <|> r.own h else r.own n
  waiting j := if j = k then none else r.waiting j

variable (env : WorkerEnv H)

/-- A torrent has the id. -/
def Session.Has (s : Session H) (k : TaskId) : Prop :=
  ∃ e ∈ s.torrents.entries, e.2.knownAs env k = true

instance (s : Session H) (k : TaskId) : Decidable (s.Has env k) := by
  unfold Session.Has
  infer_instance

/-- An add with the id is to be executed. -/
def Session.Queued (s : Session H) (k : TaskId) : Prop :=
  ∃ p ∈ s.ops.filterMap SessionOp.params, p.taskId env = k

instance (s : Session H) (k : TaskId) : Decidable (s.Queued env k) := by
  unfold Session.Queued
  infer_instance

/-- A limit is set for the torrents that have the id. If there is none, or an add with the id is to be
executed, it waits for the next torrent. -/
def OwnLimits.set (r : OwnLimits) (s : Session H) (k : TaskId) (limit : Int) : OwnLimits where
  own h :=
    match s.torrents.lookup h with
    | some t => if t.knownAs env k then some limit else r.own h
    | none => r.own h
  waiting j :=
    if j = k then if s.Has env k ∧ ¬ s.Queued env k then none else some limit else r.waiting j

/-- A torrent's own limit goes with it. -/
def OwnLimits.drop (r : OwnLimits) (h : Handle) : OwnLimits :=
  { r with own := fun n => if n = h then none else r.own n }

def OwnLimits.after (r : OwnLimits) (s : Session H) : Act H → OwnLimits
  | .setsLimit k limit => r.set env s k (clampLimit limit)
  | .gives p h => r.take h (p.taskId env)
  | .creates p => r.take p.purpose.serial (p.taskId env)
  | .reveals h ih => r.take h (env.taskIdFromInfoHashes ih)
  | .takesOut h => r.drop h
  | _ => r

/-- The worker and the record of the own limits. -/
abbrev Watched (H : Type) := Worker H × OwnLimits

/-- The worker's step, with the record. -/
def watch : Watched H → Label H → Watched H :=
  recorded (step env) fun s r l => r.after env s.session (act env s l)

/-- The torrent's own limit, or the default. -/
def expected (w : Watched H) (h : Handle) : Int :=
  (w.2.own h).getD w.1.defaultPerTorrentConnectionsLimit

/-- The worker has the torrent's handle. -/
def Held (s : Worker H) (h : Handle) (t : Torrent H) : Prop :=
  (∃ k, s.handlesByTaskId.lookup k = some h) ∧ s.session.torrents.lookup h = some t

/-- Each torrent whose handle the worker has has its own limit, or the default if it has none. -/
def LimitsHold (w : Watched H) : Prop :=
  ∀ h t, Held w.1 h t → SameLimit t.maxConnections (expected w h)

/-- The limit that the handler of an add's alert gives the torrent. -/
def addedLimit (s : Worker H) (key : TaskId) (t : Torrent H) : Int :=
  match s.perTaskConnectionsLimit.lookup key with
  | some l => l.limit
  | none =>
    if 0 < s.defaultPerTorrentConnectionsLimit then s.defaultPerTorrentConnectionsLimit
    else t.maxConnections

/-- A new default finds no torrent with another limit of its own. A limit set for an id reaches the
torrents that have it, or they have the same limit. A torrent that gets an id has the limit that waits
for it. The worker's limit for the id of an add, or the default, is the own limit of the add's torrent,
or the default if it has none. -/
def LimitsOk (w : Watched H) : Act H → Prop
  | .setsDefault limit => ∀ h t, Held w.1 h t → ∀ own ∈ w.2.own h, SameLimit own (clampLimit limit)
  | .setsLimit k limit => ∀ h t, Held w.1 h t → t.knownAs env k = true →
      w.1.handlesByTaskId.lookup k = some h ∨ SameLimit t.maxConnections (clampLimit limit)
  | .gives p h => ∀ t, Held w.1 h t → ∀ own ∈ w.2.waiting (p.taskId env), SameLimit t.maxConnections own
  | .reveals h ih => ∀ t, Held w.1 h t → ∀ own ∈ w.2.waiting (env.taskIdFromInfoHashes ih),
      SameLimit t.maxConnections own
  | .added _ p h => ∀ t ∈ w.1.session.torrents.lookup h,
      SameLimit (addedLimit w.1 (p.taskId env) t) (expected w h)
  | _ => True

variable {env}

/-! ### The limits after a step -/

/-- A torrent with the worker's handle was there with the same limit. -/
theorem LimitsHold.back {w : Watched H} (hw : LimitsHold w) {s' : Worker H} {r : OwnLimits}
    (hback : ∀ h t', Held s' h t' → ∃ t, Held w.1 h t ∧ t.maxConnections = t'.maxConnections ∧
      r.own h = w.2.own h)
    (hdefault : s'.defaultPerTorrentConnectionsLimit = w.1.defaultPerTorrentConnectionsLimit) :
    LimitsHold (s', r) := by
  intro h t' ht'
  obtain ⟨t, ht, hmax, hown⟩ := hback h t' ht'
  unfold expected
  rw [hown, hdefault, ← hmax]
  exact hw h t ht

theorem LimitsHold.same {w : Watched H} (hw : LimitsHold w) {s' : Worker H}
    (h : Keeps kindLimit w.1 s') : LimitsHold (s', w.2) := by
  refine hw.back (fun n t' ht' => ?_) h.defaultLimit
  obtain ⟨⟨k, hk⟩, hlookup⟩ := ht'
  obtain ⟨t, ht, hview⟩ := h.session.lookup hlookup
  exact ⟨t, ⟨⟨k, h.handles ▸ hk⟩, ht⟩, congrArg Prod.snd hview, rfl⟩

/-- Handles are forgotten, and torrents go. -/
theorem LimitsHold.sub {w : Watched H} (hw : LimitsHold w) {s' : Worker H}
    (hhandles : ∀ k h, s'.handlesByTaskId.lookup k = some h → w.1.handlesByTaskId.lookup k = some h)
    (htorrents : ∀ h t, s'.session.torrents.lookup h = some t → w.1.session.torrents.lookup h = some t)
    (hdefault : s'.defaultPerTorrentConnectionsLimit = w.1.defaultPerTorrentConnectionsLimit) :
    LimitsHold (s', w.2) :=
  hw.back (fun h t ht => ⟨t, ⟨ht.1.imp fun k hk => hhandles k h hk, htorrents h t ht.2⟩, rfl, rfl⟩)
    hdefault

theorem torrents_removeHandle (s : Worker H) (k : TaskId) (c : Bool) :
    (removeHandle s k c).session.torrents = s.session.torrents := by
  rcases removeHandle_session s k c with heq | ⟨h, _, heq⟩
  · rw [heq]
  · rw [heq]
    rfl

/-! ### The default -/

/-- A new default reaches the torrents under the worker's handles, and no others. -/
theorem lookup_setAll (entries : List (Sigma fun _ : TaskId => Handle)) (limit : Int) (s : Session H)
    (h : Handle) :
    ((entries.foldl (fun ses e => ses.setMaxConnections e.2 limit) s).torrents.lookup h).map
        (·.maxConnections) =
      (s.torrents.lookup h).map fun t =>
        if h ∈ entries.map (·.2) then limit else t.maxConnections := by
  induction entries generalizing s with
  | nil => simp
  | cons e entries ih =>
    rw [List.foldl_cons, ih, setMaxConnections, lookup_modify]
    by_cases hh : h = e.2
    · subst hh
      rw [if_pos rfl, Option.map_map]
      congr 1
      funext t
      simp
    · rw [if_neg hh]
      congr 1
      funext t
      simp [hh]

theorem limits_setsDefault (w : Watched H) (limit : Int) (rest : List Cmd) :
    LimitsHold (handleSetDefaultPerTorrentConnectionsLimit { w.1 with cmds := rest } limit, w.2) ↔
      LimitsOk env w (.setsDefault limit) := by
  have hsame := (same_defaultLimit { w.1 with cmds := rest } limit).kindOfPaused
  -- the torrents with the worker's handles have the new default
  have hset : ∀ h t', Held (handleSetDefaultPerTorrentConnectionsLimit { w.1 with cmds := rest } limit) h
      t' → t'.maxConnections = clampLimit limit := by
    rintro h t' ⟨⟨k, hk⟩, ht'⟩
    have hmem : h ∈ w.1.handlesByTaskId.entries.map (·.2) :=
      List.mem_map.mpr ⟨⟨k, h⟩, AList.mem_lookup_iff.mp hk, rfl⟩
    have hmax := lookup_setAll w.1.handlesByTaskId.entries (clampLimit limit) w.1.session h
    rw [show (w.1.handlesByTaskId.entries.foldl
      (fun ses e => ses.setMaxConnections e.2 (clampLimit limit)) w.1.session).torrents.lookup h =
        some t' from ht'] at hmax
    obtain ⟨t, _, heq⟩ := Option.map_eq_some_iff.mp hmax.symm
    rw [if_pos hmem] at heq
    exact heq.symm
  constructor
  · intro hw' h t ht own hown
    obtain ⟨t', ht', _⟩ := hsame.lookup' ht.2
    have hlimit := hw' h t' ⟨ht.1, ht'⟩
    rw [hset h t' ⟨ht.1, ht'⟩] at hlimit
    unfold expected at hlimit
    rw [show w.2.own h = some own from hown] at hlimit
    exact hlimit.symm
  · intro hok h t' ht'
    obtain ⟨t, ht, _⟩ := hsame.lookup ht'.2
    rw [hset h t' ht']
    show SameLimit (clampLimit limit) ((w.2.own h).getD (clampLimit limit))
    cases hown : w.2.own h with
    | none => exact .refl _
    | some own => exact (hok h t ⟨ht'.1, ht⟩ own hown).symm

/-! ### A task's limit -/

/-- A task's limit reaches the torrent under its handle, and no other. -/
theorem lookup_taskLimit (s : Worker H) (k : TaskId) (limit : Int) (h : Handle) :
    ((handleSetTaskConnectionsLimit env s k limit).session.torrents.lookup h).map (·.maxConnections) =
      (s.session.torrents.lookup h).map fun t =>
        if s.handlesByTaskId.lookup k = some h then clampLimit limit else t.maxConnections := by
  unfold handleSetTaskConnectionsLimit
  cases hk : s.handlesByTaskId.lookup k with
  | none => simp
  | some n =>
    show ((s.session.setMaxConnections n (clampLimit limit)).torrents.lookup h).map _ = _
    rw [setMaxConnections, lookup_modify]
    by_cases hh : h = n
    · subst hh
      rw [if_pos rfl, Option.map_map]
      simp [Function.comp_def]
    · have hne : some n ≠ some h := fun heq => hh (Option.some.inj heq).symm
      simp [hh, hne]

theorem limits_setsLimit {w : Watched H} (hw : LimitsHold w) (hsound : Sound env w.1) (k : TaskId)
    (limit : Int) (rest : List Cmd) :
    LimitsHold (handleSetTaskConnectionsLimit env { w.1 with cmds := rest } k limit,
      w.2.set env w.1.session k (clampLimit limit)) ↔ LimitsOk env w (.setsLimit k limit) := by
  let w' : Watched H := (handleSetTaskConnectionsLimit env { w.1 with cmds := rest } k limit,
    w.2.set env w.1.session k (clampLimit limit))
  have hsame : Same kind w.1.session w'.1.session :=
    (same_taskLimit env { w.1 with cmds := rest } k limit).kindOfPaused
  -- the limit of a torrent after the command, and the limit that it is to have
  have hnow : ∀ h t t', Held w.1 h t → w'.1.session.torrents.lookup h = some t' →
      (t'.maxConnections = if w.1.handlesByTaskId.lookup k = some h then clampLimit limit
        else t.maxConnections) ∧
      expected w' h = if t.knownAs env k = true then clampLimit limit else expected w h := by
    intro h t t' ht ht'
    constructor
    · have hmax := @lookup_taskLimit _ env { w.1 with cmds := rest } k limit h
      rw [show (handleSetTaskConnectionsLimit env { w.1 with cmds := rest } k limit).session.torrents.lookup
        h = some t' from ht', show ({ w.1 with cmds := rest } : Worker H).session.torrents.lookup h = some t
        from ht.2] at hmax
      exact Option.some.inj hmax
    · show ((w.2.set env w.1.session k (clampLimit limit)).own h).getD _ = _
      unfold OwnLimits.set
      simp only [ht.2]
      split
      · rfl
      · rfl
  constructor
  · intro hw' h t ht hknown
    obtain ⟨t', ht', _⟩ := hsame.lookup' ht.2
    obtain ⟨hmax, hexpected⟩ := hnow h t t' ht ht'
    refine or_iff_not_imp_left.mpr fun hk => ?_
    rw [if_neg hk] at hmax
    rw [if_pos hknown] at hexpected
    rw [← hmax, ← hexpected]
    exact hw' h t' ⟨ht.1, ht'⟩
  · intro hok h t' ht'
    obtain ⟨t, hlookup, _⟩ := hsame.lookup ht'.2
    have ht : Held w.1 h t := ⟨ht'.1, hlookup⟩
    obtain ⟨hmax, hexpected⟩ := hnow h t t' ht ht'.2
    show SameLimit t'.maxConnections (expected w' h)
    rw [hmax, hexpected]
    by_cases hk : w.1.handlesByTaskId.lookup k = some h
    · rw [if_pos hk, if_pos (hsound.handle_known k h t hk hlookup)]
      exact .refl _
    · rw [if_neg hk]
      split
      · rename_i hknown
        exact (hok h t ht hknown).resolve_left hk
      · exact hw h t ht

/-! ### A torrent gets an id -/

/-- A torrent changes, but not its limit, and gets an id. -/
theorem limits_takes {w : Watched H} (hw : LimitsHold w) {s' : Worker H} {h : Handle} {k : TaskId}
    {t u : Torrent H} (ht : w.1.session.torrents.lookup h = some t)
    (htorrents : s'.session.torrents = w.1.session.torrents.insert h u)
    (hmax : u.maxConnections = t.maxConnections)
    (hhandles : s'.handlesByTaskId = w.1.handlesByTaskId)
    (hdefault : s'.defaultPerTorrentConnectionsLimit = w.1.defaultPerTorrentConnectionsLimit) :
    LimitsHold (s', w.2.take h k) ↔
      ∀ t, Held w.1 h t → ∀ own ∈ w.2.waiting k, SameLimit t.maxConnections own := by
  have hexpected : ∀ n, expected (s', w.2.take h k) n =
      if n = h then (w.2.waiting k).getD (expected w h) else expected w n := by
    intro n
    unfold expected OwnLimits.take
    rw [hdefault]
    by_cases hn : n = h
    · simp only [hn, if_true]
      cases w.2.waiting k <;> rfl
    · simp only [hn, if_false]
  constructor
  · intro hw' t' ht' own hown
    cases Option.some.inj (ht'.2.symm.trans ht)
    have hlimit := hw' h u ⟨hhandles ▸ ht'.1, by rw [htorrents, Map.lookup_insert, if_pos rfl]⟩
    rw [hexpected, if_pos rfl, show w.2.waiting k = some own from hown, hmax] at hlimit
    exact hlimit
  · intro hok n u' hu'
    rw [hexpected]
    have hheld : ∃ j, w.1.handlesByTaskId.lookup j = some n := hhandles ▸ hu'.1
    have hlookup := hu'.2
    change s'.session.torrents.lookup n = some u' at hlookup
    rw [htorrents] at hlookup
    rcases Map.lookup_insert_cases hlookup with ⟨rfl, rfl⟩ | ⟨hn, hold⟩
    · rw [if_pos rfl, hmax]
      cases hwaiting : w.2.waiting k with
      | none => exact hw n t ⟨hheld, ht⟩
      | some own => exact hok t ⟨hheld, ht⟩ own hwaiting
    · rw [if_neg hn]
      exact hw n u' ⟨hheld, hold⟩

/-! ### The alert of an add -/

theorem configureAdded_limits (s : Worker H) (key : TaskId) (h n : Handle) :
    ((configureAdded s key h).torrents.lookup n).map (·.maxConnections) =
      (s.session.torrents.lookup n).map fun t =>
        if n = h then addedLimit s key t else t.maxConnections := by
  obtain ⟨f, ses, _, hplace, hown, hdefault⟩ := configureAdded_calls s key h
  have hsame : Same (fun t : Torrent H => t.maxConnections) s.session ses :=
    ((same_setFlags s.session h f).coarser Prod.snd).trans (hplace _)
  have hset : ∀ limit : Int, ((ses.setMaxConnections h limit).torrents.lookup n).map
      (·.maxConnections) = (s.session.torrents.lookup n).map fun t =>
        if n = h then limit else t.maxConnections := by
    intro limit
    rw [setMaxConnections, lookup_modify]
    by_cases hn : n = h
    · subst hn
      have hview := congrArg (Option.map fun _ => limit) (hsame.torrents n)
      rw [Option.map_map, Option.map_map] at hview
      simp only [if_true, Option.map_map]
      exact hview
    · simp only [if_neg hn]
      exact hsame.torrents n
  unfold addedLimit
  cases hl : s.perTaskConnectionsLimit.lookup key with
  | some l =>
    rw [hown l hl]
    exact hset l.limit
  | none =>
    rw [hdefault hl]
    by_cases hpos : 0 < s.defaultPerTorrentConnectionsLimit
    · simp only [if_pos hpos]
      exact hset s.defaultPerTorrentConnectionsLimit
    · simp only [if_neg hpos, ite_self]
      exact hsame.torrents n

theorem limits_added {w : Watched H} (hw : LimitsHold w) (i : Nat) (p : AddParams H) (h : Handle) :
    LimitsHold (handleAdded env (popAlert w.1 i) p h, w.2) ↔ LimitsOk env w (.added i p h) := by
  let s' := handleAdded env (popAlert w.1 i) p h
  have hsame : Same kind (popAlert w.1 i).session s'.session :=
    same_configureAdded (popAlert w.1 i) (p.taskId env) h
  have hnow : ∀ n t t', w.1.session.torrents.lookup n = some t →
      s'.session.torrents.lookup n = some t' →
      t'.maxConnections = if n = h then addedLimit w.1 (p.taskId env) t else t.maxConnections := by
    intro n t t' ht ht'
    have hmax := configureAdded_limits (popAlert w.1 i) (p.taskId env) h n
    rw [show (configureAdded (popAlert w.1 i) (p.taskId env) h).torrents.lookup n = some t' from ht',
      show (popAlert w.1 i).session.torrents.lookup n = some t from ht] at hmax
    exact Option.some.inj hmax
  constructor
  · intro hw' t ht
    obtain ⟨t', ht', _⟩ := hsame.lookup' ht
    have hlimit := hw' h t' ⟨⟨p.taskId env, AList.lookup_insert _⟩, ht'⟩
    rw [hnow h t t' ht ht', if_pos rfl] at hlimit
    exact hlimit
  · rintro hok n t' ⟨⟨k, hk⟩, ht'⟩
    obtain ⟨t, ht, _⟩ := hsame.lookup ht'
    rw [hnow n t t' ht ht']
    by_cases hn : n = h
    · rw [if_pos hn, hn]
      exact hok t (hn ▸ ht)
    · rw [if_neg hn]
      rcases Map.lookup_insert_cases hk with ⟨_, heq⟩ | ⟨_, hold⟩
      · exact absurd heq hn
      · exact hw n t ⟨⟨k, hold⟩, ht⟩

/-! ### Runs -/

/-- A step keeps the limits right exactly when it meets the condition. -/
theorem limits_does {w : Watched H} {s' : Worker H} {a : Act H} (hw : LimitsHold w)
    (hsound : Sound env w.1) (h : Does env w.1 a s') :
    LimitsHold (s', w.2.after env w.1.session a) ↔ LimitsOk env w a := by
  cases h with
  | quiet h => exact iff_of_true (hw.same h.forgetPaused) trivial
  | flags k paused h => exact iff_of_true (hw.same h.keeps) trivial
  | adds rest p => exact iff_of_true (hw.sub (fun _ _ hk => hk) (fun _ _ ht => ht) rfl) trivial
  | stores rest p opts => exact iff_of_true (hw.sub (fun _ _ hk => hk) (fun _ _ ht => ht) rfl) trivial
  | files rest p entry => exact iff_of_true (hw.sub (fun _ _ hk => hk) (fun _ _ ht => ht) rfl) trivial
  | cancels k rest =>
    refine iff_of_true (hw.sub (fun _ _ hk => (Map.lookup_erase_some hk).2) (fun n t ht => ?_) rfl) trivial
    exact torrents_removeHandle w.1 k true ▸ ht
  | finalizes k opts rest p =>
    refine iff_of_true (hw.sub (fun _ _ hk => (Map.lookup_erase_some hk).2) (fun n t ht => ?_) rfl) trivial
    exact torrents_removeHandle w.1 k false ▸ ht
  | removes k rest =>
    refine iff_of_true (hw.sub (fun _ _ hk => hk) (fun n t ht => ?_) rfl) trivial
    exact torrents_removeHandle w.1 k false ▸ ht
  | setsDefault limit rest => exact limits_setsDefault w limit rest
  | setsLimit k limit rest => exact limits_setsLimit hw hsound k limit rest
  | gives p rest h t hops ht => exact limits_takes hw ht rfl rfl rfl rfl
  | creates p rest hops =>
    refine iff_of_true (hw.back (fun n u hu => ?_) rfl) trivial
    obtain ⟨⟨k, hk⟩, hlookup⟩ := hu
    -- the worker has no handle of a torrent that is to come
    have hne : n ≠ p.purpose.serial := by
      rintro rfl
      have hlt := hsound.handles_lt k _ hk
      rw [((hsound.session.popOp hops).2.2 p rfl).1] at hlt
      exact absurd hlt (lt_irrefl _)
    rcases afterAdd_lookup hlookup with ⟨heq, _⟩ | ⟨_, hold⟩
    · exact absurd heq hne
    · exact ⟨u, ⟨⟨k, hk⟩, hold⟩, rfl, if_neg hne⟩
  | fails p rest message hops =>
    exact iff_of_true (hw.sub (fun _ _ hk => hk) (fun _ _ ht => ht) rfl) trivial
  | takesOut h c rest t hops ht =>
    refine iff_of_true (hw.back (fun n u hu => ?_) rfl) trivial
    obtain ⟨hne, hold⟩ := afterRemove_lookup hu.2
    exact ⟨u, ⟨hu.1, hold⟩, rfl, if_neg hne⟩
  | gone h c rest hops ht =>
    exact iff_of_true (hw.sub (fun _ _ hk => hk) (fun _ _ ht => ht) rfl) trivial
  | reveals h t info ih ht => exact limits_takes hw ht rfl rfl rfl rfl
  | posts h hv => exact iff_of_true (hw.sub (fun _ _ hk => hk) (fun _ _ ht => ht) rfl) trivial
  | added i p h ha => exact limits_added hw i p h
  | removed i ih h ha =>
    exact iff_of_true (hw.sub (fun _ _ hk => (Map.lookup_erase_some hk).2) (fun _ _ ht => ht) rfl) trivial
  | popped i a ha _ _ h =>
    have hpop : LimitsHold (popAlert w.1 i, w.2) := hw
    exact iff_of_true (hpop.same h.forgetPaused) trivial
  | polls h => exact iff_of_true (hw.same h.keeps) trivial

/-- Along every run from the start, whatever the session answers, each torrent whose handle the worker
has has its own limit, or the default, exactly when every step meets the condition. -/
theorem limits_hold_iff (env : WorkerEnv H) (labels : List (Label H)) :
    (∀ n, LimitsHold (run (watch env) ({}, {}) (labels.take n))) ↔
      RunOk (watch env) (fun w l => LimitsOk env w (act env w.1 l)) ({}, {}) labels := by
  refine always_iff_runOk (I := fun w => Sound env w.1) (fun w l => sound_step w.1 l) ?_ sound_empty ?_
    labels
  · intro w l hsound hw
    exact limits_does hw hsound (step_does_outcome env w.1 l)
  · rintro h t ⟨⟨k, hk⟩, _⟩
    simp at hk

/-- A task gets the limit 10, and then the settings are applied with the default 50. -/
def settingsApplied : List (Label InfoHash) :=
  [.enqueue (.addTorrentFile oneTorrentFile "/tmp" [] none), .command, .session .created, .alert 0,
    .enqueue (.setTaskConnectionsLimit (taskIdFromInfoHashes tailEnv hybridFile) 10), .command,
    .enqueue (.setDefaultPerTorrentConnectionsLimit 50), .command]

/-- The default overwrites the task's own limit. -/
theorem limit_overwritten_byDefault :
    ¬ ∀ (env : WorkerEnv InfoHash) (labels : List (Label InfoHash)),
      RunOk (step env) (Documented InfoHash.sharing) {} labels →
      ∀ n, LimitsHold (run (watch env) ({}, {}) (labels.take n)) := by
  intro h
  have hw := h hybridEnv settingsApplied (by decide +kernel) 8
  have hlimit := hw 0
    { infoHashes := hybridFile
      flags := { autoManaged := true }
      hasMetadata := true
      info := some oneTorrentInfo
      maxConnections := 50
      had := [hybridFile]
      adds := [0]
      asTask := true }
    ⟨⟨taskIdFromInfoHashes tailEnv hybridFile, by decide +kernel⟩, by decide +kernel⟩
  revert hlimit
  decide +kernel

end TorrentLink.Lt
