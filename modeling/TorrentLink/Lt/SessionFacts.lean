import TorrentLink.Lt.WorkerSteps

/-!
# What holds of the session

Handles are the numbers of executed adds, so a handle that is mentioned anywhere is below the numbers
of all adds that are still queued, and a handle whose torrent is gone never comes back to life. The
torrent that a successful add was answered with has had the info-hashes of the add (`Session.Sound`).
-/

namespace TorrentLink.Lt

open Lib

variable {H : Type}

def SessionOp.removes (h : Handle) : SessionOp H → Bool
  | .add _ => false
  | .remove h' _ => h' = h

namespace Session

/-! ### The session's own facts -/

/-- The number of an add in the queue. -/
def opSerial : SessionOp H → Option Nat
  | .add p => some p.purpose.serial
  | .remove _ _ => none

/-- The numbers of the queued adds, then the next number to be given. -/
def serials (s : Session H) : List Nat := s.ops.filterMap opSerial ++ [s.nextSerial]

/-- Every handle there is lies below it. -/
def floor (s : Session H) : Nat := s.serials.headD 0

/-- The handle that an alert carries. -/
def alertHandle : Alert H → Option Handle
  | .added _ h => some h
  | .addFailed _ _ => none
  | .removed _ h => some h
  | .metadataReceived h => some h
  | .metadataFailed h => some h

structure Sound (s : Session H) : Prop where
  sorted : s.serials.Pairwise (· < ·)
  torrents_lt : ∀ h t, s.torrents.lookup h = some t → h < s.floor
  adds_lt : ∀ h t, s.torrents.lookup h = some t → ∀ n ∈ t.adds, n < s.floor
  alerts_lt : ∀ a ∈ s.alerts, ∀ h, alertHandle a = some h → h < s.floor
  removes_lt : ∀ h c, .remove h c ∈ s.ops → h < s.floor
  alert_had : ∀ p h, .added p h ∈ s.alerts → ∀ t, s.torrents.lookup h = some t →
    p.infoHashes ∈ t.had

theorem isValid_iff (s : Session H) (h : Handle) :
    s.isValid h = true ↔ ∃ t, s.torrents.lookup h = some t := Option.isSome_iff_exists

/-! ### Calls on a handle -/

theorem lookup_modify (s : Session H) (h h' : Handle) (f : Torrent H → Torrent H) :
    (s.modify h f).torrents.lookup h' =
      if h' = h then (s.torrents.lookup h).map f else s.torrents.lookup h' := by
  unfold modify
  cases ht : s.torrents.lookup h with
  | none =>
    by_cases hh : h' = h
    · subst hh
      simp [ht]
    · simp [hh]
  | some t => rw [Map.lookup_insert, Option.map_some]

theorem modify_eq (s : Session H) (h : Handle) (f : Torrent H → Torrent H) :
    ∃ torrents, s.modify h f = { s with torrents := torrents } := by
  unfold modify
  cases s.torrents.lookup h with
  | none => exact ⟨s.torrents, rfl⟩
  | some t => exact ⟨_, rfl⟩

/-- Calls on handles leave everything alone but the torrents and their places in the queue, and of
these what `view` shows. -/
structure Same {β : Type} (view : Torrent H → β) (s s' : Session H) : Prop where
  ops : s'.ops = s.ops
  alerts : s'.alerts = s.alerts
  nextSerial : s'.nextSerial = s.nextSerial
  succeeded : s'.succeeded = s.succeeded
  cancelled : s'.cancelled = s.cancelled
  torrents : ∀ h, (s'.torrents.lookup h).map view = (s.torrents.lookup h).map view

section Same

variable {β : Type} {view : Torrent H → β}

theorem Same.refl (s : Session H) : Same view s s := ⟨rfl, rfl, rfl, rfl, rfl, fun _ => rfl⟩

theorem Same.trans {s₁ s₂ s₃ : Session H} (h : Same view s₁ s₂) (h' : Same view s₂ s₃) :
    Same view s₁ s₃ :=
  ⟨h'.ops.trans h.ops, h'.alerts.trans h.alerts, h'.nextSerial.trans h.nextSerial,
    h'.succeeded.trans h.succeeded, h'.cancelled.trans h.cancelled,
    fun k => (h'.torrents k).trans (h.torrents k)⟩

theorem Same.coarser {γ : Type} {s s' : Session H} (g : β → γ) (h : Same view s s') :
    Same (g ∘ view) s s' := by
  refine ⟨h.ops, h.alerts, h.nextSerial, h.succeeded, h.cancelled, fun k => ?_⟩
  rw [← Option.map_map, ← Option.map_map, h.torrents k]

/-- A torrent of the session after the calls was there before, and looks the same. -/
theorem Same.lookup {s s' : Session H} (h : Same view s s') {k : Handle} {t : Torrent H}
    (ht : s'.torrents.lookup k = some t) :
    ∃ t₀, s.torrents.lookup k = some t₀ ∧ view t₀ = view t := by
  have hk := h.torrents k
  rw [ht, Option.map_some] at hk
  exact Option.map_eq_some_iff.mp hk.symm

/-- A torrent stays, and looks the same. -/
theorem Same.lookup' {s s' : Session H} (h : Same view s s') {k : Handle} {t : Torrent H}
    (ht : s.torrents.lookup k = some t) :
    ∃ t', s'.torrents.lookup k = some t' ∧ view t' = view t := by
  have hk := h.torrents k
  rw [ht, Option.map_some] at hk
  exact Option.map_eq_some_iff.mp hk

theorem Same.isValid {s s' : Session H} (h : Same view s s') (k : Handle) :
    s'.isValid k = s.isValid k := by
  have hk := congrArg Option.isSome (h.torrents k)
  rwa [Option.isSome_map, Option.isSome_map] at hk

theorem Same.floor {s s' : Session H} (h : Same view s s') : s'.floor = s.floor := by
  unfold Session.floor serials
  rw [h.ops, h.nextSerial]

theorem same_modify (s : Session H) (h : Handle) {f : Torrent H → Torrent H}
    (hf : ∀ t, view (f t) = view t) : Same view s (s.modify h f) := by
  obtain ⟨torrents, heq⟩ := s.modify_eq h f
  refine ⟨?_, ?_, ?_, ?_, ?_, fun h' => ?_⟩
  · rw [heq]
  · rw [heq]
  · rw [heq]
  · rw [heq]
  · rw [heq]
  · rw [lookup_modify]
    by_cases hh : h' = h
    · subst hh
      rw [if_pos rfl, Option.map_map]
      cases s.torrents.lookup h' with
      | none => rfl
      | some t => exact congrArg some (hf t)
    · rw [if_neg hh]

theorem same_queuePositionTop (s : Session H) (h : Handle) : Same view s (s.queuePositionTop h) := by
  unfold queuePositionTop
  split
  · exact ⟨rfl, rfl, rfl, rfl, rfl, fun _ => rfl⟩
  · exact .refl s

end Same

/-- What tells torrents apart, and whether they are tasks. -/
structure Kind (H : Type) where
  infoHashes : H
  had : List H
  adds : List Nat
  asTask : Bool

def kind (t : Torrent H) : Kind H := ⟨t.infoHashes, t.had, t.adds, t.asTask⟩

/-- The same, and their limits. -/
def kindLimit (t : Torrent H) : Kind H × Int := (kind t, t.maxConnections)

/-- The same, and whether they are paused. -/
def kindPaused (t : Torrent H) : Kind H × Bool := (kind t, t.flags.paused)

/-- All three. -/
def kindLimitPaused (t : Torrent H) : Kind H × Int × Bool :=
  (kind t, t.maxConnections, t.flags.paused)

theorem Same.forgetPaused {s s' : Session H} (h : Same kindLimitPaused s s') : Same kindLimit s s' :=
  h.coarser fun x : Kind H × Int × Bool => (x.1, x.2.1)

theorem Same.forgetLimit {s s' : Session H} (h : Same kindLimitPaused s s') : Same kindPaused s s' :=
  h.coarser fun x : Kind H × Int × Bool => (x.1, x.2.2)

theorem Same.kindOfLimit {s s' : Session H} (h : Same kindLimit s s') : Same kind s s' :=
  h.coarser Prod.fst

theorem Same.kindOfPaused {s s' : Session H} (h : Same kindPaused s s') : Same kind s s' :=
  h.coarser Prod.fst

theorem same_setMaxConnections (s : Session H) (h : Handle) (limit : Int) :
    Same kindPaused s (s.setMaxConnections h limit) := same_modify s h fun _ => rfl

theorem same_setFlags (s : Session H) (h : Handle) (f : TorrentFlags → TorrentFlags) :
    Same kindLimit s (s.setFlags h f) := same_modify s h fun _ => rfl

/-! ### The facts are kept -/

/-- Alerts are taken off the queue, and torrents may go. -/
theorem Sound.sub {s s' : Session H} (hs : s.Sound) (hops : s'.ops = s.ops)
    (hnext : s'.nextSerial = s.nextSerial) (halerts : ∀ a ∈ s'.alerts, a ∈ s.alerts)
    (htorrents : ∀ h t, s'.torrents.lookup h = some t →
      ∃ t₀, s.torrents.lookup h = some t₀ ∧ t₀.adds = t.adds ∧ t₀.had = t.had) : s'.Sound := by
  have hserials : s'.serials = s.serials := by
    unfold serials
    rw [hops, hnext]
  have hfloor : s'.floor = s.floor := by
    unfold Session.floor
    rw [hserials]
  refine ⟨?_, fun h t ht => ?_, fun h t ht => ?_, ?_, ?_, fun p h hmem t ht => ?_⟩
  · rw [hserials]
    exact hs.sorted
  · obtain ⟨t₀, ht₀, _, _⟩ := htorrents h t ht
    rw [hfloor]
    exact hs.torrents_lt h t₀ ht₀
  · obtain ⟨t₀, ht₀, hadds, _⟩ := htorrents h t ht
    rw [hfloor, ← hadds]
    exact hs.adds_lt h t₀ ht₀
  · rw [hfloor]
    exact fun a ha => hs.alerts_lt a (halerts a ha)
  · rw [hfloor, hops]
    exact hs.removes_lt
  · obtain ⟨t₀, ht₀, _, hhad⟩ := htorrents h t ht
    rw [← hhad]
    exact hs.alert_had p h (halerts _ hmem) t₀ ht₀

theorem Sound.congr {s s' : Session H} (hs : s.Sound) (h : Same kind s s') : s'.Sound := by
  refine hs.sub h.ops h.nextSerial (fun a ha => h.alerts ▸ ha) fun n t ht => ?_
  obtain ⟨t₀, ht₀, hkind⟩ := h.lookup ht
  exact ⟨t₀, ht₀, congrArg Kind.adds hkind, congrArg Kind.had hkind⟩

/-- A torrent comes up, or changes. -/
theorem Sound.insert {s : Session H} (hs : s.Sound) {h : Handle} {t : Torrent H}
    (hlt : h < s.floor) (hadds : ∀ n ∈ t.adds, n < s.floor)
    (hhad : ∀ p, .added p h ∈ s.alerts → p.infoHashes ∈ t.had) :
    Sound { s with torrents := s.torrents.insert h t } where
  sorted := hs.sorted
  torrents_lt k u hu := by
    rcases Map.lookup_insert_cases hu with ⟨rfl, rfl⟩ | ⟨_, hu⟩
    · exact hlt
    · exact hs.torrents_lt k u hu
  adds_lt k u hu := by
    rcases Map.lookup_insert_cases hu with ⟨rfl, rfl⟩ | ⟨_, hu⟩
    · exact hadds
    · exact hs.adds_lt k u hu
  alerts_lt := hs.alerts_lt
  removes_lt := hs.removes_lt
  alert_had p k hmem u hu := by
    rcases Map.lookup_insert_cases hu with ⟨rfl, rfl⟩ | ⟨_, hu⟩
    · exact hhad p hmem
    · exact hs.alert_had p k hmem u hu

/-- An alert about a torrent that is there is posted. -/
theorem Sound.post {s : Session H} (hs : s.Sound) (a : Alert H)
    (hlt : ∀ h, alertHandle a = some h → h < s.floor)
    (hhad : ∀ p h, a = .added p h → ∀ t, s.torrents.lookup h = some t → p.infoHashes ∈ t.had) :
    Sound { s with alerts := s.alerts ++ [a] } where
  sorted := hs.sorted
  torrents_lt := hs.torrents_lt
  adds_lt := hs.adds_lt
  alerts_lt b hb := by
    rcases List.mem_append.mp hb with hb | hb
    · exact hs.alerts_lt b hb
    · rw [List.mem_singleton.mp hb]
      exact hlt
  removes_lt := hs.removes_lt
  alert_had p h hmem := by
    rcases List.mem_append.mp hmem with hmem | hmem
    · exact hs.alert_had p h hmem
    · exact hhad p h (List.mem_singleton.mp hmem).symm

/-! ### Queueing a call -/

theorem serials_asyncAdd (s : Session H) (p : AddParams H) :
    (s.asyncAddTorrent p).serials = s.serials ++ [s.nextSerial + 1] := by
  simp [serials, asyncAddTorrent, opSerial]

theorem serials_ne_nil (s : Session H) : s.serials ≠ [] := by simp [serials]

theorem floor_asyncAdd (s : Session H) (p : AddParams H) : (s.asyncAddTorrent p).floor = s.floor := by
  unfold floor
  rw [serials_asyncAdd]
  obtain ⟨n, ns, hn⟩ := List.exists_cons_of_ne_nil s.serials_ne_nil
  rw [hn]
  rfl

theorem Sound.le_nextSerial {s : Session H} (hs : s.Sound) : ∀ n ∈ s.serials, n ≤ s.nextSerial := by
  intro n hn
  rcases List.mem_append.mp hn with hn | hn
  · exact ((List.pairwise_append.mp hs.sorted).2.2 n hn s.nextSerial (by simp)).le
  · exact (List.mem_singleton.mp hn).le

theorem Sound.floor_le_nextSerial {s : Session H} (hs : s.Sound) : s.floor ≤ s.nextSerial := by
  obtain ⟨n, ns, hn⟩ := List.exists_cons_of_ne_nil s.serials_ne_nil
  refine hs.le_nextSerial s.floor ?_
  unfold floor
  rw [hn]
  exact List.mem_cons_self

theorem Sound.queued_lt {s : Session H} (hs : s.Sound) {p : AddParams H}
    (hp : .add p ∈ s.ops) : p.purpose.serial < s.nextSerial :=
  (List.pairwise_append.mp hs.sorted).2.2 _ (List.mem_filterMap.mpr ⟨_, hp, rfl⟩) _
    (List.mem_singleton_self _)

theorem Sound.asyncAdd {s : Session H} (hs : s.Sound) (p : AddParams H) :
    (s.asyncAddTorrent p).Sound := by
  have hfloor := s.floor_asyncAdd p
  refine ⟨?_, ?_, ?_, ?_, ?_, hs.alert_had⟩
  · rw [serials_asyncAdd]
    refine List.pairwise_append.mpr ⟨hs.sorted, by simp, ?_⟩
    intro n hn m hm
    rw [List.mem_singleton.mp hm]
    exact Nat.lt_succ_of_le (hs.le_nextSerial n hn)
  · rw [hfloor]
    exact hs.torrents_lt
  · rw [hfloor]
    exact hs.adds_lt
  · rw [hfloor]
    exact hs.alerts_lt
  · rw [hfloor]
    intro h c hmem
    rcases List.mem_append.mp hmem with hmem | hmem
    · exact hs.removes_lt h c hmem
    · cases List.mem_singleton.mp hmem

theorem serials_removeTorrent (s : Session H) (h : Handle) (c : Bool) :
    (s.removeTorrent h c).serials = s.serials := by
  simp [serials, removeTorrent, opSerial]

theorem floor_removeTorrent (s : Session H) (h : Handle) (c : Bool) :
    (s.removeTorrent h c).floor = s.floor := by
  unfold floor
  rw [serials_removeTorrent]

theorem Sound.removeTorrent {s : Session H} (hs : s.Sound) {h : Handle} (hh : h < s.floor)
    (c : Bool) : (s.removeTorrent h c).Sound := by
  have hfloor := s.floor_removeTorrent h c
  refine ⟨?_, ?_, ?_, ?_, ?_, hs.alert_had⟩
  · rw [serials_removeTorrent]
    exact hs.sorted
  · rw [hfloor]
    exact hs.torrents_lt
  · rw [hfloor]
    exact hs.adds_lt
  · rw [hfloor]
    exact hs.alerts_lt
  · rw [hfloor]
    intro h' c' hmem
    rcases List.mem_append.mp hmem with hmem | hmem
    · exact hs.removes_lt h' c' hmem
    · cases List.mem_singleton.mp hmem
      exact hh

/-! ### Executing a call -/

theorem afterFound_lookup {s : Session H} {rest : List (SessionOp H)} {p : AddParams H}
    {h n : Handle} {t u : Torrent H} (hu : (s.afterFound rest p h t).torrents.lookup n = some u) :
    n = h ∧ u = t.give p ∨ n ≠ h ∧ s.torrents.lookup n = some u := by
  rw [afterFound] at hu
  exact Map.lookup_insert_cases hu

theorem afterAdd_lookup {s : Session H} {rest : List (SessionOp H)} {p : AddParams H} {n : Handle}
    {u : Torrent H} (hu : (s.afterAdd rest p).torrents.lookup n = some u) :
    n = p.purpose.serial ∧ u = newTorrent p ∨
      n ≠ p.purpose.serial ∧ s.torrents.lookup n = some u := by
  rw [afterAdd] at hu
  exact Map.lookup_insert_cases hu

theorem afterRemove_lookup {s : Session H} {rest : List (SessionOp H)} {h n : Handle} {c : Bool}
    {t u : Torrent H} (hu : (s.afterRemove rest h c t).torrents.lookup n = some u) :
    n ≠ h ∧ s.torrents.lookup n = some u := by
  rw [afterRemove] at hu
  exact Map.lookup_erase_some hu

/-- The first call is taken off the queue. -/
theorem Sound.popOp {s : Session H} (hs : s.Sound) {op : SessionOp H} {rest : List (SessionOp H)}
    (hops : s.ops = op :: rest) :
    Sound { s with ops := rest } ∧ s.floor ≤ floor { s with ops := rest } ∧
      ∀ p, op = .add p → s.floor = p.purpose.serial ∧ s.floor < floor { s with ops := rest } := by
  have hserials : s.serials = (opSerial op).toList ++ serials { s with ops := rest } := by
    unfold serials
    rw [hops]
    cases op <;> rfl
  obtain ⟨n, ns, hn⟩ := List.exists_cons_of_ne_nil (serials_ne_nil { s with ops := rest })
  have hfloor' : floor { s with ops := rest } = n := by
    unfold floor
    rw [hn]
    rfl
  have hsorted := hs.sorted
  rw [hserials] at hsorted
  have hle : s.floor ≤ floor { s with ops := rest } ∧
      ∀ p, op = .add p → s.floor = p.purpose.serial ∧ s.floor < floor { s with ops := rest } := by
    rw [hfloor']
    unfold floor
    rw [hserials, hn]
    cases op with
    | add p =>
      have hlt : p.purpose.serial < n := by
        refine (List.pairwise_append.mp hsorted).2.2 _ (by simp [opSerial]) n ?_
        rw [hn]
        exact List.mem_cons_self
      refine ⟨hlt.le, ?_⟩
      rintro p' ⟨⟩
      exact ⟨rfl, hlt⟩
    | remove h c => exact ⟨le_refl n, by simp⟩
  refine ⟨⟨(List.pairwise_append.mp hsorted).2.1, ?_, ?_, ?_, ?_, hs.alert_had⟩, hle⟩
  · exact fun h t ht => (hs.torrents_lt h t ht).trans_le hle.1
  · exact fun h t ht n hn => (hs.adds_lt h t ht n hn).trans_le hle.1
  · exact fun a ha h hh => (hs.alerts_lt a ha h hh).trans_le hle.1
  · intro h c hmem
    refine (hs.removes_lt h c ?_).trans_le hle.1
    rw [hops]
    exact List.mem_cons_of_mem op hmem

/-- No torrent is there yet under the number of a queued add, and nothing speaks of it. -/
theorem Sound.fresh {s : Session H} (hs : s.Sound) {p : AddParams H} {rest : List (SessionOp H)}
    (hops : s.ops = .add p :: rest) :
    s.torrents.lookup p.purpose.serial = none ∧
      (∀ a ∈ s.alerts, alertHandle a ≠ some p.purpose.serial) ∧
      ∀ c, .remove p.purpose.serial c ∉ s.ops := by
  have hfloor := ((hs.popOp hops).2.2 p rfl).1
  refine ⟨?_, fun a ha hh => ?_, fun c hc => ?_⟩
  · refine Option.eq_none_iff_forall_not_mem.mpr fun t ht => ?_
    exact absurd (hfloor ▸ hs.torrents_lt _ t ht) (lt_irrefl _)
  · exact absurd (hfloor ▸ hs.alerts_lt a ha _ hh) (lt_irrefl _)
  · exact absurd (hfloor ▸ hs.removes_lt _ c hc) (lt_irrefl _)

theorem Sound.found {s : Session H} (hs : s.Sound) {p : AddParams H} {rest : List (SessionOp H)}
    {h : Handle} {t : Torrent H} (hops : s.ops = .add p :: rest)
    (ht : s.torrents.lookup h = some t) : (s.afterFound rest p h t).Sound := by
  obtain ⟨hrest, hle, hlt⟩ := hs.popOp hops
  obtain ⟨heq, hlt⟩ := hlt p rfl
  have hh := (hs.torrents_lt h t ht).trans_le hle
  have hgive := hrest.insert (t := t.give p) hh (fun n hn => ?_) fun q hq => ?_
  · refine (hgive.post (.added p h) ?_ ?_).sub rfl rfl (fun _ ha => ha) fun _ u hu =>
      ⟨u, hu, rfl, rfl⟩
    · rintro n ⟨⟩
      exact hh
    · rintro q n ⟨⟩ u hu
      change (s.torrents.insert h (t.give p)).lookup h = some u at hu
      rw [Map.lookup_insert, if_pos rfl] at hu
      cases hu
      exact List.mem_append_right _ (List.mem_singleton_self _)
  · rcases List.mem_append.mp hn with hn | hn
    · exact (hs.adds_lt h t ht n hn).trans_le hle
    · rw [List.mem_singleton.mp hn, ← heq]
      exact hlt
  · exact List.mem_append_left _ (hs.alert_had q h hq t ht)

theorem Sound.created {s : Session H} (hs : s.Sound) {p : AddParams H} {rest : List (SessionOp H)}
    (hops : s.ops = .add p :: rest) : (s.afterAdd rest p).Sound := by
  obtain ⟨hrest, hle, hlt⟩ := hs.popOp hops
  obtain ⟨heq, hlt⟩ := hlt p rfl
  rw [heq] at hlt
  have hnew := hrest.insert (t := newTorrent p) hlt (fun n hn => ?_) fun q hq => ?_
  · refine (hnew.post (.added p p.purpose.serial) ?_ ?_).sub rfl rfl (fun _ ha => ha) fun _ u hu =>
      ⟨u, hu, rfl, rfl⟩
    · rintro n ⟨⟩
      exact hlt
    · rintro q n ⟨⟩ u hu
      change (s.torrents.insert p.purpose.serial (newTorrent p)).lookup p.purpose.serial = some u at hu
      rw [Map.lookup_insert, if_pos rfl] at hu
      cases hu
      exact List.mem_singleton_self _
  · rw [List.mem_singleton.mp hn]
    exact hlt
  · exact absurd rfl ((hs.fresh hops).2.1 _ hq)

theorem Sound.failed {s : Session H} (hs : s.Sound) {p : AddParams H} {rest : List (SessionOp H)}
    (hops : s.ops = .add p :: rest) (message : String) : (s.afterFail rest p message).Sound :=
  (hs.popOp hops).1.post (.addFailed p message) (by simp [alertHandle]) (by simp)

theorem Sound.removed {s : Session H} (hs : s.Sound) {h : Handle} {c : Bool}
    {rest : List (SessionOp H)} {t : Torrent H} (hops : s.ops = .remove h c :: rest)
    (ht : s.torrents.lookup h = some t) : (s.afterRemove rest h c t).Sound := by
  obtain ⟨hrest, hle, _⟩ := hs.popOp hops
  have hmid : Sound { s.afterRemove rest h c t with alerts := s.alerts } := by
    refine hrest.sub rfl rfl (fun _ ha => ha) fun n u hu => ?_
    have hu' : (s.afterRemove rest h c t).torrents.lookup n = some u := hu
    exact ⟨u, (afterRemove_lookup hu').2, rfl, rfl⟩
  refine (hmid.post (.removed t.infoHashes h) ?_ (by simp)).sub rfl rfl (fun _ ha => ha)
    fun _ u hu => ⟨u, hu, rfl, rfl⟩
  rintro n ⟨⟩
  exact (hs.torrents_lt h t ht).trans_le hle

theorem Sound.revealed {s : Session H} (hs : s.Sound) {h : Handle} {t : Torrent H}
    (ht : s.torrents.lookup h = some t) (info : Option TorrentInfo) (ih : H) :
    Sound { s with
      torrents := s.torrents.insert h (t.reveal info ih)
      alerts := s.alerts ++ [.metadataReceived h] } := by
  have hh := hs.torrents_lt h t ht
  have hinsert := hs.insert (t := t.reveal info ih) hh (hs.adds_lt h t ht) fun p hp =>
    List.mem_append_left _ (hs.alert_had p h hp t ht)
  refine hinsert.post (.metadataReceived h) ?_ (by simp)
  rintro n ⟨⟩
  exact hh

end Session

end TorrentLink.Lt
