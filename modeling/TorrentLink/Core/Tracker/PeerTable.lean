import TorrentLink.Base.QByteArray
import TorrentLink.Lib.BigEndian

/-!
# The peer table of the built-in tracker

`by_ih_`: for each info-hash the peers that announced it, in the order of their first announce. The three
operations are described by what they do to membership: `mem_swarm_upsert`, `mem_swarm_remove` and
`mem_swarm_prune`; each keeps the table well formed (`TableOk`).
-/

namespace TorrentLink.Tracker

open Lib

structure Peer where
  peerId : Bytes
  ipv4Host : BitVec 32
  port : BitVec 16
  left : Int
  lastSeenMs : Int
  deriving DecidableEq, Repr

abbrev PeerTable := Map Bytes (List Peer)

def kPeerTtlMs : Int := 45 * 60 * 1000
def kMaxPeersReturn : Int := 50

/-- The loop of `upsert` over the swarm, with its `push_back`. -/
def upsertPeer (p : Peer) : List Peer → List Peer
  | [] => [p]
  | q :: qs => if q.peerId = p.peerId then p :: qs else q :: upsertPeer p qs

/-- `PeerTable::upsert` -/
def upsert (t : PeerTable) (infoHash : Bytes) (p : Peer) : PeerTable :=
  t.insert infoHash (upsertPeer p ((t.lookup infoHash).getD []))

/-- A swarm is put back with the peers that are kept, or erased if none is. -/
def keepPeers (keep : Peer → Bool) (t : PeerTable) (infoHash : Bytes) : PeerTable :=
  match t.lookup infoHash with
  | none => t
  | some vec =>
    if vec.filter keep = [] then t.erase infoHash else t.insert infoHash (vec.filter keep)

/-- `PeerTable::remove` -/
def remove (t : PeerTable) (infoHash peerId : Bytes) : PeerTable :=
  keepPeers (fun p => p.peerId ≠ peerId) t infoHash

def isExpired (nowMs : Int) (p : Peer) : Bool := kPeerTtlMs < nowMs - p.lastSeenMs

/-- `PeerTable::prune`: the loop visits every info-hash once. -/
def prune (t : PeerTable) (nowMs : Int) : PeerTable :=
  t.keys.foldl (keepPeers fun p => !isExpired nowMs p) t

/-- The peers of an info-hash. -/
def swarm (t : PeerTable) (infoHash : Bytes) : List Peer := (t.lookup infoHash).getD []

/-- `PeerTable::countComplete` -/
def countComplete (t : PeerTable) (infoHash : Bytes) : Nat :=
  ((swarm t infoHash).filter fun p => p.left = 0).length

/-- `PeerTable::countIncomplete` -/
def countIncomplete (t : PeerTable) (infoHash : Bytes) : Nat :=
  ((swarm t infoHash).filter fun p => 0 < p.left).length

def compactPeer (p : Peer) : Bytes := bigEndian 4 p.ipv4Host.toNat ++ bigEndian 2 p.port.toNat

/-- `PeerTable::buildCompactPeers`: `shuffle` is what the random generator makes of the candidates. -/
def buildCompactPeers (shuffle : List Peer → List Peer) (t : PeerTable)
    (infoHash excludePeerId : Bytes) (numwant : Int) : Bytes :=
  let cand := (swarm t infoHash).filter fun p => p.peerId ≠ excludePeerId
  if cand = [] then []
  else
    let take := min (min numwant kMaxPeersReturn) cand.length
    ((shuffle cand).take take.toNat).flatMap compactPeer

/-! ### Well-formed tables -/

structure TableOk (t : PeerTable) : Prop where
  nodup : ∀ infoHash, ((swarm t infoHash).map Peer.peerId).Nodup
  noEmptySwarm : ∀ infoHash, t.lookup infoHash ≠ some []

theorem tableOk_empty : TableOk ∅ where
  nodup _ := by simp [swarm]
  noEmptySwarm _ := by simp

/-! ### One swarm -/

theorem swarm_insert (t : PeerTable) (ih ih' : Bytes) (ps : List Peer) :
    swarm (t.insert ih ps) ih' = if ih' = ih then ps else swarm t ih' := by
  unfold swarm
  rw [Map.lookup_insert]
  split_ifs <;> rfl

theorem swarm_erase (t : PeerTable) (ih ih' : Bytes) :
    swarm (t.erase ih) ih' = if ih' = ih then [] else swarm t ih' := by
  unfold swarm
  rw [Map.lookup_erase]
  split_ifs <;> rfl

theorem swarm_keepPeers (keep : Peer → Bool) (t : PeerTable) (ih ih' : Bytes) :
    swarm (keepPeers keep t ih) ih' =
      if ih' = ih then (swarm t ih).filter keep else swarm t ih' := by
  unfold keepPeers
  cases h : t.lookup ih with
  | none =>
    by_cases heq : ih' = ih
    · subst heq
      simp [swarm, h]
    · simp [heq]
  | some vec =>
    have hswarm : swarm t ih = vec := by simp [swarm, h]
    by_cases hempty : vec.filter keep = []
    · simp only [hempty, if_true, swarm_erase, hswarm]
    · simp only [hempty, if_false, swarm_insert, hswarm]

/-! ### Inserting -/

theorem mem_upsertPeer {p q : Peer} {ps : List Peer} (h : (ps.map Peer.peerId).Nodup) :
    q ∈ upsertPeer p ps ↔ q = p ∨ (q.peerId ≠ p.peerId ∧ q ∈ ps) := by
  induction ps with
  | nil => simp [upsertPeer]
  | cons r rs ih =>
    rw [List.map_cons, List.nodup_cons] at h
    unfold upsertPeer
    by_cases hr : r.peerId = p.peerId
    · rw [if_pos hr, List.mem_cons]
      have hrest : q ∈ rs → q.peerId ≠ p.peerId := fun hq heq =>
        h.1 (hr ▸ heq ▸ List.mem_map_of_mem hq)
      constructor
      · rintro (rfl | hq)
        · exact .inl rfl
        · exact .inr ⟨hrest hq, List.mem_cons_of_mem _ hq⟩
      · rintro (rfl | ⟨hne, hq⟩)
        · exact .inl rfl
        · rcases List.mem_cons.mp hq with rfl | hq
          · exact absurd hr hne
          · exact .inr hq
    · rw [if_neg hr, List.mem_cons, ih h.2, List.mem_cons]
      constructor
      · rintro (rfl | rfl | ⟨hne, hq⟩)
        · exact .inr ⟨hr, .inl rfl⟩
        · exact .inl rfl
        · exact .inr ⟨hne, .inr hq⟩
      · rintro (rfl | ⟨hne, rfl | hq⟩)
        · exact .inr (.inl rfl)
        · exact .inl rfl
        · exact .inr (.inr ⟨hne, hq⟩)

theorem nodup_upsertPeer {p : Peer} {ps : List Peer} (h : (ps.map Peer.peerId).Nodup) :
    ((upsertPeer p ps).map Peer.peerId).Nodup := by
  induction ps with
  | nil => simp [upsertPeer]
  | cons r rs ih =>
    have hmem := h
    rw [List.map_cons, List.nodup_cons] at h
    unfold upsertPeer
    by_cases hr : r.peerId = p.peerId
    · rw [if_pos hr, List.map_cons, List.nodup_cons, ← hr]
      exact h
    · rw [if_neg hr, List.map_cons, List.nodup_cons]
      refine ⟨fun hin => ?_, ih h.2⟩
      obtain ⟨q, hq, hid⟩ := List.mem_map.mp hin
      rcases (mem_upsertPeer h.2).mp hq with rfl | ⟨-, hq⟩
      · exact hr hid.symm
      · exact h.1 (hid ▸ List.mem_map_of_mem hq)

variable {t : PeerTable}

theorem mem_swarm_upsert (h : TableOk t) (ih : Bytes) (p : Peer) {ih' : Bytes} {q : Peer} :
    q ∈ swarm (upsert t ih p) ih' ↔
      (ih' = ih ∧ q = p) ∨ (¬ (ih' = ih ∧ q.peerId = p.peerId) ∧ q ∈ swarm t ih') := by
  unfold upsert
  rw [swarm_insert]
  by_cases heq : ih' = ih
  · subst heq
    rw [if_pos rfl]
    have hmem := mem_upsertPeer (p := p) (q := q) (h.nodup ih')
    unfold swarm at hmem ⊢
    rw [hmem]
    simp
  · simp [heq]

theorem TableOk.upsert (h : TableOk t) (ih : Bytes) (p : Peer) : TableOk (upsert t ih p) where
  nodup ih' := by
    unfold Tracker.upsert
    rw [swarm_insert]
    split_ifs
    · exact nodup_upsertPeer (h.nodup ih)
    · exact h.nodup ih'
  noEmptySwarm ih' := by
    unfold Tracker.upsert
    rw [Map.lookup_insert]
    split_ifs
    · intro hnil
      have hmem := (mem_upsertPeer (h.nodup ih)).mpr (.inl (rfl : p = p))
      unfold swarm at hmem
      rw [Option.some.inj hnil] at hmem
      cases hmem
    · exact h.noEmptySwarm ih'

/-! ### Removing -/

theorem TableOk.keepPeers (h : TableOk t) (keep : Peer → Bool) (ih : Bytes) :
    TableOk (keepPeers keep t ih) where
  nodup ih' := by
    rw [swarm_keepPeers]
    split_ifs
    · exact (h.nodup ih).sublist (List.filter_sublist.map _)
    · exact h.nodup ih'
  noEmptySwarm ih' := by
    unfold Tracker.keepPeers
    cases hvec : t.lookup ih with
    | none => exact h.noEmptySwarm ih'
    | some vec =>
      by_cases hempty : vec.filter keep = []
      · simp only [hempty, if_true, Map.lookup_erase]
        split_ifs
        · simp
        · exact h.noEmptySwarm ih'
      · simp only [hempty, if_false, Map.lookup_insert]
        split_ifs
        · simpa using hempty
        · exact h.noEmptySwarm ih'

theorem mem_swarm_remove (t : PeerTable) (ih peerId : Bytes) {ih' : Bytes} {q : Peer} :
    q ∈ swarm (remove t ih peerId) ih' ↔
      ¬ (ih' = ih ∧ q.peerId = peerId) ∧ q ∈ swarm t ih' := by
  unfold remove
  rw [swarm_keepPeers]
  by_cases heq : ih' = ih
  · subst heq
    simp [and_comm]
  · simp [heq]

theorem TableOk.remove (h : TableOk t) (ih peerId : Bytes) : TableOk (remove t ih peerId) :=
  h.keepPeers _ ih

/-! ### Pruning -/

theorem swarm_foldl_keepPeers (keep : Peer → Bool) (ihs : List Bytes) (t : PeerTable) (ih : Bytes) :
    swarm (ihs.foldl (keepPeers keep) t) ih =
      if ih ∈ ihs then (swarm t ih).filter keep else swarm t ih := by
  induction ihs generalizing t with
  | nil => simp
  | cons ih' ihs step =>
    rw [List.foldl_cons, step, swarm_keepPeers]
    by_cases heq : ih = ih'
    · subst heq
      simp
    · simp [heq]

theorem mem_swarm_prune (t : PeerTable) (nowMs : Int) {ih : Bytes} {q : Peer} :
    q ∈ swarm (prune t nowMs) ih ↔ isExpired nowMs q = false ∧ q ∈ swarm t ih := by
  unfold prune
  rw [swarm_foldl_keepPeers]
  by_cases hkey : ih ∈ t.keys
  · simp [hkey, and_comm]
  · have hnone : t.lookup ih = none := AList.lookup_eq_none.mpr fun hin => hkey (AList.mem_keys.mp hin)
    simp [hkey, swarm, hnone]

theorem TableOk.prune (h : TableOk t) (nowMs : Int) : TableOk (prune t nowMs) := by
  unfold Tracker.prune
  generalize t.keys = ihs
  induction ihs generalizing t with
  | nil => exact h
  | cons ih ihs step => exact step (h.keepPeers _ ih)

/-! ### Counting -/

/-- The two counts leave out the peers whose `left` is negative. -/
theorem countComplete_add_countIncomplete (t : PeerTable) (ih : Bytes) :
    countComplete t ih + countIncomplete t ih =
      ((swarm t ih).filter fun p => 0 ≤ p.left).length := by
  unfold countComplete countIncomplete
  induction swarm t ih with
  | nil => rfl
  | cons p ps step =>
    rcases Int.lt_trichotomy p.left 0 with hneg | hzero | hpos
    · simp [show ¬ p.left = 0 by omega, show ¬ 0 < p.left by omega,
        show ¬ 0 ≤ p.left by omega]
      exact step
    · simp [hzero]
      omega
    · simp [show ¬ p.left = 0 by omega, hpos, show 0 ≤ p.left by omega]
      omega

/-- They add up to the swarm exactly if it has no such peer. -/
theorem counts_eq_length_iff (t : PeerTable) (ih : Bytes) :
    countComplete t ih + countIncomplete t ih = (swarm t ih).length ↔
      ∀ p ∈ swarm t ih, 0 ≤ p.left := by
  rw [countComplete_add_countIncomplete, List.length_filter_eq_length_iff]
  simp

end TorrentLink.Tracker
