import TorrentLink.Core.Tracker.Announce
import TorrentLink.Lib.Runs

/-!
# The peer table over runs

A run of the tracker takes announce requests and prunes, at any times. Beside it stands what each peer of
each info-hash announced last, unless it has stopped or was found expired by a prune since (`Latest`).
The table always holds exactly this, and the reported counts add up to the peers exactly as long as no
peer has announced a negative `left`.
-/

namespace TorrentLink.Tracker

open Lib

inductive TrackerStep
  | request (c : Client) (pathQuery : Bytes)
  | prune (nowMs : Int)

variable (env : QueryEnv)

def trackerStep (t : PeerTable) : TrackerStep → PeerTable
  | .request c pathQuery => (handlePath env c t pathQuery).2
  | .prune nowMs => prune t nowMs

/-! ### The latest announces -/

/-- By info-hash and peer id. -/
abbrev Latest := Bytes → Bytes → Option Peer

/-- An announce replaces the peer's entry, or clears it if the peer stops. -/
def noteAnnounce (nowMs : Int) (latest : Latest) (a : Announce) : Latest := fun ih peerId =>
  if ih = a.infoHash ∧ peerId = a.peerId then
    if a.stopped then none else some (a.peer nowMs)
  else latest ih peerId

def noteStep (_ : PeerTable) (latest : Latest) : TrackerStep → Latest
  | .request c pathQuery =>
    match parseAnnounce env c.peerAddr pathQuery with
    | .error _ => latest
    | .ok a => noteAnnounce c.nowMs latest a
  | .prune nowMs => fun ih peerId => (latest ih peerId).filter fun p => !isExpired nowMs p

def watch : PeerTable × Latest → TrackerStep → PeerTable × Latest :=
  recorded (trackerStep env) (noteStep env)

/-- The table is well formed and holds the latest announces, no others. -/
structure Holds (x : PeerTable × Latest) : Prop where
  table : TableOk x.1
  mem : ∀ ih p, p ∈ swarm x.1 ih ↔ x.2 ih p.peerId = some p

/-- The tracker before its first request. -/
def noPeers : PeerTable × Latest := (∅, fun _ _ => none)

theorem holds_noPeers : Holds noPeers where
  table := tableOk_empty
  mem ih p := by simp [noPeers, swarm]

variable {env}

theorem noteStep_error (t : PeerTable) (latest : Latest) {c : Client} {pathQuery : Bytes}
    {reply : Reply} (h : parseAnnounce env c.peerAddr pathQuery = .error reply) :
    noteStep env t latest (.request c pathQuery) = latest := by
  unfold noteStep
  simp only [h]

theorem noteStep_ok (t : PeerTable) (latest : Latest) {c : Client} {pathQuery : Bytes}
    {a : Announce} (h : parseAnnounce env c.peerAddr pathQuery = .ok a) :
    noteStep env t latest (.request c pathQuery) = noteAnnounce c.nowMs latest a := by
  unfold noteStep
  simp only [h]

theorem Holds.announce {t : PeerTable} {latest : Latest} (h : Holds (t, latest)) (nowMs : Int)
    (a : Announce) : Holds (updateTable nowMs t a, noteAnnounce nowMs latest a) := by
  have hmem : ∀ ih p, p ∈ swarm t ih ↔ latest ih p.peerId = some p := h.mem
  by_cases hstop : a.stopped = true
  · constructor
    · simp only [updateTable, hstop, if_true]
      exact h.table.remove _ _
    · intro ih p
      simp only [updateTable, noteAnnounce, hstop, if_true]
      rw [mem_swarm_remove, hmem]
      by_cases hkey : ih = a.infoHash ∧ p.peerId = a.peerId <;> simp [hkey]
  · constructor
    · simp only [updateTable, hstop]
      exact h.table.upsert _ _
    · intro ih p
      simp only [updateTable, noteAnnounce, hstop]
      show p ∈ swarm (upsert t a.infoHash (a.peer nowMs)) ih ↔ _
      rw [mem_swarm_upsert h.table, hmem]
      by_cases hkey : ih = a.infoHash ∧ p.peerId = a.peerId
      · simp [hkey, Announce.peer, eq_comm]
      · have hne : ¬ (ih = a.infoHash ∧ p = a.peer nowMs) := fun heq =>
          hkey ⟨heq.1, congrArg Peer.peerId heq.2⟩
        have hother : ¬ (ih = a.infoHash ∧ p.peerId = (a.peer nowMs).peerId) := hkey
        simp [hne, hother, hkey]

theorem Holds.prune {t : PeerTable} {latest : Latest} (h : Holds (t, latest)) (nowMs : Int) :
    Holds (prune t nowMs, noteStep env t latest (.prune nowMs)) := by
  constructor
  · exact h.table.prune nowMs
  · intro ih p
    show p ∈ swarm (Tracker.prune t nowMs) ih ↔
      (latest ih p.peerId).filter (fun q => !isExpired nowMs q) = some p
    rw [mem_swarm_prune, h.mem, Option.filter_eq_some_iff]
    simp [and_comm]

theorem holds_watch {x : PeerTable × Latest} (h : Holds x) (step : TrackerStep) :
    Holds (watch env x step) := by
  obtain ⟨t, latest⟩ := x
  cases step with
  | prune nowMs => exact h.prune nowMs
  | request c pathQuery =>
    show Holds ((handlePath env c t pathQuery).2, noteStep env t latest (.request c pathQuery))
    cases hparse : parseAnnounce env c.peerAddr pathQuery with
    | error reply =>
      rw [handlePath_error t hparse, noteStep_error t latest hparse]
      exact h
    | ok a =>
      rw [handlePath_ok t hparse, noteStep_ok t latest hparse]
      exact h.announce c.nowMs a

/-! ### The counts -/

/-- The counts of every info-hash add up to its peers. -/
def CountsAgree (t : PeerTable) : Prop :=
  ∀ ih, countComplete t ih + countIncomplete t ih = (swarm t ih).length

structure TrackerGood (x : PeerTable × Latest) : Prop where
  holds : Holds x
  counts : CountsAgree x.1

/-- An announce that is entered has no negative `left`. -/
def LeftNotNegative (env : QueryEnv) (_ : PeerTable × Latest) : TrackerStep → Prop
  | .request c pathQuery => ∀ a, parseAnnounce env c.peerAddr pathQuery = .ok a →
      a.stopped = false → 0 ≤ a.left
  | .prune _ => True

theorem countsAgree_iff (t : PeerTable) :
    CountsAgree t ↔ ∀ ih, ∀ p ∈ swarm t ih, 0 ≤ p.left := by
  unfold CountsAgree
  simp only [counts_eq_length_iff]

theorem countsAgree_updateTable {t : PeerTable} (hok : TableOk t) (h : CountsAgree t) (nowMs : Int)
    (a : Announce) :
    CountsAgree (updateTable nowMs t a) ↔ (a.stopped = false → 0 ≤ a.left) := by
  rw [countsAgree_iff] at h ⊢
  by_cases hstop : a.stopped = true
  · simp only [updateTable, hstop, if_true]
    refine iff_of_true (fun ih p hp => ?_) (by simp)
    rw [mem_swarm_remove] at hp
    exact h ih p hp.2
  · have hrun : a.stopped = false := Bool.eq_false_iff.mpr hstop
    simp only [updateTable, hrun, forall_const]
    constructor
    · intro hall
      exact hall a.infoHash (a.peer nowMs) ((mem_swarm_upsert hok _ _).mpr (.inl ⟨rfl, rfl⟩))
    · intro hleft ih p hp
      rcases (mem_swarm_upsert hok _ _).mp hp with ⟨-, rfl⟩ | ⟨-, hp⟩
      · exact hleft
      · exact h ih p hp

theorem countsAgree_step {x : PeerTable × Latest} (h : TrackerGood x) (step : TrackerStep) :
    CountsAgree (watch env x step).1 ↔ LeftNotNegative env x step := by
  obtain ⟨t, latest⟩ := x
  cases step with
  | prune nowMs =>
    refine iff_of_true ?_ trivial
    have hall := (countsAgree_iff t).mp h.counts
    rw [countsAgree_iff]
    intro ih p hp
    exact hall ih p ((mem_swarm_prune t nowMs).mp hp).2
  | request c pathQuery =>
    show CountsAgree (handlePath env c t pathQuery).2 ↔ ∀ a,
      parseAnnounce env c.peerAddr pathQuery = .ok a → a.stopped = false → 0 ≤ a.left
    cases hparse : parseAnnounce env c.peerAddr pathQuery with
    | error reply =>
      rw [handlePath_error t hparse]
      exact iff_of_true h.counts fun a ha => by cases ha
    | ok a =>
      rw [handlePath_ok t hparse, countsAgree_updateTable h.holds.table h.counts]
      simp

variable (env)

/-- In every state of every run the table holds exactly the latest announces, with distinct peer ids and
no empty swarm; the counts of every info-hash add up to its peers in every state, if and only if no
announce that is entered has a negative `left`. -/
theorem trackerGood_iff (steps : List TrackerStep) :
    (∀ n, Holds (run (watch env) noPeers (steps.take n))) ∧
    ((∀ n, TrackerGood (run (watch env) noPeers (steps.take n))) ↔
      RunOk (watch env) (LeftNotNegative env) noPeers steps) := by
  constructor
  · intro n
    exact run_invariant (P := Holds) (fun _ step h => holds_watch h step) holds_noPeers _
  · have hstart : TrackerGood noPeers := ⟨holds_noPeers, fun ih => by rfl⟩
    have hstep : ∀ x step, Holds x → TrackerGood x →
        (TrackerGood (watch env x step) ↔ LeftNotNegative env x step) := by
      intro x step hx hgood
      rw [← countsAgree_step hgood step]
      exact ⟨TrackerGood.counts, fun hcounts => ⟨holds_watch hx step, hcounts⟩⟩
    exact always_iff_runOk (fun _ step h => holds_watch h step) hstep holds_noPeers hstart steps

/-- The query parsing that the following request needs. -/
def sampleEnv : QueryEnv where
  queryItemValue qs key := String.ofList ((queryParamRaw qs (latin1 key)).map fun b =>
    Char.ofNat b.toNat)
  toInt s := if s = "6881" then some 6881 else none
  toLongLong s := if s = "-1" then -1 else 0
  toLower s := s

/-- A peer that announces `left=-1` is neither complete nor incomplete. -/
theorem negative_left_uncounted :
    ¬ ∀ (env : QueryEnv) (steps : List TrackerStep),
      TrackerGood (run (watch env) noPeers steps) := by
  intro h
  have hcounts := (h sampleEnv [.request { peerAddr := some 0x7f000001, nowMs := 0, shuffle := id }
    (latin1 "/announce?info_hash=aaaaaaaaaaaaaaaaaaaa&peer_id=bbbbbbbbbbbbbbbbbbbb&port=6881&left=-1")]).counts
      (latin1 "aaaaaaaaaaaaaaaaaaaa")
  revert hcounts
  decide

end TorrentLink.Tracker
