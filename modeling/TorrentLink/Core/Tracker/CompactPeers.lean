import TorrentLink.Core.Tracker.TableRuns

/-!
# The peers of an announce response

An announce that is accepted is answered with some of the other peers, six bytes each. Whatever the random
generator makes of the order, these are as many distinct peers as were asked for, up to 50, or all there
are, each with the address and port that it announced last (`announce_compactPeers`).
-/

namespace TorrentLink.Tracker

open Lib

/-! ### What a client reads -/

/-- An IPv4 address and a port. -/
abbrev Endpoint := BitVec 32 × BitVec 16

def Peer.endpoint (p : Peer) : Endpoint := (p.ipv4Host, p.port)

/-- Groups of four bytes of an address and two of a port, both in network byte order. -/
def decodeCompact : Bytes → Option (List Endpoint)
  | [] => some []
  | a :: b :: c :: d :: e :: f :: rest =>
    (decodeCompact rest).map fun peers =>
      (BitVec.ofNat 32 (beValue [a, b, c, d]), BitVec.ofNat 16 (beValue [e, f])) :: peers
  | _ => none

theorem decodeCompact_compactPeer (p : Peer) (rest : Bytes) :
    decodeCompact (compactPeer p ++ rest) = (decodeCompact rest).map (p.endpoint :: ·) := by
  have hip := ofNat_beValue_bigEndian 4 p.ipv4Host
  have hport := ofNat_beValue_bigEndian 2 p.port
  show (decodeCompact rest).map
    ((BitVec.ofNat 32 (beValue (bigEndian 4 p.ipv4Host.toNat)),
      BitVec.ofNat 16 (beValue (bigEndian 2 p.port.toNat))) :: ·) = _
  rw [hip, hport]
  rfl

theorem decodeCompact_flatMap (peers : List Peer) :
    decodeCompact (peers.flatMap compactPeer) = some (peers.map Peer.endpoint) := by
  induction peers with
  | nil => rfl
  | cons p peers ih =>
    rw [List.flatMap_cons, decodeCompact_compactPeer, ih]
    rfl

theorem length_compactPeer (p : Peer) : (compactPeer p).length = 6 := by
  unfold compactPeer
  rw [List.length_append, length_bigEndian, length_bigEndian]

/-! ### The peers that are returned -/

/-- The peers of an info-hash but one. -/
def otherPeers (t : PeerTable) (infoHash peerId : Bytes) : List Peer :=
  (swarm t infoHash).filter fun p => p.peerId ≠ peerId

variable {shuffle : List Peer → List Peer} {t : PeerTable} {infoHash excludePeerId : Bytes}

/-- The peers of the response, in the order of the shuffle. -/
def returnedPeers (shuffle : List Peer → List Peer) (t : PeerTable) (infoHash excludePeerId : Bytes)
    (numwant : Int) : List Peer :=
  (shuffle (otherPeers t infoHash excludePeerId)).take (min numwant kMaxPeersReturn).toNat

theorem buildCompactPeers_eq (hshuffle : ∀ l, (shuffle l).Perm l) (numwant : Int) :
    buildCompactPeers shuffle t infoHash excludePeerId numwant =
      (returnedPeers shuffle t infoHash excludePeerId numwant).flatMap compactPeer := by
  unfold buildCompactPeers returnedPeers otherPeers
  generalize (swarm t infoHash).filter (fun p => decide (p.peerId ≠ excludePeerId)) = cand
  have hlength := (hshuffle cand).length_eq
  by_cases hempty : cand = []
  · have hnil : shuffle cand = [] := List.eq_nil_of_length_eq_zero (by rw [hlength, hempty]; rfl)
    rw [if_pos hempty, hnil, List.take_nil]
    rfl
  · rw [if_neg hempty]
    dsimp only
    congr 1
    by_cases hle : min numwant kMaxPeersReturn ≤ cand.length
    · rw [min_eq_left hle]
    · -- all candidates are taken
      rw [List.take_of_length_le (by omega), List.take_of_length_le (by omega)]

/-- As many as are asked for, up to the limit, or all. -/
theorem length_returnedPeers (hshuffle : ∀ l, (shuffle l).Perm l) (numwant : Int) :
    (returnedPeers shuffle t infoHash excludePeerId numwant).length =
      min (min numwant kMaxPeersReturn).toNat (otherPeers t infoHash excludePeerId).length := by
  unfold returnedPeers
  rw [List.length_take, (hshuffle _).length_eq]

theorem mem_returnedPeers (hshuffle : ∀ l, (shuffle l).Perm l) {numwant : Int} {p : Peer}
    (h : p ∈ returnedPeers shuffle t infoHash excludePeerId numwant) :
    p ∈ swarm t infoHash ∧ p.peerId ≠ excludePeerId := by
  have hcand := (hshuffle _).mem_iff.mp (List.mem_of_mem_take h)
  have hfilter := List.mem_filter.mp hcand
  exact ⟨hfilter.1, of_decide_eq_true hfilter.2⟩

/-- No peer twice. -/
theorem nodup_returnedPeers (h : TableOk t) (hshuffle : ∀ l, (shuffle l).Perm l) (numwant : Int) :
    ((returnedPeers shuffle t infoHash excludePeerId numwant).map Peer.peerId).Nodup := by
  have hothers : ((otherPeers t infoHash excludePeerId).map Peer.peerId).Nodup :=
    (h.nodup infoHash).sublist (List.filter_sublist.map _)
  have hshuffled := ((hshuffle (otherPeers t infoHash excludePeerId)).map Peer.peerId).nodup_iff.mpr
    hothers
  exact hshuffled.sublist ((List.take_sublist ..).map _)

/-! ### The number that is asked for -/

variable (env : QueryEnv)

/-- The query of a request. -/
def queryString (pathQuery : Bytes) : Bytes :=
  match indexOf (latin1 "?") pathQuery with
  | some qmark => pathQuery.drop (qmark + 1)
  | none => []

/-- The number of the request, if it has one. -/
def requestedNumwant (pathQuery : Bytes) : Option Int :=
  let nw := env.queryItemValue (queryString pathQuery) "numwant"
  if nw = "" then none else env.toInt nw

/-- The number if it is positive, 50 otherwise. -/
def wanted : Option Int → Int
  | some v => if 0 < v then v else 50
  | none => 50

variable {env} {c : Client} {pathQuery : Bytes} {a : Announce}

theorem numwant_parseAnnounce (h : parseAnnounce env c.peerAddr pathQuery = .ok a) :
    a.numwant = parseNumwant env (queryString pathQuery) := by
  unfold parseAnnounce at h
  unfold queryString
  split at h
  · cases h
  · split at h
    · cases h
    · next qmark hq =>
      simp only [hq]
      dsimp only at h
      split at h
      · cases h
      · split at h
        · cases h
        · split at h
          · cases h
          · split at h
            · cases h
            · split at h
              · cases h
              · split at h
                · cases h
                · cases h
                  rfl

/-- What the tracker makes of it, with its limit. -/
theorem min_numwant (h : parseAnnounce env c.peerAddr pathQuery = .ok a) :
    min (if 0 < a.numwant then a.numwant else kDefaultNumwant) kMaxPeersReturn =
      min (wanted (requestedNumwant env pathQuery)) 50 := by
  rw [numwant_parseAnnounce h]
  unfold parseNumwant requestedNumwant
  generalize env.queryItemValue (queryString pathQuery) "numwant" = nw
  by_cases hnw : nw = ""
  · simp only [hnw, ne_eq, not_true_eq_false, if_false, if_true]
    decide
  · dsimp only
    rw [if_pos hnw, if_neg hnw]
    cases env.toInt nw with
    | none => decide
    | some v =>
      simp only [wanted, kMaxPeersReturn, kDefaultNumwant]
      split_ifs <;> omega

/-! ### The response -/

/-- The peers of the response to an announce, against the table and the latest announces after it. -/
structure CompactPeersOk (requested : Option Int) (a : Announce) (x : PeerTable × Latest)
    (peers : Bytes) : Prop where
  length : peers.length =
    6 * min (min (wanted requested) 50).toNat (otherPeers x.1 a.infoHash a.peerId).length
  decodes : ∃ ps : List Peer, decodeCompact peers = some (ps.map Peer.endpoint) ∧
    (ps.map Peer.peerId).Nodup ∧ ∀ p ∈ ps, p.peerId ≠ a.peerId ∧ x.2 a.infoHash p.peerId = some p

theorem length_flatMap_compactPeer (peers : List Peer) :
    (peers.flatMap compactPeer).length = 6 * peers.length := by
  induction peers with
  | nil => rfl
  | cons p peers ih =>
    rw [List.flatMap_cons, List.length_append, length_compactPeer, ih, List.length_cons]
    omega

theorem compactPeersOk {x : PeerTable × Latest} (hx : Holds x)
    (h : parseAnnounce env c.peerAddr pathQuery = .ok a) (hshuffle : ∀ l, (shuffle l).Perm l) :
    CompactPeersOk (requestedNumwant env pathQuery) a x
      (buildCompactPeers shuffle x.1 a.infoHash a.peerId
        (if 0 < a.numwant then a.numwant else kDefaultNumwant)) := by
  rw [buildCompactPeers_eq hshuffle]
  constructor
  case length =>
    rw [length_flatMap_compactPeer, length_returnedPeers hshuffle, min_numwant h]
  case decodes =>
    refine ⟨_, decodeCompact_flatMap _, nodup_returnedPeers hx.table hshuffle _, fun p hp => ?_⟩
    obtain ⟨hswarm, hother⟩ := mem_returnedPeers hshuffle hp
    exact ⟨hother, (hx.mem a.infoHash p).mp hswarm⟩

variable (env)

/-- Every table that holds the latest announces, as the tables of all runs do, answers an announce with
distinct other peers, as many as are wanted, up to 50, or all, each with what it announced last. -/
theorem announce_compactPeers :
    (∀ steps, Holds (run (watch env) noPeers steps)) ∧
    ∀ x, Holds x → ∀ (c : Client) (pathQuery : Bytes) (a : Announce),
      parseAnnounce env c.peerAddr pathQuery = .ok a → (∀ l, (c.shuffle l).Perm l) →
      let x' := watch env x (.request c pathQuery)
      ∃ peers, (handlePath env c x.1 pathQuery).1.body =
          Bencode.encodeAnnounceOk kAnnounceIntervalSec kMinAnnounceIntervalSec
            (countComplete x'.1 a.infoHash) (countIncomplete x'.1 a.infoHash) peers ∧
        CompactPeersOk (requestedNumwant env pathQuery) a x' peers := by
  refine ⟨run_invariant (P := Holds) (fun _ step h => holds_watch h step) holds_noPeers, ?_⟩
  intro x hx c pathQuery a ha hshuffle x'
  have hx' : Holds x' := holds_watch hx (.request c pathQuery)
  have hreply := handlePath_ok x.1 ha
  have htable : x'.1 = updateTable c.nowMs x.1 a := congrArg Prod.snd hreply
  refine ⟨_, ?_, compactPeersOk hx' ha hshuffle⟩
  rw [hreply, htable]
  rfl

/-- Two peers announce one after the other; the second is told of the first. -/
theorem announce_compactPeers_two :
    let client : Client := { peerAddr := some 0x7f000001, nowMs := 0, shuffle := List.reverse }
    let announceBy := fun id : String => latin1 ("/announce?info_hash=aaaaaaaaaaaaaaaaaaaa&peer_id=" ++ id ++
      "&port=6881")
    let x := run (watch sampleEnv) noPeers [.request client (announceBy "bbbbbbbbbbbbbbbbbbbb")]
    ∃ a peers, parseAnnounce sampleEnv client.peerAddr (announceBy "cccccccccccccccccccc") = .ok a ∧
      CompactPeersOk none a (watch sampleEnv x (.request client (announceBy "cccccccccccccccccccc")))
        peers := by
  intro client announceBy x
  have hparse : (parseAnnounce sampleEnv client.peerAddr
      (announceBy "cccccccccccccccccccc")).toOption.isSome = true := by decide
  cases ha : parseAnnounce sampleEnv client.peerAddr (announceBy "cccccccccccccccccccc") with
  | error reply =>
    rw [ha] at hparse
    cases hparse
  | ok a =>
    obtain ⟨hruns, hreply⟩ := announce_compactPeers sampleEnv
    obtain ⟨peers, _, hpeers⟩ := hreply x (hruns _) client _ a ha fun l => l.reverse_perm
    have hnone : requestedNumwant sampleEnv (announceBy "cccccccccccccccccccc") = none := by decide
    rw [hnone] at hpeers
    exact ⟨a, peers, rfl, hpeers⟩

end TorrentLink.Tracker
