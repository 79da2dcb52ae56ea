import TorrentLink.Core.Tracker.Announce
import TorrentLink.Lib.Bencoding

/-!
# The bodies of the tracker's replies

The encoder concatenates the parts of a reply by hand. A failure is the canonical bencoding of its reason.
The keys of an announce response stand in the order interval, min interval, complete, incomplete, peers,
which is not the sorted one: a decoder that insists on sorted keys refuses it, and one that is as strict in
everything else reads back all fields (`replies_decode`).
-/

namespace TorrentLink.Tracker

open Lib

/-- What a failure says. -/
def failureValue (reason : String) : BValue := .dict [(latin1 "failure reason", .str (toUtf8 reason))]

/-- What an announce response says, in the order of the body. -/
def announceValue (intervalSec minIntervalSec complete incomplete : Int) (peersCompact : Bytes) : BValue :=
  .dict
    [(latin1 "interval", .int intervalSec),
     (latin1 "min interval", .int minIntervalSec),
     (latin1 "complete", .int complete),
     (latin1 "incomplete", .int incomplete),
     (latin1 "peers", .str peersCompact)]

/-! ### The encoder -/

theorem latin1_append (s s' : String) : latin1 (s ++ s') = latin1 s ++ latin1 s' := by
  unfold latin1
  rw [String.toList_append, List.map_append]

theorem byteNumber_eq (n : Int) : byteNumber n = BValue.decimalInt n := by
  unfold byteNumber
  cases n with
  | ofNat n =>
    show latin1 n.repr = BValue.decimal n
    unfold latin1 BValue.decimal
    rw [Nat.toList_repr]
  | negSucc n =>
    show latin1 ("-" ++ (n + 1).repr) = 45 :: BValue.decimal (n + 1)
    rw [latin1_append]
    unfold latin1 BValue.decimal
    rw [Nat.toList_repr]
    rfl

theorem encodeString_eq (s : Bytes) : Bencode.encodeString s = BValue.encodeString s := by
  have hcolon : latin1 ":" = [58] := by decide
  unfold Bencode.encodeString BValue.encodeString
  rw [byteNumber_eq, hcolon, List.append_assoc]
  rfl

theorem encodeInt_eq (n : Int) : Bencode.encodeInt n = BValue.encode (.int n) := by
  have hi : latin1 "i" = [105] := by decide
  have he : latin1 "e" = [101] := by decide
  unfold Bencode.encodeInt
  rw [byteNumber_eq, hi, he, BValue.encode]
  rfl

/-- The two bodies are the encodings of what they say. -/
theorem encodeAnnounceFailure_eq (reason : String) :
    Bencode.encodeAnnounceFailure reason = BValue.encode (failureValue reason) := by
  have hd : latin1 "d" = [100] := by decide
  have he : latin1 "e" = [101] := by decide
  unfold Bencode.encodeAnnounceFailure failureValue
  simp only [BValue.encode, BValue.encodeEntries, encodeString_eq, hd, he, List.append_assoc,
    List.cons_append, List.nil_append]

theorem encodeAnnounceOk_eq (intervalSec minIntervalSec complete incomplete : Int)
    (peersCompact : Bytes) :
    Bencode.encodeAnnounceOk intervalSec minIntervalSec complete incomplete peersCompact =
      BValue.encode (announceValue intervalSec minIntervalSec complete incomplete peersCompact) := by
  have hd : latin1 "d" = [100] := by decide
  have he : latin1 "e" = [101] := by decide
  unfold Bencode.encodeAnnounceOk announceValue
  simp only [BValue.encode, BValue.encodeEntries, encodeString_eq, encodeInt_eq, hd, he,
    List.append_assoc, List.cons_append, List.nil_append]

/-! ### The decoder -/

/-- A failure is decoded from its body alone, with the keys in sorted order; an announce response from its
body alone, with the keys in any order, none of them twice. -/
theorem replies_decode :
    (∀ reason bs, BValue.decode (· < ·) bs = some (failureValue reason) ↔
      bs = Bencode.encodeAnnounceFailure reason) ∧
    ∀ intervalSec minIntervalSec complete incomplete peersCompact bs,
      BValue.decode (· ≠ ·) bs =
          some (announceValue intervalSec minIntervalSec complete incomplete peersCompact) ↔
        bs = Bencode.encodeAnnounceOk intervalSec minIntervalSec complete incomplete peersCompact := by
  constructor
  · intro reason bs
    rw [BValue.decode_eq_some_iff, encodeAnnounceFailure_eq]
    refine and_iff_right ⟨List.pairwise_singleton .., trivial, trivial⟩
  · intro intervalSec minIntervalSec complete incomplete peersCompact bs
    have hkeys : [latin1 "interval", latin1 "min interval", latin1 "complete", latin1 "incomplete",
        latin1 "peers"].Pairwise (· ≠ ·) := by decide
    rw [BValue.decode_eq_some_iff, encodeAnnounceOk_eq]
    exact and_iff_right ⟨hkeys, trivial, trivial, trivial, trivial, trivial, trivial⟩

/-- With the keys in sorted order, the response to the first peer of a swarm is refused. -/
theorem announceOk_refused : BValue.decode (· < ·) (Bencode.encodeAnnounceOk 1800 900 0 0 []) = none := by
  rw [← Option.isNone_iff_eq_none]
  decide

end TorrentLink.Tracker
