import Mathlib.Data.List.Basic

/-!
# Decisions on a stream

A stream arrives in segments. A decision is made on all that has arrived (`decide`), again with every
segment, until it is made for the first time (`firstDecision`). The rule: what is decided first does not
depend on the segments if and only if no prefix is decided otherwise than the whole.
-/

namespace TorrentLink.Lib

variable {α β : Type*} (decision : List α → Option β)

/-- The first decision, with what had arrived before. -/
def firstDecision (arrived : List α) : List (List α) → Option β
  | [] => none
  | seg :: segs => (decision (arrived ++ seg)).or (firstDecision (arrived ++ seg) segs)

/-- The first decision is the same for all ways to split the stream. -/
def SegmentFree (stream : List α) : Prop :=
  ∀ segs segs' : List (List α), segs.flatten = stream → segs'.flatten = stream →
    firstDecision decision [] segs = firstDecision decision [] segs'

/-- No prefix is decided otherwise than the whole. -/
def PrefixesAgree (stream : List α) : Prop :=
  ∀ arrived, arrived <+: stream → decision arrived = none ∨ decision arrived = decision stream

variable {decision}

theorem PrefixesAgree.firstDecision {stream : List α} (h : PrefixesAgree decision stream)
    {arrived : List α} {segs : List (List α)} (hundecided : decision arrived = none)
    (hall : arrived ++ segs.flatten = stream) :
    firstDecision decision arrived segs = decision stream := by
  induction segs generalizing arrived with
  | nil =>
    have heq : arrived = stream := by simpa using hall
    rw [← heq, hundecided]
    rfl
  | cons seg segs ih =>
    have hnext : (arrived ++ seg) ++ segs.flatten = stream := by
      simpa [List.append_assoc] using hall
    unfold Lib.firstDecision
    cases hdec : decision (arrived ++ seg) with
    | none => exact ih hdec hnext
    | some b =>
      rcases h _ ⟨_, hnext⟩ with hnone | hsame
      · rw [hdec] at hnone
        cases hnone
      · rw [← hsame, hdec]
        rfl

theorem segmentFree_iff (hstart : decision [] = none) (stream : List α) :
    SegmentFree decision stream ↔ PrefixesAgree decision stream := by
  constructor
  · rintro h arrived ⟨rest, hrest⟩
    have hsame := h [arrived, rest] [stream] (by simpa using hrest) (by simp)
    cases hdec : decision arrived with
    | none => exact .inl rfl
    | some b =>
      refine .inr ?_
      simpa [Lib.firstDecision, hdec] using hsame
  · intro h segs segs' hsegs hsegs'
    rw [h.firstDecision hstart hsegs, h.firstDecision hstart hsegs']

end TorrentLink.Lib
