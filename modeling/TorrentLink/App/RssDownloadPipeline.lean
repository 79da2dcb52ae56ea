import TorrentLink.App.RssDownloads
import TorrentLink.Lib.Runs

/-!
# The pipeline of RSS downloads

`RssDownloadPipeline`: two queues of the same kind, one of magnets and one of torrent URLs. An item is
appended, and a pump is posted to the owner's event loop unless one is scheduled already; the pump takes
one item, if fewer than the limit are in flight, and hands it to the callback it was scheduled with. The
end of a download lowers the number in flight and schedules a pump.

All calls come from the UI thread, so a run is a list of whole calls. Handing an item to its callback is
the last thing a pump does, so a finish from inside the callback is just the next call.
-/

namespace TorrentLink.App

open Lib

/-! ### One queue -/

/-- One of the two queues, with the items `α` and the callbacks `ω`. -/
structure Lane (α ω : Type) where
  queue : List α := []
  inFlight : Int := 0
  maxInFlight : Int := 8
  pumpScheduled : Bool := false
  /-- The pumps that wait in the owner's event loop, each with its callback. -/
  posted : List ω := []
  deriving DecidableEq, Repr

namespace Lane

variable {α ω : Type}

def setMaxInFlight (l : Lane α ω) (maxInFlight : Int) : Lane α ω :=
  { l with maxInFlight := max 1 maxInFlight }

/-- `schedulePumpMagnet` and `schedulePumpRssTorrent` -/
def schedulePump (l : Lane α ω) (startFn : ω) : Lane α ω :=
  if l.pumpScheduled then l
  else { l with pumpScheduled := true, posted := l.posted ++ [startFn] }

/-- `enqueueMagnet` and `enqueueRssTorrentUrl` -/
def enqueue (l : Lane α ω) (item : α) (startFn : ω) : Lane α ω :=
  schedulePump { l with queue := l.queue ++ [item] } startFn

/-- `finishMagnet` and `finishRssTorrent` -/
def finish (l : Lane α ω) (startFn : ω) : Lane α ω :=
  schedulePump { l with inFlight := max 0 (l.inFlight - 1) } startFn

/-- `pumpMagnetQueueOnUi` and `pumpRssTorrentUrlQueueOnUi`, up to the call of the callback: the item
that it is handed, if there is one. -/
def pump (l : Lane α ω) : Lane α ω × Option α :=
  let l := { l with pumpScheduled := false }
  if l.maxInFlight ≤ l.inFlight then (l, none)
  else
    match l.queue with
    | [] => (l, none)
    | item :: rest => ({ l with queue := rest, inFlight := l.inFlight + 1 }, some item)

/-- The event loop runs the oldest posted pump: its callback, what is left, and the item. -/
def runPosted (l : Lane α ω) : Option (ω × Lane α ω × Option α) :=
  match l.posted with
  | [] => none
  | startFn :: rest => some (startFn, { l with posted := rest }.pump)

end Lane

/-! ### Both queues -/

/-- The callbacks of magnets are `μ`, those of torrent URLs `τ`. -/
structure RssDownloadPipeline (μ τ : Type) where
  magnet : Lane MagnetQueueItem μ := {}
  rssTorrent : Lane RssTorrentUrlQueueItem τ := {}
  deriving DecidableEq, Repr

namespace RssDownloadPipeline

variable {μ τ : Type} (p : RssDownloadPipeline μ τ)

def setMagnetMaxInFlight (maxInFlight : Int) : RssDownloadPipeline μ τ :=
  { p with magnet := p.magnet.setMaxInFlight maxInFlight }

def setRssTorrentMaxInFlight (maxInFlight : Int) : RssDownloadPipeline μ τ :=
  { p with rssTorrent := p.rssTorrent.setMaxInFlight maxInFlight }

def enqueueMagnet (item : MagnetQueueItem) (startFn : μ) : RssDownloadPipeline μ τ :=
  { p with magnet := p.magnet.enqueue item startFn }

def enqueueRssTorrentUrl (item : RssTorrentUrlQueueItem) (startFn : τ) : RssDownloadPipeline μ τ :=
  { p with rssTorrent := p.rssTorrent.enqueue item startFn }

def finishMagnet (startFn : μ) : RssDownloadPipeline μ τ :=
  { p with magnet := p.magnet.finish startFn }

def finishRssTorrent (startFn : τ) : RssDownloadPipeline μ τ :=
  { p with rssTorrent := p.rssTorrent.finish startFn }

end RssDownloadPipeline

/-! ### Runs -/

/-- An item that was handed to its callback, with the number in flight and the limit just before. -/
structure Start (α : Type) where
  item : α
  inFlight : Int
  maxInFlight : Int

/-- A queue with the record of its run: the items that came in, those that were started, in order, and
how many of these have finished. -/
structure LaneRun (α ω : Type) where
  lane : Lane α ω := {}
  enqueued : List α := []
  starts : List (Start α) := []
  finished : Nat := 0

inductive LaneStep (α ω : Type)
  | enqueue (item : α) (startFn : ω)
  | finish (startFn : ω)
  | pump
  | setMaxInFlight (maxInFlight : Int)

section LaneRun

variable {α ω : Type}

/-- A pump whose result is recorded. -/
def LaneRun.pump (r : LaneRun α ω) : LaneRun α ω :=
  match r.lane.runPosted with
  | none => r
  | some (_, lane, none) => { r with lane := lane }
  | some (_, lane, some item) =>
    { r with
      lane := lane
      starts := r.starts ++ [⟨item, r.lane.inFlight, r.lane.maxInFlight⟩] }

/-- A call. There is one finish for each start, so none without an item in flight. -/
def laneStep (r : LaneRun α ω) : LaneStep α ω → LaneRun α ω
  | .enqueue item startFn =>
    { r with lane := r.lane.enqueue item startFn, enqueued := r.enqueued ++ [item] }
  | .finish startFn =>
    if r.finished < r.starts.length then
      { r with lane := r.lane.finish startFn, finished := r.finished + 1 }
    else r
  | .pump => r.pump
  | .setMaxInFlight maxInFlight => { r with lane := r.lane.setMaxInFlight maxInFlight }

/-! ### What every call keeps -/

/-- The items that came in are those that were started, in order, and then those that wait; the number in
flight is right, and was below the limit at each start; and as long as an item waits, a pump is posted or
an item is in flight. -/
structure LaneRun.Dispatched (r : LaneRun α ω) : Prop where
  inOrder : r.enqueued = r.starts.map (·.item) ++ r.lane.queue
  finished_le : r.finished ≤ r.starts.length
  counted : r.lane.inFlight = (r.starts.length : Int) - r.finished
  below : ∀ s ∈ r.starts, s.inFlight < s.maxInFlight
  awake : r.lane.queue ≠ [] → r.lane.posted ≠ [] ∨ 0 < r.lane.inFlight

/-- The limit is positive, and a single pump is posted exactly when the flag says so. -/
structure LaneRun.Sound (r : LaneRun α ω) : Prop extends r.Dispatched where
  limit_pos : 1 ≤ r.lane.maxInFlight
  posted : r.lane.pumpScheduled = !r.lane.posted.isEmpty
  posted_le : r.lane.posted.length ≤ 1

theorem LaneRun.sound_empty : ({} : LaneRun α ω).Sound where
  inOrder := rfl
  counted := rfl
  below := by simp
  awake := by simp
  finished_le := le_rfl
  limit_pos := by simp
  posted := rfl
  posted_le := by simp

/-- Scheduling changes nothing but the pump, and afterwards one is posted. -/
theorem Lane.schedulePump_spec (l : Lane α ω) (startFn : ω)
    (hposted : l.pumpScheduled = !l.posted.isEmpty) (hle : l.posted.length ≤ 1) :
    ∃ posted, l.schedulePump startFn = { l with pumpScheduled := true, posted := posted } ∧
      posted.length = 1 := by
  unfold Lane.schedulePump
  split
  · rename_i hscheduled
    have hne : l.posted ≠ [] := by
      intro hnil
      simp [hscheduled, hnil] at hposted
    have hpos := List.length_pos_iff.mpr hne
    refine ⟨l.posted, ?_, by omega⟩
    rw [← hscheduled]
  · rename_i hfree
    have hnil : l.posted = [] := by simpa [hfree] using hposted
    exact ⟨_, rfl, by simp [hnil]⟩

theorem LaneRun.Sound.enqueue {r : LaneRun α ω} (h : r.Sound) (item : α) (startFn : ω) :
    (laneStep r (.enqueue item startFn)).Sound := by
  obtain ⟨posted, hlane, hone⟩ := Lane.schedulePump_spec
    { r.lane with queue := r.lane.queue ++ [item] } startFn h.posted h.posted_le
  have hne : posted ≠ [] := List.length_pos_iff.mp (by omega)
  have hstep : laneStep r (.enqueue item startFn) =
      { r with
        lane := { r.lane with
          queue := r.lane.queue ++ [item], pumpScheduled := true, posted := posted }
        enqueued := r.enqueued ++ [item] } := by
    simp only [laneStep, Lane.enqueue, hlane]
  rw [hstep]
  exact
    { inOrder := by rw [h.inOrder, List.append_assoc]
      counted := h.counted
      below := h.below
      awake := fun _ => .inl hne
      finished_le := h.finished_le
      limit_pos := h.limit_pos
      posted := by simp [hne]
      posted_le := by simp [hone] }

theorem LaneRun.Sound.finish {r : LaneRun α ω} (h : r.Sound) (startFn : ω) :
    (laneStep r (.finish startFn)).Sound := by
  by_cases hflying : r.finished < r.starts.length
  · obtain ⟨posted, hlane, hone⟩ := Lane.schedulePump_spec
      { r.lane with inFlight := max 0 (r.lane.inFlight - 1) } startFn h.posted h.posted_le
    have hne : posted ≠ [] := List.length_pos_iff.mp (by omega)
    have hstep : laneStep r (.finish startFn) =
        { r with
          lane := { r.lane with
            inFlight := max 0 (r.lane.inFlight - 1), pumpScheduled := true, posted := posted }
          finished := r.finished + 1 } := by
      simp only [laneStep, if_pos hflying, Lane.finish, hlane]
    have hcounted := h.counted
    rw [hstep]
    exact
      { inOrder := h.inOrder
        counted := by
          simp only [hcounted]
          omega
        below := h.below
        awake := fun _ => .inl hne
        finished_le := hflying
        limit_pos := h.limit_pos
        posted := by simp [hne]
        posted_le := by simp [hone] }
  · have hstep : laneStep r (.finish startFn) = r := if_neg hflying
    rw [hstep]
    exact h

/-- A pump that takes nothing leaves no item waiting without one in flight: at the limit there is one. -/
theorem LaneRun.Sound.pump {r : LaneRun α ω} (h : r.Sound) : (laneStep r .pump).Sound := by
  show r.pump.Sound
  unfold LaneRun.pump Lane.runPosted
  cases hposted : r.lane.posted with
  | nil => exact h
  | cons startFn rest =>
    have hrest : rest = [] := by
      have hle := h.posted_le
      rw [hposted, List.length_cons] at hle
      exact List.length_eq_zero_iff.mp (by omega)
    subst hrest
    dsimp only [Lane.pump]
    have hcounted := h.counted
    have hpos := h.limit_pos
    have hle := h.finished_le
    by_cases hfull : r.lane.maxInFlight ≤ r.lane.inFlight
    · rw [if_pos hfull]
      exact
        { inOrder := h.inOrder
          counted := h.counted
          below := h.below
          awake := fun _ => .inr (by dsimp only; omega)
          finished_le := h.finished_le
          limit_pos := h.limit_pos
          posted := rfl
          posted_le := by simp }
    · rw [if_neg hfull]
      cases hqueue : r.lane.queue with
      | nil =>
        exact
          { inOrder := by rw [h.inOrder, hqueue]
            counted := h.counted
            below := h.below
            awake := by simp
            finished_le := h.finished_le
            limit_pos := h.limit_pos
            posted := rfl
            posted_le := by simp }
      | cons item queue =>
        exact
          { inOrder := by simp [h.inOrder, hqueue]
            counted := by
              simp only [List.length_append, List.length_singleton]
              omega
            below := by
              intro s hs
              rcases List.mem_append.mp hs with hs | hs
              · exact h.below s hs
              · rw [List.mem_singleton.mp hs]
                exact not_le.mp hfull
            awake := fun _ => .inr (by dsimp only; omega)
            finished_le := by
              simp only [List.length_append, List.length_singleton]
              omega
            limit_pos := h.limit_pos
            posted := rfl
            posted_le := by simp }

theorem LaneRun.Sound.step {r : LaneRun α ω} (h : r.Sound) (step : LaneStep α ω) :
    (laneStep r step).Sound := by
  cases step with
  | enqueue item startFn => exact h.enqueue item startFn
  | finish startFn => exact h.finish startFn
  | pump => exact h.pump
  | setMaxInFlight maxInFlight =>
    exact
      { h with
        limit_pos := le_max_left 1 maxInFlight }

end LaneRun

/-! ### Both queues -/

/-- The two queues with their records. -/
structure PipelineRun (μ τ : Type) where
  magnet : LaneRun MagnetQueueItem μ := {}
  rssTorrent : LaneRun RssTorrentUrlQueueItem τ := {}

inductive PipelineStep (μ τ : Type)
  | magnet (step : LaneStep MagnetQueueItem μ)
  | rssTorrent (step : LaneStep RssTorrentUrlQueueItem τ)

variable {μ τ : Type}

def pipelineStep (r : PipelineRun μ τ) : PipelineStep μ τ → PipelineRun μ τ
  | .magnet step => { r with magnet := laneStep r.magnet step }
  | .rssTorrent step => { r with rssTorrent := laneStep r.rssTorrent step }

/-- In every interleaving of calls both queues start their items in the order they came in, each once and
below the limit, and neither is ever left with items that nothing will start. -/
theorem pipeline_dispatches (steps : List (PipelineStep μ τ)) :
    (run pipelineStep {} steps).magnet.Dispatched ∧
      (run pipelineStep {} steps).rssTorrent.Dispatched := by
  have hsound : (run pipelineStep {} steps).magnet.Sound ∧
      (run pipelineStep {} steps).rssTorrent.Sound := by
    refine run_invariant (P := fun r : PipelineRun μ τ => r.magnet.Sound ∧ r.rssTorrent.Sound)
      (fun r step h => ?_) ⟨LaneRun.sound_empty, LaneRun.sound_empty⟩ steps
    cases step with
    | magnet step => exact ⟨h.1.step step, h.2⟩
    | rssTorrent step => exact ⟨h.1, h.2.step step⟩
  exact ⟨hsound.1.toDispatched, hsound.2.toDispatched⟩

end TorrentLink.App
