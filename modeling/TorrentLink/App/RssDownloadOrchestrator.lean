import TorrentLink.App.RssDownloadPipeline

/-!
# The orchestrator of RSS downloads

`RssDownloadOrchestrator`: the pipeline with the callbacks that its pumps carry. That of an enqueue looks
at the shutdown flag: once it is set, the item is settled as failed and its slot is given back. That of a
finish starts the item whatever the flag says, and it is also what the settled item schedules. The pump
keeps the callback of the call that scheduled it.

Beside the orchestrator stands the record of what happened to the items that were taken after the flag was
set. `noStartAfterShutdown_iff` says when it is what it should be.
-/

namespace TorrentLink.App

open Lib Rss

/-- Which of the three handlers are set. -/
structure Handlers where
  settleFn : Bool := true
  startMagnetFn : Bool := true
  startRssTorrentFn : Bool := true
  deriving DecidableEq, Repr

/-- What a callback does with its item: it hands it to the start handler, or settles it as failed, and
it may give the slot back. -/
inductive CallbackEffect
  | start
  | settleFailed
  | finish
  deriving DecidableEq, Repr

/-- The callbacks. `hasStart` says whether the queue's start handler is set, `hasSettle` whether
`settleFn_` is. -/
def StartFn.effects (hasStart hasSettle shuttingDown : Bool) : StartFn → List CallbackEffect
  | .enqueued =>
    if !shuttingDown && hasStart then [.start]
    else (if hasSettle then [.settleFailed] else []) ++ [.finish]
  | .finished => if hasStart then [.start] else []

/-- What happened to the items that were taken after the flag was set, in order. -/
structure AfterShutdown (α : Type) where
  taken : List α := []
  started : List α := []
  settled : List (RssDownloadSettlement × Bool) := []
  deriving DecidableEq, Repr

section Pumps

variable {α : Type} (settlement : α → RssDownloadSettlement)

def AfterShutdown.note (a : AfterShutdown α) (item : α) (effects : List CallbackEffect) :
    AfterShutdown α where
  taken := a.taken ++ [item]
  started := a.started ++ (effects.filter (· = .start)).map fun _ => item
  settled := a.settled ++ (effects.filter (· = .settleFailed)).map fun _ => (settlement item, false)

/-- A pump with the callback it carries. -/
def pumpLane (hasStart hasSettle shuttingDown : Bool) (l : Lane α StartFn) (a : AfterShutdown α) :
    Lane α StartFn × AfterShutdown α :=
  match l.runPosted with
  | none => (l, a)
  | some (_, l, none) => (l, a)
  | some (startFn, l, some item) =>
    let effects := startFn.effects hasStart hasSettle shuttingDown
    (if .finish ∈ effects then l.finish .finished else l,
      if shuttingDown then a.note settlement item effects else a)

end Pumps

/-- The orchestrator, with the record of both queues. -/
structure Orchestrator where
  pipeline : RssDownloadPipeline StartFn StartFn := {}
  shuttingDown : Bool := false
  magnets : AfterShutdown MagnetQueueItem := {}
  rssTorrents : AfterShutdown RssTorrentUrlQueueItem := {}
  deriving DecidableEq, Repr

namespace Orchestrator

variable (handlers : Handlers) (o : Orchestrator)

def setMagnetMaxInFlight (maxInFlight : Int) : Orchestrator :=
  { o with pipeline := o.pipeline.setMagnetMaxInFlight maxInFlight }

def enqueueMagnet (item : MagnetQueueItem) : Orchestrator :=
  { o with pipeline := o.pipeline.enqueueMagnet item .enqueued }

def enqueueRssTorrentUrl (item : RssTorrentUrlQueueItem) : Orchestrator :=
  { o with pipeline := o.pipeline.enqueueRssTorrentUrl item .enqueued }

def finishMagnet : Orchestrator := { o with pipeline := o.pipeline.finishMagnet .finished }

def finishRssTorrent : Orchestrator := { o with pipeline := o.pipeline.finishRssTorrent .finished }

/-- The event loop runs the pump of the magnets. -/
def pumpMagnet : Orchestrator :=
  let (lane, magnets) := pumpLane (·.rssSettlement) handlers.startMagnetFn handlers.settleFn
    o.shuttingDown o.pipeline.magnet o.magnets
  { o with pipeline := { o.pipeline with magnet := lane }, magnets := magnets }

/-- The event loop runs the pump of the torrent URLs. -/
def pumpRssTorrent : Orchestrator :=
  let (lane, rssTorrents) := pumpLane (·.rssSettlement) handlers.startRssTorrentFn
    handlers.settleFn o.shuttingDown o.pipeline.rssTorrent o.rssTorrents
  { o with pipeline := { o.pipeline with rssTorrent := lane }, rssTorrents := rssTorrents }

end Orchestrator

inductive OrchestratorStep
  | setMagnetMaxInFlight (maxInFlight : Int)
  | enqueueMagnet (item : MagnetQueueItem)
  | enqueueRssTorrentUrl (item : RssTorrentUrlQueueItem)
  | finishMagnet
  | finishRssTorrent
  | pumpMagnet
  | pumpRssTorrent
  | shutDown

def orchestratorStep (handlers : Handlers) (o : Orchestrator) : OrchestratorStep → Orchestrator
  | .setMagnetMaxInFlight maxInFlight => o.setMagnetMaxInFlight maxInFlight
  | .enqueueMagnet item => o.enqueueMagnet item
  | .enqueueRssTorrentUrl item => o.enqueueRssTorrentUrl item
  | .finishMagnet => o.finishMagnet
  | .finishRssTorrent => o.finishRssTorrent
  | .pumpMagnet => o.pumpMagnet handlers
  | .pumpRssTorrent => o.pumpRssTorrent handlers
  | .shutDown => { o with shuttingDown := true }

/-! ### After the shutdown -/

section Lanes

variable {α : Type}

/-- None of the items was started, and each was settled as failed, once. -/
def AfterShutdown.Settled (settlement : α → RssDownloadSettlement) (a : AfterShutdown α) : Prop :=
  a.started = [] ∧ a.settled = a.taken.map fun item => (settlement item, false)

/-- If the flag is set and the pump takes an item, it carries the callback of an enqueue, and there is a
settle handler. -/
def PumpOk (hasSettle shuttingDown : Bool) (l : Lane α StartFn) : Prop :=
  shuttingDown = true → ∀ startFn l' item, l.runPosted = some (startFn, l', some item) →
    startFn = .enqueued ∧ hasSettle = true

variable {settlement : α → RssDownloadSettlement}

/-- The item is settled as failed, and not started, exactly by the callback of an enqueue, if there is a
settle handler. -/
theorem settled_note {a : AfterShutdown α} (h : a.Settled settlement) (item : α) (startFn : StartFn)
    (hasStart hasSettle : Bool) :
    (a.note settlement item (startFn.effects hasStart hasSettle true)).Settled settlement ↔
      startFn = .enqueued ∧ hasSettle = true := by
  obtain ⟨hstarted, hsettled⟩ := h
  unfold AfterShutdown.Settled AfterShutdown.note
  dsimp only
  rw [hstarted, hsettled, List.map_append, List.append_cancel_left_eq]
  cases startFn with
  | enqueued => cases hasSettle <;> simp [StartFn.effects]
  | finished => cases hasStart <;> simp [StartFn.effects]

theorem settled_pumpLane {a : AfterShutdown α} (h : a.Settled settlement)
    (hasStart hasSettle shuttingDown : Bool) (l : Lane α StartFn) :
    (pumpLane settlement hasStart hasSettle shuttingDown l a).2.Settled settlement ↔
      PumpOk hasSettle shuttingDown l := by
  unfold pumpLane PumpOk
  cases hpump : l.runPosted with
  | none => simp [h]
  | some result =>
    obtain ⟨startFn, l', taken⟩ := result
    cases taken with
    | none => simp [h]
    | some item =>
      cases shuttingDown with
      | false => simp [h]
      | true =>
        have hnote := settled_note h item startFn hasStart hasSettle
        simpa using hnote

end Lanes

/-- The items of both queues that were taken after the flag was set. -/
def Orchestrator.SettledAfterShutdown (o : Orchestrator) : Prop :=
  o.magnets.Settled (·.rssSettlement) ∧ o.rssTorrents.Settled (·.rssSettlement)

/-- While the flag is set, no pump that carries the callback of a finish takes an item, and none takes an
item without a settle handler. -/
def CarriesCheck (handlers : Handlers) (o : Orchestrator) : OrchestratorStep → Prop
  | .pumpMagnet => PumpOk handlers.settleFn o.shuttingDown o.pipeline.magnet
  | .pumpRssTorrent => PumpOk handlers.settleFn o.shuttingDown o.pipeline.rssTorrent
  | _ => True

theorem settledAfterShutdown_step (handlers : Handlers) {o : Orchestrator}
    (h : o.SettledAfterShutdown) (step : OrchestratorStep) :
    (orchestratorStep handlers o step).SettledAfterShutdown ↔ CarriesCheck handlers o step := by
  have hsame : o.SettledAfterShutdown ↔ True := iff_true_intro h
  cases step with
  | setMagnetMaxInFlight maxInFlight => exact hsame
  | enqueueMagnet item => exact hsame
  | enqueueRssTorrentUrl item => exact hsame
  | finishMagnet => exact hsame
  | finishRssTorrent => exact hsame
  | shutDown => exact hsame
  | pumpMagnet =>
    have hpump := settled_pumpLane h.1 handlers.startMagnetFn handlers.settleFn o.shuttingDown
      o.pipeline.magnet
    exact (and_iff_left h.2).trans hpump
  | pumpRssTorrent =>
    have hpump := settled_pumpLane h.2 handlers.startRssTorrentFn handlers.settleFn o.shuttingDown
      o.pipeline.rssTorrent
    exact (and_iff_right h.1).trans hpump

/-- All along a run no item is started after the flag was set, and every item taken since then is settled
as failed, once, if and only if no pump that takes one carries the callback of a finish, and there is a
settle handler when one does. -/
theorem noStartAfterShutdown_iff (handlers : Handlers) (steps : List OrchestratorStep) :
    (∀ n, (run (orchestratorStep handlers) {} (steps.take n)).SettledAfterShutdown) ↔
      RunOk (orchestratorStep handlers) (CarriesCheck handlers) {} steps := by
  have hstart : ({} : Orchestrator).SettledAfterShutdown := ⟨⟨rfl, rfl⟩, ⟨rfl, rfl⟩⟩
  have hstep : ∀ (o : Orchestrator) step, True → o.SettledAfterShutdown →
      ((orchestratorStep handlers o step).SettledAfterShutdown ↔ CarriesCheck handlers o step) :=
    fun _ step _ h => settledAfterShutdown_step handlers h step
  exact always_iff_runOk (fun _ _ _ => trivial) hstep trivial hstart steps

/-- Two magnets are queued when the shutdown begins: the first is settled, and the pump this schedules
starts the second. -/
theorem second_magnet_started :
    ¬ ∀ steps : List OrchestratorStep,
      (run (orchestratorStep {}) {} steps).SettledAfterShutdown := by
  intro h
  have hstarted := (h [.enqueueMagnet { uri := "magnet:?xt=urn:btih:1" },
    .enqueueMagnet { uri := "magnet:?xt=urn:btih:2" }, .shutDown, .pumpMagnet, .pumpMagnet]).1.1
  revert hstarted
  decide

end TorrentLink.App
