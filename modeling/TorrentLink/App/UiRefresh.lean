import TorrentLink.App.RemovedTasks
import TorrentLink.App.RssMetadata
import TorrentLink.App.TaskMeta
import TorrentLink.Core.SaveFolder

/-!
# When the window shows a change

The window shows the snapshots that it was last given. Whatever changes the store asks the refresh scheduler
for a refresh, and the scheduler waits: the first request starts a timer, those that come while it runs are
served with it, and the window is given the snapshots when it falls due. A batch of alerts with a rejected
duplicate asks only when the message boxes that say so have been closed, and while they are open everything
else goes on. Calls, ticks of the clock and timeouts come in any order; a timeout may be late, and early by
a twentieth of the interval, as the timer is a coarse one.
-/

namespace TorrentLink.App

open Lib Lt Rss

/-! ### The scheduler -/

/-- `RefreshScheduler`, with the time at which its timer falls due while it is active. -/
structure RefreshScheduler where
  timer : Option Nat := none
  refreshPending : Bool := false
  deriving DecidableEq, Repr

namespace RefreshScheduler

def requestRefresh (interval clock : Nat) (r : RefreshScheduler) : RefreshScheduler :=
  { timer := if r.timer.isSome then r.timer else some (clock + interval), refreshPending := true }

/-- The slot of the timer, which is a single shot, and whether it calls `refreshFn_`. -/
def timeout (r : RefreshScheduler) : RefreshScheduler × Bool :=
  if r.refreshPending then ({ timer := none, refreshPending := false }, true)
  else ({ r with timer := none }, false)

end RefreshScheduler

/-- A state, what is shown of it, and the scheduler of the refreshes in between. -/
structure Screen (σ β : Type) where
  state : σ
  shown : β
  scheduler : RefreshScheduler := {}
  clock : Nat := 0

inductive ScreenStep (ι : Type)
  | elapse (ms : Nat)
  | call (c : ι)
  | timeout

section

variable {σ β ι : Type} (interval : Nat) (act : σ → ι → σ × Bool) (view : σ → β)

/-- A call changes the state, and says whether it requests a refresh. -/
def screenStep (x : Screen σ β) : ScreenStep ι → Screen σ β
  | .elapse ms => { x with clock := x.clock + ms }
  | .call c =>
    { x with
      state := (act x.state c).1
      scheduler :=
        if (act x.state c).2 then x.scheduler.requestRefresh interval x.clock else x.scheduler }
  | .timeout =>
    { x with
      scheduler := x.scheduler.timeout.1
      shown := if x.scheduler.timeout.2 then view x.state else x.shown }

/-- A timer times out when it falls due, or a little earlier. -/
def TimeoutDue (x : Screen σ β) : ScreenStep ι → Prop
  | .timeout => ∃ due, x.scheduler.timer = some due ∧ due ≤ x.clock + interval / 20
  | _ => True

/-- The state is shown, or a request is still to come. -/
def Shows (owing : σ → Prop) (x : Screen σ β) : Prop := x.shown = view x.state ∨ owing x.state

/-- The timer is at rest and the state is shown. Or some step requested a refresh, when the timer was at
rest and the state was shown, and no timeout came since: the timer falls due an interval after that step, and
nothing else has been shown. -/
def Current (owing : σ → Prop) (s : Screen σ β) (steps : List (ScreenStep ι)) : Prop :=
  let after := run (screenStep interval act view) s
  Shows view owing (after steps) ∧ (after steps).scheduler = {} ∨
  ∃ earlier c later, steps = earlier ++ .call c :: later ∧ .timeout ∉ later ∧
    Shows view owing (after earlier) ∧ (after earlier).scheduler = {} ∧
    (act (after earlier).state c).2 = true ∧ (after steps).shown = (after earlier).shown ∧
    (after steps).scheduler = ⟨some ((after earlier).clock + interval), true⟩

variable {interval act view} {owing : σ → Prop} {s : Screen σ β} {steps : List (ScreenStep ι)}

/-- One more step keeps what is shown current. -/
theorem Current.concat
    (hasks : ∀ s c, (act s c).2 = false → owing (act s c).1 ∨
      view (act s c).1 = view s ∧ (owing s → owing (act s c).1))
    (h : Current interval act view owing s steps) (l : ScreenStep ι) :
    Current interval act view owing s (steps ++ [l]) := by
  have hafter : run (screenStep interval act view) s (steps ++ [l]) =
      screenStep interval act view (run (screenStep interval act view) s steps) l := by
    rw [run_append, run_cons, run_nil]
  unfold Current at h ⊢
  dsimp only at h ⊢
  rw [hafter]
  generalize hx : run (screenStep interval act view) s steps = x at h ⊢
  rcases h with ⟨hshows, hidle⟩ | ⟨earlier, c, later, hsteps, hnone, hshows, hrest, hreq, hshown, hbusy⟩
  · cases l with
    | elapse ms => exact .inl ⟨hshows, hidle⟩
    | call c =>
      rw [screenStep]
      cases hreq : (act x.state c).2 with
      | false =>
        refine .inl ⟨?_, hidle⟩
        rcases hasks x.state c hreq with howing | ⟨hview, howing⟩
        · exact .inr howing
        · exact hshows.imp (fun hshown => hshown.trans hview.symm) howing
      | true =>
        refine .inr ⟨steps, c, [], rfl, List.not_mem_nil, ?_⟩
        rw [hx, hidle]
        exact ⟨hshows, rfl, hreq, rfl, rfl⟩
    | timeout =>
      rw [screenStep, hidle]
      exact .inl ⟨hshows, rfl⟩
  · have hlonger : steps ++ [l] = earlier ++ .call c :: (later ++ [l]) := by
      rw [hsteps, List.append_assoc, List.cons_append]
    cases l with
    | elapse ms =>
      refine .inr ⟨earlier, c, later ++ [.elapse ms], hlonger, ?_, hshows, hrest, hreq, hshown, hbusy⟩
      simpa using hnone
    | call c' =>
      refine .inr ⟨earlier, c, later ++ [.call c'], hlonger, by simpa using hnone, hshows, hrest, hreq,
        hshown, ?_⟩
      rw [screenStep, hbusy]
      dsimp only
      split
      · rfl
      · rfl
    | timeout =>
      rw [screenStep, hbusy]
      exact .inl ⟨.inl rfl, rfl⟩

theorem current_run
    (hasks : ∀ s c, (act s c).2 = false → owing (act s c).1 ∨
      view (act s c).1 = view s ∧ (owing s → owing (act s c).1))
    (h : s.shown = view s.state) (hidle : s.scheduler = {}) (steps : List (ScreenStep ι)) :
    Current interval act view owing s steps := by
  induction steps using List.reverseRecOn with
  | nil => exact .inl ⟨.inl h, hidle⟩
  | append_singleton steps l ih => exact ih.concat hasks l

/-- The timer falls due an interval after a given time, if it is active. -/
def NotBefore (interval start : Nat) (x : Screen σ β) : Prop :=
  start ≤ x.clock ∧ ∀ due, x.scheduler.timer = some due → start + interval ≤ due

theorem NotBefore.step {start : Nat} {x : Screen σ β} (h : NotBefore interval start x)
    (l : ScreenStep ι) : NotBefore interval start (screenStep interval act view x l) := by
  obtain ⟨hclock, hdue⟩ := h
  cases l with
  | elapse ms => exact ⟨Nat.le_add_right_of_le hclock, hdue⟩
  | call c =>
    rw [screenStep]
    refine ⟨hclock, fun due htimer => ?_⟩
    dsimp only at htimer
    split at htimer
    · unfold RefreshScheduler.requestRefresh at htimer
      dsimp only at htimer
      split at htimer
      · exact hdue due htimer
      · obtain rfl := Option.some.inj htimer
        omega
    · exact hdue due htimer
  | timeout =>
    unfold screenStep RefreshScheduler.timeout
    refine ⟨hclock, fun due htimer => ?_⟩
    dsimp only at htimer
    split at htimer
    · cases htimer
    · cases htimer

/-- Two timeouts are an interval apart, but for what a timeout may be early. -/
theorem timeouts_apart {first between last : List (ScreenStep ι)}
    (hok : RunOk (screenStep interval act view) (TimeoutDue interval) s
      (first ++ .timeout :: between ++ .timeout :: last)) :
    (run (screenStep interval act view) s first).clock + interval ≤
      (run (screenStep interval act view) s (first ++ .timeout :: between)).clock + interval / 20 := by
  obtain ⟨-, ⟨due, htimer, hdue⟩, -⟩ := runOk_append.mp hok
  generalize hx : run (screenStep interval act view) s first = x
  have hstart : NotBefore interval x.clock (screenStep interval act view x (.timeout : ScreenStep ι)) := by
    unfold screenStep RefreshScheduler.timeout
    refine ⟨le_rfl, fun due htimer => ?_⟩
    dsimp only at htimer
    split at htimer
    · cases htimer
    · cases htimer
  have hend : NotBefore interval x.clock
      (run (screenStep interval act view) s (first ++ .timeout :: between)) := by
    rw [run_append, run_cons, hx]
    exact run_invariant (fun _ l h => h.step l) hstart between
  exact (hend.2 due htimer).trans hdue

end

/-! ### The window -/

/-- What changes the store, or asks for a refresh without it. -/
inductive UiCall
  | alerts (now : Clock) (views : List LtAlertView)
  /-- The last message box about the duplicates of a batch is closed. -/
  | duplicatesShown
  /-- A task is paused or resumed. -/
  | transitionalStatus (now : Clock) (nowMs : Int) (taskId : TaskId) (status : TaskStatus)
  | moveTask (now : Clock) (taskId : TaskId) (targetPath : String)
  | renameTask (now : Clock) (taskId : TaskId) (name : String)
  | updateCategory (now : Clock) (taskId : TaskId) (category : String)
  | updateTags (now : Clock) (taskId : TaskId) (tags : List String)
  /-- `applyTaskMetaUpdate` -/
  | taskMetaUpdate (now : Clock) (taskId : TaskId) (name savePath category tagsCsv : String)
  /-- The callback of the RSS service. -/
  | downloadRequest (shuttingDown : Bool) (req : AutoDownloadRequest)

/-- The store, and the number of batches whose message boxes are open. -/
structure UiState where
  ingest : Ingest := {}
  openBoxes : Nat := 0

/-- The message boxes of a batch are open: its request for a refresh is still to come. -/
def UiState.BoxOpen (s : UiState) : Prop := 0 < s.openBoxes

/-- A command of the use case that is rejected requests no refresh. -/
def consumeOutcome (now : Clock) (s : UiState) : MetaOutcome → UiState × Bool
  | .ok ev => ({ s with ingest := { s.ingest with tasks := applyEvent now s.ingest.tasks ev } }, true)
  | .error _ => (s, false)

/-- The callback of the alerts, up to the first message box. -/
def consumeAlerts (now : Clock) (s : UiState) (views : List LtAlertView) : UiState × Bool :=
  let (ingested, result) := ingest now s.ingest views
  if result.duplicateRejectedTaskIds = [] then ({ s with ingest := ingested }, true)
  else ({ ingest := ingested, openBoxes := s.openBoxes + 1 }, false)

variable (q : QtInput)

def uiCall (s : UiState) : UiCall → UiState × Bool
  | .alerts now views => consumeAlerts now s views
  | .duplicatesShown =>
    if s.openBoxes = 0 then (s, false) else ({ s with openBoxes := s.openBoxes - 1 }, true)
  | .transitionalStatus now nowMs taskId status =>
    ({ s with ingest := injectTransitionalStatus now nowMs s.ingest taskId status }, true)
  | .moveTask now taskId targetPath => consumeOutcome now s (App.moveTask q taskId targetPath)
  | .renameTask now taskId name => consumeOutcome now s (App.renameTask taskId name)
  | .updateCategory now taskId category => consumeOutcome now s (App.updateCategory taskId category)
  | .updateTags now taskId tags => consumeOutcome now s (App.updateTags taskId tags)
  | .taskMetaUpdate now taskId name savePath category tagsCsv =>
    consumeOutcome now s (upsertMeta taskId name savePath category tagsCsv)
  | .downloadRequest shuttingDown req => (s, (onDownloadRequest shuttingDown req {} {}).isSome)

/-- The store, and the snapshots of the window. -/
abbrev Ui := Screen UiState (List TaskSnapshot)

/-- The interval of `uiRefreshScheduler_`. -/
def uiRefreshMs : Nat := 100

def uiView (s : UiState) : List TaskSnapshot := snapshots s.ingest.tasks

def uiStep : Ui → ScreenStep UiCall → Ui := screenStep uiRefreshMs (uiCall q) uiView

def startUi : Ui where
  state := {}
  shown := []

theorem consumeOutcome_asks (now : Clock) (s : UiState) (outcome : MetaOutcome)
    (h : (consumeOutcome now s outcome).2 = false) : (consumeOutcome now s outcome).1 = s := by
  cases outcome with
  | ok ev => cases h
  | error message => rfl

/-- Every change of the store requests a refresh, or opens a message box. -/
theorem uiCall_asks (s : UiState) (c : UiCall) (h : (uiCall q s c).2 = false) :
    (uiCall q s c).1.BoxOpen ∨ (uiCall q s c).1 = s := by
  cases c with
  | alerts now views =>
    unfold uiCall consumeAlerts at h ⊢
    dsimp only at h ⊢
    split at h
    · cases h
    · rename_i hduplicates
      rw [if_neg hduplicates]
      exact .inl (Nat.succ_pos s.openBoxes)
  | duplicatesShown =>
    unfold uiCall at h ⊢
    dsimp only at h ⊢
    split at h
    · rename_i hclosed
      rw [if_pos hclosed]
      exact .inr rfl
    · cases h
  | transitionalStatus now nowMs taskId status => cases h
  | moveTask now taskId targetPath => exact .inr (consumeOutcome_asks now s _ h)
  | renameTask now taskId name => exact .inr (consumeOutcome_asks now s _ h)
  | updateCategory now taskId category => exact .inr (consumeOutcome_asks now s _ h)
  | updateTags now taskId tags => exact .inr (consumeOutcome_asks now s _ h)
  | taskMetaUpdate now taskId name savePath category tagsCsv => exact .inr (consumeOutcome_asks now s _ h)
  | downloadRequest shuttingDown req => exact .inr rfl

/-- Along every run, while the timer is at rest the window shows the store, or a message box is open; else
the timer falls due 100 ms after the oldest request that is not served, and the window shows what it showed
then. Two refreshes are 95 ms apart. -/
theorem window_current (steps : List (ScreenStep UiCall))
    (hok : RunOk (uiStep q) (TimeoutDue uiRefreshMs) startUi steps) :
    Current uiRefreshMs (uiCall q) uiView UiState.BoxOpen startUi steps ∧
      ∀ first between last, steps = first ++ .timeout :: between ++ .timeout :: last →
        (run (uiStep q) startUi first).clock + 95 ≤
          (run (uiStep q) startUi (first ++ .timeout :: between)).clock := by
  constructor
  · refine current_run (fun s c h => (uiCall_asks q s c h).imp_right fun hsame => ?_) rfl rfl steps
    rw [hsame]
    exact ⟨rfl, fun hopen => hopen⟩
  · rintro first between last rfl
    have hapart : (run (uiStep q) startUi first).clock + uiRefreshMs ≤
        (run (uiStep q) startUi (first ++ .timeout :: between)).clock + uiRefreshMs / 20 :=
      timeouts_apart hok
    simp only [uiRefreshMs] at hapart
    omega

/-- A duplicate is rejected, and a task is renamed while the message box is open: the refresh comes 5 ms
early, and that of the closed box finds nothing new. -/
def renamedUnderBox : List (ScreenStep UiCall) :=
  [.call (.alerts (clockFrom 0) [{ type := .duplicateRejected, taskId := 1 }]), .elapse 30,
    .call (.renameTask (clockFrom 30) 1 "a"), .elapse 95, .timeout, .call .duplicatesShown,
    .elapse 120, .timeout]

theorem window_current_renamedUnderBox :
    Current uiRefreshMs (uiCall cleanInput) uiView UiState.BoxOpen startUi renamedUnderBox ∧
      ∀ first between last, renamedUnderBox = first ++ .timeout :: between ++ .timeout :: last →
        (run (uiStep cleanInput) startUi first).clock + 95 ≤
          (run (uiStep cleanInput) startUi (first ++ .timeout :: between)).clock := by
  have hok : RunOk (uiStep cleanInput) (TimeoutDue uiRefreshMs) startUi renamedUnderBox :=
    ⟨trivial, trivial, trivial, trivial, ⟨130, rfl, Nat.le_refl 130⟩, trivial, trivial,
      ⟨225, rfl, Nat.le_add_right 225 25⟩, trivial⟩
  exact window_current cleanInput renamedUnderBox hok

end TorrentLink.App
