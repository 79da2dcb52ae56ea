import Mathlib.Logic.Relation
import TorrentLink.App.RssDownloadPipeline
import TorrentLink.App.RssMetadata
import TorrentLink.Core.Rss.InFlight

/-!
# The loop of RSS downloads

The service hands out requests, its callback puts them into the two queues, pumps take them out, their
handlings settle them, and a settlement comes back to the service. The parts run in any order: the effects
of a handling are performed one by one, between other calls.

Until the shutdown begins no request gets lost on the way. An item in flight has its settlement still
ahead, among the items that wait or in a handling, and the slots that are taken are those of the handlings
that are not finished (`RssLoop.Sound`). If nothing new comes in, the loop runs dry, and then no item is in
flight any more (`loop_drains`).
-/

namespace TorrentLink.App

open Lib Lt Rss

/-! ### The loop -/

inductive Queue
  | magnet | rssTorrent
  deriving DecidableEq, Repr

/-- A handling that has begun, with what is left of its effects. -/
structure Handling where
  queue : Queue
  rest : List DownloadEffect
  deriving DecidableEq, Repr

/-- The parts of the loop, before the shutdown. -/
structure RssLoop where
  service : Service
  magnet : LaneRun MagnetQueueItem StartFn := {}
  rssTorrent : LaneRun RssTorrentUrlQueueItem StartFn := {}
  handlings : List Handling := []
  magnetMaxInFlight : Int := 8

namespace RssLoop

variable (l : RssLoop)

/-- `AppController::enqueueMagnet`, which sets the limit of the queue each time. -/
def enqueueMagnet (item : MagnetQueueItem) : RssLoop :=
  let maxInFlight :=
    if item.rssSettlement.itemId = "" then l.magnetMaxInFlight
    else min l.magnetMaxInFlight (maxConcurrent l.service)
  { l with magnet := laneStep (laneStep l.magnet (.setMaxInFlight maxInFlight)) (.enqueue item .enqueued) }

/-- `AppController::enqueueRssTorrentUrl` -/
def enqueueRssTorrentUrl (item : RssTorrentUrlQueueItem) : RssLoop :=
  { l with rssTorrent := laneStep l.rssTorrent (.enqueue item .enqueued) }

/-- The callback of `initializeRss`. -/
def onRequest (req : AutoDownloadRequest) : RssLoop :=
  match onDownloadRequest false req {} {} with
  | some (.magnet item _) => l.enqueueMagnet item
  | some (.torrentUrl item _) => l.enqueueRssTorrentUrl item
  | none => l

/-- The handling that a posted pump begins, if it takes an item. -/
def begun {α : Type} (queue : Queue) (handler : StartFn → α → List DownloadEffect)
    (lane : Lane α StartFn) : List Handling :=
  match lane.runPosted with
  | some (via, _, some item) => [⟨queue, handler via item⟩]
  | _ => []

variable (env : ServiceEnv)

/-- An effect of a handling at clock `now`, as far as the loop sees it. -/
def perform (now : Int) (queue : Queue) : DownloadEffect → RssLoop
  | .settle s ok path =>
    { l with service := applyRssDownloadSettlement env now l.service s ok path none }
  | .finish =>
    match queue with
    | .magnet =>
      { l with
        magnet :=
          { l.magnet with
            lane := l.magnet.lane.finish .finished
            finished := l.magnet.finished + 1 } }
    | .rssTorrent =>
      { l with
        rssTorrent :=
          { l.rssTorrent with
            lane := l.rssTorrent.lane.finish .finished
            finished := l.rssTorrent.finished + 1 } }
  | _ => l

/-- The next effect of the handling at a position. -/
def advance (now : Int) (i : Nat) : RssLoop :=
  match l.handlings[i]? with
  | some ⟨queue, effect :: rest⟩ =>
    perform { l with handlings := l.handlings.set i ⟨queue, rest⟩ } env now queue effect
  | _ => l

end RssLoop

inductive LoopStep
  | service (op : ServiceOp)
  /-- The user adds a magnet. -/
  | enqueueMagnet (item : MagnetQueueItem)
  | setMagnetMaxInFlight (maxInFlight : Int)
  | pumpMagnet (settings : AddSettings) (w : World) (o : MagnetOutcome)
  | pumpRssTorrent (settings : AddSettings) (w : World) (d : TorrentDownload)
  | advance (now : Int) (i : Nat)

variable (env : ServiceEnv) (q : QtInput)

def magnetHandler (settings : AddSettings) (w : World) (o : MagnetOutcome) (via : StartFn)
    (item : MagnetQueueItem) : List DownloadEffect := startTaken q settings w via (.magnet item o)

def rssTorrentHandler (settings : AddSettings) (w : World) (d : TorrentDownload) (via : StartFn)
    (item : RssTorrentUrlQueueItem) : List DownloadEffect :=
  startTaken q settings w via (.torrentUrl item d)

def loopStep (l : RssLoop) : LoopStep → RssLoop
  | .service op =>
    (requestsOf env l.service op).foldl RssLoop.onRequest
      { l with service := serviceStep env l.service op }
  | .enqueueMagnet item => l.enqueueMagnet item
  | .setMagnetMaxInFlight maxInFlight => { l with magnetMaxInFlight := maxInFlight }
  | .pumpMagnet settings w o =>
    { l with
      magnet := laneStep l.magnet .pump
      handlings := l.handlings ++
        RssLoop.begun .magnet (magnetHandler q settings w o) l.magnet.lane }
  | .pumpRssTorrent settings w d =>
    { l with
      rssTorrent := laneStep l.rssTorrent .pump
      handlings := l.handlings ++
        RssLoop.begun .rssTorrent (rssTorrentHandler q settings w d) l.rssTorrent.lane }
  | .advance now i => l.advance env now i

/-- A load reads items with distinct ids, and the window outlives the calls that are queued on it. -/
def LoopOk (l : RssLoop) : LoopStep → Prop
  | .service op => LoadOk env l.service op
  | .pumpMagnet settings w o =>
    ∀ h ∈ RssLoop.begun .magnet (magnetHandler q settings w o) l.magnet.lane, h.rest ≠ []
  | .pumpRssTorrent settings w d =>
    ∀ h ∈ RssLoop.begun .rssTorrent (rssTorrentHandler q settings w d) l.rssTorrent.lane, h.rest ≠ []
  | _ => True

/-! ### What a handling does in the end -/

/-- The ids that are settled. -/
def settledIds (log : List DownloadEffect) : List String := (settlements log).map (·.1.itemId)

/-- The number of slots that are given back. -/
def releases (log : List DownloadEffect) : Nat := log.count .finish

@[simp] theorem settledIds_append (log log' : List DownloadEffect) :
    settledIds (log ++ log') = settledIds log ++ settledIds log' := by
  simp [settledIds]

@[simp] theorem releases_append (log log' : List DownloadEffect) :
    releases (log ++ log') = releases log + releases log' := List.count_append

/-- The item is settled, and its slot given back once. -/
structure Completes (s : RssDownloadSettlement) (log : List DownloadEffect) : Prop where
  settles : s.itemId ∈ settledIds log
  releases : releases log = 1

/-- A part of a handling that gives no slot back, and settles the item where `must` says so. -/
structure Part (must : Bool) (s : RssDownloadSettlement) (log : List DownloadEffect) : Prop where
  settles : must = true → s.itemId ∈ settledIds log
  releases : releases log = 0

theorem completes_settleFailed (s : RssDownloadSettlement) : Completes s (settleFailed s) :=
  ⟨by simp [settledIds, settlements, settleFailed], by simp [releases, settleFailed]⟩

theorem Part.append {s : RssDownloadSettlement} {log log' : List DownloadEffect}
    {must : Bool} (h : Part false s log) (h' : Part must s log') : Part must s (log ++ log') :=
  ⟨fun hmust => by simp [h'.settles hmust], by simp [h.releases, h'.releases]⟩

theorem Part.cons {s : RssDownloadSettlement} {effect : DownloadEffect} {log : List DownloadEffect}
    {must : Bool} (h : Part false s [effect]) (h' : Part must s log) : Part must s (effect :: log) :=
  h.append h'

theorem Part.completes {s : RssDownloadSettlement} {log : List DownloadEffect} (h : Part true s log) :
    Completes s (log ++ [.finish]) :=
  ⟨by simp [h.settles rfl], by rw [releases_append, h.releases]; rfl⟩

variable {q} {settings : AddSettings} {w : World} {o : MagnetOutcome} {s : RssDownloadSettlement}

variable (q settings s) in
theorem part_submittedFile (path : String) (ui : DialogResult) :
    Part false s (submittedFile q settings path ui) := by
  unfold submittedFile
  split
  · exact ⟨by simp, by simp [releases]⟩
  · exact ⟨by simp, by simp [releases]⟩

theorem part_submission (sub : Submission) : Part false s sub.effects := by
  unfold Submission.effects
  split
  · exact ⟨by simp, by simp [releases]⟩
  · exact ⟨by simp, by simp [releases]⟩

theorem part_settleAccepted (ui : DialogResult) : Part true s [settleAccepted q settings s ui] :=
  ⟨fun _ => by simp [settledIds, settlements, settleAccepted], by simp [releases, settleAccepted]⟩

theorem part_answer (a : DialogAnswer) : Part false s a.effects := by
  cases a with
  | unreadable => exact ⟨by simp, rfl⟩
  | cancelled => exact ⟨by simp, by simp [releases, DialogAnswer.effects]⟩
  | accepted ui => exact ⟨by simp, by simp [releases, DialogAnswer.effects]⟩

theorem part_post (cmd : Cmd) : Part false s [.post cmd] := ⟨by simp, by simp [releases]⟩

theorem part_dialog : Part false s [.dialog] := ⟨by simp, by simp [releases]⟩

theorem part_settleRejected : Part true s [.settle s false ""] :=
  ⟨fun _ => by simp [settledIds, settlements], by simp [releases]⟩

variable (q settings w o s) in
theorem part_exported (m : MagnetMetadata) :
    Part (presentMagnetAddDialogViaExportedTorrent q settings w o s m).1 s
      (presentMagnetAddDialogViaExportedTorrent q settings w o s m).2 := by
  unfold presentMagnetAddDialogViaExportedTorrent
  dsimp only
  split_ifs
  · exact ⟨by simp, rfl⟩
  · exact ⟨by simp, by simp [releases]⟩
  · split
    · rename_i ui hui
      have hasked : Part false s [.post (.cancelPreparedMagnet m.taskId), .dialog] :=
        (part_post _).cons part_dialog
      exact (hasked.append (part_submittedFile q settings s _ ui)).append (part_settleAccepted ui)
    · rename_i answer hui
      have hasked : Part false s (.post (.cancelPreparedMagnet m.taskId) :: o.exportedAnswer.effects) :=
        (part_post _).cons (part_answer _)
      have hall := hasked.append (part_settleRejected (s := s))
      exact ⟨by simp, hall.releases⟩

theorem part_submitDialog (m : MagnetMetadata) (ui : DialogResult) :
    Part true s (submitMagnetDialogResult q settings o s m ui) := by
  unfold submitMagnetDialogResult
  dsimp only
  split_ifs
  · have hfile := part_submittedFile q settings s (trimmed m.exportedTorrentPath) ui
    exact ((part_post _).cons hfile).append (part_settleAccepted ui)
  · exact (part_submission (submitPreparedMagnetAdd q settings m.taskId ui)).append
      (part_settleAccepted ui)

theorem part_metadataDialog (m : MagnetMetadata) :
    Part true s (showMagnetMetadataDialog q settings w o s m) := by
  have hrejected : Part true s [.post (.cancelPreparedMagnet m.taskId), .settle s false ""] :=
    (part_post _).cons part_settleRejected
  unfold showMagnetMetadataDialog
  split_ifs
  · exact hrejected
  · exact hrejected
  · split
    · exact part_dialog.cons (part_submitDialog m _)
    · exact (part_answer _).append hrejected

theorem part_dialogs (m : MagnetMetadata) :
    Part true s (showMagnetAddDialogAndSubmit q settings w o s m) := by
  have hexported := part_exported q settings w o s m
  unfold showMagnetAddDialogAndSubmit
  dsimp only
  split_ifs with hdone
  · exact hdone ▸ hexported
  · have hnot := Bool.eq_false_iff.mpr hdone
    rw [hnot] at hexported
    exact hexported.append (part_metadataDialog m)

theorem completes_addDirectly (item : MagnetQueueItem) :
    Completes item.rssSettlement (addDirectly q settings item) :=
  ⟨by simp [settledIds, settlements, addDirectly], by simp [releases, addDirectly]⟩

theorem completes_magnetPrepared (item : MagnetQueueItem) :
    Completes item.rssSettlement (magnetPrepared q settings w o item) := by
  unfold magnetPrepared
  split
  · split_ifs
    · exact completes_addDirectly item
    · exact completes_settleFailed item.rssSettlement
  · refine Part.completes ?_
    split_ifs
    · exact ⟨fun _ => by simp [settledIds, settlements, addPrepared], by simp [releases, addPrepared]⟩
    · exact part_dialogs _

theorem completes_torrentDownloaded (item : RssTorrentUrlQueueItem) (path : String) :
    Completes item.rssSettlement (torrentDownloaded q settings item path) := by
  unfold torrentDownloaded
  split_ifs
  · exact completes_settleFailed item.rssSettlement
  · exact completes_settleFailed item.rssSettlement
  · exact ⟨by simp [settledIds, settlements], by simp [releases]⟩

theorem completes_afterFetch {s : RssDownloadSettlement} {body : List DownloadEffect}
    (hbody : Completes s body) (hcalled : afterFetch w (settleFailed s) body ≠ []) :
    Completes s (afterFetch w (settleFailed s) body) := by
  unfold afterFetch at hcalled ⊢
  split_ifs at hcalled ⊢
  · exact completes_settleFailed s
  · exact absurd rfl hcalled
  · exact hbody

/-- A handling whose queued call is not dropped settles its item, and gives its slot back once. -/
theorem completes_startTaken (via : StartFn) (t : TakenItem)
    (hcalled : startTaken q settings w via t ≠ []) :
    Completes t.rssSettlement (startTaken q settings w via t) := by
  unfold startTaken at hcalled ⊢
  split_ifs at hcalled ⊢
  · exact completes_settleFailed t.rssSettlement
  · cases t with
    | magnet item o =>
      rw [startHandler] at hcalled ⊢
      unfold startOneMagnetOnUi at hcalled ⊢
      split_ifs at hcalled ⊢
      · exact completes_settleFailed item.rssSettlement
      · exact completes_settleFailed item.rssSettlement
      · exact completes_addDirectly item
      · exact completes_afterFetch (completes_magnetPrepared item) hcalled
    | torrentUrl item d =>
      rw [startHandler] at hcalled ⊢
      unfold startOneRssTorrentUrlOnUi at hcalled ⊢
      split_ifs at hcalled ⊢
      · exact completes_settleFailed item.rssSettlement
      · exact completes_settleFailed item.rssSettlement
      · exact completes_afterFetch (completes_torrentDownloaded item _) hcalled

theorem Completes.ne_nil {s : RssDownloadSettlement} {log : List DownloadEffect}
    (h : Completes s log) : log ≠ [] := by
  rintro rfl
  exact absurd h.releases (by decide)

/-- While the window is there, a handling does something. -/
theorem startTaken_ne_nil (q : QtInput) (settings : AddSettings) (via : StartFn) (t : TakenItem) :
    startTaken q settings {} via t ≠ [] := by
  unfold startTaken
  split_ifs
  · exact (completes_settleFailed _).ne_nil
  · cases t with
    | magnet item o =>
      rw [startHandler]
      unfold startOneMagnetOnUi
      split_ifs
      · exact (completes_settleFailed _).ne_nil
      · exact (completes_settleFailed _).ne_nil
      · exact (completes_addDirectly item).ne_nil
      · exact (completes_magnetPrepared item).ne_nil
    | torrentUrl item d =>
      rw [startHandler]
      unfold startOneRssTorrentUrlOnUi
      split_ifs
      · exact (completes_settleFailed _).ne_nil
      · exact (completes_settleFailed _).ne_nil
      · exact (completes_torrentDownloaded item _).ne_nil

theorem begun_ne_nil {α : Type} {queue : Queue} {handler : StartFn → α → List DownloadEffect}
    (hhandler : ∀ via item, handler via item ≠ []) (lane : Lane α StartFn) :
    ∀ h ∈ RssLoop.begun queue handler lane, h.rest ≠ [] := by
  unfold RssLoop.begun
  split
  · rename_i via lane' item hposted
    intro h hh
    obtain rfl := List.mem_singleton.mp hh
    exact hhandler via item
  · simp

/-! ### The invariant -/

variable (q)

/-- The ids whose settlement is still ahead. -/
def RssLoop.pendingIds (l : RssLoop) : List String :=
  l.magnet.lane.queue.map (·.rssSettlement.itemId) ++
    l.rssTorrent.lane.queue.map (·.rssSettlement.itemId) ++
    l.handlings.flatMap fun h => settledIds h.rest

/-- The slots of a queue that the handlings have still to give back. -/
def openSlots (queue : Queue) (handlings : List Handling) : Nat :=
  (handlings.map fun h => if h.queue = queue then releases h.rest else 0).sum

/-- The slots that a queue counts as taken are those that its handlings have not given back. -/
def SlotsAgree {α : Type} (queue : Queue) (r : LaneRun α StartFn) (handlings : List Handling) : Prop :=
  r.finished + openSlots queue handlings = r.starts.length

/-- The items have their ids, and the queues their slots. -/
structure RssLoop.Accounted (l : RssLoop) : Prop where
  indexed : Indexed l.service
  magnet : l.magnet.Sound
  rssTorrent : l.rssTorrent.Sound
  magnetSlots : SlotsAgree .magnet l.magnet l.handlings
  rssTorrentSlots : SlotsAgree .rssTorrent l.rssTorrent l.handlings

/-- What is in flight has its settlement ahead. -/
structure RssLoop.Sound (l : RssLoop) : Prop extends l.Accounted where
  pending : inFlightIds l.service.items ⊆ l.pendingIds

variable {l : RssLoop} {queue : Queue}

@[simp] theorem openSlots_append (handlings handlings' : List Handling) :
    openSlots queue (handlings ++ handlings') =
      openSlots queue handlings + openSlots queue handlings' := by
  simp [openSlots]

theorem openSlots_cons (h : Handling) (rest : List Handling) :
    openSlots queue (h :: rest) =
      (if h.queue = queue then releases h.rest else 0) + openSlots queue rest := rfl

/-- The number in flight is the number of slots taken. -/
theorem SlotsAgree.inFlight_eq {α : Type} {r : LaneRun α StartFn} {handlings : List Handling}
    (h : SlotsAgree queue r handlings) (hr : r.Sound) :
    r.lane.inFlight = openSlots queue handlings := by
  have hcounted := hr.counted
  have hslots : r.finished + openSlots queue handlings = r.starts.length := h
  omega

/-! ### What comes in -/

/-- The loop has taken in a record, and nothing else has changed. -/
structure TakesIn (id : String) (l l' : RssLoop) : Prop where
  service : l'.service = l.service
  accounted : l.Accounted → l'.Accounted
  kept : l.pendingIds ⊆ l'.pendingIds
  taken : id ∈ l'.pendingIds

theorem takesIn_enqueueMagnet (l : RssLoop) (item : MagnetQueueItem) {id : String}
    (hid : item.rssSettlement.itemId = id) : TakesIn id l (l.enqueueMagnet item) := by
  subst hid
  have hqueue : (l.enqueueMagnet item).magnet.lane.queue = l.magnet.lane.queue ++ [item] := by
    unfold RssLoop.enqueueMagnet
    simp only [laneStep, Lane.enqueue, Lane.schedulePump]
    split_ifs <;> rfl
  have hpending : ∀ id, id ∈ (l.enqueueMagnet item).pendingIds ↔
      id ∈ l.pendingIds ∨ id = item.rssSettlement.itemId := by
    intro id
    unfold RssLoop.pendingIds
    rw [hqueue]
    simp only [RssLoop.enqueueMagnet, List.mem_append, List.map_append, List.map_singleton,
      List.mem_singleton]
    tauto
  exact
    { service := rfl
      accounted := fun h =>
        { h with magnet := (h.magnet.step _).enqueue item .enqueued }
      kept := fun id hid => (hpending id).mpr (.inl hid)
      taken := (hpending _).mpr (.inr rfl) }

theorem takesIn_enqueueRssTorrentUrl (l : RssLoop) (item : RssTorrentUrlQueueItem) {id : String}
    (hid : item.rssSettlement.itemId = id) : TakesIn id l (l.enqueueRssTorrentUrl item) := by
  subst hid
  have hqueue : (l.enqueueRssTorrentUrl item).rssTorrent.lane.queue =
      l.rssTorrent.lane.queue ++ [item] := by
    unfold RssLoop.enqueueRssTorrentUrl
    simp only [laneStep, Lane.enqueue, Lane.schedulePump]
    split_ifs <;> rfl
  have hpending : ∀ id, id ∈ (l.enqueueRssTorrentUrl item).pendingIds ↔
      id ∈ l.pendingIds ∨ id = item.rssSettlement.itemId := by
    intro id
    unfold RssLoop.pendingIds
    rw [hqueue]
    simp only [RssLoop.enqueueRssTorrentUrl, List.mem_append, List.map_append, List.map_singleton,
      List.mem_singleton]
    tauto
  exact
    { service := rfl
      accounted := fun h =>
        { h with rssTorrent := h.rssTorrent.enqueue item .enqueued }
      kept := fun id hid => (hpending id).mpr (.inl hid)
      taken := (hpending _).mpr (.inr rfl) }

/-- A request that says what to download gets into one of the queues. -/
theorem takesIn_onRequest (l : RssLoop) {req : AutoDownloadRequest} (hreq : RequestOk req) :
    TakesIn req.itemId l (l.onRequest req) := by
  unfold RssLoop.onRequest onDownloadRequest
  rw [if_neg (by decide)]
  by_cases hmagnet : req.magnet ≠ ""
  · rw [if_pos hmagnet]
    dsimp only
    exact takesIn_enqueueMagnet l _ hreq.settles
  · rw [if_neg hmagnet, if_pos (hreq.resource.resolve_left hmagnet)]
    dsimp only
    exact takesIn_enqueueRssTorrentUrl l _ hreq.settles

theorem takesIn_requests {reqs : List AutoDownloadRequest} (hreqs : ∀ req ∈ reqs, RequestOk req)
    (l : RssLoop) :
    (reqs.foldl RssLoop.onRequest l).service = l.service ∧
      (l.Accounted → (reqs.foldl RssLoop.onRequest l).Accounted) ∧
      l.pendingIds ⊆ (reqs.foldl RssLoop.onRequest l).pendingIds ∧
      reqs.map (·.itemId) ⊆ (reqs.foldl RssLoop.onRequest l).pendingIds := by
  induction reqs generalizing l with
  | nil => exact ⟨rfl, id, fun _ hid => hid, by simp⟩
  | cons req reqs ih =>
    have hfirst := takesIn_onRequest l (hreqs req List.mem_cons_self)
    obtain ⟨hservice, haccounted, hkept, htaken⟩ :=
      ih (fun r hr => hreqs r (List.mem_cons_of_mem _ hr)) (l.onRequest req)
    refine ⟨hservice.trans hfirst.service, fun h => haccounted (hfirst.accounted h),
      fun id hid => hkept (hfirst.kept hid), ?_⟩
    rw [List.map_cons]
    exact List.cons_subset.mpr ⟨hkept hfirst.taken, htaken⟩

variable {env}

theorem RssLoop.Sound.service (hdigest : ∀ text, env.text.sha256Hex text ≠ "") (h : l.Sound)
    {op : ServiceOp} (hok : LoadOk env l.service op) : (loopStep env q l (.service op)).Sound := by
  obtain ⟨hstarts, hreqs⟩ := startsOnly_step env l.service op
  obtain ⟨hservice, haccounted, hkept, htaken⟩ :=
    takesIn_requests hreqs { l with service := serviceStep env l.service op }
  refine ⟨haccounted ?_, fun id hid => ?_⟩
  · exact { h.toAccounted with indexed := indexed_step hdigest l.service op h.indexed hok }
  · rw [loopStep, hservice] at hid
    rcases List.mem_append.mp (hstarts.subset hid) with hold | hnew
    · exact hkept (h.pending hold)
    · exact htaken hnew

/-! ### Pumps -/

theorem Lane.runPosted_eq_some {α : Type} {lane lane' : Lane α StartFn} {via : StartFn}
    {item : Option α} (h : lane.runPosted = some (via, lane', item)) :
    lane.posted = via :: lane'.posted ∧ lane.queue = item.toList ++ lane'.queue := by
  unfold Lane.runPosted at h
  split at h
  · cases h
  · rename_i startFn rest hposted
    obtain ⟨rfl, hpump⟩ := Prod.mk.inj (Option.some.inj h)
    unfold Lane.pump at hpump
    dsimp only at hpump
    split_ifs at hpump
    · obtain ⟨rfl, rfl⟩ := Prod.mk.inj hpump
      exact ⟨hposted, rfl⟩
    · split at hpump
      · rename_i hqueue
        obtain ⟨rfl, rfl⟩ := Prod.mk.inj hpump
        exact ⟨hposted, rfl⟩
      · rename_i item' queue' hqueue
        obtain ⟨rfl, rfl⟩ := Prod.mk.inj hpump
        exact ⟨hposted, hqueue⟩

/-- A pump moves the item it takes, if it takes one, from the queue to a handling. -/
theorem pump_moves {α : Type} {r : LaneRun α StartFn} {settlement : α → RssDownloadSettlement}
    {handler : StartFn → α → List DownloadEffect}
    (hhandler : ∀ via item, handler via item ≠ [] → Completes (settlement item) (handler via item))
    (hok : ∀ h ∈ RssLoop.begun queue handler r.lane, h.rest ≠ []) :
    ((laneStep r .pump).finished = r.finished ∧ (laneStep r .pump).starts.length =
        r.starts.length + openSlots queue (RssLoop.begun queue handler r.lane)) ∧
      (∀ other, other ≠ queue → openSlots other (RssLoop.begun queue handler r.lane) = 0) ∧
      r.lane.queue.map (fun item => (settlement item).itemId) ⊆
        (laneStep r .pump).lane.queue.map (fun item => (settlement item).itemId) ++
          (RssLoop.begun queue handler r.lane).flatMap fun h => settledIds h.rest := by
  have hrun : laneStep r .pump = r.pump := rfl
  rw [hrun]
  unfold LaneRun.pump RssLoop.begun at *
  cases hposted : r.lane.runPosted with
  | none => exact ⟨⟨rfl, rfl⟩, fun _ _ => rfl, fun _ hid => by simpa using hid⟩
  | some result =>
    obtain ⟨via, lane', item⟩ := result
    have hqueue := (Lane.runPosted_eq_some hposted).2
    rw [hposted] at hok
    cases item with
    | none =>
      refine ⟨⟨rfl, rfl⟩, fun _ _ => rfl, fun _ hid => ?_⟩
      simpa [hqueue] using hid
    | some item =>
      have hdone := hhandler via item (hok _ List.mem_cons_self)
      refine ⟨⟨rfl, ?_⟩, fun other hother => ?_, fun id hid => ?_⟩
      · simp [openSlots, hdone.releases]
      · simp [openSlots, Ne.symm hother]
      · rw [hqueue] at hid
        rcases List.mem_cons.mp hid with rfl | hid
        · refine List.mem_append_right _ (List.mem_flatMap.mpr ⟨_, List.mem_cons_self, ?_⟩)
          exact hdone.settles
        · exact List.mem_append_left _ hid

theorem RssLoop.Sound.pumpMagnet (h : l.Sound) {settings : AddSettings} {w : World}
    {o : MagnetOutcome} (hok : LoopOk env q l (.pumpMagnet settings w o)) :
    (loopStep env q l (.pumpMagnet settings w o)).Sound := by
  have hhandler : ∀ via item, magnetHandler q settings w o via item ≠ [] →
      Completes item.rssSettlement (magnetHandler q settings w o via item) :=
    fun via item => completes_startTaken via (.magnet item o)
  obtain ⟨⟨hfinished, hstarts⟩, hother, hmoved⟩ := pump_moves hhandler hok
  have hmagnet : l.magnet.finished + openSlots .magnet l.handlings = l.magnet.starts.length :=
    h.magnetSlots
  have hrss : l.rssTorrent.finished + openSlots .rssTorrent l.handlings =
    l.rssTorrent.starts.length := h.rssTorrentSlots
  exact
    { indexed := h.indexed
      magnet := h.magnet.pump
      rssTorrent := h.rssTorrent
      magnetSlots := by
        unfold SlotsAgree
        simp only [loopStep, openSlots_append, hfinished, hstarts]
        omega
      rssTorrentSlots := by
        unfold SlotsAgree
        simp only [loopStep, openSlots_append, hother .rssTorrent (by decide)]
        omega
      pending := fun id hid => by
        have hid' := h.pending hid
        unfold RssLoop.pendingIds at hid' ⊢
        simp only [loopStep, List.mem_append, List.flatMap_append] at hid' ⊢
        obtain (hwaiting | hwaiting) | hbegun := hid'
        · rcases List.mem_append.mp (hmoved hwaiting) with hstill | hnow
          · exact .inl (.inl hstill)
          · exact .inr (.inr hnow)
        · exact .inl (.inr hwaiting)
        · exact .inr (.inl hbegun) }

theorem RssLoop.Sound.pumpRssTorrent (h : l.Sound) {settings : AddSettings} {w : World}
    {d : TorrentDownload} (hok : LoopOk env q l (.pumpRssTorrent settings w d)) :
    (loopStep env q l (.pumpRssTorrent settings w d)).Sound := by
  have hhandler : ∀ via item, rssTorrentHandler q settings w d via item ≠ [] →
      Completes item.rssSettlement (rssTorrentHandler q settings w d via item) :=
    fun via item => completes_startTaken via (.torrentUrl item d)
  obtain ⟨⟨hfinished, hstarts⟩, hother, hmoved⟩ := pump_moves hhandler hok
  have hmagnet : l.magnet.finished + openSlots .magnet l.handlings = l.magnet.starts.length :=
    h.magnetSlots
  have hrss : l.rssTorrent.finished + openSlots .rssTorrent l.handlings =
    l.rssTorrent.starts.length := h.rssTorrentSlots
  exact
    { indexed := h.indexed
      magnet := h.magnet
      rssTorrent := h.rssTorrent.pump
      magnetSlots := by
        unfold SlotsAgree
        simp only [loopStep, openSlots_append, hother .magnet (by decide)]
        omega
      rssTorrentSlots := by
        unfold SlotsAgree
        simp only [loopStep, openSlots_append, hfinished, hstarts]
        omega
      pending := fun id hid => by
        have hid' := h.pending hid
        unfold RssLoop.pendingIds at hid' ⊢
        simp only [loopStep, List.mem_append, List.flatMap_append] at hid' ⊢
        obtain (hwaiting | hwaiting) | hbegun := hid'
        · exact .inl (.inl hwaiting)
        · rcases List.mem_append.mp (hmoved hwaiting) with hstill | hnow
          · exact .inl (.inr hstill)
          · exact .inr (.inr hnow)
        · exact .inr (.inl hbegun) }

/-! ### Effects -/

/-- A handling among the others, and what becomes of them when it goes on. -/
theorem exists_split_of_getElem? {α : Type} {xs : List α} {i : Nat} {x : α} (h : xs[i]? = some x) :
    ∃ before after, xs = before ++ x :: after ∧ ∀ y, xs.set i y = before ++ y :: after := by
  obtain ⟨hi, rfl⟩ := List.getElem?_eq_some_iff.mp h
  refine ⟨xs.take i, xs.drop (i + 1), ?_, fun y => ?_⟩
  · rw [List.getElem_cons_drop, List.take_append_drop]
  · rw [List.set_eq_take_append_cons_drop, if_pos hi]

/-- The slot that an effect gives back. -/
theorem openSlots_effect (effect : DownloadEffect) (rest : List DownloadEffect) (own : Queue)
    (before after : List Handling) :
    openSlots queue (before ++ ⟨own, effect :: rest⟩ :: after) =
      (if own = queue ∧ effect = .finish then 1 else 0) +
        openSlots queue (before ++ ⟨own, rest⟩ :: after) := by
  rw [openSlots_append, openSlots_append, openSlots_cons, openSlots_cons]
  unfold releases
  dsimp only
  rw [List.count_cons]
  by_cases hown : own = queue
  · by_cases hfinish : effect = .finish
    · simp [hown, hfinish]
      omega
    · simp [hown, hfinish]
  · simp [hown]

theorem SlotsAgree.effect {α : Type} {r : LaneRun α StartFn} {own : Queue} {effect : DownloadEffect}
    {rest : List DownloadEffect} {before after : List Handling}
    (h : SlotsAgree queue r (before ++ ⟨own, effect :: rest⟩ :: after)) :
    r.finished + ((if own = queue ∧ effect = .finish then 1 else 0) +
      openSlots queue (before ++ ⟨own, rest⟩ :: after)) = r.starts.length :=
  openSlots_effect effect rest own before after ▸ h

/-- The end of a handling gives one of the counted slots back. -/
theorem LaneRun.Sound.release {α : Type} {r : LaneRun α StartFn} (h : r.Sound) {n : Nat}
    (hslots : r.finished + (1 + n) = r.starts.length) :
    LaneRun.Sound { r with lane := r.lane.finish .finished, finished := r.finished + 1 } := by
  have hflying : r.finished < r.starts.length := by omega
  have hlane := h.finish StartFn.finished
  rwa [laneStep, if_pos hflying] at hlane

theorem Lane.queue_finish {α ω : Type} (lane : Lane α ω) (startFn : ω) :
    (lane.finish startFn).queue = lane.queue := by
  unfold Lane.finish Lane.schedulePump
  split_ifs
  · rfl
  · rfl

variable (env) in
/-- An effect is performed, and what is left of its handling is accounted for. -/
theorem RssLoop.Sound.perform (h : l.Sound) (now : Int) {own : Queue} {effect : DownloadEffect}
    {rest : List DownloadEffect} {before after : List Handling}
    (hsplit : l.handlings = before ++ ⟨own, effect :: rest⟩ :: after) :
    (RssLoop.perform { l with handlings := before ++ ⟨own, rest⟩ :: after } env now own effect).Sound := by
  have hmagnet := SlotsAgree.effect (hsplit ▸ h.magnetSlots)
  have hrss := SlotsAgree.effect (hsplit ▸ h.rssTorrentSlots)
  have hpending : inFlightIds l.service.items ⊆ settledIds [effect] ++
      RssLoop.pendingIds { l with handlings := before ++ ⟨own, rest⟩ :: after } := by
    intro id hid
    have hid' := h.pending hid
    have hcons : settledIds (effect :: rest) = settledIds [effect] ++ settledIds rest :=
      settledIds_append [effect] rest
    unfold RssLoop.pendingIds at hid' ⊢
    rw [hsplit] at hid'
    simp only [List.mem_append, List.flatMap_append, List.flatMap_cons, hcons] at hid' ⊢
    tauto
  by_cases hfinish : effect = .finish
  · subst hfinish
    cases own with
    | magnet =>
      rw [if_pos ⟨rfl, rfl⟩] at hmagnet
      rw [if_neg (by simp), zero_add] at hrss
      refine ⟨⟨h.indexed, h.magnet.release hmagnet, h.rssTorrent, ?_, hrss⟩, fun id hid => ?_⟩
      · unfold SlotsAgree
        dsimp only [RssLoop.perform]
        omega
      · unfold RssLoop.pendingIds at hpending ⊢
        dsimp only [RssLoop.perform] at hid ⊢
        rw [Lane.queue_finish]
        exact hpending hid
    | rssTorrent =>
      rw [if_neg (by simp), zero_add] at hmagnet
      rw [if_pos ⟨rfl, rfl⟩] at hrss
      refine ⟨⟨h.indexed, h.magnet, h.rssTorrent.release hrss, hmagnet, ?_⟩, fun id hid => ?_⟩
      · unfold SlotsAgree
        dsimp only [RssLoop.perform]
        omega
      · unfold RssLoop.pendingIds at hpending ⊢
        dsimp only [RssLoop.perform] at hid ⊢
        rw [Lane.queue_finish]
        exact hpending hid
  · rw [if_neg fun hboth => hfinish hboth.2, zero_add] at hmagnet hrss
    have haccounted : RssLoop.Accounted { l with handlings := before ++ ⟨own, rest⟩ :: after } :=
      { h.toAccounted with
        magnetSlots := hmagnet
        rssTorrentSlots := hrss }
    cases effect with
    | settle s ok path =>
      refine ⟨{ haccounted with indexed := h.indexed.settle env now s ok path none }, fun id hid => ?_⟩
      have hold := (startsOnly_settle env now l.service s ok path none).subset hid
      rw [List.append_nil] at hold
      refine (List.mem_append.mp (hpending hold)).resolve_left fun hsame => ?_
      obtain rfl : id = s.itemId := by simpa [settledIds, settlements] using hsame
      exact settle_takesOut env h.indexed now s ok path none hid
    | finish => exact absurd rfl hfinish
    | post cmd => exact ⟨haccounted, hpending⟩
    | update ev => exact ⟨haccounted, hpending⟩
    | dialog => exact ⟨haccounted, hpending⟩
    | cancelled => exact ⟨haccounted, hpending⟩

variable (env) in
theorem RssLoop.Sound.advance (h : l.Sound) (now : Int) (i : Nat) :
    (l.advance env now i).Sound := by
  unfold RssLoop.advance
  split
  · rename_i own effect rest hi
    obtain ⟨before, after, hsplit, hset⟩ := exists_split_of_getElem? hi
    rw [hset ⟨own, rest⟩]
    exact h.perform env now hsplit
  · exact h

/-! ### Runs -/

theorem RssLoop.Sound.step (hdigest : ∀ text, env.text.sha256Hex text ≠ "") (h : l.Sound)
    (step : LoopStep) (hok : LoopOk env q l step) : (loopStep env q l step).Sound := by
  cases step with
  | service op => exact h.service q hdigest hok
  | enqueueMagnet item =>
    have htaken := takesIn_enqueueMagnet l item rfl
    exact ⟨htaken.accounted h.toAccounted, fun id hid => htaken.kept (h.pending (htaken.service ▸ hid))⟩
  | setMagnetMaxInFlight maxInFlight => exact ⟨{ h.toAccounted with }, h.pending⟩
  | pumpMagnet settings w o => exact h.pumpMagnet q hok
  | pumpRssTorrent settings w d => exact h.pumpRssTorrent q hok
  | advance now i => exact h.advance env now i

theorem RssLoop.sound_start (files : RssFiles) (maxInFlight : Int) :
    RssLoop.Sound { service := { files := files }, magnetMaxInFlight := maxInFlight } where
  indexed := indexed_start files
  magnet := LaneRun.sound_empty
  rssTorrent := LaneRun.sound_empty
  magnetSlots := rfl
  rssTorrentSlots := rfl
  pending := fun _ hid => hid

variable (env) in
/-- The loop after these steps, from before the first load. -/
def loopAfter (files : RssFiles) (maxInFlight : Int) (steps : List LoopStep) : RssLoop :=
  run (loopStep env q) { service := { files := files }, magnetMaxInFlight := maxInFlight } steps

variable (env) in
/-- The steps meet their condition one after another. -/
def LoopRun (files : RssFiles) (maxInFlight : Int) (steps : List LoopStep) : Prop :=
  RunOk (loopStep env q) (LoopOk env q)
    { service := { files := files }, magnetMaxInFlight := maxInFlight } steps

theorem sound_loopAfter (hdigest : ∀ text, env.text.sha256Hex text ≠ "") {files : RssFiles}
    {maxInFlight : Int} {steps : List LoopStep} (hok : LoopRun env q files maxInFlight steps) :
    (loopAfter env q files maxInFlight steps).Sound :=
  hok.invariant (fun _ step h hstep => h.step q hdigest step hstep)
    (RssLoop.sound_start files maxInFlight)

variable (env)

/-- Before the shutdown no download gets lost: in every interleaving an item in flight has its settlement
still ahead, and both queues count as many downloads in flight as there are handlings that are not
finished. -/
theorem loop_keeps_downloads (hdigest : ∀ text, env.text.sha256Hex text ≠ "") (files : RssFiles)
    (maxInFlight : Int) (steps : List LoopStep) (hok : LoopRun env q files maxInFlight steps) :
    let l := loopAfter env q files maxInFlight steps
    (∀ it ∈ l.service.items, it.queued = true → it.id ∈ l.pendingIds) ∧
      l.magnet.lane.inFlight = openSlots .magnet l.handlings ∧
      l.rssTorrent.lane.inFlight = openSlots .rssTorrent l.handlings := by
  have hsound := sound_loopAfter q hdigest hok
  refine ⟨fun it hit hqueued => hsound.pending (mem_inFlightIds.mpr ⟨it, hit, hqueued, rfl⟩), ?_, ?_⟩
  · exact hsound.magnetSlots.inFlight_eq hsound.magnet
  · exact hsound.rssTorrentSlots.inFlight_eq hsound.rssTorrent

/-- An entry is found, its magnet taken and added. -/
def oneDownload (now : Int) : List LoopStep :=
  [.service (.setDownloadRequestCallback true), .service (.setAutoDownloadEnabled true),
    .service (.upsertFeed "feed" { url := "http://example.org/rss", autoDownloadEnabled := true }),
    .service (.upsertRule "rule" { enabled := true }),
    .service (.refreshFeed now fetchOneEntry "feed" 100),
    .service (.dispatch now 10 true .allEligible),
    .pumpMagnet {} {} {}, .advance now 0, .advance now 0, .advance now 0]

theorem loopRun_oneDownload (now : Int) : LoopRun oneEntryEnv oneTorrentEnv.qt {} 8 (oneDownload now) :=
  ⟨trivial, trivial, trivial, trivial, trivial, trivial,
    begun_ne_nil (fun via item => startTaken_ne_nil oneTorrentEnv.qt {} via (.magnet item {})) _,
    trivial, trivial, trivial, trivial⟩

theorem loop_keeps_oneDownload :
    let l := loopAfter oneEntryEnv oneTorrentEnv.qt {} 8 (oneDownload 946684800000)
    (∀ it ∈ l.service.items, it.queued = true → it.id ∈ l.pendingIds) ∧
      l.magnet.lane.inFlight = openSlots .magnet l.handlings ∧
      l.rssTorrent.lane.inFlight = openSlots .rssTorrent l.handlings :=
  loop_keeps_downloads oneEntryEnv oneTorrentEnv.qt oneEntryEnv_digest {} 8
    (oneDownload 946684800000) (loopRun_oneDownload 946684800000)

/-! ### Running dry -/

/-- The loop goes on by itself: a posted pump runs, or a handling performs its next effect. -/
inductive Moves (l : RssLoop) : RssLoop → Prop
  | pumpMagnet (settings : AddSettings) (w : World) (o : MagnetOutcome)
      (posted : l.magnet.lane.posted ≠ []) (ok : LoopOk env q l (.pumpMagnet settings w o)) :
      Moves l (loopStep env q l (.pumpMagnet settings w o))
  | pumpRssTorrent (settings : AddSettings) (w : World) (d : TorrentDownload)
      (posted : l.rssTorrent.lane.posted ≠ []) (ok : LoopOk env q l (.pumpRssTorrent settings w d)) :
      Moves l (loopStep env q l (.pumpRssTorrent settings w d))
  | advance (now : Int) (i : Nat) (h : Handling) (found : l.handlings[i]? = some h)
      (unfinished : h.rest ≠ []) : Moves l (loopStep env q l (.advance now i))

/-- Nothing waits, nothing is in flight, and no item says that it is. -/
structure RssLoop.Drained (l : RssLoop) : Prop where
  magnetQueue : l.magnet.lane.queue = []
  rssTorrentQueue : l.rssTorrent.lane.queue = []
  magnetSlots : l.magnet.lane.inFlight = 0
  rssTorrentSlots : l.rssTorrent.lane.inFlight = 0
  items : ∀ it ∈ l.service.items, it.queued = false

variable {env}

theorem Moves.sound {l l' : RssLoop} (h : l.Sound) (hmove : Moves env q l l') : l'.Sound := by
  cases hmove with
  | pumpMagnet settings w o posted ok => exact h.pumpMagnet q ok
  | pumpRssTorrent settings w d posted ok => exact h.pumpRssTorrent q ok
  | advance now i h' found unfinished => exact h.advance env now i

/-- The items that wait, the effects that are left, and the pumps that are posted. -/
def RssLoop.work (l : RssLoop) : Nat × Nat × Nat :=
  (l.magnet.lane.queue.length + l.rssTorrent.lane.queue.length,
    (l.handlings.map (·.rest.length)).sum,
    l.magnet.lane.posted.length + l.rssTorrent.lane.posted.length)

theorem Lane.exists_runPosted {α : Type} {lane : Lane α StartFn} (h : lane.posted ≠ []) :
    ∃ via lane' item, lane.runPosted = some (via, lane', item) := by
  obtain ⟨via, rest, hposted⟩ := List.exists_cons_of_ne_nil h
  exact ⟨via, _, _, by rw [Lane.runPosted, hposted]⟩

/-- A posted pump takes an item out of its queue, or is used up. -/
theorem pump_works {α : Type} (queue : Queue) {r : LaneRun α StartFn} (h : r.lane.posted ≠ [])
    (handler : StartFn → α → List DownloadEffect) :
    (laneStep r .pump).lane.queue.length < r.lane.queue.length ∨
      ((laneStep r .pump).lane.queue = r.lane.queue ∧ RssLoop.begun queue handler r.lane = [] ∧
        (laneStep r .pump).lane.posted.length < r.lane.posted.length) := by
  obtain ⟨via, lane', item, hrun⟩ := Lane.exists_runPosted h
  obtain ⟨hposted, hqueue⟩ := Lane.runPosted_eq_some hrun
  show (r.pump).lane.queue.length < r.lane.queue.length ∨ ((r.pump).lane.queue = r.lane.queue ∧
    RssLoop.begun queue handler r.lane = [] ∧ (r.pump).lane.posted.length < r.lane.posted.length)
  unfold LaneRun.pump RssLoop.begun
  rw [hrun, hqueue, hposted]
  cases item with
  | none => exact .inr ⟨rfl, rfl, Nat.lt_succ_self _⟩
  | some item => exact .inl (Nat.lt_succ_self _)

variable (env) in
theorem perform_works (l : RssLoop) (now : Int) (own : Queue) (effect : DownloadEffect) :
    (l.perform env now own effect).magnet.lane.queue = l.magnet.lane.queue ∧
      (l.perform env now own effect).rssTorrent.lane.queue = l.rssTorrent.lane.queue ∧
      (l.perform env now own effect).handlings = l.handlings := by
  cases effect with
  | finish =>
    cases own with
    | magnet => exact ⟨Lane.queue_finish _ _, rfl, rfl⟩
    | rssTorrent => exact ⟨rfl, Lane.queue_finish _ _, rfl⟩
  | _ => exact ⟨rfl, rfl, rfl⟩

/-- Every move leaves less work. -/
theorem Moves.work_lt {l l' : RssLoop} (h : Moves env q l l') :
    Prod.Lex (· < ·) (Prod.Lex (· < ·) (· < ·)) l'.work l.work := by
  cases h with
  | pumpMagnet settings w o posted ok =>
    rcases pump_works .magnet posted (magnetHandler q settings w o) with
      hless | ⟨hqueue, hbegun, hposted⟩
    · exact Prod.Lex.left _ _ (Nat.add_lt_add_right hless _)
    · unfold RssLoop.work
      simp only [loopStep, hqueue, hbegun, List.append_nil]
      exact Prod.Lex.right _ (Prod.Lex.right _ (Nat.add_lt_add_right hposted _))
  | pumpRssTorrent settings w d posted ok =>
    rcases pump_works .rssTorrent posted (rssTorrentHandler q settings w d) with
      hless | ⟨hqueue, hbegun, hposted⟩
    · exact Prod.Lex.left _ _ (Nat.add_lt_add_left hless _)
    · unfold RssLoop.work
      simp only [loopStep, hqueue, hbegun, List.append_nil]
      exact Prod.Lex.right _ (Prod.Lex.right _ (Nat.add_lt_add_left hposted _))
  | advance now i h found unfinished =>
    obtain ⟨own, rest⟩ := h
    obtain ⟨effect, rest, rfl⟩ := List.exists_cons_of_ne_nil unfinished
    obtain ⟨before, after, hsplit, hset⟩ := exists_split_of_getElem? found
    have hstep : loopStep env q l (.advance now i) =
        RssLoop.perform { l with handlings := before ++ ⟨own, rest⟩ :: after } env now own effect := by
      show l.advance env now i = _
      unfold RssLoop.advance
      rw [found]
      dsimp only
      rw [hset]
    obtain ⟨hmagnet, hrss, hhandlings⟩ := perform_works env
      { l with handlings := before ++ ⟨own, rest⟩ :: after } now own effect
    unfold RssLoop.work
    rw [hstep, hmagnet, hrss, hhandlings, hsplit]
    refine Prod.Lex.right _ (Prod.Lex.left _ _ ?_)
    simp only [List.map_append, List.map_cons, List.sum_append, List.sum_cons, List.length_cons]
    omega

theorem wellFounded_moves : WellFounded fun l' l => Moves env q l l' :=
  Subrelation.wf (fun h => Moves.work_lt q h)
    (InvImage.wf RssLoop.work (WellFounded.prod_lex Nat.lt_wfRel.wf
      (WellFounded.prod_lex Nat.lt_wfRel.wf Nat.lt_wfRel.wf)))

/-! ### What is left when it has run dry -/

theorem openSlots_eq_zero {handlings : List Handling} (h : ∀ x ∈ handlings, x.rest = []) :
    openSlots queue handlings = 0 := by
  induction handlings with
  | nil => rfl
  | cons x rest ih =>
    rw [openSlots_cons, ih fun y hy => h y (List.mem_cons_of_mem x hy), h x List.mem_cons_self]
    simp [releases]

/-- Where the loop does not move any more, it is drained. -/
theorem RssLoop.Sound.drained {l : RssLoop} (h : l.Sound) (hstuck : ¬ ∃ l', Moves env q l l') :
    l.Drained := by
  have hmagnetPosted : l.magnet.lane.posted = [] := by
    by_contra hposted
    exact hstuck ⟨_, .pumpMagnet {} {} {} hposted
      (begun_ne_nil (fun via item => startTaken_ne_nil q {} via (.magnet item {})) _)⟩
  have hrssPosted : l.rssTorrent.lane.posted = [] := by
    by_contra hposted
    exact hstuck ⟨_, .pumpRssTorrent {} {} {} hposted
      (begun_ne_nil (fun via item => startTaken_ne_nil q {} via (.torrentUrl item {})) _)⟩
  have hfinished : ∀ x ∈ l.handlings, x.rest = [] := by
    intro x hx
    obtain ⟨i, hi⟩ := List.getElem?_of_mem hx
    by_contra hrest
    exact hstuck ⟨_, .advance 0 i x hi hrest⟩
  have hopen : ∀ queue, openSlots queue l.handlings = 0 := fun queue => openSlots_eq_zero hfinished
  have hmagnetFree : l.magnet.lane.inFlight = 0 := by
    rw [h.magnetSlots.inFlight_eq h.magnet, hopen, Nat.cast_zero]
  have hrssFree : l.rssTorrent.lane.inFlight = 0 := by
    rw [h.rssTorrentSlots.inFlight_eq h.rssTorrent, hopen, Nat.cast_zero]
  have hmagnetQueue : l.magnet.lane.queue = [] := by
    by_contra hqueue
    rcases h.magnet.awake hqueue with hposted | hflying
    · exact hposted hmagnetPosted
    · omega
  have hrssQueue : l.rssTorrent.lane.queue = [] := by
    by_contra hqueue
    rcases h.rssTorrent.awake hqueue with hposted | hflying
    · exact hposted hrssPosted
    · omega
  have hpending : l.pendingIds = [] := by
    unfold RssLoop.pendingIds
    rw [hmagnetQueue, hrssQueue, List.flatMap_eq_nil_iff.mpr fun x hx => by
      rw [hfinished x hx]
      rfl]
    rfl
  refine ⟨hmagnetQueue, hrssQueue, hmagnetFree, hrssFree, fun it hit => ?_⟩
  by_contra hqueued
  have hid := h.pending (mem_inFlightIds.mpr ⟨it, hit, by simpa using hqueued, rfl⟩)
  rw [hpending] at hid
  exact absurd hid List.not_mem_nil

variable (env)

/-- After every run before the shutdown the loop runs dry if it is left to itself: in whatever order its
pumps and handlings go on, they come to an end, and then nothing waits, all slots are free, and no item is
in flight. -/
theorem loop_drains (hdigest : ∀ text, env.text.sha256Hex text ≠ "") (files : RssFiles)
    (maxInFlight : Int) (steps : List LoopStep) (hok : LoopRun env q files maxInFlight steps) :
    Acc (fun l' l => Moves env q l l') (loopAfter env q files maxInFlight steps) ∧
      ∀ l, Relation.ReflTransGen (Moves env q) (loopAfter env q files maxInFlight steps) l →
        (¬ ∃ l', Moves env q l l') → l.Drained := by
  refine ⟨(wellFounded_moves q).apply _, fun l hmoves hstuck => ?_⟩
  have hsound : l.Sound := by
    clear hstuck
    induction hmoves with
    | refl => exact sound_loopAfter q hdigest hok
    | tail _ hmove ih => exact hmove.sound q ih
  exact hsound.drained q hstuck

theorem loop_drains_oneDownload :
    Acc (fun l' l => Moves oneEntryEnv oneTorrentEnv.qt l l')
        (loopAfter oneEntryEnv oneTorrentEnv.qt {} 8 (oneDownload 946684800000)) ∧
      ∀ l, Relation.ReflTransGen (Moves oneEntryEnv oneTorrentEnv.qt)
          (loopAfter oneEntryEnv oneTorrentEnv.qt {} 8 (oneDownload 946684800000)) l →
        (¬ ∃ l', Moves oneEntryEnv oneTorrentEnv.qt l l') → l.Drained :=
  loop_drains oneEntryEnv oneTorrentEnv.qt oneEntryEnv_digest {} 8 (oneDownload 946684800000)
    (loopRun_oneDownload 946684800000)

end TorrentLink.App
