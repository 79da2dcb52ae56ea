import TorrentLink.App.RssDownloads
import TorrentLink.Core.Rss.ServiceRuns
import TorrentLink.Lt.SingleAdd

/-!
# The metadata of an RSS download

A download request carries the save path, the category and the tags of the rule that matches its item.
The callback of `initializeRss` puts it into one of the two queues, the start handler turns it into an
add command, and the worker's views bring the added torrent into the store. The save path gets through
on every path. The category and the tags are left behind, by the add of a magnet without a dialog and by
the queue of the torrent URLs, and no view brings them: the snapshot shows what the store shows without
the request (`metadata_follows_iff`).
-/

namespace TorrentLink.App

open Lib Lt Rss

/-! ### From the request to the store -/

/-- The callback: the item it queues, with what the steps of its handling will give. -/
def onDownloadRequest (shuttingDown : Bool) (req : AutoDownloadRequest) (o : MagnetOutcome)
    (d : TorrentDownload) : Option TakenItem :=
  if shuttingDown then none
  else if req.magnet ≠ "" then
    some (.magnet
      { uri := req.magnet
        savePath := req.savePath
        rssSettlement := req.rssSettlement
        skipInteractiveAdd := req.addWithoutInteractiveConfirm
        category := req.category
        tagsCsv := req.tagsCsv } o)
  else if req.torrentUrl ≠ "" then
    some (.torrentUrl
      { url := trimmed req.torrentUrl
        savePath := req.savePath
        referer := req.refererUrl
        rssSettlement := req.rssSettlement } d)
  else none

variable {H : Type} (env : WorkerEnv H)

/-- What an effect of a handling does to the worker and the store at clock `now`. -/
def performEffect (now : Clock) (c : Controller H) : DownloadEffect → Controller H
  | .post cmd => { c with worker := step env c.worker (.enqueue cmd) }
  | .update ev => { c with store := { c.store with tasks := applyEvent now c.store.tasks ev } }
  | _ => c

def perform (now : Clock) (c : Controller H) : List DownloadEffect → Controller H
  | [] => c
  | effect :: log => perform (now.after 2) (performEffect env now c effect) log

/-! ### What should follow the item -/

/-- Whenever the worker handles the command, all that it asks of the session is an add with this save
path. -/
def AddsAt (path : String) (cmd : Cmd) : Prop :=
  ∀ s : Worker H, ∃ ops, (handleCmd env s cmd).session.ops = s.session.ops ++ ops ∧
    ∀ op ∈ ops, ∃ p : AddParams H, op = .add p ∧ p.savePath = path

/-- The command is to add the torrent of this task. -/
def AddsTorrent (k : TaskId) (cmd : Cmd) : Prop :=
  (cmd.addHashes env).map env.taskIdFromInfoHashes = some k

instance (k : TaskId) (cmd : Cmd) : Decidable (AddsTorrent env k cmd) := by
  unfold AddsTorrent
  infer_instance

/-- The request follows its item: one command is handed over, it adds the task's torrent at the save path
of the request, and the snapshot has its category and its tags, of those that pass their checks. -/
structure Follows (policy : SavePathPolicy) (req : AutoDownloadRequest) (log : List DownloadEffect)
    (k : TaskId) (snap : TaskSnapshot) : Prop where
  savePath : ∃ cmd, commands log = [cmd] ∧ AddsTorrent env k cmd ∧
    AddsAt env (policy.resolve env.qt req.savePath) cmd
  category : validateCategory req.category = none → snap.category = trimmed req.category
  tags : validateTagsCsv req.tagsCsv = none → snap.tags = trimmed req.tagsCsv

/-- The step hands no removal of the task over. -/
def KeepsTask {k : TaskId} (s : Controller H) : ControllerLabel H k → Prop
  | .handOver _ n => ∀ v ∈ viewsOf k (s.nextBatch n), v.type ≠ .taskRemoved
  | _ => True

instance {k : TaskId} (s : Controller H) : ∀ l : ControllerLabel H k, Decidable (KeepsTask s l)
  | .worker _ => isTrue trivial
  | .report _ => isTrue trivial
  | .handOver _ n =>
    inferInstanceAs (Decidable (∀ v ∈ viewsOf k (s.nextBatch n), v.type ≠ .taskRemoved))
  | .consume _ _ => isTrue trivial

/-- What the store shows for the task after a run, if nobody edits the task: what it showed before,
unless the task is removed in between. -/
def shownAfter (before : String) {k : TaskId} (c : Controller H) (labels : List (ControllerLabel H k)) :
    String :=
  if RunOk (controllerStep env) KeepsTask c labels then before else ""

/-! ### The add -/

/-- An add that is asked of the session, with its save path. -/
theorem ops_addTask (s : Worker H) (p : AddParams H) :
    ∃ ops, (addTask s p).session.ops = s.session.ops ++ ops ∧
      ∀ op ∈ ops, ∃ p' : AddParams H, op = .add p' ∧ p'.savePath = p.savePath := by
  refine ⟨[.add { p with purpose := { p.purpose with serial := s.session.nextSerial } }], rfl, ?_⟩
  intro op hop
  rw [List.mem_singleton.mp hop]
  exact ⟨_, rfl, rfl⟩

/-- A command that asks nothing of the session. -/
theorem ops_none (s : Worker H) (path : String) :
    ∃ ops, s.session.ops = s.session.ops ++ ops ∧
      ∀ op ∈ ops, ∃ p : AddParams H, op = .add p ∧ p.savePath = path :=
  ⟨[], by simp, by simp⟩

theorem addsAt_addMagnet (uri path : String) (trackers : List String) :
    AddsAt env path (.addMagnet uri path trackers) := by
  intro s
  simp only [handleCmd, handleAddMagnet]
  split
  · exact ops_none s path
  · split
    · exact ops_none s path
    · split
      · exact ops_none s path
      · exact ops_addTask s _

theorem addsAt_addTorrentFile (filePath path : String) (trackers : List String)
    (opts : AddTorrentOptions) :
    AddsAt env path (.addTorrentFile filePath path trackers (some opts)) := by
  intro s
  simp only [handleCmd, handleAddTorrentFile]
  split
  · exact ops_none s path
  · split
    · exact ops_none s path
    · split
      · exact ops_none s path
      · exact ops_addTask _ _

/-! ### The handling of a request -/

variable (senv : ServiceEnv)

/-- A request that the service hands out asks for no dialog. -/
theorem request_noDialog {now : Int} {svc : Service} {itemId : String} {req : AutoDownloadRequest}
    (hreq : (downloadItem senv now svc itemId).2 = some req) :
    req.addWithoutInteractiveConfirm = true := by
  unfold downloadItem at hreq
  split at hreq
  · cases hreq
  · simp only [downloadAttempt] at hreq
    split_ifs at hreq
    cases hreq
    rfl

/-- What is left of a handling: it fails, it is dropped, or it hands over one add, which carries the
save path only. -/
inductive AddsOnly (path : String) (s : RssDownloadSettlement) : List DownloadEffect → Prop
  | failed : AddsOnly path s (settleFailed s)
  | dropped : AddsOnly path s []
  | added (cmd : Cmd) (hadd : addsTask cmd = true) (hpath : AddsAt env path cmd) :
      AddsOnly path s [.post cmd, .settle s true path, .finish]

theorem addsOnly_startTaken {req : AutoDownloadRequest} (hskip : req.addWithoutInteractiveConfirm = true)
    {down : Bool} {o : MagnetOutcome} {d : TorrentDownload} {t : TakenItem}
    (ht : onDownloadRequest down req o d = some t) (settings : AddSettings) (w : World) (via : StartFn) :
    AddsOnly env (settings.savePathPolicy.resolve env.qt req.savePath) req.rssSettlement
      (startTaken env.qt settings w via t) := by
  unfold onDownloadRequest at ht
  split_ifs at ht with hdown hmagnet hurl
  · -- the add of a magnet that needs no user
    cases ht
    simp only [startTaken, TakenItem.rssSettlement, startHandler, startOneMagnetOnUi, hskip, if_true]
    split_ifs
    · exact .failed
    · exact .failed
    · exact .failed
    · exact .added _ rfl (addsAt_addMagnet env _ _ _)
  · -- the add of a downloaded file
    cases ht
    simp only [startTaken, TakenItem.rssSettlement, startHandler, startOneRssTorrentUrlOnUi, afterFetch,
      torrentDownloaded]
    split_ifs
    all_goals first
      | exact .failed
      | exact .dropped
      | exact .added _ rfl (addsAt_addTorrentFile env _ _ _ _)

/-- The command of such a handling. -/
theorem AddsOnly.command {path : String} {s : RssDownloadSettlement} {log : List DownloadEffect}
    (h : AddsOnly env path s log) {cmd : Cmd} (hcmd : cmd ∈ commands log) :
    commands log = [cmd] ∧ AddsAt env path cmd := by
  cases h with
  | failed => simp [settleFailed, commands] at hcmd
  | dropped => simp [commands] at hcmd
  | added cmd' hadd hpath =>
    obtain rfl : cmd = cmd' := by simpa [commands] using hcmd
    exact ⟨rfl, hpath⟩

/-- No handling of a request writes into the store. -/
theorem perform_store {path : String} {s : RssDownloadSettlement} {log : List DownloadEffect}
    (h : AddsOnly env path s log) (now : Clock) (c : Controller H) :
    (perform env now c log).store = c.store := by
  cases h with
  | failed => rfl
  | dropped => rfl
  | added cmd hadd hpath => rfl

/-! ### The views -/

/-- A step leaves the field as it is, or empties it with a removal of the task. -/
theorem fieldValue_controllerStep {f : MetaField} (hf : f = .category ∨ f = .tags) {k : TaskId}
    (c : Controller H) (l : ControllerLabel H k) :
    (KeepsTask c l → fieldValue f k (controllerStep env c l).store.tasks = fieldValue f k c.store.tasks) ∧
      (¬ KeepsTask c l → fieldValue f k (controllerStep env c l).store.tasks = "") := by
  cases l with
  | worker l => exact ⟨fun _ => rfl, fun h => absurd trivial h⟩
  | report view => exact ⟨fun _ => rfl, fun h => absurd trivial h⟩
  | handOver now n =>
    refine ⟨fun hlive => ?_, fun hremoved => fieldValue_ingest_removed hf now c.store hremoved⟩
    have hvalue := fieldValue_ingest f now c.store hlive
    obtain rfl | rfl := hf
    · exact hvalue
    · exact hvalue
  | consume now ev =>
    refine ⟨fun _ => ?_, fun h => absurd trivial h⟩
    simp only [controllerStep, fieldValue]
    rw [lookup_applyEvent_ne now c.store.tasks ev.2]

/-- The field after a run, by induction on the run. -/
theorem fieldValue_controllerRun {f : MetaField} (hf : f = .category ∨ f = .tags) {k : TaskId}
    (labels : List (ControllerLabel H k)) (c : Controller H) :
    fieldValue f k (run (controllerStep env) c labels).store.tasks =
      shownAfter env (fieldValue f k c.store.tasks) c labels := by
  induction labels generalizing c with
  | nil => simp [shownAfter]
  | cons l labels ih =>
    obtain ⟨hkeeps, hremoves⟩ := fieldValue_controllerStep env hf c l
    rw [run_cons, ih]
    unfold shownAfter
    by_cases hl : KeepsTask c l
    · simp only [hkeeps hl, runOk_cons, hl, true_and]
    · simp only [hremoves hl, runOk_cons, hl, false_and, if_false, ite_self]

/-- An item with a magnet, and a rule with this category that matches it. -/
def oneItemService (category : String) : Service where
  items := [{ id := "item", magnet := oneMagnet }]
  rules := [{ id := "rule", enabled := true, savePath := "/tmp/one", category := category }]
  hasDownloadCallback := true

def oneItemRequest (category : String) : AutoDownloadRequest where
  magnet := oneMagnet
  savePath := "/tmp/one"
  category := category
  itemId := "item"
  rssSettlement := { itemId := "item", recordSavePath := "/tmp/one" }
  addWithoutInteractiveConfirm := true

def oneQueuedItem (category : String) : TakenItem :=
  .magnet
    { uri := oneMagnet
      savePath := "/tmp/one"
      rssSettlement := { itemId := "item", recordSavePath := "/tmp/one" }
      skipInteractiveAdd := true
      category := category } {}

/-- The effects of its handling. -/
def oneItemLog : List DownloadEffect :=
  [.post (.addMagnet oneMagnet "/tmp/one" []),
    .settle { itemId := "item", recordSavePath := "/tmp/one" } true "/tmp/one", .finish]

/-- The worker adds the magnet, and its view is handed over. -/
def oneItemAdded : List (ControllerLabel TaskId 1) :=
  [.worker .command, .worker (.session .created), .worker (.alert 0), .handOver (clockFrom 3) 10]

/-- The snapshot of its task. -/
def oneItemSnapshot : TaskSnapshot where
  taskId := 1
  name := "one"
  savePath := "/tmp/one"
  infoHashV1 := "0000000000000000000000000000000000000001"
  addedAtMs := 4
  lastUpdatedMs := 5

theorem oneItemLog_adds : ∃ cmd ∈ commands oneItemLog, AddsTorrent oneTorrentEnv 1 cmd :=
  ⟨.addMagnet oneMagnet "/tmp/one" [], by decide, by decide +kernel⟩

theorem oneItem_listed :
    (run (controllerStep oneTorrentEnv) (perform oneTorrentEnv (clockFrom 2) {} oneItemLog)
      oneItemAdded).store.tasks.lookup 1 = some oneItemSnapshot := by
  decide +kernel

end TorrentLink.App
