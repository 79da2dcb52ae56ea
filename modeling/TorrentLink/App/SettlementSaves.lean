import TorrentLink.App.RssLoop
import TorrentLink.App.UiRefresh
import TorrentLink.Core.Rss.DedupRuns

/-!
# When a settlement is on the disk

A settlement changes an item in memory only. It asks a scheduler of its own for a follow-up, which saves the
service, dispatches what may be downloaded now, and saves again if that has started something. Meanwhile the
loop goes on, and other calls save as well.

What a new start would find is never far behind: it is what the items have come to at some earlier step, and
where a download was settled since, the timer is running and falls due 250 ms after that settlement at the
latest (`settlements_saved`).
-/

namespace TorrentLink.App

open Lib Lt Rss

/-! ### The follow-up of a settlement -/

/-- The loop, with the scheduler of the follow-ups. -/
structure SavingLoop where
  loop : RssLoop
  rssPostSettleScheduler : RefreshScheduler := {}
  clock : Nat := 0

/-- The interval of `rssPostSettleScheduler_`. -/
def rssPostSettleMs : Nat := 250

/-- The step settles the download of an item: `settleRssDownloadIfNeeded` asks for a follow-up. -/
def RssLoop.settles (l : RssLoop) : LoopStep → Bool
  | .advance _ i =>
    match l.handlings[i]? with
    | some ⟨_, .settle s _ _ :: _⟩ => s.itemId ≠ ""
    | _ => false
  | _ => false

variable (env : ServiceEnv) (q : QtInput)

/-- `AppController::pumpRssDeferredAutoDownloads` -/
def pumpRssDeferredAutoDownloads (shuttingDown : Bool) (now : Int) (l : RssLoop)
    (scope : RssAutoDownloadScope) (skipDiagnosis : Bool) : RssLoop :=
  if shuttingDown || !l.service.autoDownloadEnabled then l
  else
    let maxBatch := clamp l.service.settings.maxAutoDownloadsPerRefresh 1 100
    let started := (dispatchDeferredAutoDownloads env now l.service maxBatch (!skipDiagnosis) scope).2
    let l := loopStep env q l (.service (.dispatch now maxBatch (!skipDiagnosis) scope))
    if started = [] then l else loopStep env q l (.service (.saveState {}))

/-- The callback of `rssPostSettleScheduler_`. -/
def settlementFollowUp (shuttingDown : Bool) (now : Int) (l : RssLoop) : RssLoop :=
  pumpRssDeferredAutoDownloads env q shuttingDown now
    (loopStep env q l (.service (.saveState {}))) .allEligible true

inductive SavingStep
  | elapse (ms : Nat)
  | loop (step : LoopStep)
  /-- The timer of the follow-ups. -/
  | timeout (shuttingDown : Bool) (now : Int)

def savingStep (x : SavingLoop) : SavingStep → SavingLoop
  | .elapse ms => { x with clock := x.clock + ms }
  | .loop step =>
    { x with
      loop := loopStep env q x.loop step
      rssPostSettleScheduler :=
        if x.loop.settles step then x.rssPostSettleScheduler.requestRefresh rssPostSettleMs x.clock
        else x.rssPostSettleScheduler }
  | .timeout shuttingDown now =>
    { x with
      loop :=
        if x.rssPostSettleScheduler.timeout.2 then settlementFollowUp env q shuttingDown now x.loop
        else x.loop
      rssPostSettleScheduler := x.rssPostSettleScheduler.timeout.1 }

/-- The start of the program: the service reads its files. -/
def savingStart (files : RssFiles) (maxInFlight : Int) : SavingLoop where
  loop := { service := loadState env { files := files }, magnetMaxInFlight := maxInFlight }

/-! ### What a start finds -/

/-- What a download has come to. -/
def outcomeOf (it : RssItem) : String × String × Bool × Bool × Int × String :=
  (it.id, it.feedId, it.ignored, it.downloaded, it.retryCount, it.downloadSavePath)

/-- A start from these files brings back every item that belongs to a feed, with what its download has
come to. -/
def OnDisk (files : RssFiles) (s : Service) : Prop :=
  ∀ it ∈ s.items, hasMatchingFeed s.feeds it = true →
    ∃ it' ∈ (loadState env { files := files }).items, outcomeOf it' = outcomeOf it

/-- The documents are read back as they are written, and the counters are `int`s. -/
def Recordable (s : Service) : Prop :=
  DocumentsReadBack env s ∧ ∀ it ∈ s.items, IsInt it.retryCount

/-- The files are those of a save of the service. -/
def SavedAs (s : Service) : Prop :=
  ∃ files, s.files = (saveState env { s with files := files } {}).files

/-- No write of the step fails. -/
def SavingStep.Writes : SavingStep → Prop
  | .loop (.service (.saveState failures)) => failures = {}
  | .loop (.service (.settle _ _ _ _ (some failures))) => failures = {}
  | _ => True

/-- No write fails, and the records that the step leaves can be written. -/
def SavesOk (x : SavingLoop) (l : SavingStep) : Prop :=
  l.Writes ∧ Recordable env (savingStep env q x l).loop.service

/-- What is on the disk is what the items had come to at an earlier step, and where a download was settled
since, the timer runs and falls due an interval after that settlement at the latest. -/
def Durable (x : SavingLoop) (steps : List SavingStep) : Prop :=
  let after := run (savingStep env q) x
  ∃ earlier later, steps = earlier ++ later ∧
    OnDisk env (after steps).loop.service.files (after earlier).loop.service ∧
    ∀ first step last, later = first ++ .loop step :: last →
      (after (earlier ++ first)).loop.settles step = true →
      ∃ due, (after steps).rssPostSettleScheduler.timer = some due ∧
        due ≤ (after (earlier ++ first)).clock + rssPostSettleMs

variable {env q}

theorem onDisk_start (files : RssFiles) : OnDisk env files (loadState env { files := files }) :=
  fun it hit _ => ⟨it, hit, rfl⟩

/-- Whether an item belongs to a feed shows in its outcome. -/
theorem hasMatchingFeed_outcome {feeds : List RssFeed} {it it' : RssItem}
    (h : outcomeOf it' = outcomeOf it) : hasMatchingFeed feeds it' = hasMatchingFeed feeds it := by
  have hfeedId : it'.feedId = it.feedId := congrArg (·.2.1) h
  unfold hasMatchingFeed
  rw [hfeedId]

theorem outcomeOf_itemFromJson_toJson (r : RepositoryText) {it : RssItem} (h : IsInt it.retryCount) :
    outcomeOf (itemFromJson r (itemToJson r it)) = outcomeOf it := by
  by_cases hpath : it.downloadSavePath = ""
  · simp [itemFromJson, itemToJson, JsonObject.value, List.lookup_cons, Json.toText, Json.toBool,
      outcomeOf, toInt_num h, hpath]
  · simp [itemFromJson, itemToJson, JsonObject.value, List.lookup_cons, Json.toText, Json.toBool,
      outcomeOf, toInt_num h, hpath]

theorem onDisk_saved {s : Service} (hs : Recordable env s) (hsaved : SavedAs env s) :
    OnDisk env s.files s := by
  obtain ⟨files, hfiles⟩ := hsaved
  obtain ⟨⟨hreadFeeds, hreadItems⟩, hcounters⟩ := hs
  have hfeeds : loadFeeds env.repository s.files =
      (s.feeds.map (feedToJson env.repository)).map (feedFromJson env.repository) := by
    rw [hfiles]
    exact congrArg _ (loadEnvelope_saveEnvelope _ _ hreadFeeds)
  have hitems : loadItems env.repository s.files =
      (s.items.map (itemToJson env.repository)).map (itemFromJson env.repository) := by
    rw [hfiles]
    exact congrArg _ (loadEnvelope_saveEnvelope _ _ hreadItems)
  intro it hit hfeed
  have hsame := outcomeOf_itemFromJson_toJson env.repository (hcounters it hit)
  generalize hit' : itemFromJson env.repository (itemToJson env.repository it) = it' at hsame
  refine ⟨{ it' with queued := false, rssAutoWaitlisted := false }, ?_, hsame⟩
  refine List.mem_filter.mpr ⟨?_, ?_⟩
  · refine List.mem_map.mpr ⟨it', ?_, rfl⟩
    show it' ∈ loadItems env.repository s.files
    rw [hitems, ← hit']
    exact List.mem_map_of_mem (List.mem_map_of_mem hit)
  · have hids : (loadFeeds env.repository s.files).map (·.id) = s.feeds.map (·.id) := by
      rw [hfeeds, List.map_map, List.map_map]
      exact List.map_congr_left fun f _ => id_feedFromJson_toJson env.repository f
    exact (hasMatchingFeed_congr hids _).trans ((hasMatchingFeed_outcome hsame).trans hfeed)

/-- Calls that leave the outcomes alone. -/
theorem OnDisk.keeps {files : RssFiles} {s s' : Service} (h : OnDisk env files s)
    (hkeeps : KeepsItems outcomeOf s s') : OnDisk env files s' := by
  obtain ⟨items, rfl, hitems⟩ := hkeeps
  intro it hit hfeed
  have hmem : outcomeOf it ∈ s.items.map outcomeOf := hitems ▸ List.mem_map_of_mem hit
  obtain ⟨it₀, hit₀, hsame⟩ := List.mem_map.mp hmem
  obtain ⟨it', hit', hsame'⟩ := h it₀ hit₀ ((hasMatchingFeed_outcome hsame).trans hfeed)
  exact ⟨it', hit', hsame'.trans hsame⟩

theorem unattempted_outcome : Unattempted outcomeOf where
  decision _ _ _ _ := rfl
  waitlist _ _ := rfl
  attempt _ _ _ := rfl

/-! ### What a call does to the files -/

theorem files_of_keeps {s s' : Service} (h : KeepsItems outcomeOf s s') : s'.files = s.files := by
  obtain ⟨items, rfl, -⟩ := h
  rfl

theorem files_getD {f : Bounded Service} {s : Service} (hf : Ensures f fun s' => s'.files = s.files)
    (bound : Nat) : ((f bound).getD s).files = s.files := by
  cases hr : f bound with
  | none => rfl
  | some s' => exact hf bound s' hr

theorem service_loopStep (l : RssLoop) (op : ServiceOp) :
    (loopStep env q l (.service op)).service = serviceStep env l.service op :=
  (takesIn_requests (startsOnly_step env l.service op).2 _).1

theorem files_perform (l : RssLoop) (now : Int) (queue : Queue) (effect : DownloadEffect) :
    (RssLoop.perform l env now queue effect).service.files = l.service.files := by
  cases effect with
  | settle s ok path =>
    show (applyRssDownloadSettlement env now l.service s ok path none).files = _
    unfold applyRssDownloadSettlement
    split
    · rfl
    · rfl
  | finish =>
    cases queue with
    | magnet => rfl
    | rssTorrent => rfl
  | _ => rfl

theorem files_pruneHistory (s : Service) (now : Int) : (s.pruneHistory env now).files = s.files := by
  unfold Service.pruneHistory
  dsimp only
  split
  · rfl
  · rfl

section Digests

variable (hdigest : ∀ text, env.text.sha256Hex text ≠ "")

include hdigest

theorem ensures_refreshAllFeeds_files (now : Int) (fetch : Fetch) (s : Service) :
    Ensures (refreshAllFeeds env now fetch s) fun s' => s'.files = s.files := by
  refine (ensures_refreshEnabled hdigest now fetch s.feeds _).andThen fun s' hs' => ensures_always ?_
  exact (files_pruneHistory s' now).trans hs'.files

/-- A call leaves the files alone, or they are those of a save of the service as the call leaves it. -/
theorem files_serviceStep (s : Service) {op : ServiceOp}
    (hok : (SavingStep.loop (.service op)).Writes) :
    (serviceStep env s op).files = s.files ∨ SavedAs env (serviceStep env s op) := by
  cases op with
  | saveState failures =>
    obtain rfl : failures = {} := hok
    exact .inr ⟨s.files, rfl⟩
  | settle now settlement success resolvedSaveOverride persist =>
    unfold serviceStep applyRssDownloadSettlement
    dsimp only
    by_cases hid : settlement.itemId = ""
    · rw [if_pos hid]
      exact .inl rfl
    · rw [if_neg hid]
      cases persist with
      | none => exact .inl rfl
      | some failures =>
        obtain rfl : failures = {} := hok
        dsimp only
        by_cases htouched : (s.items.any fun it => it.id = settlement.itemId) = true
        · rw [if_pos htouched]
          exact .inr ⟨s.files, rfl⟩
        · rw [if_neg htouched]
          exact .inl rfl
  | clearItemsForFeeds feedIds =>
    refine .inl ?_
    show (clearItemsForFeeds env s feedIds).files = s.files
    unfold clearItemsForFeeds
    split
    · rfl
    · rfl
  | pruneHistory now => exact .inl (files_pruneHistory s now)
  | refreshFeed now fetch feedId bound =>
    refine .inl (files_getD (fun n r hr => ?_) bound)
    exact (ensures_refreshFeedImpl hdigest now fetch s feedId n r hr).files
  | refreshAllFeeds now fetch bound =>
    exact .inl (files_getD (ensures_refreshAllFeeds_files hdigest now fetch s) bound)
  | reloadItemStream now fetch bound =>
    refine .inl (files_getD ?_ bound)
    unfold reloadItemStreamFromEnabledFeeds
    dsimp only
    split
    · exact ensures_refreshAllFeeds_files hdigest now fetch s
    · exact ensures_refreshAllFeeds_files hdigest now fetch _
  | downloadItem now itemId =>
    exact .inl (files_of_keeps (keeps_downloadItem env unattempted_outcome now s itemId))
  | dispatch now maxBatch refreshDiagnosis scope =>
    have hkeeps := keeps_dispatch env unattempted_outcome now s maxBatch refreshDiagnosis scope
    exact .inl (files_of_keeps hkeeps)
  | refreshDiagnostics =>
    exact .inl (files_of_keeps (keeps_refreshDiagnostics env unattempted_outcome.toUnmarked s))
  | refreshDiagnosticsForFeed feedId =>
    have hkeeps := keeps_refreshDiagnosticsForFeed env unattempted_outcome.toUnmarked s feedId
    exact .inl (files_of_keeps hkeeps)
  | _ => exact .inl rfl

theorem files_loopStep (l : RssLoop) {step : LoopStep} (hok : (SavingStep.loop step).Writes) :
    (loopStep env q l step).service.files = l.service.files ∨
      SavedAs env (loopStep env q l step).service := by
  cases step with
  | service op =>
    rw [service_loopStep]
    exact files_serviceStep hdigest l.service hok
  | advance now i =>
    refine .inl ?_
    show (l.advance env now i).service.files = l.service.files
    unfold RssLoop.advance
    split
    · exact files_perform _ now _ _
    · rfl
  | _ => exact .inl rfl

end Digests

theorem SavedAs.of_save (s : Service) : SavedAs env (saveState env s {}) := ⟨s.files, rfl⟩

/-- After the follow-up the disk is as good as a save. -/
theorem onDisk_followUp (shuttingDown : Bool) (now : Int) {l : RssLoop}
    (hl : Recordable env l.service)
    (hl' : Recordable env (settlementFollowUp env q shuttingDown now l).service) :
    OnDisk env (settlementFollowUp env q shuttingDown now l).service.files
      (settlementFollowUp env q shuttingDown now l).service := by
  have hfirst : OnDisk env (saveState env l.service {}).files (saveState env l.service {}) :=
    onDisk_saved hl (.of_save l.service)
  revert hl'
  unfold settlementFollowUp pumpRssDeferredAutoDownloads
  dsimp only
  split
  · rw [service_loopStep]
    exact fun _ => hfirst
  · split
    · rw [service_loopStep, service_loopStep]
      intro _
      have hkeeps := keeps_dispatch env unattempted_outcome now (saveState env l.service {})
        (clamp (saveState env l.service {}).settings.maxAutoDownloadsPerRefresh 1 100) (!true) .allEligible
      have hdispatched := hfirst.keeps hkeeps
      rw [← files_of_keeps hkeeps] at hdispatched
      exact hdispatched
    · rw [service_loopStep]
      exact fun hl' => onDisk_saved hl' (.of_save _)

/-! ### Runs -/

/-- The scheduler rests, or its timer runs and falls due within an interval. -/
def Armed (x : SavingLoop) : Prop :=
  x.rssPostSettleScheduler = {} ∨
    ∃ due, x.rssPostSettleScheduler = ⟨some due, true⟩ ∧ due ≤ x.clock + rssPostSettleMs

theorem Armed.step {x : SavingLoop} (h : Armed x) (l : SavingStep) : Armed (savingStep env q x l) := by
  obtain ⟨loop, scheduler, clock⟩ := x
  rcases h with hidle | ⟨due, hbusy, hdue⟩
  · obtain rfl : scheduler = {} := hidle
    cases l with
    | elapse ms => exact .inl rfl
    | loop step =>
      rw [savingStep]
      cases loop.settles step with
      | true => exact .inr ⟨clock + rssPostSettleMs, rfl, le_rfl⟩
      | false => exact .inl rfl
    | timeout shuttingDown now => exact .inl rfl
  · obtain rfl : scheduler = ⟨some due, true⟩ := hbusy
    cases l with
    | elapse ms =>
      have hlater : clock + rssPostSettleMs ≤ clock + ms + rssPostSettleMs := by omega
      exact .inr ⟨due, rfl, hdue.trans hlater⟩
    | loop step =>
      rw [savingStep]
      cases loop.settles step with
      | true => exact .inr ⟨due, rfl, hdue⟩
      | false => exact .inr ⟨due, rfl, hdue⟩
    | timeout shuttingDown now => exact .inl rfl

variable (env q) in
/-- A step of the loop leaves a timer that runs alone, and one that settles leaves a timer that runs. -/
theorem timer_loopStep {x : SavingLoop} (h : Armed x) (step : LoopStep) :
    (∀ due, x.rssPostSettleScheduler.timer = some due →
      (savingStep env q x (.loop step)).rssPostSettleScheduler.timer = some due) ∧
    (x.loop.settles step = true → ∃ due,
      (savingStep env q x (.loop step)).rssPostSettleScheduler.timer = some due ∧
        due ≤ x.clock + rssPostSettleMs) := by
  obtain ⟨loop, scheduler, clock⟩ := x
  rw [savingStep]
  rcases h with hidle | ⟨due, hbusy, hdue⟩
  · obtain rfl : scheduler = {} := hidle
    refine ⟨fun due hdue => (Option.some_ne_none due hdue.symm).elim, fun hsettles => ?_⟩
    rw [if_pos hsettles]
    exact ⟨clock + rssPostSettleMs, rfl, le_rfl⟩
  · obtain rfl : scheduler = ⟨some due, true⟩ := hbusy
    cases loop.settles step with
    | true => exact ⟨fun _ h => h, fun _ => ⟨due, rfl, hdue⟩⟩
    | false => exact ⟨fun _ h => h, fun hfalse => (Bool.false_ne_true hfalse).elim⟩

/-- The last step of a list that ends with it, or one before. -/
theorem split_concat {α : Type} {xs ys zs : List α} {x y : α} (h : xs ++ [x] = ys ++ y :: zs) :
    xs = ys ∧ x = y ∨ ∃ zs', xs = ys ++ y :: zs' := by
  rcases List.eq_nil_or_concat zs with rfl | ⟨zs', z, rfl⟩
  · obtain ⟨hxs, hx⟩ := List.append_inj' h rfl
    exact .inl ⟨hxs, (List.cons.inj hx).1⟩
  · rw [List.concat_eq_append, ← List.cons_append, ← List.append_assoc] at h
    exact .inr ⟨zs', (List.append_inj' h rfl).1⟩

/-- A disk with the present state is up to date. -/
theorem durable_now {x : SavingLoop} {steps : List SavingStep}
    (h : OnDisk env (run (savingStep env q) x steps).loop.service.files
      (run (savingStep env q) x steps).loop.service) : Durable env q x steps := by
  refine ⟨steps, [], (List.append_nil steps).symm, h, fun first step last hnil => ?_⟩
  exact (List.append_ne_nil_of_right_ne_nil first (List.cons_ne_nil _ last) hnil.symm).elim

/-- One more step keeps the disk up to date. -/
theorem Durable.concat (hdigest : ∀ text, env.text.sha256Hex text ≠ "") {x : SavingLoop}
    {steps : List SavingStep} (h : Durable env q x steps)
    (harmed : Armed (run (savingStep env q) x steps))
    (hrecords : Recordable env (run (savingStep env q) x steps).loop.service) {l : SavingStep}
    (hok : SavesOk env q (run (savingStep env q) x steps) l) : Durable env q x (steps ++ [l]) := by
  have hafter : run (savingStep env q) x (steps ++ [l]) =
      savingStep env q (run (savingStep env q) x steps) l := by rw [run_append, run_cons, run_nil]
  obtain ⟨earlier, later, rfl, hdisk, hpending⟩ := h
  cases l with
  | elapse ms =>
    refine ⟨earlier, later ++ [.elapse ms], List.append_assoc _ _ _, ?_, ?_⟩
    · rw [hafter]
      exact hdisk
    · rw [hafter]
      intro first step last hsplit hsettles
      obtain ⟨-, hnot⟩ | ⟨last', hlast⟩ := split_concat hsplit
      · cases hnot
      · exact hpending first step last' hlast hsettles
  | loop step =>
    obtain ⟨hkept, hnew⟩ := timer_loopStep env q harmed step
    rcases files_loopStep (q := q) hdigest (run (savingStep env q) x (earlier ++ later)).loop hok.1
      with hfiles | hsaved
    · refine ⟨earlier, later ++ [.loop step], List.append_assoc _ _ _, ?_, ?_⟩
      · rw [hafter, savingStep, hfiles]
        exact hdisk
      · rw [hafter]
        intro first step' last hsplit hsettles
        obtain ⟨rfl, hlast⟩ | ⟨last', hlast⟩ := split_concat hsplit
        · cases hlast
          exact hnew hsettles
        · obtain ⟨due, htimer, hdue⟩ := hpending first step' last' hlast hsettles
          exact ⟨due, hkept due htimer, hdue⟩
    · refine durable_now ?_
      rw [hafter]
      exact onDisk_saved hok.2 hsaved
  | timeout shuttingDown now =>
    rcases harmed with hidle | ⟨due, hbusy, -⟩
    · refine ⟨earlier, later ++ [.timeout shuttingDown now], List.append_assoc _ _ _, ?_, ?_⟩
      · rw [hafter, savingStep, hidle]
        exact hdisk
      · rw [hafter]
        intro first step last hsplit hsettles
        obtain ⟨-, hnot⟩ | ⟨last', hlast⟩ := split_concat hsplit
        · cases hnot
        · obtain ⟨due, htimer, -⟩ := hpending first step last' hlast hsettles
          rw [hidle] at htimer
          cases htimer
    · refine durable_now ?_
      have hrecords' := hok.2
      rw [hafter]
      rw [savingStep, hbusy] at hrecords' ⊢
      exact onDisk_followUp shuttingDown now hrecords hrecords'

variable (env q)

/-- At every moment of a run, a start from the disk would bring the items back with what their downloads had
come to at an earlier step, and where a download was settled since, the timer of the follow-ups is running
and falls due 250 ms after that settlement at the latest. -/
theorem settlements_saved (hdigest : ∀ text, env.text.sha256Hex text ≠ "") (files : RssFiles)
    (maxInFlight : Int) (steps : List SavingStep)
    (hstart : Recordable env (savingStart env files maxInFlight).loop.service)
    (hok : RunOk (savingStep env q) (SavesOk env q) (savingStart env files maxInFlight) steps) :
    Durable env q (savingStart env files maxInFlight) steps := by
  induction steps using List.reverseRecOn with
  | nil => exact durable_now (onDisk_start files)
  | append_singleton steps l ih =>
    obtain ⟨hsteps, hlast, -⟩ := runOk_append.mp hok
    have harmed : Armed (run (savingStep env q) (savingStart env files maxInFlight) steps) :=
      run_invariant (fun _ l h => h.step l) (.inl rfl) steps
    have hrecords := hsteps.invariant (P := fun x => Recordable env x.loop.service)
      (fun _ _ _ h => h.2) hstart
    exact (ih hsteps).concat hdigest harmed hrecords hlast

/-- The download of an item fails, and the follow-up comes in time. -/
def oneSettlement : List SavingStep :=
  [.loop (.enqueueMagnet { uri := "", rssSettlement := { itemId := "i" } }),
    .loop (.pumpMagnet {} {} {}), .loop (.advance 0 0), .elapse 250, .timeout false 0]

theorem recordable_sample {s : Service} (hfeeds : s.feeds = sample.kept.feeds)
    (hitems : s.items = sample.kept.items ∨ s.items = [failedItem]) : Recordable sampleServiceEnv s := by
  unfold Recordable DocumentsReadBack
  rw [hfeeds]
  have hread := sample_kept_documents _ List.mem_cons_self
  rcases hitems with hitems | hitems
  · rw [hitems]
    refine ⟨⟨hread, sample_kept_documents _ (List.mem_cons_of_mem _ List.mem_cons_self)⟩, ?_⟩
    simp [sample, Saved.kept, RssItem.kept, IsInt]
  · rw [hitems]
    refine ⟨⟨hread, sampleDocuments_readBack _ ?_⟩, ?_⟩
    · exact List.mem_append_right _ (List.mem_cons_of_mem _ List.mem_cons_self)
    · simp [failedItem, IsInt]

theorem oneSettlement_ok {s : Service} (hs : HasSample s) :
    RunOk (savingStep sampleServiceEnv oneTorrentEnv.qt) (SavesOk sampleServiceEnv oneTorrentEnv.qt)
      { loop := { service := s } } oneSettlement := by
  obtain ⟨hfeeds, hitems, hrules, hsettings, hpolicy, hoff⟩ := hs
  cases s
  subst hfeeds hitems hrules hsettings hpolicy hoff
  exact ⟨⟨trivial, recordable_sample rfl (.inl rfl)⟩, ⟨trivial, recordable_sample rfl (.inl rfl)⟩,
    ⟨trivial, recordable_sample rfl (.inr rfl)⟩, ⟨trivial, recordable_sample rfl (.inr rfl)⟩,
    ⟨trivial, recordable_sample rfl (.inr rfl)⟩, trivial⟩

theorem settlements_saved_oneSettlement :
    Durable sampleServiceEnv oneTorrentEnv.qt (savingStart sampleServiceEnv sampleService.files 8)
      oneSettlement := by
  have hloaded : HasSample (savingStart sampleServiceEnv sampleService.files 8).loop.service :=
    hasSample_loadState sampleService_load
  exact settlements_saved sampleServiceEnv oneTorrentEnv.qt oneEntryEnv_digest sampleService.files 8
    oneSettlement (recordable_sample hloaded.feeds (.inl hloaded.items)) (oneSettlement_ok hloaded)

end TorrentLink.App
