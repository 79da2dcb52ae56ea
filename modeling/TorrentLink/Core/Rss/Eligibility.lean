import TorrentLink.Core.Rss.Dispatch

/-!
# Automatic downloads and the cached diagnosis

A dispatch decides by the reason code that each item stores. With `refreshDiagnosis` it diagnoses all
items first, so it starts eligible items only. Without it, the codes may be older than the last change
of a rule, a feed or a setting, or come from the disk. Then the call starts eligible items only exactly
if the codes of the items it gets to are what a diagnosis would store now.
-/

namespace TorrentLink.Rss

open Lib

variable (env : ServiceEnv)

/-- What a call of `dispatchDeferredAutoDownloads` starts. -/
def startsOf (s : Service) : ServiceOp → List (Service × AutoDownloadRequest)
  | .dispatch now maxBatch refreshDiagnosis scope =>
    if !s.autoDownloadEnabled then []
    else
      let s := diagnoseAll env s refreshDiagnosis
      dispatchStarts env now (clamp maxBatch 1 100) (maxConcurrent s)
        (rebuildAutoBacklogScratch env s scope) 0 (inflight s.items) s
  | _ => []

/-- Each item that the call starts is eligible in the state in which it is started. -/
def StartsEligible (s : Service) (op : ServiceOp) : Prop :=
  ∀ start ∈ startsOf env s op, ∃ it, requestedItem start = some it ∧ start.1.Eligible env it

/-- How many items a call may start. -/
def batchSize (s : Service) (maxBatch : Int) : Nat :=
  (min (clamp maxBatch 1 100) (maxConcurrent s - inflight s.items)).toNat

/-- If the call does not diagnose, the codes of the first items of the backlog, as many as it may start,
are what a diagnosis would store now. -/
def DiagnosisCurrent (s : Service) : ServiceOp → Prop
  | .dispatch _ maxBatch false scope =>
    s.autoDownloadEnabled = true → s.hasDownloadCallback = true →
      ∀ i ∈ (rebuildAutoBacklogScratch env s scope).take (batchSize s maxBatch), ∀ it ∈ s.items[i]?,
        (diagnosis env s it).2.1 = it.lastAutoReasonCode
  | _ => True

variable {env}

/-- Eligibility does not depend on what a diagnosis writes. -/
theorem eligible_markItemDecision (s : Service) (it : RssItem) (d : AutoDownloadDecision)
    (code text : String) :
    s.Eligible env (markItemDecision it d code text) ↔ s.Eligible env it := by
  constructor
  · rintro ⟨hglobal, ⟨hfeed, hrule⟩, hblocked, hresource⟩
    exact ⟨hglobal, ⟨hfeed, hrule⟩, hblocked, hresource⟩
  · rintro ⟨hglobal, ⟨hfeed, hrule⟩, hblocked, hresource⟩
    exact ⟨hglobal, ⟨hfeed, hrule⟩, hblocked, hresource⟩

/-- Nor on the other items. -/
theorem eligible_items (s : Service) (items : List RssItem) (it : RssItem) :
    Service.Eligible env { s with items := items } it ↔ s.Eligible env it := by
  constructor
  · rintro ⟨hglobal, ⟨hfeed, hrule⟩, hblocked, hresource⟩
    exact ⟨hglobal, ⟨hfeed, hrule⟩, hblocked, hresource⟩
  · rintro ⟨hglobal, ⟨hfeed, hrule⟩, hblocked, hresource⟩
    exact ⟨hglobal, ⟨hfeed, hrule⟩, hblocked, hresource⟩

variable (env) in
/-- The call starts the first items of the backlog, as many as it may. -/
theorem startsOf_items {s : Service} (h : Indexed s) (now maxBatch : Int) (refreshDiagnosis : Bool)
    (scope : RssAutoDownloadScope) (hglobal : s.autoDownloadEnabled = true)
    (hcallback : s.hasDownloadCallback = true) :
    (startsOf env s (.dispatch now maxBatch refreshDiagnosis scope)).map requestedItem =
      ((rebuildAutoBacklogScratch env (diagnoseAll env s refreshDiagnosis) scope).take
        (batchSize (diagnoseAll env s refreshDiagnosis) maxBatch)).map
          ((diagnoseAll env s refreshDiagnosis).items[·]?) := by
  obtain ⟨items, hs, -⟩ := marks_diagnoseAll env s refreshDiagnosis
  have hids := (h.marks (marks_diagnoseAll env s refreshDiagnosis)).nodup
  unfold startsOf
  dsimp only
  rw [if_neg (by simp [hglobal])]
  generalize diagnoseAll env s refreshDiagnosis = s' at hs hids
  rw [dispatchStarts_ready now _ _ _ 0 _ s' hids (by rw [hs]; exact hcallback)
    (nodup_backlog s' scope) fun i hi => ?_]
  · unfold batchSize
    rw [Int.sub_zero]
  · obtain ⟨it, hit, hcandidate⟩ := candidate_of_mem_backlog hi
    exact ⟨it, hit, ready_of_candidate hcandidate⟩

/-- A call starts eligible items only, if and only if the items it gets to are eligible once they are
diagnosed. -/
theorem startsEligible_iff {s : Service} (h : Indexed s) (now maxBatch : Int)
    (refreshDiagnosis : Bool) (scope : RssAutoDownloadScope) (hglobal : s.autoDownloadEnabled = true)
    (hcallback : s.hasDownloadCallback = true) :
    StartsEligible env s (.dispatch now maxBatch refreshDiagnosis scope) ↔
      ∀ i ∈ (rebuildAutoBacklogScratch env (diagnoseAll env s refreshDiagnosis) scope).take
          (batchSize (diagnoseAll env s refreshDiagnosis) maxBatch),
        ∀ it ∈ (diagnoseAll env s refreshDiagnosis).items[i]?, s.Eligible env it := by
  have hitems := startsOf_items env h now maxBatch refreshDiagnosis scope hglobal hcallback
  have hframe : ∀ start ∈ startsOf env s (.dispatch now maxBatch refreshDiagnosis scope), ∀ it,
      start.1.Eligible env it ↔ s.Eligible env it := by
    intro start hstart it
    obtain ⟨items, hs, -⟩ := marks_diagnoseAll env s refreshDiagnosis
    unfold startsOf at hstart
    dsimp only at hstart
    rw [if_neg (by simp [hglobal]), hs] at hstart
    obtain ⟨items', hs'⟩ := frame_dispatchStarts now _ _ _ 0 _ _ start hstart
    rw [hs']
    exact (eligible_items { s with items := items } items' it).trans (eligible_items s items it)
  constructor
  · intro hstarts i hi it hit
    have hmem : some it ∈
        (startsOf env s (.dispatch now maxBatch refreshDiagnosis scope)).map requestedItem := by
      rw [hitems]
      exact List.mem_map.mpr ⟨i, hi, hit⟩
    obtain ⟨start, hstart, hrequested⟩ := List.mem_map.mp hmem
    obtain ⟨it', hit', heligible⟩ := hstarts start hstart
    obtain rfl := Option.some.inj (hrequested.symm.trans hit')
    exact (hframe start hstart it).mp heligible
  · intro heligible start hstart
    have hmem := List.mem_map_of_mem (f := requestedItem) hstart
    rw [hitems] at hmem
    obtain ⟨i, hi, hrequested⟩ := List.mem_map.mp hmem
    obtain ⟨it, hit, -⟩ := candidate_of_mem_backlog (List.mem_of_mem_take hi)
    exact ⟨it, hrequested ▸ hit, (hframe start hstart it).mpr (heligible i hi it hit)⟩

/-- After a diagnosis of all items, the candidates are eligible. -/
theorem eligible_of_diagnosed {s : Service} {scope : RssAutoDownloadScope} {i : Nat}
    (hi : i ∈ rebuildAutoBacklogScratch env (diagnoseAll env s true) scope) :
    ∀ it ∈ (diagnoseAll env s true).items[i]?, s.Eligible env it := by
  intro it hit
  obtain ⟨it', hit', hcandidate⟩ := candidate_of_mem_backlog hi
  obtain rfl := Option.some.inj (hit'.symm.trans hit)
  have hmap : (s.items.map (diagnoseItemAutoDownloadState env s))[i]? = some it' := hit'
  rw [List.getElem?_map] at hmap
  obtain ⟨it₀, -, rfl⟩ := Option.map_eq_some_iff.mp hmap
  have hmarked := (ready_of_candidate hcandidate).marked
  exact (eligible_markItemDecision s it₀ _ _ _).mpr ((diagnosis_eligible_iff env s it₀).mp hmarked).1

theorem startsEligible_of_starts_nil {s : Service} {op : ServiceOp} (h : startsOf env s op = []) :
    StartsEligible env s op := by
  intro start hstart
  rw [h] at hstart
  cases hstart

theorem startsOf_no_callback {s : Service} (h : s.hasDownloadCallback = false) (op : ServiceOp) :
    startsOf env s op = [] := by
  unfold startsOf
  split
  · rename_i now maxBatch refreshDiagnosis scope
    split
    · rfl
    · obtain ⟨items, hs, -⟩ := marks_diagnoseAll env s refreshDiagnosis
      dsimp only
      rw [hs]
      exact dispatchStarts_no_callback now _ _ _ 0 _ { s with items := items } h
  · rfl

theorem startsOf_off {s : Service} (h : s.autoDownloadEnabled = false) (op : ServiceOp) :
    startsOf env s op = [] := by
  unfold startsOf
  split
  · rw [if_pos (by simp [h])]
  · rfl

/-- With a diagnosis the call starts eligible items only. -/
theorem startsEligible_of_diagnosed {s : Service} (h : Indexed s) (now maxBatch : Int)
    (scope : RssAutoDownloadScope) :
    StartsEligible env s (.dispatch now maxBatch true scope) := by
  by_cases hglobal : s.autoDownloadEnabled = true
  · by_cases hcallback : s.hasDownloadCallback = true
    · exact (startsEligible_iff h now maxBatch true scope hglobal hcallback).mpr fun i hi =>
        eligible_of_diagnosed (List.mem_of_mem_take hi)
    · exact startsEligible_of_starts_nil (startsOf_no_callback (Bool.eq_false_iff.mpr hcallback) _)
  · exact startsEligible_of_starts_nil (startsOf_off (Bool.eq_false_iff.mpr hglobal) _)

/-- Without one, it does so exactly if the codes it reads are current. -/
theorem startsEligible_iff_cached {s : Service} (h : Indexed s) (now maxBatch : Int)
    (scope : RssAutoDownloadScope) :
    StartsEligible env s (.dispatch now maxBatch false scope) ↔
      DiagnosisCurrent env s (.dispatch now maxBatch false scope) := by
  by_cases hglobal : s.autoDownloadEnabled = true
  · by_cases hcallback : s.hasDownloadCallback = true
    · rw [startsEligible_iff h now maxBatch false scope hglobal hcallback]
      unfold DiagnosisCurrent
      simp only [hglobal, hcallback, forall_const]
      refine forall₂_congr fun i hi => forall₂_congr fun it hit => ?_
      obtain ⟨it', hit', hcandidate⟩ := candidate_of_mem_backlog (List.mem_of_mem_take hi)
      obtain rfl := Option.some.inj (hit'.symm.trans hit)
      have hmarked : it'.lastAutoReasonCode = "diagnostic_rule_eligible" :=
        of_decide_eq_true (ready_of_candidate hcandidate).marked
      have hiff := diagnosis_eligible_iff env s it'
      unfold isDiagnosticAutoEligible at hiff
      rw [decide_eq_true_iff, ← hmarked] at hiff
      rw [hiff]
      exact ⟨fun heligible => ⟨heligible, hcallback⟩, fun hboth => hboth.1⟩
    · exact iff_of_true (startsEligible_of_starts_nil
        (startsOf_no_callback (Bool.eq_false_iff.mpr hcallback) _)) fun _ hc => absurd hc hcallback
  · exact iff_of_true (startsEligible_of_starts_nil
      (startsOf_off (Bool.eq_false_iff.mpr hglobal) _)) fun hg => absurd hg hglobal

theorem startsEligible_iff_current {s : Service} (h : Indexed s) (op : ServiceOp) :
    StartsEligible env s op ↔ DiagnosisCurrent env s op := by
  cases op with
  | dispatch now maxBatch refreshDiagnosis scope =>
    cases refreshDiagnosis with
    | true => exact iff_of_true (startsEligible_of_diagnosed h now maxBatch scope) trivial
    | false => exact startsEligible_iff_cached h now maxBatch scope
  | _ => exact iff_of_true (startsEligible_of_starts_nil rfl) trivial

/-! ### Runs -/

variable (env)

/-- Every call of a run starts eligible items only, if and only if every call without a diagnosis finds
current codes. The ids that loads read are distinct, as the saved ones are. -/
theorem run_startsEligible_iff (hdigest : ∀ text, env.text.sha256Hex text ≠ "") (files : RssFiles)
    (ops : List ServiceOp) (hload : RunOk (serviceStep env) (LoadOk env) { files := files } ops) :
    RunOk (serviceStep env) (StartsEligible env) { files := files } ops ↔
      RunOk (serviceStep env) (DiagnosisCurrent env) { files := files } ops :=
  RunOk.congr_kept (I := Indexed) (fun s op h hok _ => indexed_step hdigest s op h hok)
    (fun _ op h _ => startsEligible_iff_current h op) (indexed_start files) hload

/-- A feed of one entry and a rule that asks for everything, up to the diagnosis. -/
def diagnosedRun : List ServiceOp :=
  [.setDownloadRequestCallback true, .setAutoDownloadEnabled true,
    .upsertFeed "feed" { url := "http://example.org/rss", autoDownloadEnabled := true },
    .upsertRule "rule" { enabled := true },
    .refreshFeed 946684800000 fetchOneEntry "feed" 100,
    .refreshDiagnostics]

theorem run_diagnosedRun : run (serviceStep oneEntryEnv) {} diagnosedRun =
    refreshAutoDownloadDiagnostics oneEntryEnv (oneEntryRefreshed 946684800000 feedAdded 0) := by
  have hsplit : diagnosedRun =
      addFeed ++ [.refreshFeed 946684800000 fetchOneEntry "feed" 100, .refreshDiagnostics] := rfl
  rw [hsplit, run_append, run_cons, run_cons, run_nil, ← feedAdded,
    serviceStep_refreshFeed _ feedIndex_feedAdded, serviceStep]

/-- Right after the diagnosis the entry is started, and eligible. -/
theorem run_startsEligible_diagnosed :
    RunOk (serviceStep oneEntryEnv) (StartsEligible oneEntryEnv) {}
      (diagnosedRun ++ [.dispatch 946684800000 10 false .allEligible]) := by
  refine (run_startsEligible_iff oneEntryEnv oneEntryEnv_digest {} _ ?_).mpr
    (runOk_append.mpr ⟨?_, ?_⟩)
  · simp [diagnosedRun, LoadOk]
  · simp [diagnosedRun, DiagnosisCurrent]
  · refine runOk_cons.mpr ⟨?_, trivial⟩
    intro _ _
    rw [run_diagnosedRun]
    decide +kernel

/-- If the rule is removed in between, the entry is started all the same. -/
theorem run_starts_after_removeRule :
    ¬RunOk (serviceStep oneEntryEnv) (StartsEligible oneEntryEnv) {}
      (diagnosedRun ++ [.removeRule "rule", .dispatch 946684800000 10 false .allEligible]) := by
  intro h
  obtain ⟨-, -, hdispatch, -⟩ := runOk_append.mp h
  generalize hs : serviceStep oneEntryEnv (run (serviceStep oneEntryEnv) {} diagnosedRun)
    (.removeRule "rule") = s at hdispatch
  have hrun : startsOf oneEntryEnv s (.dispatch 946684800000 10 false .allEligible) ≠ [] ∧
      ∀ start ∈ startsOf oneEntryEnv s (.dispatch 946684800000 10 false .allEligible),
        start.1.rules = [] := by
    rw [← hs, run_diagnosedRun]
    decide +kernel
  obtain ⟨hstarts, hrules⟩ := hrun
  obtain ⟨start, hstart⟩ := List.exists_mem_of_ne_nil _ hstarts
  obtain ⟨it, -, heligible⟩ := hdispatch start hstart
  obtain ⟨rule, hrule, -⟩ := heligible.wanted.ruleMatches
  rw [hrules start hstart] at hrule
  cases hrule

end TorrentLink.Rss
