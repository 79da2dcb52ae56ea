import TorrentLink.App.TaskPersistence

/-!
# What a damaged `tasks.json` costs

The reader picks a copy by its being readable and non-empty, the loader then judges what it was given,
and neither asks for the next copy when the judgement fails. So the load gives what the first
non-empty copy is worth (`loadTasksMeta_eq`), which is what the first valid copy holds exactly when
that copy is valid or nothing is lost (`load_firstValid_iff`).

A task that is not loaded is not in the store, and the cleanup of the next autosave takes its resume
file for a stale one. Steps that remove no task keep every listed task with its file
(`appStep_kept`), so the files of the first valid copy's tasks stay exactly when the load brings all
of these tasks back (`resumeFiles_kept_iff`).
-/

namespace TorrentLink.App

open Lib Lt

variable (env : PersistEnv)

/-! ### The worth of a copy -/

/-- What a copy's bytes are: tasks under a matching checksum or in the legacy format, tasks that
carry no checksum, or neither. -/
inductive CopyWorth
  | valid (tasks : List Json)
  | unchecked (tasks : List Json)
  | damaged

def copyWorth (data : Bytes) : CopyWorth :=
  match env.fromJson data with
  | .object envelope =>
    let tasks := (JsonObject.value envelope "tasks").toArray
    let checksum := trimmed (JsonObject.value envelope "checksum").toText
    if checksum = "" then .unchecked tasks
    else if env.sha256Hex (env.toJsonCompact tasks) = checksum then .valid tasks
    else .damaged
  | .array tasks => .valid tasks
  | .null => .damaged

def CopyWorth.tasks : CopyWorth → List Json
  | .valid tasks => tasks
  | .unchecked tasks => tasks
  | .damaged => []

/-- The tasks of a valid copy. -/
def CopyWorth.validTasks : CopyWorth → Option (List Json)
  | .valid tasks => some tasks
  | _ => none

/-- The tasks of the first valid copy in the order main, bak, bak2. -/
def firstValid (copies : Copies) : Option (List Json) :=
  copies.contents.findSome? fun data => (copyWorth env data).validTasks

/-- The worth of the first copy that is readable and not empty. -/
def firstCopy (copies : Copies) : CopyWorth :=
  match copies.contents.head? with
  | some data => copyWorth env data
  | none => .damaged

/-- The load gives what the first non-empty copy is worth. -/
theorem loadTasksMeta_eq (copies : Copies) :
    loadTasksMeta env copies = metaByTaskKey (firstCopy env copies).tasks := by
  unfold loadTasksMeta firstCopy
  have herror := readWholeFileWithRecovery_error env.filePath copies
  have hdata := readWholeFileWithRecovery_data env.filePath copies
  generalize readWholeFileWithRecovery env.filePath copies = result at herror hdata
  cases hc : copies.contents with
  | nil =>
    have hne : result.error ≠ none := fun h => herror.mp h hc
    rw [if_pos (Or.inl hne)]
    rfl
  | cons data rest =>
    have hdata' : result.data = data := by rw [hdata, hc]; rfl
    have hok : result.error = none := herror.mpr (by simp [hc])
    have hne : data ≠ [] := by
      have hmem : data ∈ copies.contents := by simp [hc]
      obtain ⟨f, _, hf⟩ := List.mem_filterMap.mp hmem
      exact ((readWholeFile_content "" f data).mpr hf).2.2
    rw [if_neg (by rw [hdata', hok]; simp [hne]), hdata', List.head?_cons]
    simp only [copyWorth]
    cases env.fromJson data with
    | null => rfl
    | array tasks => rfl
    | object envelope =>
      simp only
      split_ifs with h1 h2 h3
      · exact absurd h2 h1.1
      · exact absurd h3 h1.2
      · rfl
      · rfl
      · rfl
      · exact absurd ⟨by assumption, by assumption⟩ h1

/-- The first non-empty copy is valid, or what it is worth is what the first valid copy holds: for a
damaged copy, no task. -/
def FirstCopyServes (copies : Copies) (tasks : List Json) : Prop :=
  match firstCopy env copies with
  | .valid _ => True
  | .unchecked unchecked => metaByTaskKey unchecked = metaByTaskKey tasks
  | .damaged => metaByTaskKey tasks = ∅

theorem firstValid_of_valid {copies : Copies} {tasks : List Json}
    (h : firstCopy env copies = .valid tasks) : firstValid env copies = some tasks := by
  unfold firstCopy at h
  unfold firstValid
  cases hc : copies.contents with
  | nil => simp [hc] at h
  | cons data rest =>
    simp only [hc, List.head?_cons] at h
    rw [List.findSome?_cons, h]
    rfl

/-! ### A truncated main file -/

def asciiBytes (s : String) : Bytes := s.toList.map fun c => c.toNat.toUInt8

/-- The text of the id 1. -/
def oneKey : String := "00000000-0000-0000-0000-000000000001"

/-- A legacy `tasks.json` with one task, as bytes and as a value. -/
def oneTaskBytes : Bytes := asciiBytes "[\x7b\"task_id\":\"00000000-0000-0000-0000-000000000001\"\x7d]"

def oneTask : List Json := [.obj [("task_id", .str oneKey)]]

/-- A truncated main file over a good backup. -/
def truncatedMain : Copies where
  main := .bytes (oneTaskBytes.take 10)
  bak := .bytes oneTaskBytes

/-- Qt on these bytes and this id. -/
def oneTaskEnv : PersistEnv where
  fromJson data := if data = oneTaskBytes then .array oneTask else .null
  toJsonCompact _ := asciiBytes "[]"
  toJsonIndented _ := asciiBytes "\x7b\"checksum\":\"4f53cda18c2baa0c\",\"tasks\":[],\"version\":1\x7d"
  sha256Hex _ := "4f53cda18c2baa0c"
  taskKey t := if t = 1 then oneKey else ""
  uuidFromKey key := if key = oneKey then 1 else 0
  magnetTaskId _ := none
  qt := { cleanPath := id, downloadLocation := "", urlScheme := fun _ => none, toLower := id }

/-- The metadata of the first valid copy is loaded exactly when the first non-empty copy serves. -/
theorem load_firstValid_iff (copies : Copies) :
    (∀ tasks, firstValid env copies = some tasks →
        loadTasksMeta env copies = metaByTaskKey tasks) ↔
      ∀ tasks, firstValid env copies = some tasks → FirstCopyServes env copies tasks := by
  refine forall₂_congr fun tasks hfirst => ?_
  rw [loadTasksMeta_eq, FirstCopyServes]
  cases hworth : firstCopy env copies with
  | valid tasks' =>
    have hsame := firstValid_of_valid env hworth
    rw [hfirst] at hsame
    cases hsame
    simp [CopyWorth.tasks]
  | unchecked tasks' => exact Iff.rfl
  | damaged => exact eq_comm

/-- A truncated main file hides a valid backup. -/
theorem load_truncatedMain_loses :
    ¬ ∀ (env : PersistEnv) (copies : Copies) (tasks : List Json),
      firstValid env copies = some tasks → loadTasksMeta env copies = metaByTaskKey tasks := by
  intro h
  have hload := h oneTaskEnv truncatedMain oneTask (by rfl)
  have hlookup := congrArg (fun tasksMeta => (tasksMeta.lookup oneKey).isSome) hload
  revert hlookup
  decide

/-! ### Start-up -/

/-- What start-up finds: the copies, and readable non-empty resume files named by task ids. -/
structure StartUp where
  copies : Copies
  rd : Map String FileState
  named : ∀ key ∈ rd, env.taskKey (env.uuidFromKey key) = key ∧ env.uuidFromKey key ≠ 0
  readable : ∀ key f, rd.lookup key = some f → ∃ data, f.content = some data

variable {env}

def StartUp.state (start : StartUp env) : AppState := { copies := start.copies, rd := start.rd }

/-- The metadata that the start-up loads. -/
def StartUp.loaded (start : StartUp env) : Map String JsonObject :=
  metaByTaskKey (firstCopy env start.copies).tasks

/-- The load brings the task back: it is loaded and restored from its file, or a loaded task without
a file has a magnet of the same id. -/
def StartUp.BroughtBack (start : StartUp env) (key : String) : Prop :=
  key ∈ start.loaded ∨ ∃ key' o t, start.loaded.lookup key' = some o ∧ key' ∉ start.rd ∧
    metaText o "magnet" ≠ "" ∧ env.magnetTaskId (metaText o "magnet") = some t ∧ env.taskKey t = key

theorem restoreResume_readable (start : StartUp env) (tasksMeta : Map String JsonObject)
    {key : String} {f : FileState} (hf : start.rd.lookup key = some f) {o : JsonObject}
    (ho : tasksMeta.lookup key = some o) :
    ∃ r, restoreResume env tasksMeta key f = some r ∧ r.key = key ∧
      r.taskId = some (env.uuidFromKey key) := by
  obtain ⟨data, hdata⟩ := start.readable key f hf
  obtain ⟨he, hd, hne⟩ := (readWholeFile_content key f data).mpr hdata
  have hmem : key ∈ start.rd := AList.lookup_isSome.mp (by rw [hf]; rfl)
  have hnull : (env.uuidFromKey key).isNull = false :=
    decide_eq_false (start.named key hmem).2
  unfold restoreResume
  rw [ho]
  simp only [he, hd, hne, hnull]
  exact ⟨_, rfl, rfl, rfl⟩

theorem restoreResume_of_some {tasksMeta : Map String JsonObject} {key : String} {f : FileState}
    {r : Restored} (h : restoreResume env tasksMeta key f = some r) :
    key ∈ tasksMeta ∧ r.key = key := by
  unfold restoreResume at h
  cases ho : tasksMeta.lookup key with
  | none => simp [ho] at h
  | some o =>
    refine ⟨AList.lookup_isSome.mp (by rw [ho]; rfl), ?_⟩
    simp only [ho] at h
    split at h
    · cases h
    · cases h
      rfl

/-- Phase 2 restores the tasks that have both metadata and a file. -/
theorem mem_resumeKeys (start : StartUp env) (tasksMeta : Map String JsonObject) (key : String) :
    key ∈ (start.rd.entries.filterMap fun e => restoreResume env tasksMeta e.1 e.2).map (·.key) ↔
      key ∈ start.rd ∧ key ∈ tasksMeta := by
  constructor
  · intro h
    obtain ⟨r, hr, rfl⟩ := List.mem_map.mp h
    obtain ⟨⟨k, f⟩, he, hk⟩ := List.mem_filterMap.mp hr
    obtain ⟨hmeta, hkey⟩ := restoreResume_of_some hk
    rw [hkey]
    exact ⟨AList.lookup_isSome.mp (by rw [AList.mem_lookup_iff.mpr he]; rfl), hmeta⟩
  · rintro ⟨hrd, hmeta⟩
    obtain ⟨f, hf⟩ := Option.isSome_iff_exists.mp (AList.lookup_isSome.mpr hrd)
    obtain ⟨o, ho⟩ := Option.isSome_iff_exists.mp (AList.lookup_isSome.mpr hmeta)
    obtain ⟨r, hr, hkey, _⟩ := restoreResume_readable start tasksMeta hf ho
    refine List.mem_map.mpr ⟨r, ?_, hkey⟩
    exact List.mem_filterMap.mpr ⟨⟨key, f⟩, AList.mem_lookup_iff.mp hf, hr⟩

theorem restoreMagnet_eq_some {keys : List String} {key : String} {o : JsonObject} {r : Restored} :
    restoreMagnet env keys key o = some r →
      key ∉ keys ∧ metaText o "magnet" ≠ "" ∧ r.taskId = env.magnetTaskId (metaText o "magnet") := by
  unfold restoreMagnet
  intro h
  by_cases hk : key ∈ keys
  · simp [hk] at h
  · by_cases hm : metaText o "magnet" = ""
    · simp [hk, hm] at h
    · cases ht : env.magnetTaskId (metaText o "magnet") with
      | none => simp [hk, hm, ht] at h
      | some t =>
        simp only [hk, hm, ht, if_false, Option.some.injEq] at h
        subst h
        exact ⟨hk, hm, rfl⟩

theorem restoreMagnet_isSome {keys : List String} {key : String} {o : JsonObject} {t : TaskId}
    (hk : key ∉ keys) (hm : metaText o "magnet" ≠ "")
    (ht : env.magnetTaskId (metaText o "magnet") = some t) :
    ∃ r, restoreMagnet env keys key o = some r ∧ r.taskId = some t := by
  unfold restoreMagnet
  simp only [hk, hm, ht, if_false, Option.some.injEq]
  exact ⟨_, rfl, rfl⟩

/-- The ids under which the load upserts tasks, by their texts. -/
theorem restoredTasks_iff (start : StartUp env) {key : String} (hkey : key ∈ start.rd) :
    (∃ r ∈ restoredTasks env start.loaded start.rd, ∃ t, r.taskId = some t ∧ env.taskKey t = key) ↔
      start.BroughtBack key := by
  unfold restoredTasks
  constructor
  · rintro ⟨r, hr, t, ht, rfl⟩
    rcases List.mem_append.mp hr with hr | hr
    · obtain ⟨⟨k, f⟩, he, hk⟩ := List.mem_filterMap.mp hr
      have hf := AList.mem_lookup_iff.mpr he
      obtain ⟨hmeta, _⟩ := restoreResume_of_some hk
      obtain ⟨o, ho⟩ := Option.isSome_iff_exists.mp (AList.lookup_isSome.mpr hmeta)
      obtain ⟨r', hr', _, ht'⟩ := restoreResume_readable start start.loaded hf ho
      have hrr : r' = r := Option.some.inj (hr'.symm.trans hk)
      have htk : t = env.uuidFromKey k := by
        rw [hrr, ht] at ht'
        exact Option.some.inj ht'
      have hrd : k ∈ start.rd := AList.lookup_isSome.mp (by rw [hf]; rfl)
      left
      rw [htk, (start.named k hrd).1]
      exact hmeta
    · obtain ⟨⟨k, o⟩, he, hk⟩ := List.mem_filterMap.mp hr
      have ho := AList.mem_lookup_iff.mpr he
      obtain ⟨hnot, hm, hid⟩ := restoreMagnet_eq_some hk
      have hmeta : k ∈ start.loaded := AList.lookup_isSome.mp (by rw [ho]; rfl)
      refine .inr ⟨k, o, t, ho, fun hrd => hnot ?_, hm, hid.symm.trans ht, rfl⟩
      exact (mem_resumeKeys start start.loaded k).mpr ⟨hrd, hmeta⟩
  · rintro (hmeta | ⟨k, o, t, ho, hrd, hm, hid, rfl⟩)
    · obtain ⟨f, hf⟩ := Option.isSome_iff_exists.mp (AList.lookup_isSome.mpr hkey)
      obtain ⟨o, ho⟩ := Option.isSome_iff_exists.mp (AList.lookup_isSome.mpr hmeta)
      obtain ⟨r, hr, _, ht⟩ := restoreResume_readable start start.loaded hf ho
      refine ⟨r, List.mem_append_left _ ?_, _, ht, (start.named key hkey).1⟩
      exact List.mem_filterMap.mpr ⟨⟨key, f⟩, AList.mem_lookup_iff.mp hf, hr⟩
    · have hnot : k ∉ (start.rd.entries.filterMap fun e =>
          restoreResume env start.loaded e.1 e.2).map (·.key) :=
        fun h => hrd ((mem_resumeKeys start start.loaded k).mp h).1
      obtain ⟨r, hr, ht⟩ := restoreMagnet_isSome hnot hm hid
      refine ⟨r, List.mem_append_right _ ?_, t, ht, rfl⟩
      exact List.mem_filterMap.mpr ⟨⟨k, o⟩, AList.mem_lookup_iff.mp ho, hr⟩

/-! ### The load fills the store -/

variable (env) in
/-- The store has a task of this key. -/
def Listed (s : AppState) (key : String) : Prop :=
  ∃ t, env.taskKey t = key ∧ (s.ingest.tasks.lookup t).isSome

theorem isSome_applyRestored (now : Clock) (s : AppState) (r : Restored) (t : TaskId) :
    ((applyRestored env now s r).ingest.tasks.lookup t).isSome ↔
      r.taskId = some t ∨ (s.ingest.tasks.lookup t).isSome := by
  unfold applyRestored
  cases hr : r.taskId with
  | none => simp
  | some t' =>
    rw [Option.some.injEq]
    exact isSome_lookup_upsertMeta now s.ingest.tasks rfl t

theorem isSome_restored (now : Clock) (rs : List Restored) (s : AppState) (t : TaskId) :
    ((restoreAll env now s rs).ingest.tasks.lookup t).isSome ↔
      (∃ r ∈ rs, r.taskId = some t) ∨ (s.ingest.tasks.lookup t).isSome := by
  induction rs generalizing now s with
  | nil => simp [restoreAll]
  | cons r rs ih =>
    rw [restoreAll, ih, isSome_applyRestored, List.exists_mem_cons_iff, or_left_comm,
      or_assoc]

theorem tasksKeyed_restored (now : Clock) (rs : List Restored) {s : AppState}
    (h : TasksKeyed s.ingest.tasks) :
    TasksKeyed (restoreAll env now s rs).ingest.tasks := by
  induction rs generalizing now s with
  | nil => exact h
  | cons r rs ih =>
    refine ih (now.after 2) ?_
    unfold applyRestored
    cases r.taskId with
    | none => exact h
    | some t => exact tasksKeyed_applyEvent now h _

theorem rd_restored (now : Clock) (rs : List Restored) (s : AppState) :
    (restoreAll env now s rs).rd = s.rd := by
  induction rs generalizing now s with
  | nil => rfl
  | cons r rs ih =>
    rw [restoreAll, ih]
    unfold applyRestored
    cases r.taskId <;> rfl

theorem load_eq (now : Clock) (start : StartUp env) :
    loadPersistedTasks env now start.state =
      restoreAll env now start.state (restoredTasks env start.loaded start.rd) := by
  unfold loadPersistedTasks
  rw [loadTasksMeta_eq]
  rfl

/-- After the load, the store has the task of a resume file exactly if it was brought back. -/
theorem listed_load (now : Clock) (start : StartUp env) {key : String} (hkey : key ∈ start.rd) :
    Listed env (loadPersistedTasks env now start.state) key ↔ start.BroughtBack key := by
  rw [← restoredTasks_iff start hkey, load_eq, Listed]
  constructor
  · rintro ⟨t, ht, h⟩
    rcases (isSome_restored now _ start.state t).mp h with ⟨r, hr, hid⟩ | h
    · exact ⟨r, hr, t, hid, ht⟩
    · cases h
  · rintro ⟨r, hr, t, hid, ht⟩
    exact ⟨t, ht, (isSome_restored now _ start.state t).mpr (.inl ⟨r, hr, hid⟩)⟩

/-! ### One step -/

theorem mem_removeLoop (active : List String) (keys : List String) (rd : Map String FileState)
    (key : String) :
    key ∈ keys.foldl (fun rd k => if k ∈ active then rd else rd.erase k) rd ↔
      key ∈ rd ∧ (key ∈ keys → key ∈ active) := by
  induction keys generalizing rd with
  | nil => simp
  | cons k keys ih =>
    rw [List.foldl_cons, ih, List.mem_cons]
    by_cases hk : k ∈ active
    · rw [if_pos hk]
      by_cases hkey : key = k
      · subst hkey
        simp [hk]
      · simp [hkey]
    · rw [if_neg hk, AList.mem_erase]
      by_cases hkey : key = k
      · subst hkey
        simp [hk]
      · simp [hkey]

/-- The cleanup leaves the files of the active keys. -/
theorem mem_removeStale (active : List String) (rd : Map String FileState) (key : String) :
    key ∈ removeStale active rd ↔ key ∈ rd ∧ key ∈ active := by
  rw [removeStale, mem_removeLoop]
  refine and_congr_right fun h => ?_
  simp [AList.mem_keys.mp h]

theorem mem_activeKeys {s : AppState} (h : TasksKeyed s.ingest.tasks) (key : String) :
    key ∈ (snapshots s.ingest.tasks).map (fun snap => env.taskKey snap.taskId) ↔
      Listed env s key := by
  constructor
  · intro hkey
    obtain ⟨snap, hsnap, rfl⟩ := List.mem_map.mp hkey
    obtain ⟨t, ht⟩ := mem_snapshots.mp hsnap
    exact ⟨t, by rw [h t snap ht], by rw [ht]; rfl⟩
  · rintro ⟨t, rfl, ht⟩
    obtain ⟨snap, hsnap⟩ := Option.isSome_iff_exists.mp ht
    exact List.mem_map.mpr ⟨snap, mem_snapshots.mpr ⟨t, hsnap⟩, by rw [h t snap hsnap]⟩

theorem mem_writes (written : List (String × Bytes)) {rd : Map String FileState} {key : String}
    (h : key ∈ rd) :
    key ∈ written.foldl (fun rd w => rd.insert w.1 (.bytes w.2)) rd := by
  induction written generalizing rd with
  | nil => exact h
  | cons w ws ih => exact ih ((AList.mem_insert _).mpr (.inr h))

variable (env) in
theorem savePersistedTasks_ingest (s : AppState) (failure : Option Error) :
    (savePersistedTasks env s failure).ingest = s.ingest ∧
      (savePersistedTasks env s failure).rd = s.rd := by
  unfold savePersistedTasks
  by_cases hsame : tasksJson env s = s.lastPersistedTasksJson
  · rw [if_pos hsame]
    exact ⟨rfl, rfl⟩
  · rw [if_neg hsame]
    cases failure <;> exact ⟨rfl, rfl⟩

/-- An autosave keeps the files of the listed tasks. -/
theorem mem_saveResumeData {s : AppState} (hkeyed : TasksKeyed s.ingest.tasks)
    (written : List (String × Bytes)) {key : String} (hkey : key ∈ s.rd) (hlisted : Listed env s key) :
    key ∈ (saveResumeData env s written).rd := by
  refine (mem_removeStale _ _ key).mpr ⟨?_, (mem_activeKeys hkeyed key).mpr hlisted⟩
  split_ifs
  · exact hkey
  · exact mem_writes written hkey

/-- An autosave leaves no other files. -/
theorem listed_of_mem_saveResumeData {s : AppState} (hkeyed : TasksKeyed s.ingest.tasks)
    (written : List (String × Bytes)) {key : String}
    (h : key ∈ (saveResumeData env s written).rd) : Listed env s key :=
  (mem_activeKeys hkeyed key).mp ((mem_removeStale _ _ key).mp h).2

/-- A state whose snapshots carry their ids, which lists the task and has its file. -/
structure Kept (env : PersistEnv) (key : String) (s : AppState) : Prop where
  keyed : TasksKeyed s.ingest.tasks
  listed : Listed env s key
  file : key ∈ s.rd

theorem appStep_kept {key : String} (s : AppState) (l : AppStep) (h : Kept env key s) :
    Kept env key (appStep env s l) := by
  obtain ⟨hkeyed, ⟨t, ht, hsome⟩, hfile⟩ := h
  cases l with
  | views now batch =>
    exact ⟨tasksKeyed_ingest now hkeyed _,
      ⟨t, ht, isSome_ingest now s.ingest (live_batch t batch) hsome⟩, hfile⟩
  | consume now ev =>
    exact ⟨tasksKeyed_applyEvent now hkeyed ev.1,
      ⟨t, ht, isSome_lookup_applyEvent now _ (fun _ => ev.2) hsome⟩, hfile⟩
  | autosave failure written =>
    obtain ⟨hingest, hrd⟩ := savePersistedTasks_ingest env s failure
    have hkeyed' : TasksKeyed (savePersistedTasks env s failure).ingest.tasks := by
      rw [hingest]
      exact hkeyed
    have hlisted' : Listed env (savePersistedTasks env s failure) key :=
      ⟨t, ht, by rw [hingest]; exact hsome⟩
    refine ⟨hkeyed', hlisted', ?_⟩
    exact mem_saveResumeData hkeyed' written (by rw [hrd]; exact hfile) hlisted'

/-! ### Runs -/

theorem kept_load (now : Clock) (start : StartUp env) {key : String} (hkey : key ∈ start.rd)
    (hback : start.BroughtBack key) : Kept env key (loadPersistedTasks env now start.state) where
  keyed := by
    rw [load_eq]
    exact tasksKeyed_restored now _ tasksKeyed_empty
  listed := (listed_load now start hkey).mpr hback
  file := by
    rw [load_eq, rd_restored]
    exact hkey

/-- The resume files of the first valid copy's tasks outlive every run without removals exactly when
the load brings back every such task. -/
theorem resumeFiles_kept_iff (now : Clock) (start : StartUp env) :
    (∀ steps tasks, firstValid env start.copies = some tasks →
        ∀ key ∈ metaByTaskKey tasks, key ∈ start.rd →
          key ∈ (run (appStep env) (loadPersistedTasks env now start.state) steps).rd) ↔
      ∀ tasks, firstValid env start.copies = some tasks →
        ∀ key ∈ metaByTaskKey tasks, key ∈ start.rd → start.BroughtBack key := by
  constructor
  · intro h tasks hfirst key hmeta hkey
    have hkept := h [.autosave none []] tasks hfirst key hmeta hkey
    have hkeyed : TasksKeyed (loadPersistedTasks env now start.state).ingest.tasks := by
      rw [load_eq]
      exact tasksKeyed_restored now _ tasksKeyed_empty
    rw [run_cons, run_nil] at hkept
    obtain ⟨hingest, _⟩ :=
      savePersistedTasks_ingest env (loadPersistedTasks env now start.state) none
    obtain ⟨t, ht, hsome⟩ := listed_of_mem_saveResumeData (by rw [hingest]; exact hkeyed) [] hkept
    rw [hingest] at hsome
    exact (listed_load now start hkey).mp ⟨t, ht, hsome⟩
  · intro h steps tasks hfirst key hmeta hkey
    exact (run_invariant (P := Kept env key) appStep_kept
      (kept_load now start hkey (h tasks hfirst key hmeta hkey)) steps).file

/-- The truncated main file over a good backup, and the task's resume file. -/
def truncatedStart : StartUp oneTaskEnv where
  copies := truncatedMain
  rd := AList.insert oneKey (.bytes [1]) ∅
  named := by
    intro key hkey
    rcases (AList.mem_insert _).mp hkey with rfl | hkey
    · decide
    · exact absurd hkey (AList.notMem_empty key)
  readable := by
    intro key f hf
    by_cases hkey : key = oneKey
    · subst hkey
      rw [AList.lookup_insert] at hf
      cases hf
      exact ⟨[1], rfl⟩
    · rw [AList.lookup_insert_ne hkey, AList.lookup_empty] at hf
      cases hf

/-- The first autosave after a start with a truncated main file deletes the resume file of the task
that the backup lists. -/
theorem resumeFiles_truncatedStart_lost :
    ¬ ∀ (env : PersistEnv) (now : Clock) (start : StartUp env) (steps : List AppStep)
        (tasks : List Json), firstValid env start.copies = some tasks →
      ∀ key ∈ metaByTaskKey tasks, key ∈ start.rd →
        key ∈ (run (appStep env) (loadPersistedTasks env now start.state) steps).rd := by
  intro h
  have hkept := h oneTaskEnv 0 truncatedStart [.autosave none []] oneTask (by rfl) oneKey
    (AList.lookup_isSome.mp (by decide)) (AList.lookup_isSome.mp (by decide))
  have hfile := AList.lookup_isSome.mpr hkept
  revert hfile
  decide

end TorrentLink.App
