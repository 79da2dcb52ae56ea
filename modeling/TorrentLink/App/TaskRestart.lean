import TorrentLink.App.TaskRecovery
import TorrentLink.Base.CrashSafety
import TorrentLink.Lib.KeyedList

/-!
# What a restart brings back

The task list is saved whenever it has changed since the last save. The program may end at any time, in the
middle of a save as well, and the next start reads the list back: a task with a resume file comes back from
it, and one with a magnet only is added again. Whatever saves, failures and crashes there were, a start
brings back the tasks of the last save that did not fail, with the metadata that was saved, and nothing else
(`restart_brings_back`).
-/

namespace TorrentLink.App

open Lib Lt

/-- What the load relies on: a printed object is not empty, hashes and keys have no blanks at their ends, a
task's id is read back from its key, and the id of a magnet is not the null id. -/
structure PersistEnv.Lawful (env : PersistEnv) : Prop where
  nonempty : ∀ o, env.toJsonIndented o ≠ []
  trimmed_sha256Hex : ∀ data, trimmed (env.sha256Hex data) = env.sha256Hex data
  trimmed_taskKey : ∀ t, trimmed (env.taskKey t) = env.taskKey t
  taskKey_ne : ∀ t, env.taskKey t ≠ ""
  uuidFromKey_taskKey : ∀ t, env.uuidFromKey (env.taskKey t) = t
  magnetTaskId_ne : ∀ m t, env.magnetTaskId m = some t → t.isNull = false

variable (env : PersistEnv)

/-! ### The saved list -/

/-- The member of a saved task that is there only if its magnet is known. -/
def magnetMember : Option String → JsonObject
  | some magnet => if trimmed magnet ≠ "" then [("magnet", .str magnet)] else []
  | none => []

/-- The members that are always there, behind the first. -/
def savedFields (s : TaskSnapshot) : JsonObject :=
  [("name", .str s.name),
    ("save_path", .str s.savePath),
    ("category", .str s.category),
    ("tags", .str s.tags),
    ("status", .num (statusCode s.status)),
    ("last_updated_ms", .num s.lastUpdatedMs)]

/-- The object of a saved task. -/
def savedTask (known : Map String String) (s : TaskSnapshot) : JsonObject :=
  [("task_id", .str (env.taskKey s.taskId))] ++ magnetMember (known.lookup (env.taskKey s.taskId)) ++
    savedFields s

/-- The envelope of the saved tasks. -/
def savedEnvelope (st : AppState) : JsonObject :=
  let arr := (snapshots st.ingest.tasks).map fun s => .obj (savedTask env st.knownTaskMagnets s)
  [("version", .num kTasksJsonVersion),
    ("checksum", .str (env.sha256Hex (env.toJsonCompact arr))),
    ("tasks", .arr arr)]

/-- The printed task list is read back as it was. -/
def PersistEnv.ReadsBack (st : AppState) : Prop :=
  env.fromJson (tasksJson env st) = .object (savedEnvelope env st)

/-- The magnet that is saved with a task, empty if there is none. -/
def savedMagnet (known : Map String String) (s : TaskSnapshot) : String :=
  trimmed ((known.lookup (env.taskKey s.taskId)).getD "")

/-- A task with this status comes back paused. -/
def comesBackPaused (status : TaskStatus) : Bool :=
  status = .paused || status = .finished || status = .error

/-- What the load reads of a saved task. -/
structure ReadAs (o : JsonObject) (known : Map String String) (s : TaskSnapshot) : Prop where
  taskId : (o.value "task_id").toText = env.taskKey s.taskId
  magnet : metaText o "magnet" = savedMagnet env known s
  name : metaText o "name" = trimmed s.name
  savePath : metaText o "save_path" = trimmed s.savePath
  category : metaText o "category" = trimmed s.category
  tags : metaText o "tags" = trimmed s.tags
  paused : restoredPaused env o = comesBackPaused s.status

theorem toInt_statusCode (status : TaskStatus) :
    Json.toInt (-1) (.num (statusCode status)) = statusCode status := by
  cases status <;> rfl

theorem value_magnetMember {key : String} (hkey : key ≠ "magnet") (magnet : Option String) :
    (magnetMember magnet).lookup key = none := by
  unfold magnetMember
  split
  · split
    · simp [hkey]
    · rfl
  · rfl

theorem metaText_magnetMember (magnet : Option String) (fields : JsonObject)
    (hfields : fields.lookup "magnet" = none) :
    metaText (magnetMember magnet ++ fields) "magnet" = trimmed (magnet.getD "") := by
  have hblank : trimmed "" = "" := by decide
  unfold metaText JsonObject.value magnetMember
  rw [List.lookup_append, hfields, Option.or_none]
  cases magnet with
  | none => rfl
  | some magnet =>
    by_cases hempty : trimmed magnet = ""
    · simp [hempty, hblank, Json.toText]
    · simp [hempty, Json.toText]

theorem value_savedTask {key : String} (htask : key ≠ "task_id") (hmagnet : key ≠ "magnet")
    (known : Map String String) (s : TaskSnapshot) :
    (savedTask env known s).value key = JsonObject.value (savedFields s) key := by
  unfold savedTask JsonObject.value
  rw [List.append_assoc, List.lookup_append, List.lookup_append, value_magnetMember hmagnet]
  simp [List.lookup_cons, beq_eq_false_iff_ne.mpr htask]

theorem readAs_savedTask (known : Map String String) (s : TaskSnapshot) :
    ReadAs env (savedTask env known s) known s := by
  have htext {key : String} (htask : key ≠ "task_id") (hmagnet : key ≠ "magnet") {text : String}
      (h : (savedFields s).lookup key = some (.str text)) :
      metaText (savedTask env known s) key = trimmed text := by
    rw [metaText, value_savedTask env htask hmagnet, JsonObject.value, h]
    rfl
  refine ⟨?_, ?_, ?_, ?_, ?_, ?_, ?_⟩
  · simp [savedTask, JsonObject.value, Json.toText]
  · have hfirst : metaText (savedTask env known s) "magnet" =
        metaText (magnetMember (known.lookup (env.taskKey s.taskId)) ++ savedFields s) "magnet" := by
      simp [savedTask, metaText, JsonObject.value, List.lookup_cons]
    rw [hfirst, metaText_magnetMember _ _ (by simp [savedFields, List.lookup_cons]), savedMagnet]
  · exact htext (by simp) (by simp) (by simp [savedFields])
  · exact htext (by simp) (by simp) (by simp [savedFields, List.lookup_cons])
  · exact htext (by simp) (by simp) (by simp [savedFields, List.lookup_cons])
  · exact htext (by simp) (by simp) (by simp [savedFields, List.lookup_cons])
  · have hstatus : (savedTask env known s).value "status" = .num (statusCode s.status) := by
      rw [value_savedTask env (by simp) (by simp)]
      simp [savedFields, JsonObject.value, List.lookup_cons]
    unfold restoredPaused comesBackPaused
    rw [hstatus, toInt_statusCode]
    cases s.status <;> rfl

variable {env}

theorem taskKey_inj (h : env.Lawful) {t t' : TaskId} (heq : env.taskKey t = env.taskKey t') : t = t' := by
  rw [← h.uuidFromKey_taskKey t, heq, h.uuidFromKey_taskKey]

theorem insertMeta_savedTask (h : env.Lawful) (m : Map String JsonObject) (known : Map String String)
    (s : TaskSnapshot) :
    insertMeta m (.obj (savedTask env known s)) =
      m.insert (env.taskKey s.taskId) (savedTask env known s) := by
  unfold insertMeta
  dsimp only
  rw [(readAs_savedTask env known s).taskId, h.trimmed_taskKey, if_pos (h.taskKey_ne s.taskId)]

/-- Each saved task is found under its key. -/
theorem lookup_savedTasks (h : env.Lawful) (known : Map String String) (snaps : List TaskSnapshot)
    (hdistinct : snaps.Pairwise fun a b => a.taskId ≠ b.taskId) (m : Map String JsonObject) (key : String)
    (o : JsonObject) :
    ((snaps.map fun s => .obj (savedTask env known s)).foldl insertMeta m).lookup key = some o ↔
      (∃ s ∈ snaps, env.taskKey s.taskId = key ∧ savedTask env known s = o) ∨
        (∀ s ∈ snaps, env.taskKey s.taskId ≠ key) ∧ m.lookup key = some o := by
  induction snaps generalizing m with
  | nil => simp
  | cons s snaps ih =>
    obtain ⟨hother, hdistinct⟩ := List.pairwise_cons.mp hdistinct
    rw [List.map_cons, List.foldl_cons, insertMeta_savedTask h, ih hdistinct, Map.lookup_insert]
    by_cases hkey : key = env.taskKey s.taskId
    · subst hkey
      have hnone : ∀ s' ∈ snaps, env.taskKey s'.taskId ≠ env.taskKey s.taskId :=
        fun s' hs' heq => hother s' hs' (taskKey_inj h heq).symm
      simp only [if_true, List.mem_cons, forall_eq_or_imp, exists_eq_or_imp, ne_eq, not_true_eq_false,
        false_and, or_false, true_and]
      constructor
      · rintro (⟨s', hs', heq, -⟩ | ⟨-, ho⟩)
        · exact absurd heq (hnone s' hs')
        · exact .inl (Option.some.inj ho)
      · rintro (ho | ⟨s', hs', heq, -⟩)
        · exact .inr ⟨hnone, congrArg some ho⟩
        · exact absurd heq (hnone s' hs')
    · have hne : env.taskKey s.taskId ≠ key := fun heq => hkey heq.symm
      simp only [hkey, if_false, List.mem_cons, forall_eq_or_imp, exists_eq_or_imp, hne, false_and,
        false_or, ne_eq, not_false_eq_true, true_and]

theorem pairwise_snapshots {tasks : Tasks} (hkeyed : TasksKeyed tasks) :
    (snapshots tasks).Pairwise fun a b => a.taskId ≠ b.taskId := by
  have hids : (snapshots tasks).map (·.taskId) = tasks.keys := by
    unfold snapshots AList.keys List.keys
    rw [List.map_map]
    exact List.map_congr_left fun e he => hkeyed e.1 e.2 (AList.mem_lookup_iff.mpr he)
  have hnodup := tasks.keys_nodup
  rw [← hids] at hnodup
  exact List.pairwise_map.mp hnodup

/-! ### One task -/

/-- What a readable resume file holds. -/
def resumeData (rd : Map String FileState) (key : String) : Option Bytes :=
  (rd.lookup key).bind FileState.content

section

variable (env) (rd : Map String FileState) (known : Map String String) (s : TaskSnapshot)

/-- The id under which a saved task comes back, if it does. -/
def restoredAs : Option TaskId :=
  if (resumeData rd (env.taskKey s.taskId)).isSome then
    if s.taskId.isNull then none else some s.taskId
  else if savedMagnet env known s = "" then none
  else env.magnetTaskId (savedMagnet env known s)

/-- What is posted to the worker for a saved task. -/
def restoreCommands : List RestoreCmd :=
  match resumeData rd (env.taskKey s.taskId) with
  | some data => [.addFromResumeData data (comesBackPaused s.status)]
  | none =>
    if savedMagnet env known s = "" then []
    else
      match env.magnetTaskId (savedMagnet env known s) with
      | none => []
      | some taskId =>
        .addMagnet (savedMagnet env known s) (env.savePathPolicy.resolve env.qt (trimmed s.savePath)) ::
          if comesBackPaused s.status then [.pauseTaskLater taskId] else []

/-- The saved task, restored. -/
structure RestoredFrom (r : Restored) : Prop where
  key : r.key = env.taskKey s.taskId
  commands : r.commands = restoreCommands env rd known s
  taskId : r.taskId = restoredAs env rd known s
  data : r.data = savedTask env known s

end

variable (env) in
theorem restoreResume_eq (tasksMeta : Map String JsonObject) (key : String) (f : FileState) :
    restoreResume env tasksMeta key f = (tasksMeta.lookup key).bind fun o => f.content.map fun data =>
      { key := key
        commands := [.addFromResumeData data (restoredPaused env o)]
        taskId := if (env.uuidFromKey key).isNull then none else some (env.uuidFromKey key)
        data := o } := by
  unfold restoreResume
  cases tasksMeta.lookup key with
  | none => rfl
  | some o =>
    rw [Option.bind_some]
    dsimp only
    cases hcontent : f.content with
    | none =>
      have hfails : (readWholeFile key f).2 ≠ none ∨ (readWholeFile key f).1 = [] := by
        by_contra hreads
        rw [not_or, not_not] at hreads
        have hsome := (readWholeFile_content key f _).mp ⟨hreads.1, rfl, hreads.2⟩
        rw [hcontent] at hsome
        cases hsome
      rw [if_pos hfails]
      rfl
    | some data =>
      obtain ⟨hok, hdata, hne⟩ := (readWholeFile_content key f data).mpr hcontent
      rw [if_neg (by rw [hok, hdata]; simp [hne]), hdata]
      rfl

variable {rd : Map String FileState} {known : Map String String} {s : TaskSnapshot}

theorem restoredFrom_resume (h : env.Lawful) {tasksMeta : Map String JsonObject} {f : FileState}
    {r : Restored} (ho : tasksMeta.lookup (env.taskKey s.taskId) = some (savedTask env known s))
    (hf : rd.lookup (env.taskKey s.taskId) = some f)
    (hr : restoreResume env tasksMeta (env.taskKey s.taskId) f = some r) :
    RestoredFrom env rd known s r := by
  rw [restoreResume_eq, ho, Option.bind_some, h.uuidFromKey_taskKey] at hr
  obtain ⟨data, hcontent, rfl⟩ := Option.map_eq_some_iff.mp hr
  have hdata : resumeData rd (env.taskKey s.taskId) = some data := by
    rw [resumeData, hf]
    exact hcontent
  refine ⟨rfl, ?_, ?_, rfl⟩
  · rw [restoreCommands, hdata, (readAs_savedTask env known s).paused]
  · rw [restoredAs, hdata]
    rfl

theorem restoredFrom_magnet {keys : List String} (hdata : resumeData rd (env.taskKey s.taskId) = none)
    {r : Restored} (hr : restoreMagnet env keys (env.taskKey s.taskId) (savedTask env known s) = some r) :
    RestoredFrom env rd known s r := by
  have hread := readAs_savedTask env known s
  unfold restoreMagnet at hr
  dsimp only at hr
  rw [hread.magnet, hread.savePath, hread.paused] at hr
  split at hr
  · cases hr
  · split at hr
    · cases hr
    · rename_i hmagnet
      split at hr
      · cases hr
      · rename_i taskId htaskId
        obtain rfl := Option.some.inj hr
        refine ⟨rfl, ?_, ?_, rfl⟩
        · rw [restoreCommands, hdata]
          dsimp only
          rw [if_neg hmagnet, htaskId]
          dsimp only
          split
          · rfl
          · rfl
        · rw [restoredAs, hdata, Option.isSome_none, if_neg Bool.false_ne_true, if_neg hmagnet, htaskId]

theorem restoreMagnet_of_commands {keys : List String} (hkey : env.taskKey s.taskId ∉ keys)
    (hdata : resumeData rd (env.taskKey s.taskId) = none) (hcommands : restoreCommands env rd known s ≠ []) :
    ∃ r, restoreMagnet env keys (env.taskKey s.taskId) (savedTask env known s) = some r := by
  rw [restoreCommands, hdata] at hcommands
  dsimp only at hcommands
  unfold restoreMagnet
  dsimp only
  rw [if_neg hkey, (readAs_savedTask env known s).magnet]
  by_cases hmagnet : savedMagnet env known s = ""
  · rw [if_pos hmagnet] at hcommands
    exact absurd rfl hcommands
  · rw [if_neg hmagnet] at hcommands ⊢
    cases htaskId : env.magnetTaskId (savedMagnet env known s) with
    | none =>
      rw [htaskId] at hcommands
      exact absurd rfl hcommands
    | some taskId => exact ⟨_, rfl⟩

theorem commands_of_restoredAs {t : TaskId} (hid : restoredAs env rd known s = some t) :
    restoreCommands env rd known s ≠ [] := by
  unfold restoredAs at hid
  unfold restoreCommands
  cases hdata : resumeData rd (env.taskKey s.taskId) with
  | some data => simp
  | none =>
    rw [hdata, Option.isSome_none, if_neg Bool.false_ne_true] at hid
    dsimp only
    split at hid
    · cases hid
    · rename_i hmagnet
      rw [if_neg hmagnet, hid]
      simp

/-! ### All tasks -/

/-- The loaded metadata is that of these tasks. -/
def MetaOf (env : PersistEnv) (known : Map String String) (snaps : List TaskSnapshot)
    (tasksMeta : Map String JsonObject) : Prop :=
  ∀ key o, tasksMeta.lookup key = some o ↔
    ∃ s ∈ snaps, env.taskKey s.taskId = key ∧ savedTask env known s = o

variable {snaps : List TaskSnapshot} {tasksMeta : Map String JsonObject}

theorem restoreMagnet_key {keys : List String} {key : String} {o : JsonObject} {r : Restored}
    (hr : restoreMagnet env keys key o = some r) : r.key = key := by
  unfold restoreMagnet at hr
  dsimp only at hr
  split at hr
  · cases hr
  · split at hr
    · cases hr
    · split at hr
      · cases hr
      · exact (congrArg Restored.key (Option.some.inj hr)).symm

/-- The keys of the tasks that phase 2 restores. -/
theorem mem_restoredKeys (hmeta : MetaOf env known snaps tasksMeta) (hs : s ∈ snaps) :
    env.taskKey s.taskId ∈
        (rd.entries.filterMap fun e => restoreResume env tasksMeta e.1 e.2).map (·.key) ↔
      (resumeData rd (env.taskKey s.taskId)).isSome := by
  have ho := (hmeta _ _).mpr ⟨s, hs, rfl, rfl⟩
  constructor
  · intro hmem
    obtain ⟨r, hr, hkey⟩ := List.mem_map.mp hmem
    obtain ⟨⟨key, f⟩, he, hr⟩ := List.mem_filterMap.mp hr
    obtain ⟨-, hrkey⟩ := restoreResume_of_some hr
    rw [restoreResume_eq] at hr
    obtain ⟨o, -, hr⟩ := Option.bind_eq_some_iff.mp hr
    obtain ⟨data, hdata, -⟩ := Option.map_eq_some_iff.mp hr
    dsimp only at hrkey
    rw [resumeData, ← hkey, hrkey, AList.mem_lookup_iff.mpr he, Option.bind_some, hdata]
    rfl
  · intro hsome
    obtain ⟨data, hdata⟩ := Option.isSome_iff_exists.mp hsome
    obtain ⟨f, hf, hcontent⟩ := Option.bind_eq_some_iff.mp hdata
    have hr := restoreResume_eq env tasksMeta (env.taskKey s.taskId) f
    rw [ho, Option.bind_some, hcontent, Option.map_some] at hr
    exact List.mem_map.mpr ⟨_, List.mem_filterMap.mpr ⟨⟨_, f⟩, AList.mem_lookup_iff.mp hf, hr⟩, rfl⟩

/-- What is restored, is one of the saved tasks, and so is each that comes back in any way. -/
theorem mem_restoredTasks (h : env.Lawful) (hmeta : MetaOf env known snaps tasksMeta) :
    (∀ r ∈ restoredTasks env tasksMeta rd, ∃ s ∈ snaps, RestoredFrom env rd known s r) ∧
      ∀ s ∈ snaps, restoreCommands env rd known s ≠ [] →
        ∃ r ∈ restoredTasks env tasksMeta rd, RestoredFrom env rd known s r := by
  constructor
  · intro r hr
    rcases List.mem_append.mp hr with hr | hr
    · obtain ⟨⟨key, f⟩, he, hr⟩ := List.mem_filterMap.mp hr
      obtain ⟨o, ho⟩ := Option.isSome_iff_exists.mp (AList.lookup_isSome.mpr (restoreResume_of_some hr).1)
      obtain ⟨s, hs, hkey, rfl⟩ := (hmeta key o).mp ho
      subst hkey
      exact ⟨s, hs, restoredFrom_resume h ho (AList.mem_lookup_iff.mpr he) hr⟩
    · obtain ⟨⟨key, o⟩, he, hr⟩ := List.mem_filterMap.mp hr
      obtain ⟨s, hs, hkey, rfl⟩ := (hmeta key o).mp (AList.mem_lookup_iff.mpr he)
      subst hkey
      have hnone : resumeData rd (env.taskKey s.taskId) = none := by
        rw [← Option.not_isSome_iff_eq_none, ← mem_restoredKeys hmeta hs]
        exact (restoreMagnet_eq_some hr).1
      exact ⟨s, hs, restoredFrom_magnet hnone hr⟩
  · intro s hs hcommands
    have ho := (hmeta _ _).mpr ⟨s, hs, rfl, rfl⟩
    cases hdata : resumeData rd (env.taskKey s.taskId) with
    | some data =>
      obtain ⟨f, hf, hcontent⟩ := Option.bind_eq_some_iff.mp hdata
      have hr := restoreResume_eq env tasksMeta (env.taskKey s.taskId) f
      rw [ho, Option.bind_some, hcontent, Option.map_some] at hr
      exact ⟨_, List.mem_append_left _ (List.mem_filterMap.mpr ⟨⟨_, f⟩, AList.mem_lookup_iff.mp hf, hr⟩),
        restoredFrom_resume h ho hf hr⟩
    | none =>
      have hkey : env.taskKey s.taskId ∉
          (rd.entries.filterMap fun e => restoreResume env tasksMeta e.1 e.2).map (·.key) := by
        rw [mem_restoredKeys hmeta hs, hdata]
        simp
      obtain ⟨r, hr⟩ := restoreMagnet_of_commands hkey hdata hcommands
      exact ⟨r, List.mem_append_right _ (List.mem_filterMap.mpr
        ⟨⟨_, _⟩, AList.mem_lookup_iff.mp ho, hr⟩), restoredFrom_magnet hdata hr⟩

/-- Each task is restored once. -/
theorem nodup_restoredKeys (tasksMeta : Map String JsonObject) (rd : Map String FileState) :
    ((restoredTasks env tasksMeta rd).map (·.key)).Nodup := by
  unfold restoredTasks
  rw [List.map_append]
  refine List.Nodup.append (List.pairwise_map.mpr ?_) (List.pairwise_map.mpr ?_) fun key hkey hmagnet => ?_
  · refine List.pairwise_filterMap.mpr ((List.nodupKeys_iff_pairwise.mp rd.nodupKeys).imp ?_)
    intro e e' hne r hr r' hr'
    rw [(restoreResume_of_some hr).2, (restoreResume_of_some hr').2]
    exact hne
  · refine List.pairwise_filterMap.mpr ((List.nodupKeys_iff_pairwise.mp tasksMeta.nodupKeys).imp ?_)
    intro e e' hne r hr r' hr'
    rw [restoreMagnet_key hr, restoreMagnet_key hr']
    exact hne
  · obtain ⟨r, hr, rfl⟩ := List.mem_map.mp hmagnet
    obtain ⟨e, -, hr⟩ := List.mem_filterMap.mp hr
    rw [restoreMagnet_key hr] at hkey
    exact (restoreMagnet_eq_some hr).1 hkey

/-- The commands of the tasks that are restored are those of the saved ones. -/
theorem perm_restoreCommands (h : env.Lawful) (hmeta : MetaOf env known snaps tasksMeta)
    (hdistinct : snaps.Pairwise fun a b => a.taskId ≠ b.taskId) :
    ((restoredTasks env tasksMeta rd).flatMap (·.commands)).Perm
      (snaps.flatMap (restoreCommands env rd known)) := by
  obtain ⟨hfrom, hback⟩ :
      (∀ r ∈ restoredTasks env tasksMeta rd, _) ∧ _ := mem_restoredTasks h hmeta
  have hkeys : (snaps.map fun s => env.taskKey s.taskId).Nodup :=
    List.pairwise_map.mpr (hdistinct.imp fun hne heq => hne (taskKey_inj h heq))
  refine perm_flatMap_of_keys (nodup_restoredKeys tasksMeta rd) hkeys ?_ ?_
  · intro r hr
    obtain ⟨s, hs, hrs⟩ := hfrom r hr
    exact ⟨s, hs, hrs.key.symm, hrs.commands⟩
  · intro s hs hne
    obtain ⟨r, hr, hrs⟩ := hback s hs hne
    exact ⟨r, hr, hrs.key⟩

/-! ### The load -/

/-- The id is listed with the metadata and the magnet of the saved task, or not at all. -/
structure BackAs (env : PersistEnv) (known : Map String String) (s : TaskSnapshot) (t : TaskId)
    (st : AppState) : Prop where
  metadata : ∀ back, st.ingest.tasks.lookup t = some back → ∀ f : MetaField,
    f.ofSnapshot back = trimmed (f.ofSnapshot s)
  magnet : st.knownTaskMagnets.lookup (env.taskKey t) =
    if (st.ingest.tasks.lookup t).isSome ∧ savedMagnet env known s ≠ "" then
      some (savedMagnet env known s) else none

theorem textOr_of_old {new old : String} (h : old = "" ∨ old = new) : textOr new old = new := by
  unfold textOr
  split
  · rfl
  · rename_i hempty
    rcases h with rfl | rfl
    · exact (not_not.mp hempty).symm
    · rfl

theorem ofEvent_metaEvent (f : MetaField) (t : TaskId) (s : TaskSnapshot) :
    f.ofEvent (metaEvent t (trimmed s.name) (trimmed s.savePath) (trimmed s.category) (trimmed s.tags)) =
      trimmed (f.ofSnapshot s) := by
  cases f <;> simp only [MetaField.ofEvent, MetaField.ofSnapshot, metaEvent]

/-- The saved metadata, merged into a snapshot that is new or has it already. -/
theorem lookup_applyMetaEvent (now : Clock) (tasks : Tasks) (t : TaskId) {s : TaskSnapshot}
    (hold : ∀ back, tasks.lookup t = some back → ∀ f : MetaField,
      f.ofSnapshot back = trimmed (f.ofSnapshot s)) :
    ∃ back, (applyEvent now tasks (metaEvent t (trimmed s.name) (trimmed s.savePath) (trimmed s.category)
        (trimmed s.tags))).lookup t = some back ∧
      ∀ f : MetaField, f.ofSnapshot back = trimmed (f.ofSnapshot s) := by
  generalize hev : metaEvent t (trimmed s.name) (trimmed s.savePath) (trimmed s.category)
    (trimmed s.tags) = ev
  have htype : ev.type = .upsertMeta := by rw [← hev]; rfl
  have htaskId : ev.taskId = t := by rw [← hev]; rfl
  obtain ⟨back, hback⟩ := Option.isSome_iff_exists.mp
    ((isSome_lookup_upsertMeta now tasks htype t).mpr (.inl htaskId))
  refine ⟨back, hback, fun f => ?_⟩
  have hlists : ev.taskId = t → ev.type ≠ .removed := fun _ => by rw [htype]; decide
  have hvalue := fieldValue_applyEvent f t now tasks hlists
  have hpresented : presentedFor f t ev = trimmed (f.ofSnapshot s) := by
    rw [presentedFor, if_pos htaskId, eventField, htype, ← hev]
    exact ofEvent_metaEvent f t s
  rw [fieldValue, hback, hpresented] at hvalue
  refine Eq.trans hvalue (textOr_of_old ?_)
  unfold fieldValue
  cases hlookup : tasks.lookup t with
  | none => exact .inl rfl
  | some old => exact .inr (hold old hlookup f)

variable (env) in
theorem applyRestored_some {r : Restored} {t : TaskId} (hid : r.taskId = some t) (now : Clock)
    (st : AppState) :
    (applyRestored env now st r).ingest.tasks = applyEvent now st.ingest.tasks
        (metaEvent t (metaText r.data "name") (metaText r.data "save_path") (metaText r.data "category")
          (metaText r.data "tags")) ∧
      (applyRestored env now st r).knownTaskMagnets =
        upsertKnownTaskMagnet env st.knownTaskMagnets t (metaText r.data "magnet") := by
  unfold applyRestored
  rw [hid]
  exact ⟨rfl, rfl⟩

theorem BackAs.applyRestored (h : env.Lawful) {t : TaskId} (ht : t.isNull = false) {st : AppState}
    (hback : BackAs env known s t st) (now : Clock) {r : Restored}
    (hr : r.taskId = some t → r.data = savedTask env known s) :
    BackAs env known s t (App.applyRestored env now st r) := by
  cases hid : r.taskId with
  | none =>
    unfold App.applyRestored
    rw [hid]
    exact ⟨hback.metadata, hback.magnet⟩
  | some t' =>
    obtain ⟨htasks, hknown⟩ := applyRestored_some env hid now st
    by_cases hsame : t' = t
    · subst hsame
      have hread := readAs_savedTask env known s
      rw [hr hid, hread.name, hread.savePath, hread.category, hread.tags] at htasks
      rw [hr hid, hread.magnet] at hknown
      obtain ⟨back, hlookup, hmeta⟩ := lookup_applyMetaEvent now st.ingest.tasks t' hback.metadata
      rw [← htasks] at hlookup
      refine ⟨fun back' hback' => ?_, ?_⟩
      · rw [hlookup] at hback'
        obtain rfl := Option.some.inj hback'
        exact hmeta
      · have htrim : trimmed (savedMagnet env known s) = savedMagnet env known s := trimmed_trimmed _
        have hmagnet := hback.magnet
        rw [hlookup, hknown, upsertKnownTaskMagnet, htrim, ht]
        by_cases hempty : savedMagnet env known s = ""
        · simpa [hempty] using hmagnet
        · simp [hempty]
    · have hkey : env.taskKey t ≠ env.taskKey t' := fun heq => hsame (taskKey_inj h heq).symm
      have hlookup : (App.applyRestored env now st r).ingest.tasks.lookup t = st.ingest.tasks.lookup t := by
        rw [htasks]
        exact lookup_applyEvent_ne now _ hsame
      refine ⟨fun back hb => hback.metadata back (hlookup ▸ hb), ?_⟩
      rw [hlookup, hknown]
      refine Eq.trans ?_ hback.magnet
      unfold upsertKnownTaskMagnet
      split
      · rfl
      · rw [Map.lookup_insert, if_neg hkey]

theorem restoreAll_backAs (h : env.Lawful) {t : TaskId} (ht : t.isNull = false) (now : Clock)
    {rs : List Restored} (hrs : ∀ r ∈ rs, r.taskId = some t → r.data = savedTask env known s) {st : AppState}
    (hback : BackAs env known s t st) : BackAs env known s t (restoreAll env now st rs) := by
  induction rs generalizing now st with
  | nil => exact hback
  | cons r rs ih =>
    obtain ⟨hr, hrs⟩ := List.forall_mem_cons.mp hrs
    exact ih (now.after 2) hrs (hback.applyRestored h ht now hr)

theorem commands_restored (now : Clock) (rs : List Restored) (st : AppState) :
    (restoreAll env now st rs).commands = st.commands ++ rs.flatMap (·.commands) := by
  induction rs generalizing now st with
  | nil => simp [restoreAll]
  | cons r rs ih =>
    have hone : (applyRestored env now st r).commands = st.commands ++ r.commands := by
      unfold applyRestored
      cases r.taskId with
      | none => rfl
      | some t => rfl
    rw [restoreAll, ih, hone, List.flatMap_cons, List.append_assoc]

theorem files_restored (now : Clock) (rs : List Restored) (st : AppState) :
    (restoreAll env now st rs).copies = st.copies ∧
      (restoreAll env now st rs).lastPersistedTasksJson = st.lastPersistedTasksJson := by
  induction rs generalizing now st with
  | nil => exact ⟨rfl, rfl⟩
  | cons r rs ih =>
    rw [restoreAll, (ih _ _).1, (ih _ _).2]
    unfold applyRestored
    cases r.taskId with
    | none => exact ⟨rfl, rfl⟩
    | some t => exact ⟨rfl, rfl⟩

theorem isNull_of_restoredAs (h : env.Lawful) {t : TaskId} (hid : restoredAs env rd known s = some t) :
    t.isNull = false := by
  unfold restoredAs at hid
  split at hid
  · split at hid
    · cases hid
    · rename_i hnull
      obtain rfl := Option.some.inj hid
      exact Bool.eq_false_iff.mpr hnull
  · split at hid
    · cases hid
    · exact h.magnetTaskId_ne _ _ hid

/-- A start has brought back these tasks, and nothing else. A task whose id no other one comes back under has
its metadata and its magnet. -/
structure Restarted (env : PersistEnv) (rd : Map String FileState) (known : Map String String)
    (snaps : List TaskSnapshot) (st : AppState) : Prop where
  listed : ∀ t, (st.ingest.tasks.lookup t).isSome ↔ ∃ s ∈ snaps, restoredAs env rd known s = some t
  commands : st.commands.Perm (snaps.flatMap (restoreCommands env rd known))
  asSaved : ∀ s ∈ snaps, ∀ t, restoredAs env rd known s = some t →
    (∀ s' ∈ snaps, restoredAs env rd known s' = some t → s' = s) → BackAs env known s t st

theorem restarted_load (h : env.Lawful) (now : Clock) {copies : Copies}
    (hmeta : MetaOf env known snaps (loadTasksMeta env copies))
    (hdistinct : snaps.Pairwise fun a b => a.taskId ≠ b.taskId) :
    Restarted env rd known snaps (loadPersistedTasks env now { copies := copies, rd := rd }) := by
  obtain ⟨hfrom, hback⟩ :
      (∀ r ∈ restoredTasks env (loadTasksMeta env copies) rd, _) ∧ _ := mem_restoredTasks h hmeta
  unfold loadPersistedTasks
  dsimp only
  refine ⟨fun t => ?_, ?_, fun s hs t hid honly => ?_⟩
  · rw [isSome_restored]
    constructor
    · rintro (⟨r, hr, hid⟩ | hold)
      · obtain ⟨s, hs, hrs⟩ := hfrom r hr
        exact ⟨s, hs, hrs.taskId ▸ hid⟩
      · cases hold
    · rintro ⟨s, hs, hid⟩
      obtain ⟨r, hr, hrs⟩ := hback s hs (commands_of_restoredAs hid)
      exact .inl ⟨r, hr, hrs.taskId.trans hid⟩
  · rw [commands_restored, List.nil_append]
    exact perm_restoreCommands h hmeta hdistinct
  · have hnull := isNull_of_restoredAs h hid
    have hdata : ∀ r ∈ restoredTasks env (loadTasksMeta env copies) rd, r.taskId = some t →
        r.data = savedTask env known s := by
      intro r hr hrt
      obtain ⟨s', hs', hrs⟩ := hfrom r hr
      rw [hrs.data, honly s' hs' (hrs.taskId.symm.trans hrt)]
    refine restoreAll_backAs h hnull now hdata ⟨fun back hb => ?_, ?_⟩
    · cases hb
    · simp

/-! ### Saves, failures, crashes and starts -/

/-- The program, and its state at the last save that did not fail. -/
structure Session where
  app : AppState := {}
  saved : Option AppState := none

namespace Session

def savedTasks (x : Session) : List TaskSnapshot := x.saved.elim [] fun z => snapshots z.ingest.tasks

def savedMagnets (x : Session) : Map String String := x.saved.elim ∅ fun z => z.knownTaskMagnets

end Session

inductive SessionStep
  | views (now : Clock) (batch : List LtAlertView)
  | consume (now : Clock) (ev : TaskEvent)
  /-- The user adds a magnet. -/
  | addMagnet (taskId : TaskId) (magnet : String)
  | save (failure : Option Error)
  /-- The program ends, in the middle of a save if `cut` says so, and starts again. The resume files are
  what the start finds. -/
  | restart (cut : Option Crash) (now : Clock) (rd : Map String FileState)

variable (env) in
/-- The copies that are left when the program ends, and the state that they hold. -/
def Session.ended (x : Session) : Option Crash → Copies × Option AppState
  | none => (x.app.copies, x.saved)
  | some crash =>
    let outBytes := tasksJson env x.app
    if outBytes = x.app.lastPersistedTasksJson then (x.app.copies, some x.app)
    else
      (cutCall x.app.copies outBytes crash,
        if (fileOps x.app.copies outBytes).length ≤ crash.done then some x.app else x.saved)

variable (env) in
def sessionStep (x : Session) : SessionStep → Session
  | .views now batch => { x with app := consumeViews env now x.app batch }
  | .consume now ev =>
    { x with
      app := { x.app with
        ingest := { x.app.ingest with tasks := applyEvent now x.app.ingest.tasks ev } } }
  | .addMagnet taskId magnet =>
    { x with
      app := { x.app with
        knownTaskMagnets := upsertKnownTaskMagnet env x.app.knownTaskMagnets taskId magnet } }
  | .save failure =>
    { app := savePersistedTasks env x.app failure
      saved :=
        if tasksJson env x.app = x.app.lastPersistedTasksJson ∨ failure = none then some x.app
        else x.saved }
  | .restart cut now rd =>
    let (copies, saved) := x.ended env cut
    { app := loadPersistedTasks env now { copies := copies, rd := rd }, saved := saved }

/-- The main file holds the saved state, and nothing is there before the first save. -/
structure Holding (env : PersistEnv) (copies : Copies) (saved : Option AppState) : Prop where
  keyed : ∀ z, saved = some z → TasksKeyed z.ingest.tasks
  main : copies.main = held (saved.map (tasksJson env))
  fresh : saved = none → copies = {}

/-- What was written last by this start of the program is in the main file. -/
structure SessionInv (env : PersistEnv) (x : Session) : Prop where
  keyed : TasksKeyed x.app.ingest.tasks
  holding : Holding env x.app.copies x.saved
  last : x.app.lastPersistedTasksJson = [] ∨ x.app.copies.main = .bytes x.app.lastPersistedTasksJson

/-- A save that finds nothing changed. -/
theorem SessionInv.unchanged (h : env.Lawful) {x : Session} (hinv : SessionInv env x)
    (hsame : tasksJson env x.app = x.app.lastPersistedTasksJson) :
    Holding env x.app.copies (some x.app) where
  keyed _ hz := Option.some.inj hz ▸ hinv.keyed
  main := by
    rw [Option.map_some, held, hsame]
    refine hinv.last.resolve_left fun hnone => ?_
    rw [hnone] at hsame
    exact h.nonempty _ hsame
  fresh hnone := by cases hnone

theorem Holding.rotate {copies : Copies} {saved : Option AppState} (hold : Holding env copies saved) :
    Holding env copies.rotate saved where
  keyed := hold.keyed
  main := by
    rw [← hold.main]
    unfold Copies.rotate
    split
    · rfl
    · rfl
  fresh hnone := by
    rw [hold.fresh hnone]
    rfl

theorem SessionInv.ended (h : env.Lawful) {x : Session} (hinv : SessionInv env x) (cut : Option Crash) :
    Holding env (x.ended env cut).1 (x.ended env cut).2 := by
  cases cut with
  | none => exact hinv.holding
  | some crash =>
    unfold Session.ended
    dsimp only
    split
    · next hsame => exact hinv.unchanged h hsame
    · by_cases hcut : (fileOps x.app.copies (tasksJson env x.app)).length ≤ crash.done
      · rw [if_pos hcut, cutCall_done hcut]
        exact ⟨fun z hz => Option.some.inj hz ▸ hinv.keyed, main_write _ _, fun hnone => by cases hnone⟩
      · rw [if_neg hcut]
        refine ⟨hinv.holding.keyed, (main_cutCall (not_le.mp hcut)).trans hinv.holding.main, fun hnone => ?_⟩
        rw [hinv.holding.fresh hnone] at hcut ⊢
        have hops : fileOps {} (tasksJson env x.app) = [.commit (tasksJson env x.app)] := rfl
        rw [hops] at hcut
        have hdone : crash.done = 0 := by simpa using hcut
        unfold cutCall
        rw [hops, hdone]
        rfl

theorem SessionInv.save (h : env.Lawful) {x : Session} (hinv : SessionInv env x) (failure : Option Error) :
    SessionInv env (sessionStep env x (.save failure)) := by
  have hingest := (savePersistedTasks_ingest env x.app failure).1
  rw [sessionStep]
  by_cases hsame : tasksJson env x.app = x.app.lastPersistedTasksJson
  · have happ : savePersistedTasks env x.app failure = x.app := by
      rw [savePersistedTasks, if_pos hsame]
    rw [happ, if_pos (.inl hsame)]
    exact ⟨hinv.keyed, hinv.unchanged h hsame, hinv.last⟩
  · cases failure with
    | none =>
      rw [if_pos (.inr rfl)]
      refine ⟨hingest ▸ hinv.keyed, ?_, ?_⟩
      · dsimp only
        rw [savePersistedTasks, if_neg hsame]
        exact ⟨fun z hz => Option.some.inj hz ▸ hinv.keyed, rfl, fun hnone => by cases hnone⟩
      · dsimp only
        rw [savePersistedTasks, if_neg hsame]
        exact .inr rfl
    | some e =>
      rw [if_neg (by simpa using hsame)]
      have hrotated : x.app.copies.rotate.main = x.app.copies.main := by
        rw [hinv.holding.rotate.main, hinv.holding.main]
      refine ⟨hingest ▸ hinv.keyed, ?_, ?_⟩
      · dsimp only
        rw [savePersistedTasks, if_neg hsame]
        exact hinv.holding.rotate
      · dsimp only
        rw [savePersistedTasks, if_neg hsame]
        exact hrotated ▸ hinv.last

theorem SessionInv.step (h : env.Lawful) {x : Session} (hinv : SessionInv env x) (l : SessionStep) :
    SessionInv env (sessionStep env x l) := by
  cases l with
  | views now batch => exact ⟨tasksKeyed_ingest now hinv.keyed batch, hinv.holding, hinv.last⟩
  | consume now ev => exact ⟨tasksKeyed_applyEvent now hinv.keyed ev, hinv.holding, hinv.last⟩
  | addMagnet taskId magnet => exact ⟨hinv.keyed, hinv.holding, hinv.last⟩
  | save failure => exact hinv.save h failure
  | restart cut now rd =>
    unfold sessionStep loadPersistedTasks
    refine ⟨tasksKeyed_restored now _ tasksKeyed_empty, ?_, .inl ?_⟩
    · dsimp only
      rw [(files_restored now _ _).1]
      exact hinv.ended h cut
    · dsimp only
      rw [(files_restored now _ _).2]

/-- A printed task list is worth its tasks. -/
theorem tasks_copyWorth (h : env.Lawful) {z : AppState} (hread : env.ReadsBack z) :
    (copyWorth env (tasksJson env z)).tasks =
      (snapshots z.ingest.tasks).map fun s => .obj (savedTask env z.knownTaskMagnets s) := by
  unfold copyWorth
  rw [hread]
  unfold savedEnvelope
  generalize (snapshots z.ingest.tasks).map (fun s => Json.obj (savedTask env z.knownTaskMagnets s)) = arr
  have htasks (sum : String) : JsonObject.value [("version", .num kTasksJsonVersion), ("checksum", .str sum),
      ("tasks", .arr arr)] "tasks" = .arr arr := by
    simp [JsonObject.value, List.lookup_cons]
  have hchecksum (sum : String) : JsonObject.value [("version", .num kTasksJsonVersion), ("checksum", .str sum),
      ("tasks", .arr arr)] "checksum" = .str sum := by
    simp [JsonObject.value, List.lookup_cons]
  dsimp only
  rw [htasks, hchecksum, Json.toArray, Json.toText, h.trimmed_sha256Hex]
  split
  · rfl
  · rw [if_pos rfl]
    rfl

/-- The start reads the saved tasks. -/
theorem Holding.metaOf (h : env.Lawful) {copies : Copies} {x : Session} (hold : Holding env copies x.saved)
    (hread : ∀ z, x.saved = some z → env.ReadsBack z) :
    MetaOf env x.savedMagnets x.savedTasks (loadTasksMeta env copies) := by
  rw [loadTasksMeta_eq]
  intro key o
  unfold Session.savedMagnets Session.savedTasks
  cases hsaved : x.saved with
  | none =>
    have hempty : metaByTaskKey (firstCopy env {}).tasks = ∅ := rfl
    rw [hold.fresh hsaved, hempty]
    simp
  | some z =>
    have hmain := hold.main
    rw [hsaved, Option.map_some, held] at hmain
    have hcontent : copies.main.content = some (tasksJson env z) := by
      rw [hmain, ← readWholeFile_content env.filePath]
      exact ⟨rfl, rfl, h.nonempty _⟩
    have hcontents : copies.contents.head? = some (tasksJson env z) := by
      rw [Copies.contents, List.filterMap_cons, hcontent]
      rfl
    have hworth := tasks_copyWorth h (hread z hsaved)
    rw [firstCopy, hcontents]
    dsimp only
    rw [hworth]
    exact (lookup_savedTasks h z.knownTaskMagnets _ (pairwise_snapshots (hold.keyed z hsaved)) ∅ key o).trans
      (by simp)

/-- Whatever there was before, a start brings back the tasks of the last save that did not fail, and nothing
else. -/
theorem restart_brings_back (h : env.Lawful) (steps : List SessionStep) (cut : Option Crash) (now : Clock)
    (rd : Map String FileState) :
    let x := run (sessionStep env) {} (steps ++ [.restart cut now rd])
    (∀ z, x.saved = some z → env.ReadsBack z) → Restarted env rd x.savedMagnets x.savedTasks x.app := by
  have hinv : SessionInv env (run (sessionStep env) {} steps) :=
    run_invariant (fun _ l hinv => hinv.step h l)
      ⟨tasksKeyed_empty, ⟨by simp, rfl, fun _ => rfl⟩, .inl rfl⟩ steps
  have hold := hinv.ended h cut
  dsimp only
  rw [run_append, run_cons, run_nil]
  generalize run (sessionStep env) {} steps = x at hold
  intro hread
  refine restarted_load h now (hold.metaOf h hread) ?_
  unfold Session.savedTasks
  cases hsaved : Session.saved _ with
  | none => exact List.Pairwise.nil
  | some z => exact pairwise_snapshots (hold.keyed z hsaved)

/-! ### Two tasks -/

def twoKey : String := "00000000-0000-0000-0000-000000000002"

def twoMagnet : String := "magnet:?xt=urn:btih:0000000000000000000000000000000000000002"

/-- Two tasks, one of them from a magnet. -/
def twoAdded : List SessionStep :=
  [.addMagnet 2 twoMagnet, .consume (clockFrom 4) { taskId := 1, name := "a" },
    .consume (clockFrom 5) { taskId := 2, name := "b", savePath := "/tmp" }]

/-- They are saved, and one is renamed. -/
def twoRenamed : List SessionStep := twoAdded ++
  [.save none, .consume (clockFrom 6) { taskId := 1, name := "c" }]

/-- The next save fails. -/
def failedSave : SessionStep := .save (some { code := .fileWriteFailed, message := "disk full" })

/-- The array of the two tasks, where the first has this name and was changed at this time. -/
def twoTasksJson (name : String) (lastUpdatedMs : Int) : List Json :=
  [.obj [("task_id", .str twoKey), ("magnet", .str twoMagnet), ("name", .str "b"), ("save_path", .str "/tmp"),
      ("category", .str ""), ("tags", .str ""), ("status", .num 0), ("last_updated_ms", .num 6)],
    .obj [("task_id", .str oneKey), ("name", .str name), ("save_path", .str ""), ("category", .str ""),
      ("tags", .str ""), ("status", .num 0), ("last_updated_ms", .num lastUpdatedMs)]]

/-- The hashes of the two arrays. -/
def twoTasksHash (data : Bytes) : String :=
  if data = jsonCompact (twoTasksJson "a" 5) then
    "23db0003baea62de26ce22339630342872479618ff78a2faf9c50b2c7f399aeb"
  else if data = jsonCompact (twoTasksJson "c" 7) then
    "46817f4a291f34dff171641292820137effa6c69f7550946fd67bba4f2049765"
  else ""

/-- The document of the first save. -/
def twoTasksDocument : JsonObject :=
  [("version", .num 1), ("checksum", .str (twoTasksHash (jsonCompact (twoTasksJson "a" 5)))),
    ("tasks", .arr (twoTasksJson "a" 5))]

/-- Qt on these keys and documents, and libtorrent on the magnet. -/
def savedTaskEnv : PersistEnv where
  fromJson data := if data = jsonIndented twoTasksDocument then .object twoTasksDocument else .null
  toJsonCompact := jsonCompact
  toJsonIndented := jsonIndented
  sha256Hex := twoTasksHash
  taskKey t :=
    if t = 1 then oneKey else if t = 2 then twoKey else String.ofList (List.replicate (t.toNat + 40) 'x')
  uuidFromKey key :=
    if key = oneKey then 1 else if key = twoKey then 2 else BitVec.ofNat 128 (key.length - 40)
  magnetTaskId magnet := if magnet = twoMagnet then some 2 else none
  qt := { cleanPath := id, downloadLocation := "", urlScheme := fun _ => none, toLower := id }

theorem taskKey_savedTaskEnv (t : TaskId) : savedTaskEnv.taskKey t =
    if t = 1 then oneKey else if t = 2 then twoKey
    else String.ofList (List.replicate (t.toNat + 40) 'x') := rfl

theorem savedTaskEnv_lawful : savedTaskEnv.Lawful where
  nonempty := jsonIndented_ne_nil
  trimmed_sha256Hex data := by
    show trimmed (twoTasksHash data) = twoTasksHash data
    unfold twoTasksHash
    split_ifs
    · decide +kernel
    · decide +kernel
    · decide +kernel
  trimmed_taskKey t := by
    rw [taskKey_savedTaskEnv]
    split_ifs
    · decide +kernel
    · decide +kernel
    · have hx : isSpace 'x' = false := by decide
      apply String.toList_injective
      rw [toList_trimmed]
      simp [hx]
  taskKey_ne t := by
    rw [taskKey_savedTaskEnv]
    split_ifs
    · decide +kernel
    · decide +kernel
    · simp
  uuidFromKey_taskKey t := by
    rw [taskKey_savedTaskEnv]
    show (if _ = oneKey then 1 else if _ = twoKey then 2 else _) = t
    by_cases hone : t = 1
    · rw [hone]
      decide +kernel
    · by_cases htwo : t = 2
      · rw [htwo]
        decide +kernel
      · have hother {key : String} (hkey : key.length = 36) :
            String.ofList (List.replicate (t.toNat + 40) 'x') ≠ key := by
          intro heq
          have hlength := congrArg String.length heq
          rw [String.length_ofList, List.length_replicate, hkey] at hlength
          omega
        rw [if_neg hone, if_neg htwo, if_neg (hother (by decide +kernel)), if_neg (hother (by decide +kernel))]
        simp
  magnetTaskId_ne magnet t h := by
    have hid : (if magnet = twoMagnet then some (2 : TaskId) else none) = some t := h
    split at hid
    · obtain rfl := Option.some.inj hid
      decide
    · cases hid

/-- The resume file of the first task. -/
def oneResumeFile : Map String FileState := AList.insert oneKey (.bytes [1]) ∅

/-- The next save is cut when the main file is copied. -/
def cutCopy : Crash := { done := 3, torn := .bytes [0x7b] }

theorem magnetMember_twoMagnet : magnetMember (some twoMagnet) = [("magnet", .str twoMagnet)] := by
  have htrimmed : trimmed twoMagnet ≠ "" := by decide +kernel
  unfold magnetMember
  exact if_pos htrimmed

theorem savedEnvelope_twoAdded :
    savedEnvelope savedTaskEnv (run (sessionStep savedTaskEnv) {} twoAdded).app = twoTasksDocument := by
  have hsnaps : snapshots (run (sessionStep savedTaskEnv) {} twoAdded).app.ingest.tasks =
      [{ taskId := 2, name := "b", savePath := "/tmp", addedAtMs := 5, lastUpdatedMs := 6 },
        { taskId := 1, name := "a", addedAtMs := 4, lastUpdatedMs := 5 }] := by
    decide +kernel
  have hone : (upsertKnownTaskMagnet savedTaskEnv ∅ 2 twoMagnet).lookup (savedTaskEnv.taskKey 1) = none := by
    decide +kernel
  have htwo : (upsertKnownTaskMagnet savedTaskEnv ∅ 2 twoMagnet).lookup (savedTaskEnv.taskKey 2) =
      some twoMagnet := by
    decide +kernel
  have harr : (snapshots (run (sessionStep savedTaskEnv) {} twoAdded).app.ingest.tasks).map (fun s =>
      Json.obj (savedTask savedTaskEnv (run (sessionStep savedTaskEnv) {} twoAdded).app.knownTaskMagnets s)) =
      twoTasksJson "a" 5 := by
    have hknown : (run (sessionStep savedTaskEnv) {} twoAdded).app.knownTaskMagnets =
        upsertKnownTaskMagnet savedTaskEnv ∅ 2 twoMagnet := rfl
    rw [hsnaps, hknown, List.map_cons, List.map_cons, List.map_nil, savedTask, savedTask, hone, htwo,
      magnetMember_twoMagnet]
    rfl
  have hhash : savedTaskEnv.sha256Hex = twoTasksHash := rfl
  have hcompact : savedTaskEnv.toJsonCompact = jsonCompact := rfl
  unfold savedEnvelope twoTasksDocument
  dsimp only
  rw [harr, hhash, hcompact, kTasksJsonVersion]
  rfl

/-- The rename is not saved. -/
theorem saved_twoRenamed : (run (sessionStep savedTaskEnv) {}
      (twoRenamed ++ [failedSave] ++ [.restart (some cutCopy) (clockFrom 9) oneResumeFile])).saved =
    some (run (sessionStep savedTaskEnv) {} twoAdded).app := by
  have hsaved : (run (sessionStep savedTaskEnv) {} twoRenamed).saved =
      some (run (sessionStep savedTaskEnv) {} twoAdded).app := by
    rw [twoRenamed, run_append, run_cons, run_cons, run_nil, sessionStep, sessionStep, if_pos (.inr rfl)]
  have hchanged : tasksJson savedTaskEnv (run (sessionStep savedTaskEnv) {} twoRenamed).app ≠
      (run (sessionStep savedTaskEnv) {} twoRenamed).app.lastPersistedTasksJson := by
    decide +kernel
  have hops : ¬ (fileOps (run (sessionStep savedTaskEnv) {} twoRenamed).app.copies.rotate
      (tasksJson savedTaskEnv (run (sessionStep savedTaskEnv) {} twoRenamed).app)).length ≤ cutCopy.done := by
    decide +kernel
  rw [run_append, run_append, run_cons, run_nil, run_cons, run_nil, ← hsaved]
  generalize run (sessionStep savedTaskEnv) {} twoRenamed = x at hchanged hops ⊢
  have hfailed : sessionStep savedTaskEnv x failedSave =
      { app := { x.app with copies := x.app.copies.rotate }, saved := x.saved } := by
    rw [failedSave, sessionStep, savePersistedTasks, if_neg hchanged, if_neg (by simpa using hchanged)]
    rfl
  have hsame : tasksJson savedTaskEnv { x.app with copies := x.app.copies.rotate } =
      tasksJson savedTaskEnv x.app := rfl
  rw [hfailed, sessionStep, Session.ended]
  dsimp only
  rw [hsame, if_neg hchanged, if_neg hops]

/-- After the failed save and the cut one, both tasks are back, as they were saved. -/
theorem restart_brings_back_two :
    let x := run (sessionStep savedTaskEnv) {}
      (twoRenamed ++ [failedSave] ++ [.restart (some cutCopy) (clockFrom 9) oneResumeFile])
    Restarted savedTaskEnv oneResumeFile x.savedMagnets x.savedTasks x.app := by
  refine restart_brings_back savedTaskEnv_lawful (twoRenamed ++ [failedSave]) (some cutCopy)
    (clockFrom 9) oneResumeFile fun z hz => ?_
  rw [saved_twoRenamed] at hz
  obtain rfl : _ = z := Option.some.inj hz
  unfold PersistEnv.ReadsBack
  have hprinted : tasksJson savedTaskEnv (run (sessionStep savedTaskEnv) {} twoAdded).app =
      jsonIndented twoTasksDocument := by
    rw [← savedEnvelope_twoAdded]
    rfl
  have hread (data : Bytes) : savedTaskEnv.fromJson data =
      if data = jsonIndented twoTasksDocument then .object twoTasksDocument else .null := rfl
  rw [hprinted, savedEnvelope_twoAdded, hread, if_pos rfl]

end TorrentLink.App
