import TorrentLink.App.MetaFields
import TorrentLink.Base.InputSanitizer
import TorrentLink.Lib.Runs

/-!
# Who owns a task's name, category and tags

`TaskMetaCommandUseCase` writes a user's edit into the store as an `upsertMeta` event, and the worker's
alert views are ingested into the same store. Both go through the presence rule of the store, for which
an empty text is not presented. So each field holds the last non-empty value that anyone
presented for it (`metaField_run`): an edit stays exactly when it is that value, and
`edits_kept_iff` says when all edits of a run do.
-/

namespace TorrentLink.App

open Lib Lt

/-! ### The use case -/

/-- `applyMeta`: the event of an edit. -/
def metaEvent (taskId : TaskId) (name savePath category tagsCsv : String) : TaskEvent where
  type := .upsertMeta
  taskId := taskId
  name := name
  savePath := savePath
  category := category
  tags := tagsCsv

/-- The outcome of a command of the use case: the event it consumes, or the message it logs. -/
abbrev MetaOutcome := Except String TaskEvent

def moveTask (q : QtInput) (taskId : TaskId) (targetPath : String) : MetaOutcome :=
  match validatePath q targetPath with
  | some e => .error ("Move target path rejected: " ++ e.message)
  | none => .ok (metaEvent taskId "" targetPath "" "")

def renameTask (taskId : TaskId) (name : String) : MetaOutcome :=
  .ok (metaEvent taskId name "" "" "")

def updateCategory (taskId : TaskId) (category : String) : MetaOutcome :=
  match validateCategory category with
  | some e => .error ("Category rejected: " ++ e.message)
  | none => .ok (metaEvent taskId "" "" category "")

/-- `tags.join(",")` -/
def joinTags (tags : List String) : String := String.intercalate "," tags

def updateTags (taskId : TaskId) (tags : List String) : MetaOutcome :=
  let csv := joinTags tags
  match validateTagsCsv csv with
  | some e => .error ("Tags rejected: " ++ e.message)
  | none => .ok (metaEvent taskId "" "" "" csv)

def upsertMeta (taskId : TaskId) (name savePath category tagsCsv : String) : MetaOutcome :=
  .ok (metaEvent taskId name savePath category tagsCsv)

/-! ### Runs of edits and alert views -/

/-- A view that is not a removal. -/
abbrev LiveView := { v : LtAlertView // v.type ≠ .taskRemoved }

inductive MetaStep
  | rename (taskId : TaskId) (name : String)
  | category (taskId : TaskId) (category : String)
  | tags (taskId : TaskId) (tags : List String)
  | views (batch : List LiveView)

/-- A step, with the clock while it is made. -/
abbrev TimedMetaStep := Clock × MetaStep

/-- The edit a step makes, if the use case accepts it. -/
def MetaStep.edit : MetaStep → MetaOutcome
  | .rename t name => renameTask t name
  | .category t c => updateCategory t c
  | .tags t ts => updateTags t ts
  | .views _ => .error ""

def metaStep (s : Ingest) (l : TimedMetaStep) : Ingest :=
  match l.2 with
  | .views batch => (ingest l.1 s (batch.map (·.1))).1
  | edit =>
    match edit.edit with
    | .ok ev => { s with tasks := applyEvent l.1 s.tasks ev }
    | .error _ => s

/-- The field of a task's snapshot; `none` when the store does not list the task. -/
def metaField (f : MetaField) (t : TaskId) (s : Ingest) : Option String :=
  (s.tasks.lookup t).map f.ofSnapshot

/-- The value of the field in a step, if the step is an accepted edit of it. -/
def MetaStep.editOf (f : MetaField) (t : TaskId) : MetaStep → Option String
  | .rename t' name => if f = .name ∧ t' = t then some name else none
  | .category t' c =>
    if f = .category ∧ t' = t ∧ validateCategory c = none then some c else none
  | .tags t' ts =>
    if f = .tags ∧ t' = t ∧ validateTagsCsv (joinTags ts) = none then some (joinTags ts) else none
  | .views _ => none

/-- The last accepted edit of the field. -/
def lastEdit (f : MetaField) (t : TaskId) (steps : List TimedMetaStep) : Option String :=
  (steps.filterMap fun l => l.2.editOf f t).getLast?

/-- The values a step presents for the field: an accepted edit, or what a batch of views presents. -/
def MetaStep.presents (f : MetaField) (t : TaskId) : MetaStep → List String
  | .views batch => viewsPresent f t (batch.map (·.1))
  | edit => (edit.editOf f t).toList

/-- The values presented for the field along a run, in order. -/
def presented (f : MetaField) (t : TaskId) (steps : List TimedMetaStep) : List String :=
  steps.flatMap fun l => l.2.presents f t

/-! ### A batch of views -/

theorem live_batch (t : TaskId) (batch : List LiveView) :
    ∀ v ∈ viewsOf t (batch.map (·.1)), v.type ≠ .taskRemoved := by
  intro v hv
  unfold viewsOf at hv
  split_ifs at hv
  · simp at hv
  · obtain ⟨⟨v, hlive⟩, _, rfl⟩ := List.mem_map.mp (List.mem_filter.mp hv).1
    exact hlive

/-! ### One edit -/

theorem presentedFor_metaEvent (f : MetaField) (t t' : TaskId) (name savePath category tags : String) :
    presentedFor f t (metaEvent t' name savePath category tags) =
      if t' = t then f.ofEvent (metaEvent t' name savePath category tags) else "" := rfl

theorem edit_updateCategory {t : TaskId} {c : String} {ev : TaskEvent}
    (h : updateCategory t c = .ok ev) :
    validateCategory c = none ∧ ev = metaEvent t "" "" c "" := by
  unfold updateCategory at h
  cases hc : validateCategory c with
  | some e => simp [hc] at h
  | none =>
    rw [hc] at h
    exact ⟨rfl, (Except.ok.inj h).symm⟩

theorem edit_updateTags {t : TaskId} {ts : List String} {ev : TaskEvent}
    (h : updateTags t ts = .ok ev) :
    validateTagsCsv (joinTags ts) = none ∧ ev = metaEvent t "" "" "" (joinTags ts) := by
  unfold updateTags at h
  cases hc : validateTagsCsv (joinTags ts) with
  | some e => simp [hc] at h
  | none =>
    simp only [hc] at h
    exact ⟨rfl, (Except.ok.inj h).symm⟩

/-- The event of an accepted edit presents the edit's value for the edit's field, and an empty text
for the other two. -/
theorem presentedFor_edit (f : MetaField) (t : TaskId) {step : MetaStep} {ev : TaskEvent}
    (h : step.edit = .ok ev) : presentedFor f t ev = (step.editOf f t).getD "" := by
  cases step with
  | rename t' name =>
    cases h
    rw [presentedFor_metaEvent]
    by_cases ht : t' = t <;> cases f <;> simp [MetaStep.editOf, MetaField.ofEvent, metaEvent, ht]
  | category t' c =>
    obtain ⟨hc, rfl⟩ := edit_updateCategory h
    rw [presentedFor_metaEvent]
    by_cases ht : t' = t <;> cases f <;>
      simp [MetaStep.editOf, MetaField.ofEvent, metaEvent, ht, hc]
  | tags t' ts =>
    obtain ⟨hc, rfl⟩ := edit_updateTags h
    rw [presentedFor_metaEvent]
    by_cases ht : t' = t <;> cases f <;>
      simp [MetaStep.editOf, MetaField.ofEvent, metaEvent, ht, hc]
  | views batch => cases h

/-- A rejected edit is an edit of no field. -/
theorem editOf_rejected (f : MetaField) (t : TaskId) {step : MetaStep} {e : String}
    (h : step.edit = .error e) : step.editOf f t = none := by
  cases step with
  | rename t' name => cases h
  | category t' c =>
    have hc : validateCategory c ≠ none := by
      intro hc
      simp [MetaStep.edit, updateCategory, hc] at h
    exact if_neg fun hok => hc hok.2.2
  | tags t' ts =>
    have hc : validateTagsCsv (joinTags ts) ≠ none := by
      intro hc
      simp [MetaStep.edit, updateTags, hc] at h
    exact if_neg fun hok => hc hok.2.2
  | views batch => rfl

theorem edit_type {step : MetaStep} {ev : TaskEvent} (h : step.edit = .ok ev) :
    ev.type = .upsertMeta := by
  cases step with
  | rename t' name =>
    cases h
    rfl
  | category t' c =>
    obtain ⟨_, rfl⟩ := edit_updateCategory h
    rfl
  | tags t' ts =>
    obtain ⟨_, rfl⟩ := edit_updateTags h
    rfl
  | views batch => cases h

/-- What a step does to the state: a batch is ingested, an accepted edit is applied. -/
theorem metaStep_cases (s : Ingest) (l : TimedMetaStep) :
    (∃ batch, l.2 = .views batch ∧ metaStep s l = (ingest l.1 s (batch.map (·.1))).1) ∨
    (∃ ev, l.2.edit = .ok ev ∧ (∀ f t, l.2.presents f t = (l.2.editOf f t).toList) ∧
      metaStep s l = { s with tasks := applyEvent l.1 s.tasks ev }) ∨
    (∃ e, l.2.edit = .error e ∧ (∀ f t, l.2.presents f t = (l.2.editOf f t).toList) ∧
      metaStep s l = s) := by
  obtain ⟨now, step⟩ := l
  cases step with
  | views batch => exact .inl ⟨batch, rfl, rfl⟩
  | rename t name => exact .inr (.inl ⟨_, rfl, fun _ _ => rfl, rfl⟩)
  | category t c =>
    cases hedit : updateCategory t c with
    | ok ev =>
      refine .inr (.inl ⟨ev, hedit, fun _ _ => rfl, ?_⟩)
      simp only [metaStep, MetaStep.edit, hedit]
    | error e =>
      refine .inr (.inr ⟨e, hedit, fun _ _ => rfl, ?_⟩)
      simp only [metaStep, MetaStep.edit, hedit]
  | tags t ts =>
    cases hedit : updateTags t ts with
    | ok ev =>
      refine .inr (.inl ⟨ev, hedit, fun _ _ => rfl, ?_⟩)
      simp only [metaStep, MetaStep.edit, hedit]
    | error e =>
      refine .inr (.inr ⟨e, hedit, fun _ _ => rfl, ?_⟩)
      simp only [metaStep, MetaStep.edit, hedit]

/-! ### A run -/

theorem fieldValue_metaStep (f : MetaField) (t : TaskId) (s : Ingest) (l : TimedMetaStep) :
    fieldValue f t (metaStep s l).tasks =
      lastNonEmpty (fieldValue f t s.tasks) (l.2.presents f t) := by
  obtain ⟨batch, hl, hs⟩ | ⟨ev, hedit, hpres, hs⟩ | ⟨e, hedit, hpres, hs⟩ := metaStep_cases s l
  · rw [hs, hl]
    exact fieldValue_ingest f l.1 s (live_batch t batch)
  · have hr : ev.type ≠ .removed := by
      rw [edit_type hedit]
      decide
    rw [hs, hpres, fieldValue_applyEvent f t l.1 s.tasks fun _ => hr, presentedFor_edit f t hedit]
    cases l.2.editOf f t with
    | none => rfl
    | some v => exact (lastNonEmpty_cons _ v []).symm
  · rw [hs, hpres, editOf_rejected f t hedit]
    rfl

/-- Along a run the field is overwritten by every non-empty value that is presented for it, and by
nothing else. -/
theorem fieldValue_run (f : MetaField) (t : TaskId) (s : Ingest) (steps : List TimedMetaStep) :
    fieldValue f t (run metaStep s steps).tasks =
      lastNonEmpty (fieldValue f t s.tasks) (presented f t steps) := by
  induction steps generalizing s with
  | nil => rfl
  | cons l steps ih =>
    have hsplit : presented f t (l :: steps) = l.2.presents f t ++ presented f t steps := rfl
    rw [run_cons, ih, fieldValue_metaStep, hsplit, lastNonEmpty_append]

theorem isSome_metaStep (t : TaskId) (s : Ingest) (l : TimedMetaStep)
    (h : (s.tasks.lookup t).isSome) : ((metaStep s l).tasks.lookup t).isSome := by
  obtain ⟨batch, _, hs⟩ | ⟨ev, hedit, _, hs⟩ | ⟨e, _, _, hs⟩ := metaStep_cases s l
  · rw [hs]
    exact isSome_ingest l.1 s (live_batch t batch) h
  · rw [hs]
    exact isSome_lookup_applyEvent l.1 s.tasks (fun _ => by rw [edit_type hedit]; decide) h
  · rw [hs]
    exact h

theorem edit_of_editOf {f : MetaField} {t : TaskId} {step : MetaStep} {e : String}
    (h : step.editOf f t = some e) : ∃ ev, step.edit = .ok ev ∧ ev.taskId = t := by
  cases step with
  | rename t' name =>
    by_cases hc : f = .name ∧ t' = t
    · exact ⟨_, rfl, hc.2⟩
    · simp [MetaStep.editOf, hc] at h
  | category t' c =>
    by_cases hc : f = .category ∧ t' = t ∧ validateCategory c = none
    · refine ⟨metaEvent t' "" "" c "", ?_, hc.2.1⟩
      simp only [MetaStep.edit, updateCategory, hc.2.2]
    · simp [MetaStep.editOf, hc] at h
  | tags t' ts =>
    by_cases hc : f = .tags ∧ t' = t ∧ validateTagsCsv (joinTags ts) = none
    · refine ⟨metaEvent t' "" "" "" (joinTags ts), ?_, hc.2.1⟩
      simp only [MetaStep.edit, updateTags, hc.2.2]
    · simp [MetaStep.editOf, hc] at h
  | views batch => cases h

/-- An accepted edit puts the task into the store. -/
theorem isSome_edit {f : MetaField} {t : TaskId} {l : TimedMetaStep} {e : String}
    (h : l.2.editOf f t = some e) (s : Ingest) : ((metaStep s l).tasks.lookup t).isSome := by
  obtain ⟨ev, hedit, rfl⟩ := edit_of_editOf h
  obtain ⟨batch, hl, _⟩ | ⟨ev', hedit', _, hs⟩ | ⟨_, hedit', _, _⟩ := metaStep_cases s l
  · rw [hl] at hedit
    cases hedit
  · obtain rfl : ev' = ev := Except.ok.inj (hedit'.symm.trans hedit)
    have htype := edit_type hedit
    rw [hs, lookup_applyEvent_self l.1 s.tasks (by rw [htype]; decide) (by rw [htype]; decide)]
    rfl
  · rw [hedit'] at hedit
    cases hedit

theorem isSome_run {f : MetaField} {t : TaskId} {steps : List TimedMetaStep} {e : String}
    (h : lastEdit f t steps = some e) (s : Ingest) :
    ((run metaStep s steps).tasks.lookup t).isSome := by
  induction steps generalizing s with
  | nil => cases h
  | cons l steps ih =>
    cases hl : l.2.editOf f t with
    | none =>
      have hrest : lastEdit f t steps = some e := by
        unfold lastEdit at h ⊢
        rw [List.filterMap_cons, hl] at h
        exact h
      exact ih hrest (metaStep s l)
    | some v =>
      exact run_invariant (P := fun s => (s.tasks.lookup t).isSome)
        (fun s l => isSome_metaStep t s l) (isSome_edit hl s) steps

/-- The snapshot of an edited task: each field is the last non-empty value presented for it. -/
theorem metaField_run {f : MetaField} {t : TaskId} {steps : List TimedMetaStep} {e : String}
    (h : lastEdit f t steps = some e) (s : Ingest) :
    metaField f t (run metaStep s steps) =
      some (lastNonEmpty (fieldValue f t s.tasks) (presented f t steps)) := by
  rw [← fieldValue_run]
  have hsome := isSome_run h s
  unfold metaField fieldValue
  cases hl : (run metaStep s steps).tasks.lookup t with
  | none => simp [hl] at hsome
  | some snap => rfl

/-- Every edit of a run stays exactly when the last non-empty value presented for its field is the
edit's own. -/
theorem edits_kept_iff (s : Ingest) (steps : List TimedMetaStep) :
    (∀ t f e, lastEdit f t steps = some e → metaField f t (run metaStep s steps) = some e) ↔
      ∀ t f e, lastEdit f t steps = some e →
        lastNonEmpty (fieldValue f t s.tasks) (presented f t steps) = e := by
  constructor
  · intro h t f e he
    exact Option.some.inj ((metaField_run he s).symm.trans (h t f e he))
  · intro h t f e he
    rw [metaField_run he s, h t f e he]

/-- Tags that were set cannot be taken back: the empty list is accepted, and the tags stay. -/
theorem edits_lost_emptyTags :
    ¬ ∀ (s : Ingest) (steps : List TimedMetaStep) (t : TaskId) (f : MetaField) (e : String),
      lastEdit f t steps = some e → metaField f t (run metaStep s steps) = some e := by
  intro h
  have hkept := h {} [(0, .tags 1 ["a"]), (1, .tags 1 [])] 1 .tags "" (by decide)
  revert hkept
  decide

end TorrentLink.App
