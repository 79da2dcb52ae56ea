import TorrentLink.App.EventIngest

/-!
# The text fields of a snapshot

Everyone who writes a task's name, save path, category or tags goes through the presence rule of the
store, for which an empty text is not presented. So while the task is not removed, each field holds the
last non-empty value that was presented for it (`fieldValue_consumeBatch`), and a removal empties it.
-/

namespace TorrentLink.App

open Lt

inductive MetaField
  | name | savePath | category | tags
  deriving DecidableEq, Repr

def MetaField.ofSnapshot : MetaField → TaskSnapshot → String
  | .name, s => s.name
  | .savePath, s => s.savePath
  | .category, s => s.category
  | .tags, s => s.tags

def MetaField.ofEvent : MetaField → TaskEvent → String
  | .name, ev => ev.name
  | .savePath, ev => ev.savePath
  | .category, ev => ev.category
  | .tags, ev => ev.tags

/-- What a view presents for the field: no view carries a category or tags on. -/
def MetaField.ofView : MetaField → LtAlertView → String
  | .name, v => viewName v
  | .savePath, v => viewSavePath v
  | .category, _ => ""
  | .tags, _ => ""

/-- The field of a task, empty when the store does not list the task. -/
def fieldValue (f : MetaField) (t : TaskId) (tasks : Tasks) : String :=
  ((tasks.lookup t).map f.ofSnapshot).getD ""

/-- The views of a task that are mapped: a view with the null id is not. -/
def viewsOf (t : TaskId) (views : List LtAlertView) : List LtAlertView :=
  if t = 0 then [] else views.filter fun v => v.taskId = t

/-- The values that a batch of views presents for the field of the task. -/
def viewsPresent (f : MetaField) (t : TaskId) (views : List LtAlertView) : List String :=
  match f with
  | .name => (viewsOf t views).map viewName
  | .savePath => (viewsOf t views).map viewSavePath
  | .category | .tags => []

/-- The last value that is not empty, `old` if there is none. -/
def lastNonEmpty (old : String) (values : List String) : String :=
  ((values.filter (· ≠ "")).getLast?).getD old

/-! ### The last non-empty value -/

/-- Each value is taken by the presence rule. -/
theorem lastNonEmpty_cons (old v : String) (values : List String) :
    lastNonEmpty old (v :: values) = lastNonEmpty (textOr v old) values := by
  unfold lastNonEmpty textOr
  by_cases hv : v = ""
  · rw [List.filter_cons_of_neg (by simpa using hv), if_neg (by simpa using hv)]
  · rw [List.filter_cons_of_pos (by simpa using hv), if_pos hv, List.getLast?_cons]
    rfl

theorem lastNonEmpty_append (old : String) (values values' : List String) :
    lastNonEmpty old (values ++ values') = lastNonEmpty (lastNonEmpty old values) values' := by
  induction values generalizing old with
  | nil => rfl
  | cons v values ih => rw [List.cons_append, lastNonEmpty_cons, lastNonEmpty_cons, ih]

/-! ### One event -/

/-- The value an event presents for the field: two types of events carry the fields, and one of them no
save path. -/
def eventField (f : MetaField) (ev : TaskEvent) : String :=
  match ev.type with
  | .upsertMeta => f.ofEvent ev
  | .progressUpdated => if f = .savePath then "" else f.ofEvent ev
  | _ => ""

/-- The value an event presents for the field of the task `t`. -/
def presentedFor (f : MetaField) (t : TaskId) (ev : TaskEvent) : String :=
  if ev.taskId = t then eventField f ev else ""

theorem ofSnapshot_mergeEvent (f : MetaField) (s : TaskSnapshot) (ev : TaskEvent) :
    f.ofSnapshot (mergeEvent s ev) = textOr (eventField f ev) (f.ofSnapshot s) := by
  unfold mergeEvent eventField
  cases f <;> cases ev.type <;> rfl

theorem ofSnapshot_lastUpdated (f : MetaField) (s : TaskSnapshot) (ms : Int) :
    f.ofSnapshot { s with lastUpdatedMs := ms } = f.ofSnapshot s := by
  cases f <;> rfl

theorem ofSnapshot_snapshotFor (f : MetaField) (now : Clock) (tasks : Tasks) (ev : TaskEvent) :
    f.ofSnapshot (snapshotFor now tasks ev) = fieldValue f ev.taskId tasks := by
  unfold snapshotFor fieldValue
  cases tasks.lookup ev.taskId with
  | none => cases f <;> rfl
  | some s => rfl

/-- The presence rule: an event that does not remove the task overwrites the field exactly with a
non-empty value. -/
theorem fieldValue_applyEvent (f : MetaField) (t : TaskId) (now : Clock) (tasks : Tasks)
    {ev : TaskEvent} (hr : ev.taskId = t → ev.type ≠ .removed) :
    fieldValue f t (applyEvent now tasks ev) = textOr (presentedFor f t ev) (fieldValue f t tasks) := by
  unfold presentedFor
  by_cases ht : ev.taskId = t
  · rw [if_pos ht]
    by_cases hd : ev.type = .duplicateRejected
    · have hempty : eventField f ev = "" := by simp only [eventField, hd]
      rw [lookup_applyEvent_duplicateRejected now tasks hd, hempty]
      rfl
    · subst ht
      rw [fieldValue, lookup_applyEvent_self now tasks hd (hr rfl), Option.map_some, Option.getD_some,
        ofSnapshot_lastUpdated, ofSnapshot_mergeEvent, ofSnapshot_snapshotFor]
  · rw [if_neg ht, fieldValue, lookup_applyEvent_ne now tasks ht]
    rfl

theorem fieldValue_applyEvent_removed (f : MetaField) (now : Clock) (tasks : Tasks) {ev : TaskEvent}
    (hr : ev.type = .removed) : fieldValue f ev.taskId (applyEvent now tasks ev) = "" := by
  rw [fieldValue, lookup_applyEvent_removed now tasks hr]
  rfl

/-! ### A batch of events -/

/-- No event of the batch removes the task. -/
def LiveFor (t : TaskId) (events : List TaskEvent) : Prop :=
  ∀ ev ∈ events, ev.taskId = t → ev.type ≠ .removed

theorem consumeBatch_cons (now : Clock) (tasks : Tasks) (ev : TaskEvent) (events : List TaskEvent) :
    consumeBatch now tasks (ev :: events) =
      consumeBatch (now.after 2) (applyEvent now tasks ev) events := rfl

theorem liveFor_cons {t : TaskId} {ev : TaskEvent} {events : List TaskEvent} :
    LiveFor t (ev :: events) ↔ (ev.taskId = t → ev.type ≠ .removed) ∧ LiveFor t events := by
  unfold LiveFor
  rw [List.forall_mem_cons]

theorem fieldValue_consumeBatch (f : MetaField) (t : TaskId) (now : Clock) (events : List TaskEvent)
    (tasks : Tasks) (hlive : LiveFor t events) :
    fieldValue f t (consumeBatch now tasks events) =
      lastNonEmpty (fieldValue f t tasks) (events.map (presentedFor f t)) := by
  induction events generalizing now tasks with
  | nil => rfl
  | cons ev evs ih =>
    obtain ⟨hev, hrest⟩ := liveFor_cons.mp hlive
    rw [consumeBatch_cons, ih (now.after 2) _ hrest, fieldValue_applyEvent f t now tasks hev, List.map_cons,
      lastNonEmpty_cons]

theorem isSome_lookup_consumeBatch (t : TaskId) (now : Clock) (events : List TaskEvent)
    (tasks : Tasks) (hlive : LiveFor t events) (h : (tasks.lookup t).isSome) :
    ((consumeBatch now tasks events).lookup t).isSome := by
  induction events generalizing now tasks with
  | nil => exact h
  | cons ev evs ih =>
    obtain ⟨hev, hrest⟩ := liveFor_cons.mp hlive
    exact ih (now.after 2) _ hrest (isSome_lookup_applyEvent now tasks hev h)

/-- A field that nobody presents a value for stays empty. -/
theorem fieldValue_consumeBatch_empty {f : MetaField} {t : TaskId} (now : Clock)
    {events : List TaskEvent} {tasks : Tasks} (hsilent : ∀ ev ∈ events, presentedFor f t ev = "")
    (hempty : fieldValue f t tasks = "") : fieldValue f t (consumeBatch now tasks events) = "" := by
  induction events generalizing now tasks with
  | nil => exact hempty
  | cons ev evs ih =>
    obtain ⟨hev, hrest⟩ := List.forall_mem_cons.mp hsilent
    refine ih (now.after 2) hrest ?_
    by_cases hr : ev.taskId = t ∧ ev.type = .removed
    · obtain ⟨rfl, hremoved⟩ := hr
      exact fieldValue_applyEvent_removed f now tasks hremoved
    · rw [fieldValue_applyEvent f t now tasks fun ht htype => hr ⟨ht, htype⟩, hev, hempty]
      rfl

/-- A batch that removes the task leaves a field empty that none of its events presents. -/
theorem fieldValue_consumeBatch_removed {f : MetaField} {t : TaskId} (now : Clock)
    {events : List TaskEvent} (tasks : Tasks) (hsilent : ∀ ev ∈ events, presentedFor f t ev = "")
    (hremoved : ¬ LiveFor t events) : fieldValue f t (consumeBatch now tasks events) = "" := by
  induction events generalizing now tasks with
  | nil => exact absurd (fun ev hev => absurd hev List.not_mem_nil) hremoved
  | cons ev evs ih =>
    obtain ⟨_, hrest⟩ := List.forall_mem_cons.mp hsilent
    rw [consumeBatch_cons]
    by_cases hev : ev.taskId = t → ev.type ≠ .removed
    · exact ih (now.after 2) _ hrest fun hlive => hremoved (liveFor_cons.mpr ⟨hev, hlive⟩)
    · push Not at hev
      obtain ⟨rfl, htype⟩ := hev
      exact fieldValue_consumeBatch_empty (now.after 2) hrest
        (fieldValue_applyEvent_removed f now tasks htype)

/-! ### The locks -/

theorem SameButStatus.type_eq {ev ev' : TaskEvent} (h : SameButStatus ev ev') :
    ev'.type = ev.type := by
  obtain ⟨st, rfl⟩ := h
  rfl

theorem SameButStatus.taskId_eq {ev ev' : TaskEvent} (h : SameButStatus ev ev') :
    ev'.taskId = ev.taskId := by
  obtain ⟨st, rfl⟩ := h
  rfl

theorem SameButStatus.presentedFor_eq {ev ev' : TaskEvent} (h : SameButStatus ev ev')
    (f : MetaField) (t : TaskId) : presentedFor f t ev' = presentedFor f t ev := by
  obtain ⟨st, rfl⟩ := h
  unfold presentedFor eventField
  cases f <;> rfl

theorem map_presentedFor_locked (f : MetaField) (t : TaskId) {evs evs' : List TaskEvent}
    (h : List.Forall₂ SameButStatus evs evs') :
    evs'.map (presentedFor f t) = evs.map (presentedFor f t) := by
  induction h with
  | nil => rfl
  | cons hev _ ih => rw [List.map_cons, List.map_cons, hev.presentedFor_eq, ih]

theorem liveFor_locked {t : TaskId} {evs evs' : List TaskEvent}
    (h : List.Forall₂ SameButStatus evs evs') : LiveFor t evs' ↔ LiveFor t evs := by
  induction h with
  | nil => rfl
  | cons hev _ ih => rw [liveFor_cons, liveFor_cons, hev.type_eq, hev.taskId_eq, ih]

/-! ### A batch of views -/

theorem eventField_mapped {v : LtAlertView} {ev : TaskEvent} (h : mapAlertToTaskEvent v = some ev)
    (f : MetaField) : eventField f ev = f.ofView v := by
  have hsame : eventField f ev = f.ofEvent ev := by
    unfold mapAlertToTaskEvent at h
    split at h
    · simp at h
    · cases hv : v.type <;> simp only [hv] at h <;> cases h <;> cases f <;> rfl
  obtain ⟨hcat, htags⟩ := mapAlertToTaskEvent_category_tags h
  rw [hsame]
  cases f with
  | name => exact mapAlertToTaskEvent_name h
  | savePath => exact mapAlertToTaskEvent_savePath h
  | category => exact hcat
  | tags => exact htags

theorem ofView_ignored (f : MetaField) {v : LtAlertView} (h : v.type = .ignored) :
    f.ofView v = "" := by
  cases f <;> simp [MetaField.ofView, viewName, viewSavePath, h]

theorem taskId_ne_zero_mapped {v : LtAlertView} {ev : TaskEvent}
    (h : mapAlertToTaskEvent v = some ev) : v.taskId ≠ 0 := by
  intro h0
  unfold mapAlertToTaskEvent at h
  rw [if_pos (by simp [TaskId.isNull, h0])] at h
  simp at h

/-- The value a view presents for the field of the task `t`. -/
def viewPresents (f : MetaField) (t : TaskId) (v : LtAlertView) : String :=
  if t ≠ 0 ∧ v.taskId = t then f.ofView v else ""

theorem lastNonEmpty_viewsPresent_cons (f : MetaField) (t : TaskId) (old : String) (v : LtAlertView)
    (vs : List LtAlertView) :
    lastNonEmpty old (viewsPresent f t (v :: vs)) =
      lastNonEmpty (textOr (viewPresents f t v) old) (viewsPresent f t vs) := by
  unfold viewPresents
  by_cases h : t ≠ 0 ∧ v.taskId = t
  · have hof : viewsOf t (v :: vs) = v :: viewsOf t vs := by
      unfold viewsOf
      rw [if_neg h.1, if_neg h.1, List.filter_cons_of_pos (by simpa using h.2)]
    rw [if_pos h]
    cases f <;> simp only [viewsPresent, hof, List.map_cons, lastNonEmpty_cons] <;> rfl
  · have hof : viewsOf t (v :: vs) = viewsOf t vs := by
      unfold viewsOf
      split_ifs with h0
      · rfl
      · exact List.filter_cons_of_neg (by simpa using fun hv => h ⟨h0, hv⟩)
    rw [if_neg h]
    cases f <;> simp only [viewsPresent, hof] <;> rfl

/-- A view that is not mapped presents nothing. -/
theorem viewPresents_unmapped (f : MetaField) (t : TaskId) {v : LtAlertView}
    (hmap : mapAlertToTaskEvent v = none) : viewPresents f t v = "" := by
  unfold viewPresents
  split_ifs with h
  · by_cases htype : v.type = .ignored
    · exact ofView_ignored f htype
    · have hsome := isSome_mapAlertToTaskEvent htype (h.2 ▸ h.1)
      rw [hmap] at hsome
      simp at hsome
  · rfl

theorem presentedFor_mapped (f : MetaField) (t : TaskId) {v : LtAlertView} {ev : TaskEvent}
    (hmap : mapAlertToTaskEvent v = some ev) : presentedFor f t ev = viewPresents f t v := by
  have hnull := taskId_ne_zero_mapped hmap
  unfold presentedFor viewPresents
  rw [mapAlertToTaskEvent_taskId hmap, eventField_mapped hmap]
  by_cases hv : v.taskId = t
  · rw [if_pos hv, if_pos ⟨hv ▸ hnull, hv⟩]
  · rw [if_neg hv, if_neg fun h => hv h.2]

/-- The events of a batch present what its views present, up to empty values. -/
theorem lastNonEmpty_batch (f : MetaField) (t : TaskId) (views : List LtAlertView) (old : String) :
    lastNonEmpty old ((views.filterMap mapAlertToTaskEvent).map (presentedFor f t)) =
      lastNonEmpty old (viewsPresent f t views) := by
  induction views generalizing old with
  | nil =>
    have hnone : viewsOf t [] = [] := by
      unfold viewsOf
      split_ifs <;> rfl
    cases f <;> simp only [viewsPresent, hnone] <;> rfl
  | cons v vs ih =>
    rw [lastNonEmpty_viewsPresent_cons]
    cases hmap : mapAlertToTaskEvent v with
    | none =>
      rw [List.filterMap_cons_none hmap, ih, viewPresents_unmapped f t hmap, textOr_empty]
    | some ev =>
      rw [List.filterMap_cons_some hmap, List.map_cons, lastNonEmpty_cons, ih,
        presentedFor_mapped f t hmap]

/-- A batch removes a task exactly when one of the task's views is a removal. -/
theorem liveFor_views {t : TaskId} {views : List LtAlertView} :
    LiveFor t (views.filterMap mapAlertToTaskEvent) ↔
      ∀ v ∈ viewsOf t views, v.type ≠ .taskRemoved := by
  unfold viewsOf
  constructor
  · intro hlive v hv htype
    split_ifs at hv with h0
    · simp at hv
    · obtain ⟨hmem, hid⟩ := List.mem_filter.mp hv
      obtain rfl : v.taskId = t := by simpa using hid
      obtain ⟨ev, hmap⟩ := Option.isSome_iff_exists.mp
        (isSome_mapAlertToTaskEvent (by rw [htype]; decide) h0)
      exact hlive ev (List.mem_filterMap.mpr ⟨v, hmem, hmap⟩) (mapAlertToTaskEvent_taskId hmap)
        ((mapAlertToTaskEvent_removed hmap).mpr htype)
  · intro h ev hev hid htype
    obtain ⟨v, hmem, hmap⟩ := List.mem_filterMap.mp hev
    have hv : v.taskId = t := (mapAlertToTaskEvent_taskId hmap).symm.trans hid
    refine h v ?_ ((mapAlertToTaskEvent_removed hmap).mp htype)
    rw [if_neg (hv ▸ taskId_ne_zero_mapped hmap)]
    exact List.mem_filter.mpr ⟨hmem, by simpa using hv⟩

variable {t : TaskId} {views : List LtAlertView}

theorem fieldValue_ingest (f : MetaField) (now : Clock) (s : Ingest)
    (hlive : ∀ v ∈ viewsOf t views, v.type ≠ .taskRemoved) :
    fieldValue f t (ingest now s views).1.tasks =
      lastNonEmpty (fieldValue f t s.tasks) (viewsPresent f t views) := by
  obtain ⟨events, hlocks, htasks⟩ := tasks_ingest now s views
  have hevents : LiveFor t events := (liveFor_locked hlocks).mpr (liveFor_views.mpr hlive)
  rw [htasks, fieldValue_consumeBatch f t (now.after 1) events s.tasks hevents,
    map_presentedFor_locked f t hlocks, lastNonEmpty_batch]

theorem isSome_ingest (now : Clock) (s : Ingest)
    (hlive : ∀ v ∈ viewsOf t views, v.type ≠ .taskRemoved) (h : (s.tasks.lookup t).isSome) :
    ((ingest now s views).1.tasks.lookup t).isSome := by
  obtain ⟨events, hlocks, htasks⟩ := tasks_ingest now s views
  have hevents : LiveFor t events := (liveFor_locked hlocks).mpr (liveFor_views.mpr hlive)
  rw [htasks]
  exact isSome_lookup_consumeBatch t (now.after 1) events s.tasks hevents h

/-- A batch with a removal of the task empties its category and its tags, whatever the batch does
after the removal. -/
theorem fieldValue_ingest_removed {f : MetaField} (hf : f = .category ∨ f = .tags) (now : Clock)
    (s : Ingest) (hremoved : ¬ ∀ v ∈ viewsOf t views, v.type ≠ .taskRemoved) :
    fieldValue f t (ingest now s views).1.tasks = "" := by
  obtain ⟨events, hlocks, htasks⟩ := tasks_ingest now s views
  rw [htasks]
  refine fieldValue_consumeBatch_removed (now.after 1) s.tasks (fun ev hev => ?_) fun h =>
    hremoved (liveFor_views.mp ((liveFor_locked hlocks).mp h))
  have hmem : presentedFor f t ev ∈
      (views.filterMap mapAlertToTaskEvent).map (presentedFor f t) := by
    rw [← map_presentedFor_locked f t hlocks]
    exact List.mem_map_of_mem hev
  obtain ⟨ev', hev', heq⟩ := List.mem_map.mp hmem
  obtain ⟨v, _, hmap⟩ := List.mem_filterMap.mp hev'
  rw [← heq, presentedFor_mapped f t hmap]
  unfold viewPresents
  obtain rfl | rfl := hf
  · exact ite_self ""
  · exact ite_self ""

end TorrentLink.App
