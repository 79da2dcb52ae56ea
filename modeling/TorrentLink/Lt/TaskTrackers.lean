import TorrentLink.Base.QString
import TorrentLink.Lib.Places
import Mathlib.Data.List.Nodup

/-!
# The trackers of a task

The three commands read the trackers of the torrent, make a list of URLs of them and put in their place
the entries that `mergedTrackers` makes of the URLs. It takes the source and the fail limit from the old
entries and numbers the tiers, so a command leaves the other trackers as they are exactly if their tiers
are their places already (`handleTracker_changesOnly_iff`).
-/

namespace TorrentLink.Lt

open Lib

/-- The part of `libtorrent::announce_entry` that the commands read and write. -/
structure AnnounceEntry where
  url : String
  tier : UInt8 := 0
  failLimit : UInt8 := 0
  source : UInt8 := 0
  deriving DecidableEq, Repr

inductive TrackerCmd
  | addTaskTracker (url : String)
  | editTaskTracker (oldUrl newUrl : String)
  | removeTaskTracker (url : String)
  deriving DecidableEq, Repr

/-! ### The commands -/

section Commands

-- the constructor of `libtorrent::announce_entry`
variable (announceEntry : String → AnnounceEntry)

/-- The loop of `mergedTrackers`, with the next tier. -/
def mergedTrackersFrom (oldList : List AnnounceEntry) : Nat → List String → List AnnounceEntry
  | _, [] => []
  | tier, u :: urls =>
    let t := trimmed u
    if t = "" then mergedTrackersFrom oldList tier urls
    else
      let ae := { announceEntry t with tier := UInt8.ofNat tier }
      let ae :=
        match oldList.find? fun old => trimmed old.url = t with
        | some old => { ae with source := old.source, failLimit := old.failLimit }
        | none => ae
      ae :: mergedTrackersFrom oldList (tier + 1) urls

def mergedTrackers (oldList : List AnnounceEntry) (urls : List String) : List AnnounceEntry :=
  mergedTrackersFrom announceEntry oldList 0 urls

/-- The URLs that a command makes of the trackers. -/
def TrackerCmd.urls (old : List AnnounceEntry) : TrackerCmd → List String
  | addTaskTracker url => old.map (·.url) ++ [url]
  | editTaskTracker oldUrl newUrl =>
    old.map fun ae => if trimmed ae.url = trimmed oldUrl then trimmed newUrl else ae.url
  | removeTaskTracker url => (old.filter fun ae => trimmed ae.url ≠ trimmed url).map (·.url)

/-- The list that a command hands to `replace_trackers`. -/
def handleTracker (old : List AnnounceEntry) (cmd : TrackerCmd) : List AnnounceEntry :=
  mergedTrackers announceEntry old (cmd.urls old)

end Commands

/-! ### What a command names -/

/-- The tracker that a command is about. -/
def TrackerCmd.names (ae : AnnounceEntry) : TrackerCmd → Bool
  | addTaskTracker url => trimmed ae.url = trimmed url
  | editTaskTracker oldUrl _ => trimmed ae.url = trimmed oldUrl
  | removeTaskTracker url => trimmed ae.url = trimmed url

/-- The URL that it has afterwards: an empty one for a tracker that goes. -/
def TrackerCmd.target : TrackerCmd → String
  | addTaskTracker url => trimmed url
  | editTaskTracker _ newUrl => trimmed newUrl
  | removeTaskTracker _ => ""

def TrackerCmd.others (old : List AnnounceEntry) (cmd : TrackerCmd) : List AnnounceEntry :=
  old.filter fun ae => !cmd.names ae

/-- The places of the new list: each is that of an old tracker, or of the one that the command names. -/
def TrackerCmd.slots (old : List AnnounceEntry) (cmd : TrackerCmd) : List (Option AnnounceEntry) :=
  match cmd with
  | addTaskTracker _ => (old.map fun ae => if cmd.names ae then none else some ae) ++ [none]
  | editTaskTracker _ _ => old.map fun ae => if cmd.names ae then none else some ae
  | removeTaskTracker _ => (cmd.others old).map some

/-- The URL at a place. -/
def TrackerCmd.text (cmd : TrackerCmd) : Option AnnounceEntry → String
  | none => cmd.target
  | some ae => trimmed ae.url

/-- The places that are not left out. -/
def TrackerCmd.places (old : List AnnounceEntry) (cmd : TrackerCmd) : List (Option AnnounceEntry) :=
  (cmd.slots old).filter fun slot => cmd.text slot ≠ ""

/-- The command changes only the tracker that it names: all others stay as they are, in their order,
what else there is has the URL of the command, and no URL is there twice. -/
structure ChangesOnly (cmd : TrackerCmd) (old new : List AnnounceEntry) : Prop where
  others : (cmd.others old).Sublist new
  rest : ∀ ae ∈ new, ae ∈ cmd.others old ∨ ae.url = cmd.target
  distinct : (new.map (·.url)).Nodup

/-- The new URL is not there yet. -/
def TargetFree (old : List AnnounceEntry) : TrackerCmd → Prop
  | .addTaskTracker url => trimmed url = "" ∨ ∀ ae ∈ old, trimmed ae.url ≠ trimmed url
  | .editTaskTracker oldUrl newUrl => trimmed newUrl = "" ∨
    old.countP (fun ae => trimmed ae.url = trimmed oldUrl ∨ trimmed ae.url = trimmed newUrl) ≤ 1
  | .removeTaskTracker _ => True

/-- The other trackers are as `mergedTrackers` makes them. -/
structure OthersNumbered (cmd : TrackerCmd) (old : List AnnounceEntry) : Prop where
  urls : ∀ ae ∈ cmd.others old, trimmed ae.url = ae.url ∧ ae.url ≠ ""
  tiers : ∀ i ae, (cmd.places old)[i]? = some (some ae) → ae.tier = UInt8.ofNat i

/-! ### The new list, place by place -/

section Merged

variable {announceEntry : String → AnnounceEntry} {old : List AnnounceEntry} {cmd : TrackerCmd}

/-- The entry with a URL at a place. -/
def mergedEntry (announceEntry : String → AnnounceEntry) (old : List AnnounceEntry) (tier : Nat)
    (t : String) : AnnounceEntry :=
  match old.find? fun x => trimmed x.url = t with
  | some x => { announceEntry t with tier := UInt8.ofNat tier, source := x.source, failLimit := x.failLimit }
  | none => { announceEntry t with tier := UInt8.ofNat tier }

theorem mergedTrackersFrom_eq (urls : List String) (tier : Nat) :
    mergedTrackersFrom announceEntry old tier urls =
      ((urls.map trimmed).filter (· ≠ "")).mapIdx fun i t => mergedEntry announceEntry old (tier + i) t := by
  induction urls generalizing tier with
  | nil => rfl
  | cons u urls ih =>
    rw [mergedTrackersFrom, List.map_cons]
    by_cases hblank : trimmed u = ""
    · rw [if_pos hblank, List.filter_cons_of_neg (by simp [hblank])]
      exact ih tier
    · rw [if_neg hblank, List.filter_cons_of_pos (by simp [hblank]), List.mapIdx_cons, ih]
      have htiers : (fun i t => mergedEntry announceEntry old (tier + 1 + i) t) =
          fun i t => mergedEntry announceEntry old (tier + (i + 1)) t := by
        funext i t
        rw [Nat.add_right_comm, Nat.add_assoc]
      rw [htiers]
      refine congrArg (· :: _) ?_
      unfold mergedEntry
      cases old.find? fun x => trimmed x.url = trimmed u with
      | none => rfl
      | some x => rfl

theorem map_text_slots (cmd : TrackerCmd) (old : List AnnounceEntry) :
    (cmd.slots old).map cmd.text = (cmd.urls old).map trimmed := by
  cases cmd with
  | addTaskTracker url =>
    unfold TrackerCmd.slots TrackerCmd.urls
    rw [List.map_append, List.map_append, List.map_map, List.map_map]
    refine congrArg (· ++ _) (List.map_congr_left fun ae _ => ?_)
    simp only [Function.comp_apply, TrackerCmd.names, decide_eq_true_iff]
    split
    · rename_i hnamed
      exact hnamed.symm
    · rfl
  | editTaskTracker oldUrl newUrl =>
    unfold TrackerCmd.slots TrackerCmd.urls
    rw [List.map_map, List.map_map]
    refine List.map_congr_left fun ae _ => ?_
    simp only [Function.comp_apply, TrackerCmd.names, decide_eq_true_iff]
    split
    · exact (trimmed_trimmed newUrl).symm
    · rfl
  | removeTaskTracker url =>
    unfold TrackerCmd.slots TrackerCmd.urls
    rw [List.map_map, List.map_map]
    unfold TrackerCmd.others
    refine congrArg (List.map _) (List.filter_congr fun ae _ => ?_)
    simp [TrackerCmd.names]

theorem filterMap_slotOf (cmd : TrackerCmd) (old : List AnnounceEntry) :
    (old.map fun ae => if cmd.names ae then none else some ae).filterMap id = cmd.others old := by
  unfold TrackerCmd.others
  induction old with
  | nil => rfl
  | cons ae old ih =>
    rw [List.map_cons, List.filter_cons]
    cases cmd.names ae with
    | true => exact ih
    | false => exact congrArg (ae :: ·) ih

theorem filterMap_slots (cmd : TrackerCmd) (old : List AnnounceEntry) :
    (cmd.slots old).filterMap id = cmd.others old := by
  cases cmd with
  | addTaskTracker url =>
    unfold TrackerCmd.slots
    rw [List.filterMap_append, filterMap_slotOf]
    exact List.append_nil _
  | editTaskTracker oldUrl newUrl => exact filterMap_slotOf _ old
  | removeTaskTracker url =>
    unfold TrackerCmd.slots
    rw [List.filterMap_map]
    exact List.filterMap_some

theorem some_mem_slots {cmd : TrackerCmd} {ae : AnnounceEntry} :
    some ae ∈ cmd.slots old ↔ ae ∈ cmd.others old := by
  rw [← filterMap_slots, List.mem_filterMap]
  simp

theorem handleTracker_eq (cmd : TrackerCmd) (old : List AnnounceEntry) :
    handleTracker announceEntry old cmd =
      (cmd.places old).mapIdx fun i slot => mergedEntry announceEntry old i (cmd.text slot) := by
  unfold handleTracker mergedTrackers
  rw [mergedTrackersFrom_eq, ← map_text_slots, List.filter_map]
  refine List.ext_getElem? fun i => ?_
  rw [List.getElem?_mapIdx, List.getElem?_mapIdx, List.getElem?_map, Option.map_map, Nat.zero_add]
  rfl

theorem mem_places {slot : Option AnnounceEntry} :
    slot ∈ cmd.places old ↔ slot ∈ cmd.slots old ∧ cmd.text slot ≠ "" := by
  unfold TrackerCmd.places
  rw [List.mem_filter, decide_eq_true_iff]

/-! ### URLs -/

variable (hurl : ∀ t, (announceEntry t).url = t)

include hurl in
theorem mergedEntry_url (tier : Nat) (t : String) : (mergedEntry announceEntry old tier t).url = t := by
  unfold mergedEntry
  split
  · exact hurl t
  · exact hurl t

include hurl in
theorem handleTracker_urls (cmd : TrackerCmd) (old : List AnnounceEntry) :
    (handleTracker announceEntry old cmd).map (·.url) = (cmd.places old).map cmd.text := by
  rw [handleTracker_eq]
  refine List.ext_getElem? fun i => ?_
  rw [List.getElem?_map, List.getElem?_mapIdx, List.getElem?_map, Option.map_map]
  refine congrArg (Option.map · _) (funext fun slot => ?_)
  exact mergedEntry_url hurl i (cmd.text slot)

/-- The URL of a command is free if it is at one place at most. -/
theorem targetFree_iff (cmd : TrackerCmd) (old : List AnnounceEntry) :
    TargetFree old cmd ↔ cmd.target = "" ∨ ((cmd.urls old).map trimmed).count cmd.target ≤ 1 := by
  cases cmd with
  | addTaskTracker url =>
    refine or_congr_right ?_
    unfold TrackerCmd.urls TrackerCmd.target
    rw [List.map_append, List.count_append, List.map_map]
    have hlast : [url].map trimmed = [trimmed url] := rfl
    rw [hlast, List.count_singleton_self]
    have hzero : (old.map (trimmed ∘ (·.url))).count (trimmed url) + 1 ≤ 1 ↔
        (old.map (trimmed ∘ (·.url))).count (trimmed url) = 0 := by omega
    rw [hzero, List.count_eq_zero, List.mem_map]
    constructor
    · rintro hfree ⟨ae, hae, hsame⟩
      exact hfree ae hae hsame
    · exact fun hfree ae hae hsame => hfree ⟨ae, hae, hsame⟩
  | editTaskTracker oldUrl newUrl =>
    refine or_congr_right ?_
    unfold TrackerCmd.urls TrackerCmd.target
    rw [List.map_map, List.count, List.countP_map]
    have hcount : ∀ ae ∈ old, decide (trimmed ae.url = trimmed oldUrl ∨ trimmed ae.url = trimmed newUrl) =
        true ↔ ((· == trimmed newUrl) ∘ (trimmed ∘ fun ae : AnnounceEntry =>
          if trimmed ae.url = trimmed oldUrl then trimmed newUrl else ae.url)) ae = true := by
      intro ae _
      simp only [Function.comp_apply, decide_eq_true_iff, beq_iff_eq]
      by_cases hnamed : trimmed ae.url = trimmed oldUrl
      · simp [hnamed, trimmed_trimmed]
      · simp [hnamed]
    rw [List.countP_congr hcount]
  | removeTaskTracker url => exact iff_of_true trivial (.inl rfl)

theorem map_text_places (cmd : TrackerCmd) (old : List AnnounceEntry) :
    (cmd.places old).map cmd.text = ((cmd.urls old).map trimmed).filter (· ≠ "") := by
  rw [← map_text_slots, List.filter_map]
  rfl

theorem trimmed_target (cmd : TrackerCmd) : trimmed cmd.target = cmd.target := by
  cases cmd with
  | addTaskTracker url => exact trimmed_trimmed url
  | editTaskTracker _ newUrl => exact trimmed_trimmed newUrl
  | removeTaskTracker _ => rfl

theorem filterMap_places_sublist (cmd : TrackerCmd) (old : List AnnounceEntry) :
    ((cmd.places old).filterMap id).Sublist (cmd.others old) := by
  rw [← filterMap_slots]
  exact List.filter_sublist.filterMap id

include hurl in
theorem targetFree_of_changesOnly (h : ChangesOnly cmd old (handleTracker announceEntry old cmd)) :
    TargetFree old cmd := by
  have hdistinct := h.distinct
  rw [handleTracker_urls hurl, map_text_places] at hdistinct
  rw [targetFree_iff]
  by_cases hblank : cmd.target = ""
  · exact .inl hblank
  · refine .inr ?_
    have hcount := List.nodup_iff_count_le_one.mp hdistinct cmd.target
    rwa [List.count_filter (by simpa using hblank)] at hcount

include hurl in
/-- Then the place of another tracker makes its old entry. -/
theorem content_of_changesOnly (h : ChangesOnly cmd old (handleTracker announceEntry old cmd)) :
    (cmd.places old).filterMap id = cmd.others old ∧
      ∀ i ae, (cmd.places old)[i]? = some (some ae) →
        mergedEntry announceEntry old i (trimmed ae.url) = ae := by
  have hdistinct := h.distinct
  rw [handleTracker_urls hurl] at hdistinct
  have hinj := List.inj_on_of_nodup_map hdistinct
  have hsub := h.others
  rw [handleTracker_eq] at hsub
  -- the new entry is the one with the URL of the command
  refine content_of_sublist (p := fun ae => !(decide (none ∈ cmd.places old) && decide (ae.url = cmd.target)))
    (f := fun i slot => mergedEntry announceEntry old i (cmd.text slot)) ?_ ?_ ?_
    (filterMap_places_sublist cmd old) hsub
  · intro i hnone
    simp [hnone, mergedEntry_url hurl, TrackerCmd.text]
  · intro i ae hsome
    rw [mergedEntry_url hurl]
    by_contra hnot
    simp only [Bool.not_eq_true, Bool.not_eq_false', Bool.and_eq_true, decide_eq_true_iff] at hnot
    exact absurd (hinj hsome hnot.1 hnot.2) (by simp)
  · intro ae hother
    by_contra hnot
    simp only [Bool.not_eq_true, Bool.not_eq_false', Bool.and_eq_true, decide_eq_true_iff] at hnot
    obtain ⟨hnone, hsame⟩ := hnot
    have htext : cmd.text (some ae) = cmd.target := by
      show trimmed ae.url = cmd.target
      rw [hsame, trimmed_target]
    have hplace : some ae ∈ cmd.places old :=
      mem_places.mpr ⟨some_mem_slots.mpr hother, htext ▸ (mem_places.mp hnone).2⟩
    exact absurd (hinj hplace hnone htext) (by simp)

include hurl in
theorem othersNumbered_of_changesOnly (h : ChangesOnly cmd old (handleTracker announceEntry old cmd)) :
    OthersNumbered cmd old := by
  obtain ⟨hothers, hcontent⟩ := content_of_changesOnly hurl h
  constructor
  case urls =>
    intro ae hae
    rw [← hothers, List.mem_filterMap] at hae
    obtain ⟨slot, hslot, hsome⟩ := hae
    obtain rfl : slot = some ae := hsome
    obtain ⟨i, hi⟩ := List.getElem?_of_mem hslot
    have hmade := congrArg AnnounceEntry.url (hcontent i ae hi)
    rw [mergedEntry_url hurl] at hmade
    exact ⟨hmade, hmade ▸ (mem_places.mp hslot).2⟩
  case tiers =>
    intro i ae hi
    have hmade := congrArg AnnounceEntry.tier (hcontent i ae hi)
    rw [← hmade]
    unfold mergedEntry
    split
    · rfl
    · rfl

theorem names_of_same_url {x ae : AnnounceEntry} (h : trimmed x.url = trimmed ae.url) :
    cmd.names x = cmd.names ae := by
  unfold TrackerCmd.names
  cases cmd with
  | addTaskTracker url => rw [h]
  | editTaskTracker oldUrl _ => rw [h]
  | removeTaskTracker url => rw [h]

section Numbered

variable (hold : (old.map (·.url)).Nodup) (hnumbered : OthersNumbered cmd old)

include hold hnumbered

/-- No other entry has the URL of one that is not named. -/
theorem eq_of_same_url {x ae : AnnounceEntry} (hx : x ∈ old) (hae : ae ∈ cmd.others old)
    (hsame : trimmed x.url = ae.url) : x = ae := by
  obtain ⟨hmem, hnamed⟩ := List.mem_filter.mp hae
  have hurls := hnumbered.urls ae hae
  have hother : x ∈ cmd.others old := by
    refine List.mem_filter.mpr ⟨hx, ?_⟩
    rwa [names_of_same_url (hsame.trans hurls.1.symm)]
  rw [(hnumbered.urls x hother).1] at hsame
  exact List.inj_on_of_nodup_map hold hx hmem hsame

include hurl in
theorem content_of_numbered (i : Nat) (ae : AnnounceEntry)
    (hi : (cmd.places old)[i]? = some (some ae)) :
    mergedEntry announceEntry old i (trimmed ae.url) = ae := by
  have hother : ae ∈ cmd.others old :=
    some_mem_slots.mp (mem_places.mp (List.mem_of_getElem? hi)).1
  obtain ⟨htrimmed, -⟩ := hnumbered.urls ae hother
  have htier := hnumbered.tiers i ae hi
  have hfind : old.find? (fun x => trimmed x.url = ae.url) = some ae := by
    cases hfound : old.find? fun x => trimmed x.url = ae.url with
    | none =>
      have hnot := List.find?_eq_none.mp hfound ae (List.mem_filter.mp hother).1
      simp [htrimmed] at hnot
    | some x =>
      have hx := List.find?_some hfound
      rw [decide_eq_true_iff] at hx
      rw [eq_of_same_url hold hnumbered (List.mem_of_find?_eq_some hfound) hother hx]
  unfold mergedEntry
  rw [htrimmed, hfind]
  simp only [hurl, ← htier]

omit hold in
theorem filterMap_places : (cmd.places old).filterMap id = cmd.others old := by
  rw [← filterMap_slots]
  unfold TrackerCmd.places
  rw [List.filterMap_filter]
  refine List.filterMap_congr fun slot hslot => ?_
  cases slot with
  | none => exact ite_self _
  | some ae =>
    obtain ⟨htrimmed, hne⟩ := hnumbered.urls ae (some_mem_slots.mp hslot)
    refine if_pos (decide_eq_true ?_)
    show trimmed ae.url ≠ ""
    rwa [htrimmed]

/-- Only the URL of the command could be at two places. -/
theorem nodup_places (hfree : TargetFree old cmd) : ((cmd.places old).map cmd.text).Nodup := by
  rw [map_text_places]
  refine List.nodup_iff_count_le_one.mpr fun u => ?_
  by_cases hblank : u = ""
  · rw [List.count_eq_zero_of_not_mem (by simp [hblank])]
    exact Nat.zero_le 1
  rw [List.count_filter (by simpa using hblank)]
  by_cases htarget : u = cmd.target
  · rw [htarget]
    exact ((targetFree_iff cmd old).mp hfree).resolve_left (htarget ▸ hblank)
  · have hcount : ((cmd.urls old).map trimmed).count u = ((cmd.others old).map (·.url)).count u := by
      rw [← map_text_slots, ← filterMap_slots, List.count_eq_countP, List.count_eq_countP,
        List.countP_map, List.countP_map, List.countP_filterMap]
      refine List.countP_congr fun slot hslot => ?_
      cases slot with
      | none => simp [TrackerCmd.text, Ne.symm htarget]
      | some ae =>
        have htrimmed := (hnumbered.urls ae (some_mem_slots.mp hslot)).1
        simp [TrackerCmd.text, htrimmed]
    rw [hcount]
    exact List.nodup_iff_count_le_one.mp ((List.filter_sublist.map _).nodup hold) u

include hurl in
theorem changesOnly_of_numbered (hfree : TargetFree old cmd) :
    ChangesOnly cmd old (handleTracker announceEntry old cmd) := by
  have hcontent := @content_of_numbered _ _ cmd hurl hold hnumbered
  constructor
  case others =>
    rw [handleTracker_eq, ← filterMap_places hnumbered]
    exact sublist_mapIdx hcontent
  case rest =>
    intro ae hae
    rw [handleTracker_eq] at hae
    obtain ⟨i, hi⟩ := List.getElem?_of_mem hae
    rw [List.getElem?_mapIdx] at hi
    obtain ⟨slot, hslot, rfl⟩ := Option.map_eq_some_iff.mp hi
    cases slot with
    | none => exact .inr (mergedEntry_url hurl i _)
    | some x =>
      have hother := some_mem_slots.mp (mem_places.mp (List.mem_of_getElem? hslot)).1
      refine .inl ?_
      show mergedEntry announceEntry old i (trimmed x.url) ∈ _
      rw [hcontent i x hslot]
      exact hother
  case distinct =>
    rw [handleTracker_urls hurl]
    exact nodup_places hold hnumbered hfree

end Numbered

/-- A command changes only the tracker that it names exactly if the other trackers are numbered already
and the new URL is not there yet. -/
theorem handleTracker_changesOnly_iff (announceEntry : String → AnnounceEntry)
    (hurl : ∀ t, (announceEntry t).url = t) (old : List AnnounceEntry) (cmd : TrackerCmd)
    (hold : (old.map (·.url)).Nodup) :
    ChangesOnly cmd old (handleTracker announceEntry old cmd) ↔
      OthersNumbered cmd old ∧ TargetFree old cmd := by
  constructor
  · exact fun h => ⟨othersNumbered_of_changesOnly hurl h, targetFree_of_changesOnly hurl h⟩
  · exact fun ⟨hnumbered, hfree⟩ => changesOnly_of_numbered hurl hold hnumbered hfree

end Merged

/-- Two trackers of one tier. -/
def oneTier : List AnnounceEntry := [{ url := "http://a/announce" }, { url := "http://b/announce" }]

theorem handleTracker_changesOnly_iff_oneTier :
    ChangesOnly (.removeTaskTracker "http://b/announce") oneTier
        (handleTracker ({ url := · }) oneTier (.removeTaskTracker "http://b/announce")) ↔
      OthersNumbered (.removeTaskTracker "http://b/announce") oneTier ∧
        TargetFree oneTier (.removeTaskTracker "http://b/announce") :=
  handleTracker_changesOnly_iff ({ url := · }) (fun _ => rfl) oneTier _ (by decide)

/-- A third tracker moves the second one to a tier of its own; the URL of the first one is added again. -/
theorem oneTier_divided :
    handleTracker ({ url := · }) oneTier (.addTaskTracker "http://c/announce") =
        [{ url := "http://a/announce" }, { url := "http://b/announce", tier := 1 },
          { url := "http://c/announce", tier := 2 }] ∧
      ¬ChangesOnly (.addTaskTracker "http://c/announce") oneTier
        (handleTracker ({ url := · }) oneTier (.addTaskTracker "http://c/announce")) ∧
      (handleTracker ({ url := · }) oneTier (.addTaskTracker "http://a/announce")).map (·.url) =
        ["http://a/announce", "http://b/announce", "http://a/announce"] ∧
      ¬ChangesOnly (.addTaskTracker "http://a/announce") oneTier
        (handleTracker ({ url := · }) oneTier (.addTaskTracker "http://a/announce")) := by
  refine ⟨by decide +kernel, fun h => ?_, by decide +kernel, fun h => ?_⟩
  · have hothers := h.others
    revert hothers
    decide +kernel
  · have hdistinct := h.distinct
    revert hdistinct
    decide +kernel

end TorrentLink.Lt
