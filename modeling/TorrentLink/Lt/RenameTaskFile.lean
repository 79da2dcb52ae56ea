import TorrentLink.Base.QString
import TorrentLink.Lib.Paths

/-!
# Renaming a file or a folder of a task

The worker trims both arguments of the request, the new name and the path too. A path with a space at one
of its ends is then not found, and the files below it keep their paths. Otherwise the new root is put in
the place of the old one, whether or not another file has the new path already
(`renamesOnly_renameTaskFileOrFolder_iff`).
-/

namespace TorrentLink.Lt

open Lib

/-- A path inside a torrent, by its characters. -/
abbrev FilePath := List Char

/-- The files of `libtorrent::file_storage`: the path of each is a list of names, none of them empty. -/
structure FileStorage where
  paths : List FilePath
  relative : ∀ p ∈ paths, [] ∉ p.splitOn '/'

/-- The files after the command: those it renames are at the same places. -/
def renameTaskFileOrFolder (paths : List FilePath) (logicalPath newName : FilePath) : List FilePath :=
  let src := trimChars logicalPath
  let targetName := trimChars newName
  if src = [] ∨ targetName = [] then paths
  else
    let renamedRoot := child '/' (parent '/' src) targetName
    paths.map fun p =>
      if p = src then renamedRoot
      else
        let folderPrefix := src ++ ['/']
        if folderPrefix <+: p then
          let suffix := p.drop folderPrefix.length
          renamedRoot ++ ['/'] ++ suffix
        else p

/-- The path that the file or folder `src` has under its new name. -/
def renamedPath (src newName : FilePath) : FilePath := child '/' (parent '/' src) (trimChars newName)

/-- The request renames the files at or below `src`, which keep what follows `src` in their paths, and no
others, and no two files get one path. -/
structure RenamesOnly (src newName : FilePath) (old new : List FilePath) : Prop where
  length : new.length = old.length
  renamed : ∀ (i : Nat) (p : FilePath), old[i]? = some p → AtOrBelow '/' src p →
    new[i]? = some (renamedPath src newName ++ p.drop src.length)
  others : ∀ (i : Nat) (p : FilePath), old[i]? = some p → ¬ AtOrBelow '/' src p → new[i]? = some p
  distinct : new.Nodup

/-- No renamed file gets the path of one that keeps its own. -/
def RenamedFree (src newName : FilePath) (old : List FilePath) : Prop :=
  ∀ p ∈ old, ∀ q ∈ old, AtOrBelow '/' src p → ¬ AtOrBelow '/' src q →
    renamedPath src newName ++ p.drop src.length ≠ q

instance (src newName : FilePath) (old : List FilePath) : Decidable (RenamedFree src newName old) :=
  inferInstanceAs (Decidable (∀ p ∈ old, ∀ q ∈ old, _))

section Rename

variable {paths new : List FilePath} {src newName p : FilePath}

/-! ### What the command does -/

theorem renameTaskFileOrFolder_eq (hsrc : trimChars src ≠ []) (hname : trimChars newName ≠ []) :
    renameTaskFileOrFolder paths src newName =
      paths.map (replaceRoot '/' (trimChars src) (renamedPath (trimChars src) newName)) := by
  unfold renameTaskFileOrFolder
  rw [if_neg (not_or.mpr ⟨hsrc, hname⟩)]
  refine List.map_congr_left fun p _ => ?_
  by_cases hself : p = trimChars src
  · rw [if_pos hself, replaceRoot_of_below (.inl hself), hself, List.drop_length, List.append_nil]
    rfl
  · rw [if_neg hself]
    by_cases hbelow : trimChars src ++ ['/'] <+: p
    · rw [if_pos hbelow, replaceRoot_of_below (.inr hbelow)]
      obtain ⟨rest, rfl⟩ := hbelow
      rw [List.drop_left, List.append_assoc, List.append_assoc, List.drop_left]
      rfl
    · rw [if_neg hbelow, replaceRoot_of_not_below (not_or.mpr ⟨hself, hbelow⟩)]

theorem renameTaskFileOrFolder_of_blank (hsrc : trimChars src = []) :
    renameTaskFileOrFolder paths src newName = paths := if_pos (.inl hsrc)

theorem renamesOnly_iff : RenamesOnly src newName paths new ↔
    new = paths.map (replaceRoot '/' src (renamedPath src newName)) ∧ new.Nodup := by
  constructor
  · intro h
    refine ⟨List.ext_getElem? fun i => ?_, h.distinct⟩
    rw [List.getElem?_map]
    cases hi : paths[i]? with
    | none =>
      rw [List.getElem?_eq_none_iff] at hi
      exact List.getElem?_eq_none (h.length ▸ hi)
    | some p =>
      by_cases hbelow : AtOrBelow '/' src p
      · rw [h.renamed i p hi hbelow, Option.map_some, replaceRoot_of_below hbelow]
      · rw [h.others i p hi hbelow, Option.map_some, replaceRoot_of_not_below hbelow]
  · rintro ⟨rfl, hdistinct⟩
    refine ⟨List.length_map _, fun i p hi hbelow => ?_, fun i p hi hbelow => ?_, hdistinct⟩
    · rw [List.getElem?_map, hi, Option.map_some, replaceRoot_of_below hbelow]
    · rw [List.getElem?_map, hi, Option.map_some, replaceRoot_of_not_below hbelow]

theorem nodup_map_iff_renamedFree (hdistinct : paths.Nodup) :
    (paths.map (replaceRoot '/' src (renamedPath src newName))).Nodup ↔ RenamedFree src newName paths := by
  rw [nodup_map_replaceRoot_iff hdistinct]
  refine forall₂_congr fun p _ => forall₂_congr fun q _ => forall₂_congr fun hbelow _ => ?_
  rw [replaceRoot_of_below hbelow]

/-! ### A path with a space at one of its ends -/

/-- What is at or below it is neither at nor below the trimmed path. -/
theorem not_atOrBelow_trimChars (hsrc : trimChars src ≠ src) (hblank : trimChars src ≠ [])
    (h : AtOrBelow '/' src p) : ¬ AtOrBelow '/' (trimChars src) p := by
  obtain ⟨lead, trail, hparts, hlead, htrail⟩ := exists_trimChars src
  obtain ⟨c, cs, ht⟩ := List.exists_cons_of_ne_nil hblank
  have hc := not_isSpace_of_trimChars_cons ht
  have hslash : isSpace '/' = false := by decide
  generalize trimChars src = t at *
  subst hparts
  obtain ⟨rest, rfl⟩ : ∃ rest, p = lead ++ t ++ trail ++ rest := by
    obtain rfl | ⟨rest, rfl⟩ := atOrBelow_iff_exists.mp h
    · exact ⟨[], (List.append_nil _).symm⟩
    · exact ⟨'/' :: rest, rfl⟩
  intro hbelow
  cases lead with
  | cons l lead =>
    -- the path begins with the space, the trimmed one with something else
    have hhead := hbelow.append_drop
    rw [ht] at hhead
    have hsame : c = l := (List.cons.inj hhead).1
    rw [hsame, hlead l List.mem_cons_self] at hc
    cases hc
  | nil =>
    cases trail with
    | nil => exact hsrc (by simp)
    | cons d trail =>
      -- behind the trimmed path stands the space, not a separator
      rw [List.nil_append, List.append_assoc, List.cons_append] at hbelow
      obtain hself | ⟨rest', hrest'⟩ := atOrBelow_iff_exists.mp hbelow
      · simp at hself
      · have hsame : d = '/' := (List.cons.inj (List.append_cancel_left hrest')).1
        rw [← hsame, htrail d List.mem_cons_self] at hslash
        cases hslash

/-- A new name that is the old one stays it when the path is trimmed. -/
theorem fileName_trimChars (hsame : trimChars newName = fileName '/' src) (hsrc : trimChars src ≠ src) :
    trimChars newName = fileName '/' (trimChars src) := by
  have hmem : '/' ∈ src := by
    by_contra hnot
    rw [fileName_of_notMem hnot] at hsame
    exact hsrc (by rw [← hsame, trimChars_trimChars])
  obtain ⟨dir, part, hpart, rfl⟩ := exists_last_part hmem
  rw [fileName_append hpart] at hsame
  subst hsame
  rw [trimChars_append_cons (by decide), fileName_append hpart]

/-! ### Paths without empty names -/

variable (hpaths : ∀ p ∈ paths, [] ∉ p.splitOn '/')

include hpaths in
theorem nil_notMem_components (hp : p ∈ paths) (hbelow : AtOrBelow '/' src p) :
    src ≠ [] ∧ [] ∉ components '/' src := by
  have hne := hpaths p hp
  have hsrc : src ≠ [] := by
    rintro rfl
    obtain rfl | ⟨rest, rfl⟩ := atOrBelow_iff_exists.mp hbelow
    · exact hne (by rw [List.splitOn_nil]; exact List.mem_cons_self)
    · refine hne ?_
      rw [List.splitOn_append_cons_self, List.splitOn_nil]
      exact List.mem_cons_self
  refine ⟨hsrc, fun hmem => hne ?_⟩
  have hmem' := ((atOrBelow_iff hsrc).mp hbelow).subset hmem
  unfold components at hmem'
  split at hmem'
  · cases hmem'
  · exact hmem'

include hpaths in
/-- A request for the old name changes nothing. -/
theorem map_replaceRoot_of_same (hsame : trimChars newName = fileName '/' src) :
    paths.map (replaceRoot '/' src (renamedPath src newName)) = paths := by
  refine (List.map_congr_left fun p hp => ?_).trans (List.map_id _)
  by_cases hbelow : AtOrBelow '/' src p
  · have hroot := (child_parent_eq_iff (nil_notMem_components hpaths hp hbelow).2).mpr hsame
    rw [renamedPath, hroot, replaceRoot_self, id]
  · rw [replaceRoot_of_not_below hbelow, id]

include hpaths in
/-- The paths that the request asks for are those of the command exactly if the path is trimmed, or the new
name is the old one. -/
theorem renameTaskFileOrFolder_eq_map_iff (hname : trimChars newName ≠ [])
    (hsrc : ∃ p ∈ paths, AtOrBelow '/' src p) :
    renameTaskFileOrFolder paths src newName = paths.map (replaceRoot '/' src (renamedPath src newName)) ↔
      trimChars src = src ∨ trimChars newName = fileName '/' src := by
  obtain ⟨p, hp, hbelow⟩ := hsrc
  obtain ⟨hne, hcomponents⟩ := nil_notMem_components hpaths hp hbelow
  by_cases htrim : trimChars src = src
  · refine iff_of_true ?_ (.inl htrim)
    rw [renameTaskFileOrFolder_eq (by rwa [htrim]) hname, htrim]
  · rw [or_iff_right htrim]
    constructor
    · intro h
      -- the file at or below the path keeps it
      have hkept : replaceRoot '/' src (renamedPath src newName) p = p := by
        by_cases hblank : trimChars src = []
        · rw [renameTaskFileOrFolder_of_blank hblank] at h
          exact List.map_inj_left.mp (h.symm.trans (List.map_id _).symm) p hp
        · rw [renameTaskFileOrFolder_eq hblank hname] at h
          rw [← List.map_inj_left.mp h p hp,
            replaceRoot_of_not_below (not_atOrBelow_trimChars htrim hblank hbelow)]
      rw [replaceRoot_eq_self_iff hbelow] at hkept
      exact (child_parent_eq_iff hcomponents).mp hkept
    · intro hsame
      rw [map_replaceRoot_of_same hpaths hsame]
      by_cases hblank : trimChars src = []
      · exact renameTaskFileOrFolder_of_blank hblank
      · rw [renameTaskFileOrFolder_eq hblank hname]
        exact map_replaceRoot_of_same hpaths (fileName_trimChars hsame htrim)

end Rename

/-- The command does what the request says. -/
theorem renamesOnly_renameTaskFileOrFolder_iff (fs : FileStorage) (hdistinct : fs.paths.Nodup)
    {src newName : FilePath} (hname : trimChars newName ≠ []) (hsrc : ∃ p ∈ fs.paths, AtOrBelow '/' src p) :
    RenamesOnly src newName fs.paths (renameTaskFileOrFolder fs.paths src newName) ↔
      (trimChars src = src ∨ trimChars newName = fileName '/' src) ∧ RenamedFree src newName fs.paths := by
  rw [renamesOnly_iff, renameTaskFileOrFolder_eq_map_iff fs.relative hname hsrc]
  refine and_congr_right fun hcond => ?_
  rw [← nodup_map_iff_renamedFree hdistinct,
    (renameTaskFileOrFolder_eq_map_iff fs.relative hname hsrc).mpr hcond]

end TorrentLink.Lt
