import TorrentLink.Core.TaskAddBuilder
import TorrentLink.Lib.PathSteps

/-!
# Staying in the save folder

With a subfolder, the name of the torrent is followed from the folder that the user has chosen. Nothing
looks at the name before, so `..` in it or an absolute name leads elsewhere: `buildTaskAdd_within_iff`
says which names stay.
-/

namespace TorrentLink

open Lib

/-! ### Paths as texts -/

/-- What a segment of a path does: an empty one and `.` do nothing. -/
def pathStep (segment : List Char) : Option (PathStep (List Char)) :=
  if segment = [] ∨ segment = ['.'] then none
  else if segment = ['.', '.'] then some .up
  else some (.down segment)

def pathSteps (path : List Char) : List (PathStep (List Char)) := (path.splitOn '/').filterMap pathStep

/-- The path with its `.` and `..` segments resolved. -/
def resolvePath (path : String) : ResolvedPath (List Char) :=
  ResolvedPath.follow { absolute := path.toList.head? = some '/' } (pathSteps path.toList)

/-- The name does not lead out of the folder. An absolute name must go down the folder's own names; from
a relative one, the names of the folder that it leaves must be the first that it takes again. -/
def StaysWithin (folder name : ResolvedPath (List Char)) : Prop :=
  if name.absolute then folder.absolute ∧ folder.names <+: name.names
  else
    folder.names.drop (folder.names.length - name.ups) <+: name.names ∧
      (folder.absolute = true ∨ name.ups ≤ folder.names.length)

instance (folder name : ResolvedPath (List Char)) : Decidable (StaysWithin folder name) :=
  inferInstanceAs (Decidable (if name.absolute then _ ∧ _ else _ ∧ _))

theorem pathSteps_append (dir name : List Char) :
    pathSteps (dir ++ '/' :: name) = pathSteps dir ++ pathSteps name := by
  unfold pathSteps
  rw [List.splitOn_append_cons_self, List.filterMap_append]

theorem pathSteps_nil : pathSteps [] = [] := by decide

theorem resolvePath_relative {name : String} (hname : name.toList.head? ≠ some '/') :
    resolvePath name = ResolvedPath.follow {} (pathSteps name.toList) := by
  simp [resolvePath, hname]

theorem absolute_resolvePath (path : String) :
    (resolvePath path).absolute = decide (path.toList.head? = some '/') :=
  ResolvedPath.absolute_follow

/-- No step up is left in an absolute path. -/
theorem ups_resolvePath {path : String} (h : (resolvePath path).absolute = true) :
    (resolvePath path).ups = 0 := by
  rw [absolute_resolvePath] at h
  exact ResolvedPath.ups_follow h

theorem resolvePath_append {dir name : String} (hdir : dir.toList ≠ []) :
    resolvePath (dir ++ "/" ++ name) = (resolvePath dir).follow (pathSteps name.toList) := by
  have htext : (dir ++ "/" ++ name).toList = dir.toList ++ '/' :: name.toList := by simp
  obtain ⟨c, cs, hcs⟩ := List.exists_cons_of_ne_nil hdir
  unfold resolvePath
  rw [htext, pathSteps_append, ResolvedPath.follow_append, hcs]
  rfl

theorem resolvePath_append_of_slash {dir name : String} (hslash : dir.toList.getLast? = some '/') :
    resolvePath (dir ++ name) = (resolvePath dir).follow (pathSteps name.toList) := by
  obtain ⟨before, hbefore⟩ := List.getLast?_eq_some_iff.mp hslash
  have htext : (dir ++ name).toList = before ++ '/' :: name.toList := by simp [hbefore]
  have hhead : (before ++ '/' :: name.toList).head? = (before ++ ['/']).head? := by cases before <;> rfl
  unfold resolvePath
  rw [htext, hbefore, hhead, pathSteps_append, pathSteps_append, pathSteps_nil, List.append_nil,
    ResolvedPath.follow_append]

/-- A relative name is followed from the folder. -/
theorem resolvePath_dirFilePath (dir : String) {name : String} (hname : name.toList.head? ≠ some '/') :
    resolvePath (dirFilePath dir name) = (resolvePath dir).follow (pathSteps name.toList) := by
  have hdot : resolvePath (if dir = "" then "." else dir) = resolvePath dir := by
    split_ifs with hempty
    · rw [hempty]
      decide
    · rfl
  have hne : (if dir = "" then "." else dir).toList ≠ [] := by
    split_ifs with hempty
    · decide
    · simpa using hempty
  unfold dirFilePath
  rw [if_neg hname]
  dsimp only
  generalize (if dir = "" then "." else dir) = start at hdot hne
  split_ifs with hnone hslash
  · rw [hdot, hnone, String.toList_empty, pathSteps_nil, ResolvedPath.follow_nil]
  · rw [resolvePath_append_of_slash hslash, hdot]
  · rw [resolvePath_append hne, hdot]

/-! ### The final save path -/

theorem within_dirFilePath_iff (dir name : String) :
    (resolvePath dir).Within (resolvePath (dirFilePath dir name)) ↔
      StaysWithin (resolvePath dir) (resolvePath name) := by
  by_cases hname : name.toList.head? = some '/'
  · have habsolute : (resolvePath name).absolute = true := by simp [absolute_resolvePath, hname]
    have hsame : dirFilePath dir name = name := if_pos hname
    rw [hsame, StaysWithin, if_pos habsolute, ResolvedPath.Within, habsolute, ups_resolvePath habsolute]
    constructor
    · rintro ⟨hdir, -, hnames⟩
      exact ⟨hdir.symm, hnames⟩
    · rintro ⟨hdir, hnames⟩
      exact ⟨hdir.symm, (ups_resolvePath hdir).symm, hnames⟩
  · have hrelative : ¬ (resolvePath name).absolute = true := by simp [absolute_resolvePath, hname]
    rw [resolvePath_dirFilePath dir hname, ResolvedPath.follow_eq, ← resolvePath_relative hname,
      ResolvedPath.within_join_iff, StaysWithin, if_neg hrelative]

/-- The content is written in the chosen folder exactly if there is no subfolder or its name stays
within. -/
theorem buildTaskAdd_within_iff (q : QtInput) (policy : SavePathPolicy) (input : TaskAddInput) :
    (resolvePath (policy.resolve q input.savePath)).Within
        (resolvePath (buildTaskAdd q policy input).finalSavePath) ↔
      (input.layout = .createSubfolder →
        StaysWithin (resolvePath (policy.resolve q input.savePath)) (resolvePath input.name)) := by
  have hself : ∀ p : ResolvedPath (List Char), p.Within p := fun p => ⟨rfl, rfl, List.prefix_rfl⟩
  unfold buildTaskAdd applyLayout
  dsimp only
  cases hlayout : input.layout with
  | createSubfolder => simp [within_dirFilePath_iff]
  | noSubfolder => simp [hself]
  | original => simp [hself]

/-- Paths that need no cleaning. -/
def cleanInput : QtInput where
  cleanPath path := path
  downloadLocation := "/home/u/Downloads"
  urlScheme _ := none
  toLower s := String.ofList (foldCase s)

/-- The add of a torrent with the name, in a subfolder. -/
def subfolderInput (name : String) : TaskAddInput :=
  { name := name, savePath := "/home/u/dl", layout := .createSubfolder, category := "", tagsCsv := ""
    fileWanted := [] }

/-- A name with `..`, and an absolute one, lead out of the folder. -/
theorem buildTaskAdd_leaves :
    (buildTaskAdd cleanInput {} (subfolderInput "../x")).finalSavePath = "/home/u/dl/../x" ∧
      ¬ (resolvePath (({} : SavePathPolicy).resolve cleanInput "/home/u/dl")).Within
        (resolvePath (buildTaskAdd cleanInput {} (subfolderInput "../x")).finalSavePath) ∧
      (buildTaskAdd cleanInput {} (subfolderInput "/etc")).finalSavePath = "/etc" ∧
      ¬ (resolvePath (({} : SavePathPolicy).resolve cleanInput "/home/u/dl")).Within
        (resolvePath (buildTaskAdd cleanInput {} (subfolderInput "/etc")).finalSavePath) := by
  decide

end TorrentLink
