import TorrentLink.Base.InputSanitizer

/-!
# The save path and the options of an add

`SavePathPolicy` and `buildTaskAdd`. Creating the directory, which `resolve` does on the way, is left
out.
-/

namespace TorrentLink

inductive ContentLayout
  | original | createSubfolder | noSubfolder
  deriving DecidableEq, Repr

/-- `QDir(dir).filePath(name)`: an absolute name stays as it is. -/
def dirFilePath (dir name : String) : String :=
  if name.toList.head? = some '/' then name
  else
    let dir := if dir = "" then "." else dir
    if name = "" then dir
    else if dir.toList.getLast? = some '/' then dir ++ name else dir ++ "/" ++ name

structure SavePathPolicy where
  defaultDir : String := ""
  deriving DecidableEq, Repr

def SavePathPolicy.setDefaultDownloadDir (_policy : SavePathPolicy) (dir : String) :
    SavePathPolicy where
  defaultDir := trimmed dir

def SavePathPolicy.resolve (q : QtInput) (policy : SavePathPolicy) (input : String) : String :=
  let p := trimmed input
  let p := if p = "" then policy.defaultDir else p
  let p := if p = "" then dirFilePath q.downloadLocation "p2p" else p
  q.cleanPath p

def applyLayout (basePath torrentName : String) (layout : ContentLayout) : String :=
  match layout with
  | .createSubfolder => dirFilePath basePath torrentName
  | .noSubfolder | .original => basePath

/-- `SessionWorker::AddTorrentOptions`, and the builder's `TaskAddOutput`. -/
structure AddTorrentOptions where
  filePriorities : List UInt8 := []
  startTorrent : Bool := true
  stopWhenReady : Bool := false
  sequentialDownload : Bool := false
  skipHashCheck : Bool := false
  addToTopQueue : Bool := false
  category : String := ""
  tagsCsv : String := ""
  deriving DecidableEq, Repr

structure TaskAddInput where
  name : String
  savePath : String
  layout : ContentLayout
  startTorrent : Bool := true
  stopCondition : Int := 0
  sequentialDownload : Bool := false
  skipHashCheck : Bool := false
  addToTopQueue : Bool := false
  category : String
  tagsCsv : String
  fileWanted : List Int
  deriving DecidableEq, Repr

structure TaskAddResult where
  opts : AddTorrentOptions
  finalSavePath : String
  deriving DecidableEq, Repr

def buildTaskAdd (q : QtInput) (policy : SavePathPolicy) (input : TaskAddInput) : TaskAddResult where
  opts :=
    { filePriorities := input.fileWanted.map fun w => if w ≠ 0 then 4 else 0
      startTorrent := input.startTorrent
      stopWhenReady := input.stopCondition = 1
      sequentialDownload := input.sequentialDownload
      skipHashCheck := input.skipHashCheck
      addToTopQueue := input.addToTopQueue
      category := input.category
      tagsCsv := input.tagsCsv }
  finalSavePath := applyLayout (policy.resolve q input.savePath) input.name input.layout

end TorrentLink
