import Mathlib.Algebra.GroupWithZero.Nat
import TorrentLink.Base.QString
import TorrentLink.Base.Types

/-!
# Validation of inputs

`none` is the source's `Error()`, that is, no error.
-/

namespace TorrentLink

/-- What the handling of inputs takes from Qt. -/
structure QtInput where
  /-- `QDir::cleanPath` -/
  cleanPath : String → String
  /-- `QStandardPaths::writableLocation` of the downloads. -/
  downloadLocation : String
  /-- `QUrl` in strict mode: the scheme of a valid URL. -/
  urlScheme : String → Option String
  toLower : String → String

def kMaxMagnetUriLength : Nat := 8192
def kMaxTrackerUrlLength : Nat := 2048
def kMaxPathLength : Nat := 4096
def kMaxCategoryLength : Nat := 256
def kMaxTagLength : Nat := 128
def kMaxTagsCount : Nat := 50

/-- `QString::length`: UTF-16 code units. -/
def utf16Length (s : String) : Nat :=
  (s.toList.map fun c => if c.toNat < 0x10000 then 1 else 2).sum

def containsNullByte (s : String) : Bool := s.toList.contains (Char.ofNat 0)

/-- The message of a length over its maximum. -/
def tooLong (what : String) (length max : Nat) : String :=
  what ++ " (" ++ toString length ++ " > " ++ toString max ++ ")"

def validateMagnetUri (uri : String) : Option Error :=
  let t := trimmed uri
  if t = "" then some ⟨.invalidMagnet, "Magnet URI is empty", ""⟩
  else if utf16Length t > kMaxMagnetUriLength then
    some ⟨.invalidMagnet,
      tooLong "Magnet URI exceeds maximum length" (utf16Length t) kMaxMagnetUriLength, ""⟩
  else if containsNullByte t then some ⟨.invalidMagnet, "Magnet URI contains null bytes", ""⟩
  else if !startsWithCI t "magnet:?" then
    some ⟨.invalidMagnet, "Magnet URI must start with \"magnet:?\"", ""⟩
  else none

/-- A `..` among the segments between slashes and backslashes. -/
def containsTraversalSegment (p : String) : Bool :=
  (p.toList.splitOnP fun c => c = '/' || c = '\\').contains ['.', '.']

variable (q : QtInput)

def hasPathTraversal (path : String) : Bool :=
  containsTraversalSegment path || containsTraversalSegment (q.cleanPath path)

def allowedTrackerSchemes : List String := ["http", "https", "udp", "wss"]

def validateTrackerUrl (url : String) : Option Error :=
  let t := trimmed url
  if t = "" then none
  else if utf16Length t > kMaxTrackerUrlLength then
    some ⟨.invalidArgument,
      tooLong "Tracker URL exceeds maximum length" (utf16Length t) kMaxTrackerUrlLength, ""⟩
  else if containsNullByte t then some ⟨.invalidArgument, "Tracker URL contains null bytes", ""⟩
  else
    match q.urlScheme t with
    | none => some ⟨.invalidArgument, "Tracker URL is malformed: " ++ t, ""⟩
    | some scheme =>
      let scheme := q.toLower scheme
      if allowedTrackerSchemes.contains scheme then none
      else some ⟨.invalidArgument, "Tracker URL scheme \"" ++ scheme ++
        "\" not allowed (permitted: http, https, udp, wss)", ""⟩

def validatePath (path : String) : Option Error :=
  let t := trimmed path
  if t = "" then some ⟨.invalidSavePath, "Path is empty", ""⟩
  else if utf16Length t > kMaxPathLength then
    some ⟨.invalidSavePath,
      tooLong "Path exceeds maximum length" (utf16Length t) kMaxPathLength, ""⟩
  else if containsNullByte t then some ⟨.invalidSavePath, "Path contains null bytes", ""⟩
  else if hasPathTraversal q t then
    some ⟨.invalidSavePath, "Path contains \"..\" traversal component", ""⟩
  else none

def validateTorrentFilePath (path : String) : Option Error :=
  match validatePath q path with
  | some e => some ⟨.invalidTorrentPath, e.message, ""⟩
  | none =>
    if ".torrent".toList.isSuffixOf (q.toLower (trimmed path)).toList then none
    else some ⟨.invalidTorrentPath, "File does not have .torrent extension", ""⟩

def validateCategory (category : String) : Option Error :=
  let t := trimmed category
  if t = "" then none
  else if utf16Length t > kMaxCategoryLength then
    some ⟨.invalidArgument,
      tooLong "Category name too long" (utf16Length t) kMaxCategoryLength, ""⟩
  else if containsNullByte t then some ⟨.invalidArgument, "Category contains null bytes", ""⟩
  else none

/-- The tags between the commas, empty ones skipped. -/
def splitTags (tagsCsv : String) : List String :=
  ((tagsCsv.toList.splitOn ',').filter (· ≠ [])).map String.ofList

def validateTagsCsv (tagsCsv : String) : Option Error :=
  if trimmed tagsCsv = "" then none
  else
    let tags := splitTags tagsCsv
    if tags.length > kMaxTagsCount then
      some ⟨.invalidArgument, tooLong "Too many tags" tags.length kMaxTagsCount, ""⟩
    else
      match tags.find? fun t => utf16Length (trimmed t) > kMaxTagLength with
      | some t => some ⟨.invalidArgument, "Tag \"" ++
          String.ofList ((trimmed t).toList.take 32) ++ "\" exceeds max length (" ++
          toString kMaxTagLength ++ ")", ""⟩
      | none => none

/-- Trimmed, without empty, repeated and invalid entries, in their first order. -/
def sanitizeTrackers (trackers : List String) : List String :=
  trackers.foldl (fun out t =>
    let t := trimmed t
    if t = "" || out.contains t then out
    else if (validateTrackerUrl q t).isNone then out ++ [t] else out) []

end TorrentLink
