import Mathlib.Algebra.Ring.Int.Defs
import TorrentLink.Lib.CircularBuffer
import TorrentLink.Lib.Runs

/-!
# The model of the speed chart

`SpeedChartModel` keeps the last samples in a circular buffer, with their times. The series that it
gives to the chart are those of the plain list of the last samples since it was cleared, after any calls
(`series_of_lastSamples`).
-/

namespace TorrentLink.Ui

open Lib

/-- `kMaxSamples` -/
def maxSamples : Nat := 4096

/-- What `currentMs` reads: the system clock stands far from the ends of `qint64`. -/
abbrev ClockMs := { ms : Int // -2 ^ 62 ≤ ms ∧ ms < 2 ^ 62 }

/-- The arguments of `addSample`. -/
structure Rates where
  download : Int
  upload : Int
  payloadDownload : Int := -1
  payloadUpload : Int := -1
  overheadDownload : Int := 0
  overheadUpload : Int := 0
  dhtDownload : Int := 0
  dhtUpload : Int := 0
  trackerDownload : Int := 0
  trackerUpload : Int := 0

structure Sample where
  tsMs : ClockMs := ⟨0, by decide⟩
  dl : Int := 0
  ul : Int := 0
  payloadDl : Int := 0
  payloadUl : Int := 0
  overheadDl : Int := 0
  overheadUl : Int := 0
  dhtDl : Int := 0
  dhtUl : Int := 0
  trackerDl : Int := 0
  trackerUl : Int := 0
  deriving DecidableEq

/-- `samples_`, `head_` and `count_`. -/
abbrev SpeedChartModel := CircularBuffer Sample maxSamples

namespace SpeedChartModel

def init : SpeedChartModel := .empty {} (by decide)

/-- The sample that `addSample` stores: an unknown payload rate is the whole one. -/
def sampleOf (currentMs : ClockMs) (rates : Rates) : Sample where
  tsMs := currentMs
  dl := rates.download
  ul := rates.upload
  payloadDl := if 0 ≤ rates.payloadDownload then rates.payloadDownload else rates.download
  payloadUl := if 0 ≤ rates.payloadUpload then rates.payloadUpload else rates.upload
  overheadDl := rates.overheadDownload
  overheadUl := rates.overheadUpload
  dhtDl := rates.dhtDownload
  dhtUl := rates.dhtUpload
  trackerDl := rates.trackerDownload
  trackerUl := rates.trackerUpload

def addSample (m : SpeedChartModel) (currentMs : ClockMs) (rates : Rates) : SpeedChartModel :=
  m.push (sampleOf currentMs rates)

def clear (_m : SpeedChartModel) : SpeedChartModel := init

def seriesValue (key : String) (s : Sample) : Int :=
  if key = "payload_dl" then s.payloadDl
  else if key = "payload_ul" then s.payloadUl
  else if key = "overhead_dl" then s.overheadDl
  else if key = "overhead_ul" then s.overheadUl
  else if key = "dht_dl" then s.dhtDl
  else if key = "dht_ul" then s.dhtUl
  else if key = "tracker_dl" then s.trackerDl
  else if key = "tracker_ul" then s.trackerUl
  else if key = "dl" then s.dl
  else if key = "ul" then s.ul
  else 0

section Series

-- `static_cast<double>`
variable {D : Type} (toDouble : Int → D)

/-- The loop of `dlSamples` and `ulSamples`. -/
def allSamples (m : SpeedChartModel) (value : Sample → Int) : List D :=
  (List.range m.count).foldl (fun out i => out ++ [toDouble (value (m.nth i))]) []

def dlSamples (m : SpeedChartModel) : List D := m.allSamples toDouble (·.dl)

def ulSamples (m : SpeedChartModel) : List D := m.allSamples toDouble (·.ul)

def seriesSamples (m : SpeedChartModel) (key : String) (windowMinutes : Int) : List D :=
  if m.count = 0 then []
  else
    let nowMs := (m.nth (m.count - 1)).tsMs.1
    let fromMs := if 0 < windowMinutes then nowMs - windowMinutes * 60 * 1000 else -2 ^ 63
    let out := (List.range m.count).foldl (fun out i =>
      let s := m.nth i
      if s.tsMs.1 < fromMs then out else out ++ [toDouble (seriesValue key s)]) []
    match out with
    | [] => [toDouble 0, toDouble 0]
    | [v] => [v, v]
    | _ => out

end Series

/-! ### Calls -/

inductive Call
  | addSample (currentMs : ClockMs) (rates : Rates)
  | clear

def Call.sample? : Call → Option Sample
  | addSample currentMs rates => some (sampleOf currentMs rates)
  | clear => none

def call (m : SpeedChartModel) : Call → SpeedChartModel
  | .addSample currentMs rates => m.addSample currentMs rates
  | .clear => m.clear

/-- The samples added since the last clear. -/
def samplesSinceClear (calls : List Call) : List Sample :=
  (calls.rtakeWhile fun c => c.sample?.isSome).filterMap Call.sample?

def lastSamples (calls : List Call) : List Sample := (samplesSinceClear calls).rtake maxSamples

/-- The samples not older than so many minutes before the newest one, if that is a limit. -/
def inWindow (windowMinutes : Int) (samples : List Sample) : List Sample :=
  samples.filter fun s =>
    windowMinutes ≤ 0 ∨ ∀ newest ∈ samples.getLast?, newest.tsMs.1 - s.tsMs.1 ≤ windowMinutes * 60 * 1000

/-- A line needs two points. -/
def doubled {D : Type} : List D → List D
  | [v] => [v, v]
  | vs => vs

variable {D : Type} (toDouble : Int → D) (m : SpeedChartModel)

theorem allSamples_eq (value : Sample → Int) :
    m.allSamples toDouble value = m.toList.map fun s => toDouble (value s) := by
  rw [allSamples, CircularBuffer.toList, List.map_map]
  exact List.foldl_append_eq_append.trans List.map_eq_flatMap.symm

/-- A loop that goes over some of the samples. -/
theorem foldl_unless (skip : Sample → Prop) [DecidablePred skip] (value : Sample → D)
    (samples : List Sample)
    (out : List D) :
    samples.foldl (fun out s => if skip s then out else out ++ [value s]) out =
      out ++ (samples.filter fun s => ¬ skip s).map value := by
  induction samples generalizing out with
  | nil => rw [List.foldl_nil, List.filter_nil, List.map_nil, List.append_nil]
  | cons s samples ih =>
    rw [List.foldl_cons, ih]
    by_cases hskip : skip s
    · rw [if_pos hskip, List.filter_cons_of_neg (by simpa using hskip)]
    · rw [if_neg hskip, List.filter_cons_of_pos (by simpa using hskip), List.map_cons, List.append_assoc]
      rfl

theorem seriesSamples_eq (key : String) (windowMinutes : Int) :
    m.seriesSamples toDouble key windowMinutes =
      doubled ((inWindow windowMinutes m.toList).map fun s => toDouble (seriesValue key s)) := by
  by_cases hcount : m.count = 0
  · have hnil : m.toList = [] := List.length_eq_zero_iff.mp (CircularBuffer.length_toList.trans hcount)
    rw [seriesSamples, if_pos hcount, hnil]
    rfl
  have hnewest : m.toList.getLast? = some (m.nth (m.count - 1)) := CircularBuffer.getLast?_toList hcount
  generalize hnow : m.nth (m.count - 1) = newest at hnewest
  -- the samples from `fromMs` on are those in the window
  have hwindow : inWindow windowMinutes m.toList = m.toList.filter fun s =>
      ¬ s.tsMs.1 < if 0 < windowMinutes then newest.tsMs.1 - windowMinutes * 60 * 1000 else -2 ^ 63 := by
    refine List.filter_congr fun s _ => decide_eq_decide.mpr ?_
    have hs := s.tsMs.2.1
    rw [hnewest]
    simp only [Option.mem_some_iff, forall_eq']
    split <;> omega
  -- the newest sample is in it
  have hmem : newest ∈ inWindow windowMinutes m.toList := by
    refine List.mem_filter.mpr ⟨List.mem_of_getLast? hnewest, decide_eq_true ?_⟩
    rw [hnewest]
    simp only [Option.mem_some_iff, forall_eq', Int.sub_self]
    omega
  have hout : (List.range m.count).foldl (fun out i =>
      if (m.nth i).tsMs.1 < (if 0 < windowMinutes then newest.tsMs.1 - windowMinutes * 60 * 1000 else -2 ^ 63)
      then out else out ++ [toDouble (seriesValue key (m.nth i))]) [] =
        (inWindow windowMinutes m.toList).map fun s => toDouble (seriesValue key s) := by
    rw [hwindow, ← List.nil_append (List.map _ _), ← foldl_unless, CircularBuffer.toList, List.foldl_map]
  rw [seriesSamples, if_neg hcount, hnow]
  dsimp only
  rw [hout]
  obtain ⟨first, rest, hlist⟩ := List.exists_cons_of_ne_nil (List.ne_nil_of_mem hmem)
  rw [hlist, List.map_cons]
  cases rest with
  | nil => rfl
  | cons second rest => rfl

theorem samplesSinceClear_concat (calls : List Call) (c : Call) :
    samplesSinceClear (calls ++ [c]) =
      match c.sample? with
      | some s => samplesSinceClear calls ++ [s]
      | none => [] := by
  cases c with
  | addSample currentMs rates =>
    rw [samplesSinceClear, List.rtakeWhile_concat_pos _ _ _ rfl, List.filterMap_append]
    rfl
  | clear =>
    rw [samplesSinceClear, List.rtakeWhile_concat_neg _ _ _ Bool.false_ne_true]
    rfl

/-- The buffer holds the last samples since the last clear. -/
theorem toList_run (calls : List Call) : (run call init calls).toList = lastSamples calls := by
  induction calls using List.reverseRecOn with
  | nil => rfl
  | append_singleton calls c ih =>
    rw [run_append, lastSamples, samplesSinceClear_concat]
    cases c with
    | addSample currentMs rates =>
      show (CircularBuffer.push _ _).toList = _
      rw [CircularBuffer.toList_push, ih]
      exact CircularBuffer.rtake_rtake_concat _ _
    | clear => exact (List.rtake_nil _).symm

/-- What the chart is given, after any calls. -/
theorem series_of_lastSamples (calls : List Call) :
    (run call init calls).dlSamples toDouble = (lastSamples calls).map (fun s => toDouble s.dl) ∧
      (run call init calls).ulSamples toDouble = (lastSamples calls).map (fun s => toDouble s.ul) ∧
      ∀ key windowMinutes, (run call init calls).seriesSamples toDouble key windowMinutes =
        doubled ((inWindow windowMinutes (lastSamples calls)).map fun s => toDouble (seriesValue key s)) := by
  refine ⟨?_, ?_, fun key windowMinutes => ?_⟩
  · rw [dlSamples, allSamples_eq, toList_run]
  · rw [ulSamples, allSamples_eq, toList_run]
  · rw [seriesSamples_eq, toList_run]

end SpeedChartModel

end TorrentLink.Ui
