import Mathlib.Data.List.MinMax
import Mathlib.Data.List.Basic

/-!
# The place markers of `QString::arg`

`arg` puts a text in the place of every marker with the lowest number of all, and what it puts in is not
told apart from the rest by the next `arg`. A name made of a path and a number by `"%1.%2"` is therefore the
path, a full stop and the number (`argTwo_of_lt`) unless the path itself has a marker of number two or less;
then the number also, or only, replaces that, and the result does not start with the path
(`not_prefix_argTwo`).
-/

namespace TorrentLink

/-- `qArgDigitValue` -/
def argDigitValue (c : Char) : Option Nat := if c.isDigit then some (c.toNat - 48) else none

/-- The number of one or two digits at the start of a text, and how many they are. -/
def markerNumber : List Char → Option (Nat × Nat)
  | [] => none
  | [c] => (argDigitValue c).map fun n => (n, 1)
  | c :: d :: _ =>
    (argDigitValue c).map fun n => ((argDigitValue d).map fun m => (10 * n + m, 2)).getD (n, 1)

/-- The number and the length of the marker at the start of a text. Text for the locale, behind an `L`, is
that of the C locale. -/
def placeMarker : List Char → Option (Nat × Nat)
  | [] => none
  | c :: rest =>
    if c ≠ '%' then none
    else if rest.head? = some 'L' then (markerNumber rest.tail).map fun (n, len) => (n, len + 2)
    else (markerNumber rest).map fun (n, len) => (n, len + 1)

/-- The numbers of the markers of a text. No marker starts inside another. -/
def markers : List Char → List Nat
  | [] => []
  | c :: cs => ((placeMarker (c :: cs)).map Prod.fst).toList ++ markers cs

/-- A text in the place of the markers of a number, once the characters to skip are passed. -/
def replaceMarkers (number : Nat) (a : List Char) : Nat → List Char → List Char
  | _, [] => []
  | skip + 1, _ :: cs => replaceMarkers number a skip cs
  | 0, c :: cs =>
    match placeMarker (c :: cs) with
    | some (n, len) =>
      if n = number then a ++ replaceMarkers number a (len - 1) cs
      else c :: replaceMarkers number a 0 cs
    | none => c :: replaceMarkers number a 0 cs

/-- `QString::arg` -/
def arg (s a : List Char) : List Char :=
  match (markers s).min? with
  | none => s
  | some n => replaceMarkers n a 0 s

/-- `QStringLiteral("%1.%2").arg(base).arg(i)` -/
def argTwo (base : String) (i : Nat) : String :=
  String.ofList (arg (arg "%1.%2".toList base.toList) (toString i).toList)

/-! ### The markers of a path before a full stop -/

section Markers

variable {number : Nat} {a : List Char}

theorem markerNumber_append (l r : List Char) : markerNumber (l ++ '.' :: r) = markerNumber l := by
  match l with
  | [] => cases r <;> rfl
  | [c] => rfl
  | c :: d :: l => rfl

theorem placeMarker_append (c : Char) (l r : List Char) :
    placeMarker (c :: (l ++ '.' :: r)) = placeMarker (c :: l) := by
  cases l with
  | nil =>
    have hnone : markerNumber ('.' :: r) = none := markerNumber_append [] r
    show (if c ≠ '%' then none else (markerNumber ('.' :: r)).map _) = _
    rw [hnone]
    rfl
  | cons d l =>
    show (if c ≠ '%' then none
      else if some d = some 'L' then (markerNumber (l ++ '.' :: r)).map _
      else (markerNumber (d :: l ++ '.' :: r)).map _) = _
    rw [markerNumber_append, markerNumber_append]
    rfl

theorem markers_append (base r : List Char) :
    markers (base ++ '.' :: r) = markers base ++ markers ('.' :: r) := by
  induction base with
  | nil => rfl
  | cons c cs ih =>
    rw [List.cons_append, markers, markers, placeMarker_append, ih, List.append_assoc]

/-- A path without a marker of the number stays as it is. -/
theorem replaceMarkers_of_not_mem {base : List Char} (h : number ∉ markers base) (r : List Char) :
    replaceMarkers number a 0 (base ++ '.' :: r) = base ++ replaceMarkers number a 0 ('.' :: r) := by
  induction base with
  | nil => rfl
  | cons c cs ih =>
    rw [markers, List.mem_append, not_or] at h
    rw [List.cons_append, replaceMarkers, placeMarker_append]
    cases hmarker : placeMarker (c :: cs) with
    | none => exact congrArg (c :: ·) (ih h.2)
    | some p =>
      have hne : p.1 ≠ number := by
        intro heq
        rw [hmarker] at h
        exact h.1 (List.mem_singleton.mpr heq.symm)
      dsimp only
      rw [if_neg hne]
      exact congrArg (c :: ·) (ih h.2)

/-- A path with a marker of the number is not at the start of what comes out. -/
theorem not_prefix_replaceMarkers {base : List Char} (h : number ∈ markers base) (ha : a ≠ [])
    (hhead : a.head? ≠ some '%') (r : List Char) :
    ¬ base <+: replaceMarkers number a 0 (base ++ '.' :: r) := by
  induction base with
  | nil => cases h
  | cons c cs ih =>
    rw [markers, List.mem_append] at h
    rw [List.cons_append, replaceMarkers, placeMarker_append]
    cases hmarker : placeMarker (c :: cs) with
    | none =>
      rw [hmarker] at h
      rcases h with h | h
      · cases h
      · exact fun hpre => ih h (List.cons_prefix_cons.mp hpre).2
    | some p =>
      rw [hmarker] at h
      dsimp only
      split_ifs with heq
      · -- the marker is here, and the path has its `%`
        obtain ⟨d, a, rfl⟩ := List.exists_cons_of_ne_nil ha
        have hc : c = '%' := by
          by_contra hc
          have hnone : placeMarker (c :: cs) = none := if_pos hc
          rw [hnone] at hmarker
          cases hmarker
        intro hpre
        exact hhead (congrArg some ((List.cons_prefix_cons.mp hpre).1.symm.trans hc))
      · rcases h with h | h
        · exact absurd (List.mem_singleton.mp h).symm heq
        · exact fun hpre => ih h (List.cons_prefix_cons.mp hpre).2

end Markers

/-! ### A path and a number -/

theorem arg_path (base : List Char) : arg "%1.%2".toList base = base ++ ".%2".toList := by
  show base ++ ('.' :: '%' :: '2' :: []) = _
  rfl

theorem markers_path (base : List Char) : markers (base ++ ".%2".toList) = markers base ++ [2] :=
  markers_append base ['%', '2']

theorem argTwo_of_lt {base : String} (h : ∀ n ∈ markers base.toList, 2 < n) (i : Nat) :
    argTwo base i = base ++ "." ++ toString i := by
  have hmin : (markers base.toList ++ [2]).min? = some 2 := by
    rw [List.min?_eq_some_iff]
    refine ⟨by simp, ?_⟩
    intro n hn
    rcases List.mem_append.mp hn with hn | hn
    · exact (h n hn).le
    · exact (List.mem_singleton.mp hn).ge
  have hnot : 2 ∉ markers base.toList := fun hmem => Nat.lt_irrefl 2 (h 2 hmem)
  have hrest : replaceMarkers 2 (toString i).toList 0 ".%2".toList = '.' :: (toString i).toList :=
    congrArg (List.cons '.') (List.append_nil _)
  unfold argTwo
  rw [arg_path, arg, markers_path, hmin]
  dsimp only
  rw [show ".%2".toList = '.' :: ['%', '2'] from rfl] at hrest ⊢
  rw [replaceMarkers_of_not_mem hnot, hrest]
  exact String.toList_injective (by simp)

theorem head?_toString (i : Nat) : (toString i).toList ≠ [] ∧ (toString i).toList.head? ≠ some '%' := by
  have hdigits : (toString i).toList = Nat.toDigits 10 i := Nat.toList_repr
  rw [hdigits]
  refine ⟨Nat.toDigits_ne_nil, fun h => ?_⟩
  exact absurd (Nat.isDigit_of_mem_toDigits (by decide) (by decide) (List.mem_of_head? h)) (by decide)

theorem not_prefix_argTwo {base : String} {n : Nat} (hn : n ∈ markers base.toList) (hle : n ≤ 2)
    (i : Nat) : ¬ base.toList <+: (argTwo base i).toList := by
  obtain ⟨m, hmin⟩ : ∃ m, (markers base.toList ++ [2]).min? = some m :=
    Option.isSome_iff_exists.mp (List.isSome_min?_of_mem (List.mem_append_left _ hn))
  obtain ⟨hmem, hlow⟩ := List.min?_eq_some_iff.mp hmin
  have hbase : m ∈ markers base.toList := by
    rcases List.mem_append.mp hmem with hmem | hmem
    · exact hmem
    · have htwo := List.mem_singleton.mp hmem
      have hmn := hlow n (List.mem_append_left _ hn)
      rw [show m = n by omega]
      exact hn
  unfold argTwo
  rw [String.toList_ofList, arg_path, arg, markers_path, hmin]
  obtain ⟨hnil, hhead⟩ := head?_toString i
  exact not_prefix_replaceMarkers hbase hnil hhead _

example : argTwo "app.log" 12 = "app.log.12" := by decide +kernel

example : argTwo "50%1.log" 12 = "5012.log.%2" := by decide +kernel

end TorrentLink
