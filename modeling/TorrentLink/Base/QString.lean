import Mathlib.Data.List.DropRight
import Mathlib.Data.List.Infix

/-!
# Strings and points in time

The operations of `QString` and `QDateTime` that the program uses, on Lean's `String` and on an
optional number of milliseconds since the epoch. Letter case is folded for ASCII only: every literal
the program compares case-insensitively is ASCII, without the two letters (`k`, `s`) to which
characters outside ASCII fold in a prefix or suffix test of it.
-/

namespace TorrentLink

/-- `QChar::isSpace`: the control spaces, the separators and the two Latin-1 spaces. -/
def isSpace (c : Char) : Bool :=
  let n := c.toNat
  (9 ≤ n && n ≤ 13) || n = 0x20 || n = 0x85 || n = 0xA0 || n = 0x1680 ||
    (0x2000 ≤ n && n ≤ 0x200A) || n = 0x2028 || n = 0x2029 || n = 0x202F || n = 0x205F ||
    n = 0x3000

/-- `QString::trimmed`. -/
def trimmed (s : String) : String :=
  String.ofList (((s.toList.dropWhile isSpace).reverse.dropWhile isSpace).reverse)

/-- ASCII letters to lower case, as the case-insensitive comparisons need it. -/
def foldCase (s : String) : List Char := s.toList.map Char.toLower

/-- `QString::startsWith` with `Qt::CaseInsensitive`. -/
def startsWithCI (s pre : String) : Bool := (foldCase pre).isPrefixOf (foldCase s)

/-- `QString::endsWith` with `Qt::CaseInsensitive`. -/
def endsWithCI (s suf : String) : Bool := (foldCase suf).isSuffixOf (foldCase s)

/-- `QString::contains`, on the exact characters. -/
def containsText (s sub : String) : Bool := decide (sub.toList <:+: s.toList)

/-- A `QDateTime`: `none` is an invalid one, otherwise the milliseconds since the epoch. -/
abbrev QDateTime := Option Int

/-- `QDateTime::isValid`. -/
def QDateTime.isValid (t : QDateTime) : Bool := t.isSome

/-- `operator<`: all invalid times are equal, and before every valid one. -/
def QDateTime.before : QDateTime → QDateTime → Bool
  | some a, some b => a < b
  | none, some _ => true
  | _, none => false

/-! ### Trimming -/

/-- The characters of a trimmed text. -/
theorem toList_trimmed (s : String) : (trimmed s).toList =
    ((s.toList.dropWhile isSpace).reverse.dropWhile isSpace).reverse := String.toList_ofList

/-- A text that starts with no space starts alike when the spaces behind it are dropped. -/
theorem head?_trimmed {s : String} {c : Char} (h : s.toList.head? = some c)
    (hc : isSpace c = false) : (trimmed s).toList.head? = some c := by
  obtain ⟨cs, hcs⟩ : ∃ cs, s.toList = c :: cs := List.head?_eq_some_iff.mp h
  rw [toList_trimmed, hcs, List.dropWhile_cons_of_neg (by simp [hc]), List.reverse_cons,
    List.dropWhile_append]
  split_ifs
  · simp [hc]
  · simp

theorem mem_trimmed {s : String} {c : Char} (h : c ∈ s.toList) (hc : isSpace c = false) :
    c ∈ (trimmed s).toList := by
  have hdrop : ∀ cs : List Char, c ∈ cs → c ∈ cs.dropWhile isSpace := by
    intro cs hmem
    induction cs with
    | nil => exact hmem
    | cons d ds ih =>
      by_cases hd : isSpace d = true
      · rw [List.dropWhile_cons_of_pos hd]
        rcases List.mem_cons.mp hmem with rfl | hmem
        · rw [hc] at hd
          cases hd
        · exact ih hmem
      · rw [List.dropWhile_cons_of_neg hd]
        exact hmem
  rw [toList_trimmed, List.mem_reverse]
  exact hdrop _ (List.mem_reverse.mpr (hdrop _ h))

theorem trimmed_trimmed (s : String) : trimmed (trimmed s) = trimmed s := by
  -- what is left begins with no space, as the text without its leading spaces does
  have hleft : (trimmed s).toList.dropWhile isSpace = (trimmed s).toList := by
    cases hu : s.toList.dropWhile isSpace with
    | nil => simp [toList_trimmed, hu]
    | cons c cs =>
      have hc : isSpace c = false := by
        have hhead := List.head_dropWhile_not isSpace (l := s.toList) (by simp [hu])
        simpa only [hu, List.head_cons] using hhead
      have hsame : trimmed (String.ofList (c :: cs)) = trimmed s := by
        apply String.toList_inj.mp
        rw [toList_trimmed, toList_trimmed, String.toList_ofList, ← hu, List.dropWhile_idempotent]
      have hhead := head?_trimmed (s := String.ofList (c :: cs)) (by simp) hc
      rw [hsame] at hhead
      obtain ⟨ws, hws⟩ := List.head?_eq_some_iff.mp hhead
      rw [hws, List.dropWhile_cons_of_neg (by simp [hc])]
  apply String.toList_inj.mp
  rw [toList_trimmed (trimmed s), hleft, toList_trimmed, List.reverse_reverse, List.dropWhile_idempotent]

example : trimmed "  a b\n" = "a b" := by decide

/-- `QString::trimmed`, on the characters of a text. -/
def trimChars (cs : List Char) : List Char := (trimmed (String.ofList cs)).toList

theorem trimChars_eq (cs : List Char) :
    trimChars cs = ((cs.dropWhile isSpace).reverse.dropWhile isSpace).reverse := by
  rw [trimChars, toList_trimmed, String.toList_ofList]

theorem trimChars_trimChars (cs : List Char) : trimChars (trimChars cs) = trimChars cs := by
  rw [trimChars, trimChars, String.ofList_toList, trimmed_trimmed]

/-- Spaces are dropped on both sides. -/
theorem exists_trimChars (cs : List Char) : ∃ lead trail, cs = lead ++ trimChars cs ++ trail ∧
    (∀ c ∈ lead, isSpace c = true) ∧ ∀ c ∈ trail, isSpace c = true := by
  refine ⟨cs.takeWhile isSpace, ((cs.dropWhile isSpace).reverse.takeWhile isSpace).reverse, ?_,
    fun c hc => List.mem_takeWhile_imp hc, fun c hc => List.mem_takeWhile_imp (List.mem_reverse.mp hc)⟩
  rw [trimChars_eq, List.append_assoc, ← List.reverse_append, List.takeWhile_append_dropWhile,
    List.reverse_reverse, List.takeWhile_append_dropWhile]

theorem not_isSpace_of_trimChars_cons {cs rest : List Char} {c : Char} (h : trimChars cs = c :: rest) :
    isSpace c = false := by
  by_contra hspace
  -- trimming once more would drop the space
  have hagain := trimChars_trimChars cs
  rw [h, trimChars_eq, List.dropWhile_cons_of_pos (by simpa using hspace)] at hagain
  have hlength := congrArg List.length hagain
  have hle := (List.dropWhile_sublist isSpace (l := (rest.dropWhile isSpace).reverse)).length_le
  have hle' := (List.dropWhile_sublist isSpace (l := rest)).length_le
  simp only [List.length_reverse, List.length_cons] at hlength hle hle'
  omega

theorem not_isSpace_of_trimChars_concat {cs rest : List Char} {c : Char} (h : trimChars cs = rest ++ [c]) :
    isSpace c = false := by
  rw [trimChars_eq, List.reverse_eq_iff, List.reverse_concat] at h
  have hhead := List.head?_dropWhile_not isSpace (cs.dropWhile isSpace).reverse
  rw [h] at hhead
  simpa using hhead

/-- What follows a character that is no space is kept, if it is trimmed already. -/
theorem trimChars_append_cons {sep : Char} (hsep : isSpace sep = false) (dir part : List Char) :
    trimChars (dir ++ sep :: trimChars part) = dir.dropWhile isSpace ++ sep :: trimChars part := by
  have hleft : (dir ++ sep :: trimChars part).dropWhile isSpace =
      dir.dropWhile isSpace ++ sep :: trimChars part := by
    rw [List.dropWhile_append]
    split
    · rename_i hnil
      rw [List.isEmpty_iff.mp hnil, List.dropWhile_cons_of_neg (by simp [hsep]), List.nil_append]
    · rfl
  have hright : (trimChars part).reverse.dropWhile isSpace = (trimChars part).reverse := by
    rw [trimChars_eq, List.reverse_reverse, List.dropWhile_idempotent]
  rw [trimChars_eq (dir ++ _), hleft, List.reverse_append, List.reverse_cons, List.append_assoc,
    List.dropWhile_append, hright]
  split
  · rename_i hnil
    rw [List.reverse_eq_nil_iff.mp (List.isEmpty_iff.mp hnil)]
    simp [hsep]
  · simp

end TorrentLink
