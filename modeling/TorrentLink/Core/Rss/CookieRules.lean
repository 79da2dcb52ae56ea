import TorrentLink.Base.QString
import TorrentLink.Lib.Paths

/-!
# Cookies by domain

`cookieFromRules` picks the cookies for a host from lines of a domain, a tab and a cookie. It sends
those whose domain covers the host, in the order of the lines (`cookieFromRules_eq`), so the lines for
other domains have no influence on what a host gets. A blank host gets none, whatever the domains.
-/

namespace TorrentLink.Rss

-- `QString::toLower`
variable (toLower : List Char → List Char)

/-! ### Picking cookies -/

/-- The body of the loop: the cookie to add. -/
def cookieOfLine (hostLower raw : List Char) : Option (List Char) :=
  let line := trimChars raw
  if line = [] then none
  else
    match line.idxOf? '\t' with
    | none => none
    | some sep =>
      if sep = 0 ∨ line.length - 1 ≤ sep then none
      else
        let domain := toLower (trimChars (line.take sep))
        let cookiePair := trimChars (line.drop (sep + 1))
        if cookiePair = [] then none
        else
          if domain = ['*'] ∨ domain = hostLower ∨
              domain.length < hostLower.length ∧ ['.'] ++ domain <:+ hostLower
          then some cookiePair
          else none

def cookieFromRules (rulesText host : List Char) : List Char :=
  if trimChars rulesText = [] ∨ trimChars host = [] then []
  else
    let hostLower := toLower (trimChars host)
    let pairs := ((rulesText.splitOn '\n').filter (· ≠ [])).foldl (fun pairs raw =>
      match cookieOfLine toLower hostLower raw with
      | some cookiePair => pairs ++ [cookiePair]
      | none => pairs) []
    "; ".toList.intercalate pairs

/-- The part of `RequestHeaders` that the `Cookie` header is made of. -/
structure CookieSettings where
  cookieHeader : List Char
  cookieRules : List Char

/-- The value that `fetch` sets for `Cookie`, if it sets one. -/
def cookieHeaderFor (headers : CookieSettings) (host : List Char) : Option (List Char) :=
  let fixed := trimChars headers.cookieHeader
  let header := if fixed = [] then none else some fixed
  let ruleCookies := cookieFromRules toLower headers.cookieRules host
  if ruleCookies = [] then header
  else if fixed = [] then some ruleCookies
  else some (fixed ++ "; ".toList ++ ruleCookies)

/-! ### What a line says -/

structure CookieRule where
  domain : List Char
  cookie : List Char

/-- A well-formed line has a tab between the domain and the cookie. -/
def cookieRule (line : List Char) : Option CookieRule :=
  let text := trimChars line
  if '\t' ∈ text then
    some
      { domain := trimChars (text.takeWhile (· ≠ '\t'))
        cookie := trimChars ((text.dropWhile (· ≠ '\t')).drop 1) }
  else none

/-- The domain is `*`, the host or a parent domain of it, in any letter case. -/
def Covers (domain host : List Char) : Prop :=
  toLower domain = ['*'] ∨ toLower domain = toLower host ∨ '.' :: toLower domain <:+ toLower host

instance (domain host : List Char) : Decidable (Covers toLower domain host) :=
  inferInstanceAs (Decidable (_ ∨ _ ∨ _))

/-- The cookies of the lines whose domain covers the host, in their order. -/
def cookiesFor (rulesText host : List Char) : List (List Char) :=
  (((rulesText.splitOn '\n').filterMap cookieRule).filter fun rule => Covers toLower rule.domain host).map
    (·.cookie)

/-- The line is no rule for a domain that does not cover the host. -/
def Concerns (host line : List Char) : Prop := ∀ rule ∈ cookieRule line, Covers toLower rule.domain host

instance (host line : List Char) : Decidable (Concerns toLower host line) :=
  inferInstanceAs (Decidable (∀ rule ∈ cookieRule line, _))

/-! ### Lines -/

theorem trimChars_ne_nil {cs : List Char} {c : Char} (hc : c ∈ cs) (hspace : isSpace c = false) :
    trimChars cs ≠ [] := by
  have hmem : c ∈ trimChars cs := mem_trimmed (by rwa [String.toList_ofList]) hspace
  exact List.ne_nil_of_mem hmem

theorem trimChars_nil : trimChars [] = [] := by
  rw [trimChars_eq]
  rfl

/-- A tab in a trimmed line has a domain before it and a cookie behind it. -/
theorem tab_inside {raw domain cookie : List Char} (htext : trimChars raw = domain ++ '\t' :: cookie) :
    domain ≠ [] ∧ trimChars cookie ≠ [] := by
  constructor
  · rintro rfl
    exact Bool.false_ne_true (not_isSpace_of_trimChars_cons htext).symm
  · rcases List.eq_nil_or_concat cookie with rfl | ⟨cookie, c, rfl⟩
    · exact absurd (not_isSpace_of_trimChars_concat htext) (by decide)
    · rw [List.concat_eq_append, ← List.cons_append, ← List.append_assoc] at htext
      exact trimChars_ne_nil (by simp) (not_isSpace_of_trimChars_concat htext)

variable {toLower}

theorem matched_iff {domain host : List Char} :
    toLower domain = ['*'] ∨ toLower domain = toLower host ∨
        (toLower domain).length < (toLower host).length ∧ ['.'] ++ toLower domain <:+ toLower host ↔
      Covers toLower domain host := by
  refine or_congr_right (or_congr_right (and_iff_right_of_imp fun hsuffix => ?_))
  exact Nat.lt_of_lt_of_le (Nat.lt_succ_self _) hsuffix.length_le

section Tab

variable {raw domain cookie : List Char} (htext : trimChars raw = domain ++ '\t' :: cookie)
  (hfirst : '\t' ∉ domain)
include htext hfirst

theorem cookieRule_of_tab :
    cookieRule raw = some { domain := trimChars domain, cookie := trimChars cookie } := by
  have hstop : ∀ c ∈ domain, decide (c ≠ '\t') = true :=
    fun c hc => decide_eq_true fun htab => hfirst (htab ▸ hc)
  unfold cookieRule
  dsimp only
  rw [htext, if_pos (List.mem_append_right _ List.mem_cons_self), List.takeWhile_append_of_pos hstop,
    List.dropWhile_append_of_pos hstop, List.takeWhile_cons_of_neg (by decide),
    List.dropWhile_cons_of_neg (by decide),
    List.append_nil, List.drop_one, List.tail_cons]

theorem cookieOfLine_of_tab (host : List Char) : cookieOfLine toLower (toLower host) raw =
    if Covers toLower (trimChars domain) host then some (trimChars cookie) else none := by
  obtain ⟨hdomain, hcookie⟩ := tab_inside htext
  have hsep : (domain ++ '\t' :: cookie).idxOf? '\t' = some domain.length := by
    rw [List.idxOf?_eq_some_iff]
    refine ⟨by simp, by simp, fun j hj htab => ?_⟩
    rw [List.getElem_append_left hj] at htab
    exact hfirst (htab ▸ List.getElem_mem hj)
  have hinside : ¬ (domain.length = 0 ∨ (domain ++ '\t' :: cookie).length - 1 ≤ domain.length) := by
    have hlength := List.length_pos_iff.mpr hdomain
    have hlength' : 0 < cookie.length := by
      refine List.length_pos_iff.mpr fun hnil => hcookie ?_
      rw [hnil, trimChars_nil]
    rw [List.length_append, List.length_cons]
    omega
  have hdrop : (domain ++ '\t' :: cookie).drop (domain.length + 1) = cookie := by
    rw [← List.drop_drop, List.drop_left, List.drop_one, List.tail_cons]
  unfold cookieOfLine
  dsimp only
  rw [htext, if_neg (List.append_ne_nil_of_left_ne_nil hdomain _), hsep]
  dsimp only
  rw [if_neg hinside, List.take_left, hdrop, if_neg hcookie]
  simp only [matched_iff]

end Tab

theorem cookieOfLine_of_noTab {raw : List Char} (htab : '\t' ∉ trimChars raw) (hostLower : List Char) :
    cookieOfLine toLower hostLower raw = none := by
  unfold cookieOfLine
  dsimp only
  rw [List.idxOf?_eq_none_iff.mpr htab]
  exact ite_self none

/-- The loop takes the cookie of the line if its domain covers the host. -/
theorem cookieOfLine_eq (host raw : List Char) :
    cookieOfLine toLower (toLower host) raw =
      ((cookieRule raw).filter fun rule => Covers toLower rule.domain host).map (·.cookie) := by
  by_cases htab : '\t' ∈ trimChars raw
  · obtain ⟨domain, cookie, htext, hfirst⟩ := List.eq_append_cons_of_mem htab
    rw [cookieOfLine_of_tab htext hfirst, cookieRule_of_tab htext hfirst, Option.filter_some]
    by_cases hcovers : Covers toLower (trimChars domain) host
    · rw [if_pos hcovers, if_pos (decide_eq_true hcovers), Option.map_some]
    · rw [if_neg hcovers, if_neg (by simpa using hcovers), Option.map_none]
  · rw [cookieOfLine_of_noTab htab, cookieRule, if_neg htab]
    rfl

/-! ### All lines -/

theorem foldl_cookies (hostLower : List Char) (lines pairs : List (List Char)) :
    lines.foldl (fun pairs raw =>
        match cookieOfLine toLower hostLower raw with
        | some cookiePair => pairs ++ [cookiePair]
        | none => pairs) pairs =
      pairs ++ lines.filterMap (cookieOfLine toLower hostLower) := by
  induction lines generalizing pairs with
  | nil => exact (List.append_nil pairs).symm
  | cons raw lines ih =>
    rw [List.foldl_cons, ih]
    cases hline : cookieOfLine toLower hostLower raw with
    | none => rw [List.filterMap_cons_none hline]
    | some cookiePair => rw [List.filterMap_cons_some hline, List.append_assoc, List.singleton_append]

theorem cookieRule_of_blank {line : List Char} (h : trimChars line = []) : cookieRule line = none := by
  rw [cookieRule, h]
  exact if_neg List.not_mem_nil

theorem cookiesFor_eq (rulesText host : List Char) : cookiesFor toLower rulesText host =
    ((rulesText.splitOn '\n').filter (· ≠ [])).filterMap (cookieOfLine toLower (toLower host)) := by
  have hlines : ∀ lines : List (List Char), ((lines.filterMap cookieRule).filter fun rule =>
      Covers toLower rule.domain host).map (·.cookie) =
        (lines.filter (· ≠ [])).filterMap (cookieOfLine toLower (toLower host)) := by
    intro lines
    induction lines with
    | nil => rfl
    | cons line lines ih =>
      by_cases hempty : line = []
      · subst hempty
        rw [List.filterMap_cons_none (cookieRule_of_blank trimChars_nil),
          List.filter_cons_of_neg (by simp), ih]
      · rw [List.filter_cons_of_pos (by simpa using hempty), List.filterMap_cons, List.filterMap_cons,
          cookieOfLine_eq, ← ih]
        cases hrule : cookieRule line with
        | none => rw [Option.filter_none, Option.map_none]
        | some rule =>
          by_cases hcovers : Covers toLower rule.domain host
          · rw [Option.filter_some, if_pos (decide_eq_true hcovers),
              List.filter_cons_of_pos (by simpa using hcovers)]
            simp
          · rw [Option.filter_some, if_neg (by simpa using hcovers),
              List.filter_cons_of_neg (by simpa using hcovers)]
            simp
  exact hlines _

/-- A text of blanks has no rule. -/
theorem cookiesFor_of_blank {rulesText : List Char} (host : List Char)
    (hblank : trimChars rulesText = []) :
    cookiesFor toLower rulesText host = [] := by
  have hspaces : ∀ c ∈ rulesText, isSpace c = true := by
    intro c hc
    by_contra hspace
    exact trimChars_ne_nil hc (by simpa using hspace) hblank
  have hnone : ∀ line ∈ rulesText.splitOn '\n', cookieRule line = none := by
    intro line hline
    apply cookieRule_of_blank
    rw [trimChars_eq, List.reverse_eq_nil_iff, List.dropWhile_eq_nil_iff]
    intro c hc
    have hline' := (List.dropWhile_sublist isSpace).subset (List.mem_reverse.mp hc)
    exact hspaces c (Lib.subset_of_mem_splitOn hline hline')
  rw [cookiesFor, List.filterMap_eq_nil_iff.mpr hnone]
  rfl

/-- A host gets the cookies of the lines that cover it, in their order. -/
theorem cookieFromRules_eq (rulesText : List Char) {host : List Char} (hhost : trimChars host ≠ []) :
    cookieFromRules toLower rulesText host =
      "; ".toList.intercalate (cookiesFor toLower rulesText (trimChars host)) := by
  unfold cookieFromRules
  by_cases hblank : trimChars rulesText = []
  · rw [if_pos (.inl hblank), cookiesFor_of_blank _ hblank]
    rfl
  · rw [if_neg fun h => h.elim hblank hhost]
    dsimp only
    rw [foldl_cookies, List.nil_append, cookiesFor_eq]

theorem cookiesFor_concerns (rulesText host : List Char) : cookiesFor toLower rulesText host =
    (((rulesText.splitOn '\n').filter (Concerns toLower host)).filterMap cookieRule).map (·.cookie) := by
  have hrules : ∀ line, (cookieRule line).filter (fun rule => Covers toLower rule.domain host) =
      if Concerns toLower host line then cookieRule line else none := by
    intro line
    cases hrule : cookieRule line with
    | none => rw [Option.filter_none, ite_self]
    | some rule => simp [Concerns, hrule, Option.filter_some]
  rw [cookiesFor, List.filter_filterMap, List.filterMap_filter]
  simp only [hrules, decide_eq_true_eq]

/-- What a host is sent: nothing for a blank one, and otherwise the cookies of the lines for it, in
their order. Lines for other domains have no influence on it. -/
theorem cookies_of_host (toLower : List Char → List Char) (host : List Char) :
    (∀ rulesText, cookieFromRules toLower rulesText host =
        if trimChars host = [] then []
        else "; ".toList.intercalate (cookiesFor toLower rulesText (trimChars host))) ∧
      ∀ fixed rulesText rulesText',
        (rulesText.splitOn '\n').filter (Concerns toLower (trimChars host)) =
            (rulesText'.splitOn '\n').filter (Concerns toLower (trimChars host)) →
          cookieFromRules toLower rulesText host = cookieFromRules toLower rulesText' host ∧
            cookieHeaderFor toLower ⟨fixed, rulesText⟩ host =
              cookieHeaderFor toLower ⟨fixed, rulesText'⟩ host := by
  have hall : ∀ rulesText, cookieFromRules toLower rulesText host =
      if trimChars host = [] then []
      else "; ".toList.intercalate (cookiesFor toLower rulesText (trimChars host)) := by
    intro rulesText
    by_cases hhost : trimChars host = []
    · rw [if_pos hhost]
      exact if_pos (.inr hhost)
    · rw [if_neg hhost, cookieFromRules_eq rulesText hhost]
  refine ⟨hall, fun fixed rulesText rulesText' hsame => ?_⟩
  have hcookies : cookieFromRules toLower rulesText host = cookieFromRules toLower rulesText' host := by
    rw [hall, hall, cookiesFor_concerns, cookiesFor_concerns, hsame]
  refine ⟨hcookies, ?_⟩
  unfold cookieHeaderFor
  rw [hcookies]

theorem cookies_of_aHost :
    cookieFromRules (List.map Char.toLower) "b.org\tx=1\na.org\ty=2".toList "A.org".toList =
        cookieFromRules (List.map Char.toLower) "a.org\ty=2".toList "A.org".toList ∧
      cookieHeaderFor (List.map Char.toLower) ⟨"s=3".toList, "b.org\tx=1\na.org\ty=2".toList⟩
          "A.org".toList =
        cookieHeaderFor (List.map Char.toLower) ⟨"s=3".toList, "a.org\ty=2".toList⟩ "A.org".toList :=
  (cookies_of_host (List.map Char.toLower) "A.org".toList).2 "s=3".toList _ _ (by decide)

/-- A rule for every host covers the empty one too, which gets no cookie all the same. -/
theorem cookieFromRules_blankHost :
    cookieFromRules (List.map Char.toLower) "*\tk=v".toList [] ≠
      "; ".toList.intercalate (cookiesFor (List.map Char.toLower) "*\tk=v".toList []) := by
  decide

/-- The dot in front of a parent domain is compared: the cookie of `b.org` is sent to `a.b.org` and not
to `ab.org`. -/
example : cookieFromRules (List.map Char.toLower) "B.org\tx=1\n \nq.org\tz=3\n*\t y=2".toList
    "a.b.org".toList =
      "x=1; y=2".toList ∧
    cookieFromRules (List.map Char.toLower) "B.org\tx=1".toList "ab.org".toList = [] := by
  decide

end TorrentLink.Rss
