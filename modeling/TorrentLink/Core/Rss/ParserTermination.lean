import TorrentLink.Core.Rss.Parser

/-!
# When a parse returns

The inner loops of the parser test for the end element of the item and for nothing else, so a reader
that turns invalid inside an item keeps them running. `documentCloses` decides this on the tokens
alone, in one pass: every item that is entered is left again before the tokens end, and no element
inside it that is read as text holds anything but text, comments and processing instructions.
`parse_returns_iff`: the parse returns exactly on the inputs whose tokens pass.

Proof. `scanStep` consumes the tokens one at a time; a turn of a loop consumes several. After each turn
the mode of the scan can be read off the reader (`mode`), and the verdict on the remaining tokens does
not change (`closes_itemBody`). A reader at its end is stuck: the inner loop's condition holds of it for
ever (`itemLoop_diverges_of_stuck`).
-/

namespace TorrentLink.Rss

open Lib

variable (q : FeedText)

/-! ### The scan of the tokens -/

/-- The start elements whose content is read as text, given whether a valid date was read before. -/
def FeedFormat.readsText (format : FeedFormat) (tag : String) (dated : Bool) : Bool :=
  match format with
  | .rss2 => tag = "title" || tag = "link" || tag = "guid" || tag = "description" || tag = "pubDate"
  | .atom => tag = "title" || tag = "id" || tag = "summary" || tag = "content" ||
      ((tag = "published" || tag = "updated") && !dated)

/-- The elements whose text is the item's date. -/
def FeedFormat.isDate (format : FeedFormat) (tag : String) : Bool :=
  match format with
  | .rss2 => tag = "pubDate"
  | .atom => tag = "published" || tag = "updated"

/-- Where the scan is: `dated` says whether the item has a valid date. -/
inductive ScanMode
  | outside
  | inItem (dated : Bool)
  | inText (dated isDate : Bool) (text : String)
  | skipping (dated : Bool) (depth : Nat)
  | broken
  deriving DecidableEq, Repr

/-- After an end element inside an item. -/
def FeedFormat.afterEnd (format : FeedFormat) (name : String) (dated : Bool) : ScanMode :=
  if name = format.itemTag then .outside else .inItem dated

def FeedFormat.enter (format : FeedFormat) (tag : String) (dated : Bool) : ScanMode :=
  if format.readsText tag dated then .inText dated (format.isDate tag) "" else .skipping dated 1

/-- Whether the item has a valid date after the text of an element. -/
def datedAfter (dated isDate : Bool) (text : String) : Bool :=
  if isDate then (parseDateTime q (trimmed text)).isValid else dated

def scanStep (format : FeedFormat) : ScanMode → XmlToken → ScanMode
  | .outside, .startElement name _ => if name = format.itemTag then .inItem false else .outside
  | .outside, _ => .outside
  | .inItem dated, .startElement tag _ => format.enter tag dated
  | .inItem dated, .endElement name => format.afterEnd name dated
  | .inItem dated, _ => .inItem dated
  | .inText dated isDate text, .characters s => .inText dated isDate (text ++ s)
  | .inText dated isDate text, .entityReference s => .inText dated isDate (text ++ s)
  | .inText dated isDate text, .endElement name =>
    format.afterEnd name (datedAfter q dated isDate text)
  | .inText dated isDate text, .comment => .inText dated isDate text
  | .inText dated isDate text, .processingInstruction => .inText dated isDate text
  | .inText _ _ _, _ => .broken
  | .skipping dated depth, .endElement name =>
    if depth ≤ 1 then format.afterEnd name dated else .skipping dated (depth - 1)
  | .skipping dated depth, .startElement _ _ => .skipping dated (depth + 1)
  | .skipping dated depth, _ => .skipping dated depth
  | .broken, _ => .broken

/-- The scan of the tokens from `mode` ends outside of an item. -/
def closes (format : FeedFormat) (mode : ScanMode) (tokens : List XmlToken) : Bool :=
  tokens.foldl (scanStep q format) mode = .outside

/-- The whole input: from its first known root element on, every item is closed. -/
def documentCloses : List XmlToken → Bool
  | [] => true
  | .startElement name _ :: ts =>
    match rootFormat name with
    | some format => closes q format .outside ts
    | none => documentCloses ts
  | _ :: ts => documentCloses ts

@[simp] theorem closes_nil (format : FeedFormat) (mode : ScanMode) :
    closes q format mode [] = decide (mode = .outside) := rfl

@[simp] theorem closes_cons (format : FeedFormat) (mode : ScanMode) (t : XmlToken)
    (ts : List XmlToken) :
    closes q format mode (t :: ts) = closes q format (scanStep q format mode t) ts := rfl

@[simp] theorem closes_broken (format : FeedFormat) (ts : List XmlToken) :
    closes q format .broken ts = false := by
  induction ts with
  | nil => rfl
  | cons t ts ih => rw [closes_cons]; exact ih

/-! ### What the reader's functions consume -/

/-- The mode of the scan after a turn of the inner loop. -/
def mode (format : FeedFormat) (dated : Bool) (xml : XmlReader) : ScanMode :=
  match xml.current with
  | .token (.endElement name) => format.afterEnd name dated
  | .token _ => .inItem dated
  | .noToken => .inItem dated
  | .endDocument => .broken
  | .invalid => .broken

/-- The reader has nothing left to report. -/
def Stuck (xml : XmlReader) : Prop := xml.current = .invalid ∨ xml.current = .endDocument

theorem mode_stuck {format : FeedFormat} {dated : Bool} {xml : XmlReader} (h : Stuck xml) :
    mode format dated xml = .broken := by
  rcases h with h | h <;> simp [mode, h]

/-- After a turn the reader is at the end of the item, in the item, or stuck. -/
theorem mode_cases (format : FeedFormat) (dated : Bool) (xml : XmlReader) :
    mode format dated xml = .outside ∨ mode format dated xml = .inItem dated ∨ Stuck xml := by
  unfold mode Stuck
  split
  · unfold FeedFormat.afterEnd
    split <;> simp
  · simp
  · simp
  · rename_i h
    exact Or.inr (Or.inr (Or.inr h))
  · rename_i h
    exact Or.inr (Or.inr (Or.inl h))

theorem readEnding_stuck (xml : XmlReader) : Stuck xml.readEnding := by
  unfold XmlReader.readEnding
  split
  · exact Or.inr rfl
  · exact Or.inl rfl

theorem readNext_stuck {xml : XmlReader} (h : Stuck xml) : Stuck xml.readNext := by
  rcases h with h | h
  · simp only [XmlReader.readNext, h]
    exact Or.inl h
  · simp only [XmlReader.readNext, h]
    exact Or.inl rfl

/-- A function of the reader leaves it at `xml'` after the tokens `ts`, scanned from `m`: the verdict
of the scan is the verdict on what is left, and the reader is stuck or has read a token. -/
def Reaches (format : FeedFormat) (m : ScanMode) (ts : List XmlToken) (dated : Bool)
    (xml' : XmlReader) : Prop :=
  closes q format m ts = closes q format (mode format dated xml') xml'.rest ∧
    (Stuck xml' ∨ xml'.rest.length < ts.length)

variable {q} in
/-- The scan of a token that is passed over goes on with the rest. -/
theorem Reaches.cons {format : FeedFormat} {m : ScanMode} {t : XmlToken} {ts : List XmlToken}
    {dated : Bool} {xml' : XmlReader} (h : Reaches q format (scanStep q format m t) ts dated xml') :
    Reaches q format m (t :: ts) dated xml' := by
  obtain ⟨hverdict, hprogress⟩ := h
  refine ⟨?_, hprogress.imp_right fun hlt => ?_⟩
  · rw [closes_cons]
    exact hverdict
  · rw [List.length_cons]
    omega

/-- The tokens end before the function is done. -/
theorem reaches_nil (format : FeedFormat) {m : ScanMode} (dated : Bool) {xml' : XmlReader}
    (hm : m ≠ .outside) (h : Stuck xml') : Reaches q format m [] dated xml' := by
  refine ⟨?_, Or.inl h⟩
  rw [mode_stuck h, closes_broken, closes_nil]
  simpa using hm

/-- Reading an element's text. -/
theorem reaches_readText (format : FeedFormat) (dated isDate : Bool) (ts : List XmlToken) :
    ∀ (xml : XmlReader) (acc : String),
      Reaches q format (.inText dated isDate acc) ts
        (datedAfter q dated isDate (xml.readText acc ts).1) (xml.readText acc ts).2 := by
  induction ts with
  | nil =>
    intro xml acc
    have hstuck : Stuck (xml.readText acc []).2 := by
      have h := readEnding_stuck { xml with rest := [] }
      simp only [XmlReader.readText]
      split
      · exact h
      · exact Or.inl rfl
    exact reaches_nil q format _ (by simp) hstuck
  | cons t ts ih =>
    intro xml acc
    cases t with
    | characters s =>
      exact (ih { xml with current := .token (.characters s), rest := ts } (acc ++ s)).cons
    | entityReference s =>
      exact (ih { xml with current := .token (.entityReference s), rest := ts } (acc ++ s)).cons
    | comment => exact (ih { xml with current := .token .comment, rest := ts } acc).cons
    | processingInstruction =>
      exact (ih { xml with current := .token .processingInstruction, rest := ts } acc).cons
    | endElement name => exact ⟨rfl, Or.inr (by simp [XmlReader.readText])⟩
    | startDocument => exact ⟨closes_cons .., Or.inl (Or.inl rfl)⟩
    | startElement name attrs => exact ⟨closes_cons .., Or.inl (Or.inl rfl)⟩
    | dtd => exact ⟨closes_cons .., Or.inl (Or.inl rfl)⟩

/-- Skipping an element, with `depth + 1` elements open. -/
theorem reaches_skip (format : FeedFormat) (dated : Bool) (ts : List XmlToken) :
    ∀ (xml : XmlReader) (depth : Nat),
      Reaches q format (.skipping dated (depth + 1)) ts dated (xml.skip (depth + 1) ts) := by
  induction ts with
  | nil =>
    intro xml depth
    have hstuck : Stuck (xml.skip (depth + 1) []) := by
      simp only [XmlReader.skip, Nat.succ_ne_zero, if_false]
      exact readNext_stuck (readEnding_stuck _)
    exact reaches_nil q format dated (by simp) hstuck
  | cons t ts ih =>
    intro xml depth
    cases t with
    | endElement name =>
      cases depth with
      | zero =>
        -- the element's own end: the reader stays at it
        have hskip : xml.skip 1 (.endElement name :: ts) =
            { xml with current := .token (.endElement name), rest := ts } := by
          cases ts <;> simp [XmlReader.skip]
        rw [hskip]
        exact ⟨rfl, Or.inr (by simp)⟩
      | succ depth =>
        exact (ih { xml with current := .token (.endElement name), rest := ts } depth).cons
    | startElement name attrs =>
      exact (ih { xml with current := .token (.startElement name attrs), rest := ts }
        (depth + 1)).cons
    | startDocument => exact (ih { xml with current := .token .startDocument, rest := ts } depth).cons
    | characters s =>
      exact (ih { xml with current := .token (.characters s), rest := ts } depth).cons
    | entityReference s =>
      exact (ih { xml with current := .token (.entityReference s), rest := ts } depth).cons
    | comment => exact (ih { xml with current := .token .comment, rest := ts } depth).cons
    | dtd => exact (ih { xml with current := .token .dtd, rest := ts } depth).cons
    | processingInstruction =>
      exact (ih { xml with current := .token .processingInstruction, rest := ts } depth).cons

/-! ### The inner loop -/

theorem readElementText_start {xml : XmlReader} {tag : String} (h : xml.startName = some tag) :
    xml.readElementText = xml.readText "" xml.rest := by
  simp [XmlReader.readElementText, XmlReader.isStartElement, h]

theorem skipCurrentElement_start {xml : XmlReader} {tag : String} (h : xml.startName = some tag) :
    xml.skipCurrentElement = xml.skip 1 xml.rest := by
  unfold XmlReader.skipCurrentElement
  rw [if_neg]
  intro hc
  simp [XmlReader.startName, hc] at h

/-- An element that is read as text: the reader goes to the end of its text. -/
theorem element_text (format : FeedFormat) {tag : String} {item : RssItem} {xml : XmlReader}
    (hstart : xml.startName = some tag)
    (h : format.readsText tag item.publishedAt.isValid = true) :
    (format.element q tag item xml).2 = (xml.readText "" xml.rest).2 ∧
      (format.element q tag item xml).1.publishedAt.isValid =
        datedAfter q item.publishedAt.isValid (format.isDate tag) (xml.readText "" xml.rest).1 := by
  cases format with
  | rss2 =>
    simp only [FeedFormat.readsText, Bool.or_eq_true, decide_eq_true_eq] at h
    simp only [FeedFormat.element, rss2Element, readElementText_start hstart, FeedFormat.isDate]
    rcases h with (((rfl | rfl) | rfl) | rfl) | rfl
    · simp [datedAfter]
    · simp only [String.reduceEq, if_false, if_true]
      split_ifs <;> simp [datedAfter]
    · simp [datedAfter]
    · simp [datedAfter]
    · simp [datedAfter]
  | atom =>
    simp only [FeedFormat.readsText, Bool.or_eq_true, Bool.and_eq_true, decide_eq_true_eq] at h
    simp only [FeedFormat.element, atomElement, readElementText_start hstart, FeedFormat.isDate]
    rcases h with (((rfl | rfl) | rfl) | rfl) | ⟨rfl | rfl, hdated⟩
    · simp [datedAfter]
    · simp [datedAfter]
    · simp [datedAfter]
    · simp [datedAfter]
    · simp [datedAfter, hdated]
    · simp [datedAfter, hdated]

/-- Every other element is skipped, and leaves the date alone. -/
theorem element_skip (format : FeedFormat) {tag : String} {item : RssItem} {xml : XmlReader}
    (hstart : xml.startName = some tag)
    (h : format.readsText tag item.publishedAt.isValid = false) :
    (format.element q tag item xml).2 = xml.skip 1 xml.rest ∧
      (format.element q tag item xml).1.publishedAt = item.publishedAt := by
  cases format with
  | rss2 =>
    simp only [FeedFormat.readsText, Bool.or_eq_false_iff, decide_eq_false_iff_not] at h
    obtain ⟨⟨⟨⟨h1, h2⟩, h3⟩, h4⟩, h5⟩ := h
    simp only [FeedFormat.element, rss2Element, h1, h2, h3, h4, h5, if_false,
      skipCurrentElement_start hstart]
    split_ifs <;> exact ⟨rfl, rfl⟩
  | atom =>
    simp only [FeedFormat.readsText, Bool.or_eq_false_iff, decide_eq_false_iff_not] at h
    obtain ⟨⟨⟨⟨h1, h2⟩, h3⟩, h4⟩, h5⟩ := h
    simp only [FeedFormat.element, atomElement, h1, h2, h3, h4, if_false, false_or,
      skipCurrentElement_start hstart]
    by_cases hdate : tag = "published" ∨ tag = "updated"
    · have hdated : (!item.publishedAt.isValid) = false := by
        rcases hdate with rfl | rfl <;> simpa using h5
      have hlink : tag ≠ "link" := by rcases hdate with rfl | rfl <;> decide
      simp [hdate, hdated, hlink]
    · simp only [hdate, if_false]
      split_ifs <;> exact ⟨rfl, rfl⟩

theorem readNext_cons {xml : XmlReader} {t : XmlToken} {ts : List XmlToken} (hs : ¬ Stuck xml)
    (hrest : xml.rest = t :: ts) : xml.readNext = { xml with current := .token t, rest := ts } := by
  unfold XmlReader.readNext
  split
  · rename_i h
    exact absurd (Or.inl h) hs
  · rename_i h
    exact absurd (Or.inr h) hs
  · rw [hrest]

theorem readNext_nil {xml : XmlReader} (hrest : xml.rest = []) : Stuck xml.readNext := by
  unfold XmlReader.readNext
  split
  · rename_i h
    exact Or.inl h
  · exact Or.inl rfl
  · rw [hrest]
    exact readEnding_stuck xml

theorem startName_stuck {xml : XmlReader} (h : Stuck xml) : xml.startName = none := by
  rcases h with h | h <;> simp [XmlReader.startName, h]

/-- One turn of the inner loop keeps the verdict of the scan, and makes progress or gets stuck. -/
theorem closes_itemBody (format : FeedFormat) (s : RssItem × XmlReader) (hs : ¬ Stuck s.2) :
    closes q format (.inItem s.1.publishedAt.isValid) s.2.rest =
        closes q format (mode format (itemBody q format s).1.publishedAt.isValid (itemBody q format s).2)
          (itemBody q format s).2.rest ∧
      (Stuck (itemBody q format s).2 ∨ (itemBody q format s).2.rest.length < s.2.rest.length) := by
  obtain ⟨item, xml⟩ := s
  dsimp only at hs ⊢
  cases hrest : xml.rest with
  | nil =>
    have hstuck := readNext_nil hrest
    have hbody : itemBody q format (item, xml) = (item, xml.readNext) := by
      simp only [itemBody, startName_stuck hstuck]
    rw [hbody, mode_stuck hstuck, closes_broken]
    exact ⟨rfl, Or.inl hstuck⟩
  | cons t ts =>
    have hnext := readNext_cons hs hrest
    by_cases hstart : ∃ tag attrs, t = .startElement tag attrs
    · obtain ⟨tag, attrs, rfl⟩ := hstart
      have hname : xml.readNext.startName = some tag := by rw [hnext]; rfl
      have htail : xml.readNext.rest = ts := by rw [hnext]
      have hbody : itemBody q format (item, xml) = format.element q tag item xml.readNext := by
        simp only [itemBody, hname]
      rw [hbody, closes_cons]
      cases hreads : format.readsText tag item.publishedAt.isValid with
      | true =>
        obtain ⟨h2, h1⟩ := element_text q format hname hreads
        obtain ⟨hv, hp⟩ := reaches_readText q format item.publishedAt.isValid (format.isDate tag) ts
          xml.readNext ""
        rw [h1, h2, htail]
        refine ⟨?_, hp.imp_right fun h => by simpa using Nat.lt_succ_of_lt h⟩
        rw [← hv]
        simp [scanStep, FeedFormat.enter, hreads]
      | false =>
        obtain ⟨h2, h1⟩ := element_skip q format hname hreads
        obtain ⟨hv, hp⟩ := reaches_skip q format item.publishedAt.isValid ts xml.readNext 0
        rw [h1, h2, htail]
        refine ⟨?_, hp.imp_right fun h => by simpa using Nat.lt_succ_of_lt h⟩
        rw [← hv]
        simp [scanStep, FeedFormat.enter, hreads]
    · have hname : xml.readNext.startName = none := by
        rw [hnext]
        cases t <;> first | rfl | (exact absurd ⟨_, _, rfl⟩ hstart)
      have hbody : itemBody q format (item, xml) = (item, xml.readNext) := by
        simp only [itemBody, hname]
      rw [hbody, hnext, closes_cons]
      refine ⟨?_, Or.inr (by simp)⟩
      cases t <;> first | rfl | (exact absurd ⟨_, _, rfl⟩ hstart)

theorem stable_itemLoop (format : FeedFormat) (s : RssItem × XmlReader) :
    Stable (itemLoop q format s) :=
  stable_loop (fun _ => stable_always _) s

theorem itemBody_stuck (format : FeedFormat) {s : RssItem × XmlReader} (h : Stuck s.2) :
    Stuck (itemBody q format s).2 := by
  have hnext := readNext_stuck h
  simp only [itemBody, startName_stuck hnext]
  exact hnext

/-- A reader with nothing left to report keeps the inner loop running for ever. -/
theorem itemLoop_diverges_of_stuck (format : FeedFormat) {s : RssItem × XmlReader}
    (h : Stuck s.2) : Diverges (itemLoop q format s) := by
  refine Diverges.loop_of_invariant (fun s => Stuck s.2) ?_ ?_ h
  · intro s hs
    rcases hs with hs | hs <;> simp [XmlReader.atEndElement, hs]
  · intro s n s' hs hbody
    rw [← Option.some.inj hbody]
    exact itemBody_stuck q format hs

/-- The inner loop's condition, read off the mode of the scan. -/
theorem atEndElement_iff (format : FeedFormat) (dated : Bool) (xml : XmlReader) :
    xml.atEndElement format.itemTag = true ↔ mode format dated xml = .outside := by
  unfold XmlReader.atEndElement mode
  cases hc : xml.current with
  | token t =>
    cases t with
    | endElement name =>
      by_cases h : name = format.itemTag <;> simp [FeedFormat.afterEnd, h]
    | _ => simp
  | _ => simp

theorem live_of_atEndElement {xml : XmlReader} {tag : String} (h : xml.atEndElement tag = true) :
    ¬ Stuck xml := by
  rintro (hstuck | hstuck) <;> simp [XmlReader.atEndElement, hstuck] at h

/-- The inner loop returns, at the end of its item, exactly when the scan closes the item. -/
theorem itemLoop_spec (format : FeedFormat) (s : RssItem × XmlReader)
    (hmode : mode format s.1.publishedAt.isValid s.2 = .inItem s.1.publishedAt.isValid) :
    (∃ s', Returns (itemLoop q format s) s' ∧ s'.2.atEndElement format.itemTag = true ∧
      s'.2.rest.length < s.2.rest.length ∧
      closes q format (.inItem s.1.publishedAt.isValid) s.2.rest =
        closes q format .outside s'.2.rest) ∨
    (Diverges (itemLoop q format s) ∧
      closes q format (.inItem s.1.publishedAt.isValid) s.2.rest = false) := by
  induction hn : s.2.rest.length using Nat.strong_induction_on generalizing s with
  | _ n ih =>
    have hcond : (!s.2.atEndElement format.itemTag) = true := by
      rw [Bool.not_eq_true', ← Bool.not_eq_true, atEndElement_iff format s.1.publishedAt.isValid,
        hmode]
      simp
    have hlive : ¬ Stuck s.2 := fun h => by simp [mode_stuck h] at hmode
    obtain ⟨hverdict, hprogress⟩ := closes_itemBody q format s hlive
    generalize hs' : itemBody q format s = s' at hverdict hprogress
    have hreturns : Returns (always (itemBody q format s)) s' := by
      rw [hs']
      exact returns_always s'
    rcases mode_cases format s'.1.publishedAt.isValid s'.2 with hm | hm | hstuck
    · -- the turn ends at the end of the item
      left
      have hend := (atEndElement_iff format _ _).mpr hm
      have hlt : s'.2.rest.length < s.2.rest.length := by
        rcases hprogress with h | h
        · simp [mode_stuck h] at hm
        · exact h
      refine ⟨s', ?_, hend, hn ▸ hlt, by rw [hverdict, hm]⟩
      exact Returns.loop_step (fun _ => stable_always _) hcond hreturns
        (Returns.loop_exit (by simp [hend]))
    · -- the turn stays in the item
      have hlt : s'.2.rest.length < s.2.rest.length := by
        rcases hprogress with h | h
        · simp [mode_stuck h] at hm
        · exact h
      rcases ih _ (hn ▸ hlt) s' hm rfl with ⟨r, hr, hrend, hrlt, hrv⟩ | ⟨hdiv, hv⟩
      · left
        refine ⟨r, ?_, hrend, by omega, by rw [hverdict, hm, hrv]⟩
        exact Returns.loop_step (fun _ => stable_always _) hcond hreturns hr
      · right
        refine ⟨?_, by rw [hverdict, hm, hv]⟩
        exact Diverges.loop_step (fun _ => stable_always _) hcond hreturns hdiv
    · right
      refine ⟨?_, by rw [hverdict, mode_stuck hstuck, closes_broken]⟩
      exact Diverges.loop_step (fun _ => stable_always _) hcond hreturns
        (itemLoop_diverges_of_stuck q format hstuck)

/-! ### The outer loops -/

theorem stable_feedBody (format : FeedFormat) (feedId : String) (s : List RssItem × XmlReader) :
    Stable (feedBody q format feedId s) := by
  unfold feedBody
  dsimp only
  split
  · exact Stable.andThen (stable_itemLoop q format _) fun _ => stable_always _
  · exact stable_always _

theorem stable_feedLoop (format : FeedFormat) (feedId : String) (s : List RssItem × XmlReader) :
    Stable (feedLoop q format feedId s) :=
  stable_loop (stable_feedBody q format feedId) s

theorem atEnd_iff (xml : XmlReader) : xml.atEnd = true ↔ Stuck xml := by
  simp [XmlReader.atEnd, Stuck, or_comm]

theorem feedLoop_exit (format : FeedFormat) (feedId : String) {s : List RssItem × XmlReader}
    (h : Stuck s.2) : Returns (feedLoop q format feedId s) s :=
  Returns.loop_exit (by simp [(atEnd_iff s.2).mpr h])

/-- A turn that begins an item: the inner loop decides, and leaves the reader at the end of the item. -/
theorem feedBody_item (format : FeedFormat) (feedId : String) {s : List RssItem × XmlReader}
    {t : XmlToken} {ts : List XmlToken} (hlive : ¬ Stuck s.2) (hrest : s.2.rest = t :: ts)
    (hitem : s.2.readNext.startName = some format.itemTag) :
    (∃ s', Returns (feedBody q format feedId s) s' ∧ ¬ Stuck s'.2 ∧ s'.2.rest.length < ts.length ∧
      closes q format .outside (t :: ts) = closes q format .outside s'.2.rest) ∨
    (Diverges (feedBody q format feedId s) ∧ closes q format .outside (t :: ts) = false) := by
  have hnext := readNext_cons hlive hrest
  have htoken : ∃ attrs, t = .startElement format.itemTag attrs := by
    rw [hnext] at hitem
    cases t <;> simp_all [XmlReader.startName]
  obtain ⟨attrs, rfl⟩ := htoken
  have hstep : scanStep q format .outside (.startElement format.itemTag attrs) = .inItem false := by
    simp [scanStep]
  have hmode : mode format false s.2.readNext = .inItem false := by rw [hnext]; rfl
  have hbody : feedBody q format feedId s =
      (itemLoop q format ({ feedId := feedId }, s.2.readNext)).andThen fun r =>
        always (s.1 ++ [finishItem q feedId r.1], r.2) := by
    simp [feedBody, hitem]
  rw [closes_cons, hstep, hbody]
  rcases itemLoop_spec q format ({ feedId := feedId }, s.2.readNext) hmode with
    ⟨r, hr, hrend, hrlt, hrv⟩ | ⟨hdiv, hv⟩
  · left
    refine ⟨(s.1 ++ [finishItem q feedId r.1], r.2), ?_, live_of_atEndElement hrend,
      by simpa [hnext] using hrlt, ?_⟩
    · exact Returns.andThen (stable_itemLoop q format _) (fun _ => stable_always _) hr
        (returns_always _)
    · rw [← hrv, hnext]
      rfl
  · right
    refine ⟨Diverges.andThen_left _ hdiv, ?_⟩
    rw [hnext] at hv
    exact hv

/-- A turn that begins no item passes the token over. -/
theorem scanStep_outside {format : FeedFormat} {xml : XmlReader} {t : XmlToken}
    {ts : List XmlToken} (hlive : ¬ Stuck xml) (hrest : xml.rest = t :: ts)
    (hitem : xml.readNext.startName ≠ some format.itemTag) :
    scanStep q format .outside t = .outside := by
  cases t with
  | startElement name attrs =>
    have hne : name ≠ format.itemTag := by
      intro h
      apply hitem
      rw [readNext_cons hlive hrest, ← h]
      rfl
    simp [scanStep, hne]
  | _ => rfl

/-- The loop over the items, between two items: the scan decides whether it returns. -/
theorem feedLoop_spec (format : FeedFormat) (feedId : String) (s : List RssItem × XmlReader)
    (hlive : ¬ Stuck s.2) :
    ((∃ r, Returns (feedLoop q format feedId s) r) ∧ closes q format .outside s.2.rest = true) ∨
    (Diverges (feedLoop q format feedId s) ∧ closes q format .outside s.2.rest = false) := by
  induction hn : s.2.rest.length using Nat.strong_induction_on generalizing s with
  | _ n ih =>
    have hcond : (!s.2.atEnd) = true := by simpa [← atEnd_iff] using hlive
    -- a turn that returns hands the verdict on to the rest of the run
    have hturn : ∀ s', Returns (feedBody q format feedId s) s' → ¬ Stuck s'.2 →
        s'.2.rest.length < n →
        ((∃ r, Returns (feedLoop q format feedId s) r) ∧
          closes q format .outside s'.2.rest = true) ∨
        (Diverges (feedLoop q format feedId s) ∧ closes q format .outside s'.2.rest = false) := by
      intro s' hreturns hlive' hlt
      rcases ih _ hlt s' hlive' rfl with ⟨⟨r, hr⟩, hv⟩ | ⟨hdiv, hv⟩
      · exact Or.inl
          ⟨⟨r, Returns.loop_step (stable_feedBody q format feedId) hcond hreturns hr⟩, hv⟩
      · exact Or.inr
          ⟨Diverges.loop_step (stable_feedBody q format feedId) hcond hreturns hdiv, hv⟩
    have hpass : s.2.readNext.startName ≠ some format.itemTag →
        Returns (feedBody q format feedId s) (s.1, s.2.readNext) := by
      intro hitem
      have hbody : feedBody q format feedId s = always (s.1, s.2.readNext) := by
        simp [feedBody, hitem]
      rw [hbody]
      exact returns_always _
    cases hrest : s.2.rest with
    | nil =>
      left
      have hstuck := readNext_nil hrest
      refine ⟨⟨(s.1, s.2.readNext), ?_⟩, rfl⟩
      exact Returns.loop_step (stable_feedBody q format feedId) hcond
        (hpass (by simp [startName_stuck hstuck])) (feedLoop_exit q format feedId hstuck)
    | cons t ts =>
      have hlength : n = ts.length + 1 := by rw [← hn, hrest, List.length_cons]
      by_cases hitem : s.2.readNext.startName = some format.itemTag
      · rcases feedBody_item q format feedId hlive hrest hitem with
          ⟨s', hreturns, hlive', hlt, hv⟩ | ⟨hdiv, hv⟩
        · rw [hv]
          exact hturn s' hreturns hlive' (by omega)
        · exact Or.inr ⟨Diverges.loop_body hcond hdiv, hv⟩
      · have hnext := readNext_cons hlive hrest
        have hrest' : s.2.readNext.rest = ts := by rw [hnext]
        have hlive' : ¬ Stuck s.2.readNext := by
          rw [hnext]
          simp [Stuck]
        rw [closes_cons, scanStep_outside q hlive hrest hitem, ← hrest']
        exact hturn (s.1, s.2.readNext) (hpass hitem) hlive' (by rw [hrest']; omega)

/-- A parse from a root element on returns exactly when the scan of the rest closes every item. -/
theorem parseFeed_spec (format : FeedFormat) (feedId : String) {xml : XmlReader}
    (hlive : ¬ Stuck xml) :
    ((∃ r, Returns (parseFeed q format feedId xml) r) ∧
      closes q format .outside xml.rest = true) ∨
    (Diverges (parseFeed q format feedId xml) ∧ closes q format .outside xml.rest = false) := by
  rcases feedLoop_spec q format feedId ([], xml) hlive with ⟨⟨s, hs⟩, hv⟩ | ⟨hdiv, hv⟩
  · left
    refine ⟨⟨feedResult s, ?_⟩, hv⟩
    exact Returns.andThen (stable_feedLoop q format feedId _) (fun _ => stable_always _) hs
      (returns_always _)
  · exact Or.inr ⟨Diverges.andThen_left _ hdiv, hv⟩

/-! ### The whole parse -/

theorem stable_rootLoop (xml : XmlReader) : Stable (rootLoop xml) :=
  stable_loop (fun _ => stable_always _) xml

/-- The search for the root element returns, and what it leaves decides about the whole input. -/
theorem rootLoop_spec (xml : XmlReader) (hlive : ¬ Stuck xml)
    (hroot : xml.startName.bind rootFormat = none) :
    ∃ xml', Returns (rootLoop xml) xml' ∧
      ((xml'.startName.bind rootFormat = none ∧ documentCloses q xml.rest = true) ∨
        ∃ format, xml'.startName.bind rootFormat = some format ∧ ¬ Stuck xml' ∧
          documentCloses q xml.rest = closes q format .outside xml'.rest) := by
  induction hn : xml.rest.length using Nat.strong_induction_on generalizing xml with
  | _ n ih =>
    have hcond : (!xml.atEnd && (xml.startName.bind rootFormat).isNone) = true := by
      simpa [hroot, ← atEnd_iff] using hlive
    cases hrest : xml.rest with
    | nil =>
      have hstuck := readNext_nil hrest
      refine ⟨xml.readNext, ?_, Or.inl ⟨by rw [startName_stuck hstuck]; rfl, rfl⟩⟩
      exact Returns.loop_step (fun _ => stable_always _) hcond (returns_always _)
        (Returns.loop_exit (by simp [(atEnd_iff _).mpr hstuck]))
    | cons t ts =>
      have hnext := readNext_cons hlive hrest
      have hlive' : ¬ Stuck xml.readNext := by
        rw [hnext]
        simp [Stuck]
      have hrest' : xml.readNext.rest = ts := by rw [hnext]
      cases hformat : xml.readNext.startName.bind rootFormat with
      | none =>
        have hlt : xml.readNext.rest.length < n := by
          rw [hrest, List.length_cons] at hn
          rw [hrest']
          omega
        obtain ⟨xml', hr, hv⟩ := ih _ hlt xml.readNext hlive' hformat rfl
        have hskip : documentCloses q (t :: ts) = documentCloses q xml.readNext.rest := by
          rw [hrest']
          rw [hnext] at hformat
          cases t with
          | startElement name attrs =>
            have hname : rootFormat name = none := hformat
            simp [documentCloses, hname]
          | _ => rfl
        rw [hskip]
        exact ⟨xml', Returns.loop_step (fun _ => stable_always _) hcond (returns_always _) hr, hv⟩
      | some format =>
        refine ⟨xml.readNext, ?_, Or.inr ⟨format, hformat, hlive', ?_⟩⟩
        · exact Returns.loop_step (fun _ => stable_always _) hcond (returns_always _)
            (Returns.loop_exit (by simp [hformat]))
        · rw [hrest']
          rw [hnext] at hformat
          cases t with
          | startElement name attrs =>
            have hname : rootFormat name = some format := hformat
            simp [documentCloses, hname]
          | _ => simp [XmlReader.startName] at hformat

theorem stable_parseRoot (feedId : String) (xml : XmlReader) : Stable (parseRoot q feedId xml) := by
  unfold parseRoot
  split
  · exact Stable.andThen (stable_feedLoop q _ feedId _) fun _ => stable_always _
  · exact Stable.andThen (stable_feedLoop q _ feedId _) fun _ => stable_always _
  · exact stable_always _

theorem parseRoot_eq (feedId : String) {xml : XmlReader} {format : FeedFormat}
    (h : xml.startName.bind rootFormat = some format) :
    parseRoot q feedId xml = parseFeed q format feedId xml := by
  unfold parseRoot
  rw [h]
  cases format <;> rfl

theorem parseRoot_none (feedId : String) {xml : XmlReader}
    (h : xml.startName.bind rootFormat = none) : ∃ r, Returns (parseRoot q feedId xml) r := by
  unfold parseRoot
  rw [h]
  exact ⟨_, returns_always _⟩

/-- A parse of a non-empty input returns if its items are closed, and diverges otherwise. -/
theorem parse_spec (feedId : String) {xmlData : List UInt8} (hdata : xmlData ≠ []) :
    ((∃ r, Returns (parse q feedId xmlData) r) ∧
      documentCloses q (q.tokenize xmlData).tokens = true) ∨
    (Diverges (parse q feedId xmlData) ∧
      documentCloses q (q.tokenize xmlData).tokens = false) := by
  have hparse : parse q feedId xmlData =
      (rootLoop (.ofTokens (q.tokenize xmlData))).andThen (parseRoot q feedId) := by
    unfold parse
    rw [if_neg hdata]
  have hlive : ¬ Stuck (.ofTokens (q.tokenize xmlData)) := by simp [Stuck, XmlReader.ofTokens]
  have hrest : (XmlReader.ofTokens (q.tokenize xmlData)).rest = (q.tokenize xmlData).tokens := rfl
  obtain ⟨xml, hxml, hcases⟩ :=
    rootLoop_spec q (.ofTokens (q.tokenize xmlData)) hlive rfl
  rw [hrest] at hcases
  rw [hparse]
  rcases hcases with ⟨hnone, hv⟩ | ⟨format, hformat, hxlive, hv⟩
  · obtain ⟨r, hr⟩ := parseRoot_none q feedId hnone
    exact Or.inl
      ⟨⟨r, Returns.andThen (stable_rootLoop _) (stable_parseRoot q feedId) hxml hr⟩, hv⟩
  · rcases parseFeed_spec q format feedId hxlive with ⟨⟨r, hr⟩, hc⟩ | ⟨hdiv, hc⟩
    · rw [← parseRoot_eq q feedId hformat] at hr
      exact Or.inl ⟨⟨r, Returns.andThen (stable_rootLoop _) (stable_parseRoot q feedId) hxml hr⟩,
        hv.trans hc⟩
    · rw [← parseRoot_eq q feedId hformat] at hdiv
      exact Or.inr ⟨Diverges.andThen_right (stable_rootLoop _) hxml hdiv, hv.trans hc⟩

/-- **A parse returns exactly on the inputs in which every item that is entered is closed.** -/
theorem parse_returns_iff (feedId : String) (xmlData : List UInt8) :
    (∃ r, Returns (parse q feedId xmlData) r) ↔
      xmlData = [] ∨ documentCloses q (q.tokenize xmlData).tokens = true := by
  by_cases hempty : xmlData = []
  · simp only [hempty, true_or, iff_true]
    refine ⟨{ ok := false, error := "Empty XML data" }, ?_⟩
    unfold parse
    rw [if_pos rfl]
    exact returns_always _
  · rcases parse_spec q feedId hempty with ⟨hr, hc⟩ | ⟨hdiv, hc⟩
    · exact iff_of_true hr (Or.inr hc)
    · refine iff_of_false (Diverges.not_returns hdiv) ?_
      simp [hempty, hc]

/-- A feed cut off inside the title of its first item. -/
def truncatedFeed : List UInt8 :=
  "<rss><channel><item><title>a".toList.map fun c => c.toNat.toUInt8

/-- Qt on that feed: the tokens before the cut, then a premature end. -/
def truncatedFeedText : FeedText where
  tokenize bytes :=
    if bytes = truncatedFeed then
      { tokens := [.startDocument, .startElement "rss" [], .startElement "channel" [],
          .startElement "item" [], .startElement "title" [], .characters "a"]
        ending := .error "Premature end of document." }
    else { tokens := [], ending := .error "Premature end of document." }
  matchMagnet _ := none
  matchTorrentUrl _ := none
  fromRfc2822Date _ := none
  fromIsoDate _ := none
  fromPlainDate _ := none
  url _ := none
  toLower s := String.ofList (foldCase s)
  sha256Hex _ := ""

/-- The parse of the truncated feed never returns. -/
theorem parse_truncatedFeed_diverges :
    ¬ ∃ r, Returns (parse truncatedFeedText "feed" truncatedFeed) r := by
  have htokens : (truncatedFeedText.tokenize truncatedFeed).tokens =
      [.startDocument, .startElement "rss" [], .startElement "channel" [],
        .startElement "item" [], .startElement "title" [], .characters "a"] := by
    simp [truncatedFeedText]
  have hdata : truncatedFeed ≠ [] := by
    intro h
    have hlen := congrArg List.length h
    revert hlen
    decide
  rcases parse_spec truncatedFeedText "feed" hdata with ⟨-, h⟩ | ⟨hdiv, -⟩
  · rw [htokens] at h
    exact absurd h (by decide)
  · exact hdiv.not_returns

end TorrentLink.Rss
