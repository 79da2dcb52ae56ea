import TorrentLink.Core.Rss.Dedup
import TorrentLink.Lib.Ranking
import Mathlib.Data.List.Perm.Subperm

/-!
# What retention discards

`pruneHistory` applies the age limit and then the size limit. Neither looks at the flag of an item whose
download is in flight: such an item stays exactly if it is not outdated and has a rank within the size
limit, however the sort arranges equivalent items (`pruneHistory_retains_iff`).
-/

namespace TorrentLink.Rss

open Lib

/-! ### The two passes -/

theorem before_asymm (a b : QDateTime) (h : a.before b = true) : b.before a = false := by
  cases a <;> cases b <;> simp_all [QDateTime.before]
  omega

theorem before_cotrans (a b c : QDateTime) (h : a.before b = true) :
    a.before c = true ∨ c.before b = true := by
  cases a <;> cases b <;> cases c <;> simp_all [QDateTime.before]
  omega

theorem historyOrder_strictWeak : StrictWeak historyOrder where
  asymm a b h := by
    unfold historyOrder at h ⊢
    by_cases hflag : a.downloaded = b.downloaded
    · rw [if_neg (by simp [hflag])] at h
      rw [if_neg (by simp [hflag])]
      exact before_asymm _ _ h
    · rw [if_pos hflag] at h
      rw [if_pos fun heq => hflag heq.symm]
      rw [h] at hflag
      simpa using hflag
  cotrans a b c h := by
    unfold historyOrder at h ⊢
    cases ha : a.downloaded <;> cases hb : b.downloaded <;> cases hc : c.downloaded <;>
      simp [ha, hb] at h ⊢
    all_goals exact (before_cotrans _ _ _ h).symm

variable (env : HistoryEnv) (now : Int) (policy : HistoryPolicy) (items : List RssItem)

/-- What `RssDedup::pruneHistory` returns: the number of removed items. -/
def prunedCount : Int := items.length - (pruneHistory env now policy items).length

/-- The items that the age limit removes. -/
def discardedByAge : List RssItem := items.diff (pruneByAge env now policy items)

/-- The items that the size limit removes. -/
def discardedBySize : List RssItem :=
  (pruneByAge env now policy items).diff (pruneHistory env now policy items)

/-- An item that the age limit applies to. -/
def isOutdated (addDays : Int → Int → Int) (it : RssItem) : Bool :=
  0 < policy.maxAgeDays && isExpired (some (addDays now (-policy.maxAgeDays))) it

theorem pruneByAge_eq : pruneByAge env now policy items =
    items.filter fun it => !isOutdated now policy env.addDays it := by
  unfold pruneByAge isOutdated
  by_cases hage : 0 < policy.maxAgeDays
  · simp [hage]
  · simp [hage]

theorem pruneByAge_append_perm : items.Perm
    (pruneByAge env now policy items ++ items.filter (isOutdated now policy env.addDays)) := by
  rw [pruneByAge_eq]
  simpa only [Bool.not_not] using
    (List.filter_append_perm (fun it => !isOutdated now policy env.addDays it) items).symm

theorem mem_discardedByAge {it : RssItem} : it ∈ discardedByAge env now policy items ↔
    it ∈ items ∧ isOutdated now policy env.addDays it = true := by
  rw [discardedByAge, (diff_perm (pruneByAge_append_perm env now policy items)).mem_iff,
    List.mem_filter]

/-- The size limit removes the end of a sorted list, if it removes anything. -/
theorem mem_discardedBySize {it : RssItem} : it ∈ discardedBySize env now policy items ↔
    0 < policy.maxItems ∧ it ∈ (env.std.sort historyOrder (pruneByAge env now policy items)).drop
      policy.maxItems.toNat := by
  unfold discardedBySize pruneHistory pruneBySize
  generalize pruneByAge env now policy items = survivors
  split
  · rename_i hlimit
    have hsplit : survivors.Perm ((env.std.sort historyOrder survivors).take policy.maxItems.toNat ++
        (env.std.sort historyOrder survivors).drop policy.maxItems.toNat) := by
      rw [List.take_append_drop]
      exact (env.std.perm historyOrder survivors).symm
    rw [(diff_perm hsplit).mem_iff]
    exact (and_iff_right hlimit.1).symm
  · rename_i hlimit
    have hnone : (survivors.diff survivors).Perm [] := diff_perm (by simp)
    rw [hnone.mem_iff]
    refine iff_of_false List.not_mem_nil ?_
    rintro ⟨hpos, hdrop⟩
    have hlength := List.length_pos_of_mem hdrop
    rw [List.length_drop, (env.std.perm historyOrder survivors).length_eq] at hlength
    exact hlimit ⟨hpos, by omega⟩

/-- Then the beginning of the list is kept. -/
theorem pruneHistory_of_discarded {it : RssItem} (h : it ∈ discardedBySize env now policy items) :
    pruneHistory env now policy items =
      (env.std.sort historyOrder (pruneByAge env now policy items)).take policy.maxItems.toNat := by
  obtain ⟨hpos, hdrop⟩ := (mem_discardedBySize env now policy items).mp h
  have hlength := List.length_pos_of_mem hdrop
  rw [List.length_drop, (env.std.perm historyOrder _).length_eq] at hlength
  unfold pruneHistory pruneBySize
  rw [if_pos ⟨hpos, by omega⟩]

/-- An item that the size limit removes does not stand before one that it keeps. -/
theorem historyOrder_of_discarded {it kept : RssItem} (h : it ∈ discardedBySize env now policy items)
    (hkept : kept ∈ pruneHistory env now policy items) : historyOrder it kept = false := by
  rw [pruneHistory_of_discarded env now policy items h] at hkept
  exact not_lt_of_left_out historyOrder_strictWeak hkept
    ((mem_discardedBySize env now policy items).mp h).2

/-! ### What holds of every retention -/

/-- What `pruneHistory` promises, but for the items in flight. -/
structure Retains : Prop where
  unchanged : (pruneHistory env now policy items).Subperm items
  bounded : 0 < policy.maxItems → (pruneHistory env now policy items).length ≤ policy.maxItems
  returned : prunedCount env now policy items =
    (discardedByAge env now policy items).length + (discardedBySize env now policy items).length
  outdated : ∀ it ∈ discardedByAge env now policy items, it.downloaded = false ∧
    ∃ t, it.publishedAt = some t ∧ t < env.addDays now (-policy.maxAgeDays)
  downloaded_last : ∀ it ∈ discardedBySize env now policy items, it.downloaded = true →
    ∀ kept ∈ pruneHistory env now policy items, kept.downloaded = true
  newest : ∀ it ∈ discardedBySize env now policy items,
    ∀ kept ∈ pruneHistory env now policy items, it.downloaded = kept.downloaded →
      kept.publishedAt.before it.publishedAt = false

theorem pruneHistory_retains : Retains env now policy items := by
  constructor
  case unchanged => exact pruneHistory_subperm env now policy items
  case bounded =>
    intro hpos
    unfold pruneHistory pruneBySize
    split
    · rw [List.length_take]
      omega
    · omega
  case returned =>
    have hage := length_diff (pruneByAge_sublist env now policy items).subperm
    have hsize := length_diff (pruneBySize_subperm env policy (pruneByAge env now policy items))
    unfold prunedCount discardedByAge discardedBySize pruneHistory
    omega
  case outdated =>
    intro it hit
    obtain ⟨-, hold⟩ := (mem_discardedByAge env now policy items).mp hit
    unfold isOutdated isExpired at hold
    cases htime : it.publishedAt with
    | none => simp [htime, QDateTime.isValid] at hold
    | some t =>
      simp only [htime, QDateTime.before, Bool.and_eq_true, decide_eq_true_iff,
        Bool.not_eq_true'] at hold
      exact ⟨hold.2.2, t, rfl, hold.2.1.2⟩
  case downloaded_last =>
    intro it hit hdownloaded kept hkept
    have hnot := historyOrder_of_discarded env now policy items hit hkept
    unfold historyOrder at hnot
    rw [hdownloaded] at hnot
    cases hkind : kept.downloaded with
    | true => rfl
    | false => simp [hkind] at hnot
  case newest =>
    intro it hit kept hkept hkind
    have hnot := historyOrder_of_discarded env now policy items hit hkept
    unfold historyOrder at hnot
    rwa [if_neg (by simp [hkind])] at hnot

/-! ### Items in flight -/

/-- No item whose download is in flight is removed. -/
def KeepsInFlight : Prop :=
  ∀ it ∈ discardedByAge env now policy items ++ discardedBySize env now policy items,
    it.queued = false

/-- The items in flight are within both limits. -/
structure InFlightWithinLimits (addDays : Int → Int → Int) : Prop where
  young : ∀ it ∈ items, it.queued = true → isOutdated now policy addDays it = false
  ranked : 0 < policy.maxItems → ∀ it ∈ items, it.queued = true →
    items.countP (fun x => !isOutdated now policy addDays x && !historyOrder it x) ≤ policy.maxItems

/-- The rank of an item among those that are not outdated. -/
theorem countP_pruneByAge (it : RssItem) :
    (pruneByAge env now policy items).countP (fun x => !historyOrder it x) =
      items.countP fun x => !isOutdated now policy env.addDays x && !historyOrder it x := by
  rw [pruneByAge_eq, List.countP_filter]
  refine List.countP_congr fun x _ => ?_
  rw [Bool.and_comm]

/-- Retention is as promised for every sort, and it keeps the items in flight for every sort exactly if
these are within both limits. -/
theorem pruneHistory_retains_iff (addDays : Int → Int → Int) (now : Int) (policy : HistoryPolicy)
    (items : List RssItem) :
    (∀ std, Retains ⟨addDays, std⟩ now policy items) ∧
      ((∀ std, KeepsInFlight ⟨addDays, std⟩ now policy items) ↔
        InFlightWithinLimits now policy items addDays) := by
  refine ⟨fun std => pruneHistory_retains _ now policy items, ?_, ?_⟩
  · intro hkeeps
    have hyoung : ∀ it ∈ items, it.queued = true → isOutdated now policy addDays it = false := by
      intro it hit hqueued
      by_contra hold
      rw [Bool.not_eq_false] at hold
      have hmem := (mem_discardedByAge ⟨addDays, insertionStdSort⟩ now policy items).mpr ⟨hit, hold⟩
      have hfree := hkeeps insertionStdSort it (List.mem_append_left _ hmem)
      exact absurd (hqueued.symm.trans hfree) (by decide)
    refine ⟨hyoung, fun hpos it hit hqueued => ?_⟩
    by_contra hmany
    -- a sort that puts the item behind all equivalent ones
    have hsurvives : it ∈ pruneByAge ⟨addDays, insertionStdSort⟩ now policy items := by
      rw [pruneByAge_eq]
      exact List.mem_filter.mpr ⟨hit, by simp [hyoung it hit hqueued]⟩
    have hrank := countP_pruneByAge ⟨addDays, insertionStdSort⟩ now policy items it
    obtain ⟨std, hout⟩ := (left_out_by_some_iff historyOrder_strictWeak hsurvives
      (k := policy.maxItems.toNat)).mpr (by rw [hrank]; dsimp only; omega)
    have hmem := (mem_discardedBySize ⟨addDays, std⟩ now policy items).mpr ⟨hpos, hout⟩
    have hfree := hkeeps std it (List.mem_append_right _ hmem)
    exact absurd (hqueued.symm.trans hfree) (by decide)
  · intro hlimits std it hit
    refine Bool.eq_false_iff.mpr fun hqueued => ?_
    rcases List.mem_append.mp hit with hage | hsize
    · obtain ⟨hmem, hold⟩ := (mem_discardedByAge _ now policy items).mp hage
      exact absurd (hold.symm.trans (hlimits.young it hmem hqueued)) (by decide)
    · obtain ⟨hpos, hdrop⟩ := (mem_discardedBySize _ now policy items).mp hsize
      have hmany := lt_countP_of_left_out historyOrder_strictWeak hdrop
      rw [countP_pruneByAge] at hmany
      dsimp only at hmany
      have hmem : it ∈ items := (pruneByAge_sublist ⟨addDays, std⟩ now policy items).subset
        ((std.perm historyOrder _).mem_iff.mp (List.mem_of_mem_drop hdrop))
      have hfew := hlimits.ranked hpos it hmem hqueued
      omega

/-- Days of 86,400,000 ms. -/
def utcDays : HistoryEnv where
  addDays t days := t + 86400000 * days
  std := insertionStdSort

/-- An entry of the epoch whose download is in flight, a hundred days later. -/
theorem queuedItem_discarded :
    pruneHistory utcDays 8640000000 {} [{ id := "a", publishedAt := some 0, queued := true }] = [] ∧
      discardedByAge utcDays 8640000000 {} [{ id := "a", publishedAt := some 0, queued := true }] =
        [{ id := "a", publishedAt := some 0, queued := true }] ∧
      ¬KeepsInFlight utcDays 8640000000 {} [{ id := "a", publishedAt := some 0, queued := true }] := by
  refine ⟨by decide, by decide, fun hkeeps => ?_⟩
  have hfree := hkeeps { id := "a", publishedAt := some 0, queued := true } (by decide)
  exact absurd hfree (by decide)

end TorrentLink.Rss
