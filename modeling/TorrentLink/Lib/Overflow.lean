import Mathlib.Data.List.Count
import Mathlib.Data.List.Nodup
import Mathlib.Data.List.Perm.Basic

/-!
# A queue that overflows

Items are offered to a bounded queue one after the other. One that is refused is lost, unless it is urgent:
then its sender delivers it, at some time of its own. `Balanced` is what every move keeps, whatever the
moves and their order. When nothing is under way any more, every urgent item was delivered once, the others
were delivered in the order of their offers or not at all, and as many items were refused as were not
delivered or are urgent (`Balanced.settled`).
-/

namespace TorrentLink.Lib

variable {α : Type}

/-- Where the items are, and the offers so far with their answers. -/
structure Overflow (α : Type) where
  queued : List α := []
  waiting : List α := []
  delivered : List α := []
  offers : List (α × Bool) := []

namespace Overflow

variable (urgent : α → Bool)

/-- An offer that is taken. -/
def accept (o : Overflow α) (a : α) : Overflow α :=
  { o with queued := o.queued ++ [a], offers := o.offers ++ [(a, true)] }

/-- An offer that is refused: the sender of an urgent item waits to deliver it. -/
def refuse (o : Overflow α) (a : α) : Overflow α :=
  { o with
    waiting := if urgent a then o.waiting ++ [a] else o.waiting
    offers := o.offers ++ [(a, false)] }

/-- The first item of the queue is delivered. -/
def deliver (o : Overflow α) : Overflow α :=
  match o.queued with
  | [] => o
  | a :: queued => { o with queued := queued, delivered := o.delivered ++ [a] }

/-- One of the waiting senders delivers its item. -/
def deliverWaiting (o : Overflow α) (i : Nat) : Overflow α :=
  match o.waiting[i]? with
  | none => o
  | some a => { o with waiting := o.waiting.eraseIdx i, delivered := o.delivered ++ [a] }

/-- All items offered. -/
def items (o : Overflow α) : List α := o.offers.map Prod.fst

structure Balanced (o : Overflow α) : Prop where
  waiting_urgent : ∀ a ∈ o.waiting, urgent a = true
  ordinary : (o.delivered ++ o.queued).filter (fun a => !urgent a) =
    ((o.offers.filter Prod.snd).map Prod.fst).filter fun a => !urgent a
  urgent : ((o.delivered ++ o.queued ++ o.waiting).filter urgent).Perm (o.items.filter urgent)

variable {urgent} {o : Overflow α}

theorem balanced_empty : Balanced urgent {} where
  waiting_urgent a ha := by cases ha
  ordinary := rfl
  urgent := .nil

theorem filter_offered (o : Overflow α) (a : α) (taken : Bool) :
    ((o.offers ++ [(a, taken)]).map Prod.fst).filter urgent =
      o.items.filter urgent ++ [a].filter urgent := by
  rw [List.map_append, List.filter_append]
  rfl

/-! ### Moves -/

theorem Balanced.accept (h : o.Balanced urgent) (a : α) : (o.accept a).Balanced urgent where
  waiting_urgent := h.waiting_urgent
  ordinary := by
    show (o.delivered ++ (o.queued ++ [a])).filter _ = (((o.offers ++ [(a, true)]).filter _).map _).filter _
    rw [← List.append_assoc, List.filter_append, h.ordinary, List.filter_append, List.map_append,
      List.filter_append]
    rfl
  urgent := by
    show ((o.delivered ++ (o.queued ++ [a]) ++ o.waiting).filter urgent).Perm
      (((o.offers ++ [(a, true)]).map Prod.fst).filter urgent)
    have hperm : (o.delivered ++ (o.queued ++ [a]) ++ o.waiting).Perm
        (o.delivered ++ o.queued ++ o.waiting ++ [a]) := by
      rw [← List.append_assoc, List.append_assoc, List.append_assoc _ o.waiting]
      exact List.perm_append_comm.append_left _
    refine (hperm.filter urgent).trans ?_
    rw [filter_offered, List.filter_append]
    exact h.urgent.append_right _

theorem Balanced.refuse (h : o.Balanced urgent) (a : α) : (o.refuse urgent a).Balanced urgent where
  waiting_urgent := by
    intro b hb
    unfold Overflow.refuse at hb
    dsimp only at hb
    split_ifs at hb with ha
    · rcases List.mem_append.mp hb with hb | hb
      · exact h.waiting_urgent b hb
      · rw [List.mem_singleton.mp hb]
        exact ha
    · exact h.waiting_urgent b hb
  ordinary := by
    show (o.delivered ++ o.queued).filter _ = (((o.offers ++ [(a, false)]).filter _).map _).filter _
    rw [List.filter_append (p := Prod.snd)]
    simpa using h.ordinary
  urgent := by
    show ((o.delivered ++ o.queued ++ if urgent a then o.waiting ++ [a] else o.waiting).filter urgent).Perm
      (((o.offers ++ [(a, false)]).map Prod.fst).filter urgent)
    rw [filter_offered]
    split_ifs with ha
    · rw [← List.append_assoc, List.filter_append]
      exact h.urgent.append_right _
    · rw [List.filter_cons_of_neg ha, List.filter_nil, List.append_nil]
      exact h.urgent

theorem Balanced.deliver (h : o.Balanced urgent) : o.deliver.Balanced urgent := by
  unfold Overflow.deliver
  cases hq : o.queued with
  | nil => exact h
  | cons a queued =>
    have hmoved : o.delivered ++ [a] ++ queued = o.delivered ++ o.queued := by
      rw [hq, List.append_assoc, List.singleton_append]
    exact ⟨h.waiting_urgent, hmoved ▸ h.ordinary, hmoved ▸ h.urgent⟩

theorem Balanced.deliverWaiting (h : o.Balanced urgent) (i : Nat) :
    (o.deliverWaiting i).Balanced urgent := by
  unfold Overflow.deliverWaiting
  cases hi : o.waiting[i]? with
  | none => exact h
  | some a =>
    obtain ⟨hlt, ha⟩ := List.getElem?_eq_some_iff.mp hi
    have hurgent : urgent a = true := h.waiting_urgent a (List.mem_of_getElem? hi)
    have hwaiting : o.waiting.Perm (a :: o.waiting.eraseIdx i) := by
      have hperm := List.getElem_cons_eraseIdx_perm hlt
      rw [ha] at hperm
      exact hperm.symm
    constructor
    case waiting_urgent => exact fun b hb => h.waiting_urgent b (List.mem_of_mem_eraseIdx hb)
    case ordinary =>
      have hordinary := h.ordinary
      rw [List.filter_append] at hordinary
      show ((o.delivered ++ [a]) ++ o.queued).filter _ = _
      rw [List.filter_append, List.filter_append, List.filter_cons_of_neg (by simp [hurgent]),
        List.filter_nil, List.append_nil]
      exact hordinary
    case urgent =>
      refine List.Perm.trans (List.Perm.filter urgent ?_) h.urgent
      show (o.delivered ++ [a] ++ o.queued ++ o.waiting.eraseIdx i).Perm _
      refine List.Perm.trans ?_ (hwaiting.append_left _).symm
      rw [List.append_assoc, List.append_assoc, List.append_assoc]
      refine List.Perm.append_left _ ?_
      show (a :: (o.queued ++ o.waiting.eraseIdx i)).Perm _
      exact List.perm_middle.symm

/-! ### When nothing is under way -/

section Settled

variable (h : o.Balanced urgent) (hqueued : o.queued = []) (hwaiting : o.waiting = [])
  (hnodup : o.items.Nodup)

include h hqueued hwaiting hnodup

/-- An item was delivered exactly if its offer was taken or it is urgent. -/
theorem Balanced.mem_delivered {a : α} {taken : Bool} (ha : (a, taken) ∈ o.offers) :
    a ∈ o.delivered ↔ taken = true ∨ urgent a = true := by
  have hitem : a ∈ o.items := List.mem_map.mpr ⟨_, ha, rfl⟩
  have hordinary := h.ordinary
  have hurgent := h.urgent
  rw [hqueued, List.append_nil] at hordinary hurgent
  rw [hwaiting, List.append_nil] at hurgent
  by_cases hu : urgent a = true
  · have hmem := hurgent.mem_iff (a := a)
    rw [List.mem_filter, List.mem_filter] at hmem
    exact ⟨fun _ => .inr hu, fun _ => (hmem.mpr ⟨hitem, hu⟩).1⟩
  · have hmem : a ∈ o.delivered ↔ a ∈ (o.offers.filter Prod.snd).map Prod.fst := by
      have hfilter := congrArg (a ∈ ·) hordinary
      simpa [hu] using hfilter
    rw [hmem, List.mem_map]
    constructor
    · rintro ⟨p, hp, rfl⟩
      obtain ⟨hp, htaken⟩ := List.mem_filter.mp hp
      have hsame := List.inj_on_of_nodup_map hnodup hp ha rfl
      rw [hsame] at htaken
      exact .inl htaken
    · rintro (htaken | hu')
      · exact ⟨_, List.mem_filter.mpr ⟨ha, htaken⟩, rfl⟩
      · exact absurd hu' hu

theorem Balanced.settled [DecidableEq α] :
    (∀ a ∈ o.items, urgent a = true → o.delivered.count a = 1) ∧
      (o.delivered.filter fun a => !urgent a).Sublist o.items ∧
      o.offers.countP (fun p => !p.2) =
        o.items.countP (fun a => a ∉ o.delivered) + o.offers.countP fun p => !p.2 && urgent p.1 := by
  refine ⟨?_, ?_, ?_⟩
  · intro a ha hu
    have hurgent := h.urgent
    rw [hqueued, hwaiting, List.append_nil, List.append_nil] at hurgent
    have hcount := hurgent.count_eq a
    rw [List.count_filter hu, List.count_filter hu] at hcount
    rw [hcount]
    exact List.count_eq_one_of_mem hnodup ha
  · have hordinary := h.ordinary
    rw [hqueued, List.append_nil] at hordinary
    rw [hordinary]
    exact List.filter_sublist.trans (List.filter_sublist.map Prod.fst)
  · have hlost : o.items.countP (fun a => a ∉ o.delivered) =
        o.offers.countP fun p => !p.2 && !urgent p.1 := by
      unfold Overflow.items at *
      rw [List.countP_map]
      refine List.countP_congr fun p hp => ?_
      have hmem := h.mem_delivered hqueued hwaiting hnodup (show (p.1, p.2) ∈ o.offers from hp)
      simp [hmem]
    rw [hlost, List.countP_eq_countP_filter_add o.offers (fun p => !p.2) (fun p => !urgent p.1),
      List.countP_filter, List.countP_filter]
    simp

end Settled

end Overflow

end TorrentLink.Lib
