import TorrentLink.Base.RingBufferRuns

/-!
# The ring buffer, one call at a time

The calls of `RingBuffer` while no other call is under way. The loop of a call that tries again would then
find the same cell again, so it is bounded here and `none` if it does not end. The indexes are of a type
`SizeT`, either the numbers themselves or machine words; with words a call is a run of the steps of its
thread (`pushImpl_alone`, `tryPop_alone`). The two agree on the numbers that fit (`SizeT.Fits`), and as long
as these are enough a buffer of two cells or more is a bounded queue: `Holds` is what every call keeps.
-/

namespace TorrentLink

open Lib

/-! ### Indexes -/

/-- What the calls need of `size_t` and `intptr_t`. -/
structure SizeT where
  wrap : Nat → Nat
  toIntptr : Nat → Int

/-- Numbers of any size. -/
def SizeT.unbounded : SizeT := ⟨id, fun n => n⟩

/-- Words of 64 bits. -/
def SizeT.word64 : SizeT := ⟨TorrentLink.wrap, TorrentLink.toIntptr⟩

/-- The number is a value of both types. -/
structure SizeT.Fits (W : SizeT) (n : Nat) : Prop where
  wrap_eq : W.wrap n = n
  toIntptr_eq : W.toIntptr n = n

theorem SizeT.fits_unbounded (n : Nat) : SizeT.unbounded.Fits n := ⟨rfl, rfl⟩

theorem SizeT.fits_word64 {n : Nat} (h : n < 2 ^ 63) : SizeT.word64.Fits n :=
  ⟨TorrentLink.wrap_eq h, TorrentLink.toIntptr_eq h⟩

/-! ### The calls -/

section Calls

variable {T : Type} (W : SizeT) (capacity : Nat)

/-- `PushImpl`: whether the item is in the buffer. -/
def pushImpl (r : RingBuffer T) (item : T) : Nat → Option (Bool × RingBuffer T)
  | 0 => none
  | fuel + 1 =>
    let pos := slotPos capacity r.head
    let seq := r.sequences pos
    let diff := W.toIntptr seq - W.toIntptr r.head
    if diff = 0 then
      some (true,
        { r with
          head := W.wrap (r.head + 1)
          buffer := Function.update r.buffer pos (some item)
          sequences := Function.update r.sequences pos (W.wrap (r.head + 1)) })
    else if diff < 0 then some (false, r)
    else pushImpl r item fuel

/-- `TryPop`: the value is moved out of its cell. -/
def tryPop (movedFrom : T → T) (r : RingBuffer T) : Nat → Option (Option T × RingBuffer T)
  | 0 => none
  | fuel + 1 =>
    let pos := slotPos capacity r.tail
    let seq := r.sequences pos
    let diff := W.toIntptr seq - W.toIntptr (W.wrap (r.tail + 1))
    if diff = 0 then
      some (r.buffer pos,
        { r with
          tail := W.wrap (r.tail + 1)
          buffer := Function.update r.buffer pos ((r.buffer pos).map movedFrom)
          sequences := Function.update r.sequences pos (W.wrap (r.tail + capacity)) })
    else if diff < 0 then some (none, r)
    else tryPop movedFrom r fuel

/-- `PeekAt` -/
def peekAt (r : RingBuffer T) (index : Nat) : Option T :=
  if r.tail > r.head then none
  else
    let available := r.head - r.tail
    if index ≥ available then none
    else
      let pos := slotPos capacity (W.wrap (r.tail + index))
      let seq := r.sequences pos
      let diff := W.toIntptr seq - W.toIntptr (W.wrap (r.tail + index + 1))
      if diff ≥ 0 then r.buffer pos else none

/-- `Size` -/
def RingBuffer.size (r : RingBuffer T) : Nat := if r.head ≥ r.tail then r.head - r.tail else 0

end Calls

/-! ### A thread alone

A call is a run of the steps of its thread with no other step in between.
-/

section Alone

variable {P T : Type} [DecidableEq P] {capacity : Nat} {movedFrom : T → T} {s : RingRun P T} {p : P}

/-- The turns of the loop of `PushImpl`. -/
theorem exists_producer_steps {item : T} {fuel : Nat} {ok : Bool} {r : RingBuffer T}
    (hp : s.producers p = .loadHead item)
    (h : pushImpl SizeT.word64 capacity s.memory item fuel = some (ok, r)) :
    ∃ n, let s' := run (ringStep capacity movedFrom) s (List.replicate n (.producer p false))
      s'.memory = r ∧ s'.producers p = .idle := by
  induction fuel generalizing s with
  | zero => cases h
  | succ fuel ih =>
    rw [pushImpl] at h
    split_ifs at h with hfree hfull
    · cases h
      refine ⟨5, ?_⟩
      have hdiff : toIntptr (s.memory.sequences (slotPos capacity s.memory.head)) -
        toIntptr s.memory.head = 0 := hfree
      simp [List.replicate, ringStep, producerStep, hp, RingRun.setProducer, pushLoad, hdiff, pushExchange,
        pushWrite, pushPublish, SizeT.word64]
    · cases h
      refine ⟨2, ?_⟩
      have hdiff : toIntptr (s.memory.sequences (slotPos capacity s.memory.head)) -
        toIntptr s.memory.head < 0 := hfull
      simp [List.replicate, ringStep, producerStep, hp, RingRun.setProducer, pushLoad, hdiff, hdiff.ne]
    · have hdiff : ¬ toIntptr (s.memory.sequences (slotPos capacity s.memory.head)) -
        toIntptr s.memory.head = 0 := hfree
      have hdiff' : ¬ toIntptr (s.memory.sequences (slotPos capacity s.memory.head)) -
        toIntptr s.memory.head < 0 := hfull
      have hagain : run (ringStep capacity movedFrom) s (List.replicate 2 (.producer p false)) =
          s.setProducer p (.loadHead item) := by
        simp [List.replicate, ringStep, producerStep, hp, RingRun.setProducer, pushLoad, hdiff, hdiff']
      obtain ⟨n, hn⟩ := ih (s := s.setProducer p (.loadHead item)) (Function.update_self _ _ _) h
      refine ⟨2 + n, ?_⟩
      rw [List.replicate_add, run_append, hagain]
      exact hn

/-- `Push` -/
theorem pushImpl_alone {item : T} {fuel : Nat} {ok : Bool} {r : RingBuffer T} (hp : s.producers p = .idle)
    (h : pushImpl SizeT.word64 capacity s.memory item fuel = some (ok, r)) :
    ∃ n, let s' := run (ringStep capacity movedFrom) s (.push p item :: List.replicate n (.producer p false))
      s'.memory = r ∧ s'.producers p = .idle := by
  have hcall : ringStep capacity movedFrom s (.push p item) = s.setProducer p (.loadHead item) := by
    show pushCall s p item = _
    unfold pushCall
    rw [hp]
  obtain ⟨n, hn⟩ := exists_producer_steps (s := s.setProducer p (.loadHead item))
    (Function.update_self _ _ _) h
  refine ⟨n, ?_⟩
  rw [run_cons, hcall]
  exact hn

/-- The turns of the loop of `TryPop`. -/
theorem exists_consumer_steps {fuel : Nat} {item : Option T} {r : RingBuffer T}
    (hc : s.consumer = .loadTail)
    (h : tryPop SizeT.word64 capacity movedFrom s.memory fuel = some (item, r)) :
    ∃ n, let s' := consumerSteps capacity movedFrom s n
      s'.memory = r ∧ s'.consumer = .idle ∧
        s'.popped.filterMap id = s.popped.filterMap id ++ item.toList := by
  induction fuel generalizing s with
  | zero => cases h
  | succ fuel ih =>
    rw [tryPop] at h
    split_ifs at h with hfull hempty
    · cases h
      refine ⟨5, ?_⟩
      have hdiff : toIntptr (s.memory.sequences (slotPos capacity s.memory.tail)) -
        toIntptr (wrap (s.memory.tail + 1)) = 0 := hfull
      cases hread : s.memory.buffer (slotPos capacity s.memory.tail) <;>
        simp [consumerSteps, List.replicate, ringStep, consumerStep, hc, popLoad, hdiff, popRead, popRelease,
          SizeT.word64, hread]
    · cases h
      refine ⟨2, ?_⟩
      have hdiff : toIntptr (s.memory.sequences (slotPos capacity s.memory.tail)) -
        toIntptr (wrap (s.memory.tail + 1)) < 0 := hempty
      simp [consumerSteps, List.replicate, ringStep, consumerStep, hc, popLoad, hdiff, hdiff.ne]
    · have hdiff : ¬ toIntptr (s.memory.sequences (slotPos capacity s.memory.tail)) -
        toIntptr (wrap (s.memory.tail + 1)) = 0 := hfull
      have hdiff' : ¬ toIntptr (s.memory.sequences (slotPos capacity s.memory.tail)) -
        toIntptr (wrap (s.memory.tail + 1)) < 0 := hempty
      have hsame : ({ s with consumer := .loadTail } : RingRun P T) = s := by rw [← hc]
      have hagain : consumerSteps capacity movedFrom s 2 = s := by
        simpa [consumerSteps, List.replicate, ringStep, consumerStep, hc, popLoad, hdiff, hdiff'] using hsame
      obtain ⟨n, hn⟩ := ih hc h
      refine ⟨2 + n, ?_⟩
      unfold consumerSteps at hagain hn ⊢
      rw [List.replicate_add, run_append, hagain]
      exact hn

/-- `TryPop` -/
theorem tryPop_alone {fuel : Nat} {item : Option T} {r : RingBuffer T} (hc : s.consumer = .idle)
    (h : tryPop SizeT.word64 capacity movedFrom s.memory fuel = some (item, r)) :
    ∃ n, let s' := run (ringStep capacity movedFrom) s (.tryPop :: List.replicate n .consumer)
      s'.memory = r ∧ s'.consumer = .idle ∧
        s'.popped.filterMap id = s.popped.filterMap id ++ item.toList := by
  have hcall : ringStep capacity movedFrom s .tryPop = { s with consumer := .loadTail } := by
    show tryPopCall s = _
    unfold tryPopCall
    rw [hc]
  obtain ⟨n, hn⟩ := exists_consumer_steps (s := { s with consumer := .loadTail }) rfl h
  refine ⟨n, ?_⟩
  rw [run_cons, hcall]
  exact hn

end Alone

/-! ### A bounded queue -/

variable {T : Type} {W : SizeT} {capacity : Nat} {r : RingBuffer T} {items : List T}

/-- The buffer holds the items: the cells of the window of `capacity` indexes from `tail` on have the
sequence numbers of their indexes, plus one where there is an item. -/
structure RingBuffer.Holds (capacity : Nat) (r : RingBuffer T) (items : List T) : Prop where
  head_eq : r.head = r.tail + items.length
  bounded : items.length ≤ capacity
  sequence : ∀ i, r.tail ≤ i → i < r.tail + capacity →
    r.sequences (i % capacity) = if i < r.head then i + 1 else i
  cell : ∀ i, i < items.length → r.buffer ((r.tail + i) % capacity) = items[i]?

theorem RingBuffer.holds_empty : ({} : RingBuffer T).Holds capacity [] where
  head_eq := rfl
  bounded := Nat.zero_le _
  sequence i _ hi := by
    have hmod : i % capacity = i := Nat.mod_eq_of_lt (by simpa using hi)
    exact hmod.trans (if_neg (Nat.not_lt_zero i)).symm
  cell i hi := absurd hi (Nat.not_lt_zero i)

theorem RingBuffer.Holds.size_eq (h : r.Holds capacity items) : r.size = items.length := by
  unfold RingBuffer.size
  rw [if_pos (by rw [h.head_eq]; omega), h.head_eq]
  omega

/-- One more item. -/
def RingBuffer.pushed (capacity : Nat) (r : RingBuffer T) (item : T) : RingBuffer T :=
  { r with
    head := r.head + 1
    buffer := Function.update r.buffer (r.head % capacity) (some item)
    sequences := Function.update r.sequences (r.head % capacity) (r.head + 1) }

/-- One item less. -/
def RingBuffer.popped (capacity : Nat) (movedFrom : T → T) (r : RingBuffer T) : RingBuffer T :=
  { r with
    tail := r.tail + 1
    buffer :=
      Function.update r.buffer (r.tail % capacity) ((r.buffer (r.tail % capacity)).map movedFrom)
    sequences := Function.update r.sequences (r.tail % capacity) (r.tail + capacity) }

theorem RingBuffer.Holds.pushed (h : r.Holds capacity items) (hroom : items.length < capacity)
    (item : T) : (r.pushed capacity item).Holds capacity (items ++ [item]) := by
  have hhead := h.head_eq
  constructor
  case head_eq =>
    show r.head + 1 = r.tail + (items ++ [item]).length
    rw [List.length_append, List.length_singleton, hhead, Nat.add_assoc]
  case bounded =>
    rw [List.length_append, List.length_singleton]
    exact hroom
  case sequence =>
    intro i hi hi'
    change r.tail ≤ i at hi
    change i < r.tail + capacity at hi'
    show Function.update r.sequences (r.head % capacity) (r.head + 1) (i % capacity) =
      if i < r.head + 1 then i + 1 else i
    by_cases heq : i = r.head
    · rw [heq, Function.update_self, if_pos (Nat.lt_succ_self _)]
    · have hcell := window_ne hi hi' (show r.tail ≤ r.head by omega) (by omega) heq
      rw [Function.update_of_ne hcell, h.sequence i hi hi']
      by_cases hlt : i < r.head
      · rw [if_pos hlt, if_pos (by omega)]
      · rw [if_neg hlt, if_neg (by omega)]
  case cell =>
    intro i hi
    rw [List.length_append, List.length_singleton] at hi
    show Function.update r.buffer (r.head % capacity) (some item) ((r.tail + i) % capacity) = _
    by_cases heq : i = items.length
    · rw [heq, ← hhead, Function.update_self]
      exact List.getElem?_concat_length.symm
    · have hlt : i < items.length := by omega
      have hcell := window_ne (c := capacity) (show r.tail ≤ r.tail + i by omega) (by omega)
        (show r.tail ≤ r.head by omega) (by omega) (show r.tail + i ≠ r.head by omega)
      rw [Function.update_of_ne hcell, h.cell i hlt, List.getElem?_append_left hlt]

theorem RingBuffer.Holds.popped {item : T} (h : r.Holds capacity (item :: items)) (movedFrom : T → T) :
    (r.popped capacity movedFrom).Holds capacity items := by
  have hhead := h.head_eq
  have hbounded := h.bounded
  rw [List.length_cons] at hhead hbounded
  constructor
  case head_eq =>
    show r.head = r.tail + 1 + items.length
    omega
  case bounded => omega
  case sequence =>
    intro i hi hi'
    change r.tail + 1 ≤ i at hi
    change i < r.tail + 1 + capacity at hi'
    show Function.update r.sequences (r.tail % capacity) (r.tail + capacity) (i % capacity) =
      if i < r.head then i + 1 else i
    by_cases heq : i = r.tail + capacity
    · -- the cell of the next lap
      rw [heq, Nat.add_mod_right, Function.update_self, if_neg (by omega)]
    · have hcell := window_ne (c := capacity) (r := r.tail) (i := i) (by omega) (by omega)
        (Nat.le_refl r.tail) (by omega) (show i ≠ r.tail by omega)
      rw [Function.update_of_ne hcell]
      exact h.sequence i (by omega) (by omega)
  case cell =>
    intro i hi
    show Function.update r.buffer (r.tail % capacity) _ ((r.tail + 1 + i) % capacity) = _
    have hcell := window_ne (c := capacity) (r := r.tail) (i := r.tail + 1 + i) (by omega) (by omega)
      (Nat.le_refl r.tail) (by omega) (show r.tail + 1 + i ≠ r.tail by omega)
    rw [Function.update_of_ne hcell, show r.tail + 1 + i = r.tail + (i + 1) by omega,
      h.cell (i + 1) (by rw [List.length_cons]; omega)]
    exact List.getElem?_cons_succ

/-! ### What the calls do -/

section

variable (hpow : ∃ k, capacity = 2 ^ k) (hfits : ∀ n ≤ r.head + capacity, W.Fits n)

include hpow hfits

/-- A push into a buffer with a free cell. -/
theorem RingBuffer.Holds.pushImpl_room (h : r.Holds capacity items) (hroom : items.length < capacity)
    (item : T) (fuel : Nat) :
    pushImpl W capacity r item (fuel + 1) = some (true, r.pushed capacity item) := by
  have hhead := h.head_eq
  have hseq : r.sequences (r.head % capacity) = r.head := by
    rw [h.sequence r.head (by omega) (by omega), if_neg (Nat.lt_irrefl _)]
  rw [pushImpl]
  rw [slotPos_eq hpow, hseq, if_pos (Int.sub_self _), (hfits (r.head + 1) (by omega)).wrap_eq]
  rfl

/-- A push into a full buffer of two cells or more. -/
theorem RingBuffer.Holds.pushImpl_full (h : r.Holds capacity items) (hfull : items.length = capacity)
    (hcapacity : 2 ≤ capacity) (item : T) (fuel : Nat) :
    pushImpl W capacity r item (fuel + 1) = some (false, r) := by
  have hhead := h.head_eq
  have hseq : r.sequences (r.head % capacity) = r.tail + 1 := by
    rw [hhead, hfull, Nat.add_mod_right, h.sequence r.tail (Nat.le_refl _) (by omega),
      if_pos (by omega)]
  have hdiff : W.toIntptr (r.tail + 1) - W.toIntptr r.head < 0 := by
    rw [(hfits (r.tail + 1) (by omega)).toIntptr_eq, (hfits r.head (by omega)).toIntptr_eq]
    omega
  rw [pushImpl]
  rw [slotPos_eq hpow, hseq, if_neg (by omega), if_pos hdiff]

theorem RingBuffer.Holds.tryPop_cons {item : T} (h : r.Holds capacity (item :: items))
    (movedFrom : T → T) (fuel : Nat) :
    tryPop W capacity movedFrom r (fuel + 1) = some (some item, r.popped capacity movedFrom) := by
  have hhead := h.head_eq
  have hbounded := h.bounded
  rw [List.length_cons] at hhead hbounded
  have hseq : r.sequences (r.tail % capacity) = r.tail + 1 := by
    rw [h.sequence r.tail (Nat.le_refl _) (by omega), if_pos (by omega)]
  have hcell : r.buffer (r.tail % capacity) = some item := h.cell 0 (Nat.succ_pos _)
  rw [tryPop]
  rw [slotPos_eq hpow, hseq, (hfits (r.tail + 1) (by omega)).wrap_eq, if_pos (Int.sub_self _), hcell,
    (hfits (r.tail + capacity) (by omega)).wrap_eq]
  unfold RingBuffer.popped
  rw [hcell]

theorem RingBuffer.Holds.tryPop_nil (h : r.Holds capacity []) (hcapacity : 2 ≤ capacity)
    (movedFrom : T → T) (fuel : Nat) :
    tryPop W capacity movedFrom r (fuel + 1) = some (none, r) := by
  have hhead : r.head = r.tail := h.head_eq
  have hseq : r.sequences (r.tail % capacity) = r.tail := by
    rw [h.sequence r.tail (Nat.le_refl _) (by omega), if_neg (by omega)]
  have hdiff : W.toIntptr r.tail - W.toIntptr (W.wrap (r.tail + 1)) < 0 := by
    have hnext := hfits (r.tail + 1) (by omega)
    rw [hnext.wrap_eq, hnext.toIntptr_eq, (hfits r.tail (by omega)).toIntptr_eq]
    omega
  rw [tryPop]
  rw [slotPos_eq hpow, hseq, if_neg (by omega), if_pos hdiff]

/-- What is at an index of the queue. -/
theorem RingBuffer.Holds.peekAt_eq (h : r.Holds capacity items) (i : Nat) :
    peekAt W capacity r i = items[i]? := by
  have hhead := h.head_eq
  have hbounded := h.bounded
  unfold peekAt
  rw [if_neg (by omega)]
  dsimp only
  by_cases hi : i < items.length
  · have hseq : r.sequences ((r.tail + i) % capacity) = r.tail + i + 1 := by
      rw [h.sequence (r.tail + i) (by omega) (by omega), if_pos (by omega)]
    rw [if_neg (by omega), (hfits (r.tail + i) (by omega)).wrap_eq, slotPos_eq hpow, hseq,
      (hfits (r.tail + i + 1) (by omega)).wrap_eq, if_pos (by omega), h.cell i hi]
  · rw [if_pos (by omega), List.getElem?_eq_none (by omega)]

end

end TorrentLink
