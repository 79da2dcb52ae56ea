import TorrentLink.Base.RingBuffer

/-!
# Runs of the ring buffer

The invariant of all interleavings: the cells of the window of slots that may be in use have the sequence
numbers of their slots, plus one where the slot is filled; a filled slot that is not read is in its cell; a
producer past its compare-exchange owns a claimed slot that is not filled; and the consumer is at the first
slot that is not emptied. It holds for every capacity but one: with a single cell the sequence number of a
filled slot is that of the next slot when it is free.
-/

namespace TorrentLink

open Lib

variable {P T : Type}

/-! ### Words and cells -/

theorem wrap_eq {n : Nat} (h : n < 2 ^ 63) : wrap n = n := Nat.mod_eq_of_lt (by omega)

theorem toIntptr_eq {n : Nat} (h : n < 2 ^ 63) : toIntptr n = n := if_pos h

theorem slotPos_eq {capacity : Nat} (hpow : ∃ k, capacity = 2 ^ k) (index : Nat) :
    slotPos capacity index = index % capacity := by
  obtain ⟨k, rfl⟩ := hpow
  exact Nat.and_two_pow_sub_one_eq_mod index k

/-! ### The invariant -/

/-- The slot that a producer has claimed and not filled. -/
def Producer.slot : Producer T → Option Nat
  | .write _ head => some head
  | .publish head => some head
  | _ => none

/-- What a producer knows. -/
def ProducerOk (capacity : Nat) (q : SlotQueue T) (buffer : Nat → Option T) : Producer T → Prop
  | .idle => True
  | .loadHead _ => True
  | .loadSequence _ head => head ≤ q.claimed.length
  | .compareExchange _ head =>
    head ≤ q.claimed.length ∧ (head = q.claimed.length → q.claimed.length < q.emptied + capacity)
  | .write item head => head ∉ q.filled ∧ q.claimed[head]? = some item
  | .publish head =>
    head ∉ q.filled ∧ head < q.claimed.length ∧ buffer (head % capacity) = q.claimed[head]?

/-- What the consumer knows: it is at the first slot that is not emptied. -/
def ConsumerOk (q : SlotQueue T) (tail : Nat) : Consumer T → Prop
  | .idle => tail = q.emptied
  | .loadTail => tail = q.emptied
  | .loadSequence t => tail = q.emptied ∧ t = q.emptied
  | .storeTail t => tail = q.emptied ∧ t = q.emptied ∧ q.emptied ∈ q.filled
  | .read t => tail = q.emptied + 1 ∧ t = q.emptied ∧ q.emptied ∈ q.filled
  | .release t result =>
    tail = q.emptied + 1 ∧ t = q.emptied ∧ q.emptied ∈ q.filled ∧ result = q.claimed[q.emptied]?

structure RingInv (capacity : Nat) (s : RingRun P T) : Prop where
  slots : s.slots.WellFormed capacity
  head_eq : s.memory.head = s.slots.claimed.length
  range : s.slots.claimed.length + capacity ≤ 2 ^ 63
  sequence : ∀ i, s.slots.emptied ≤ i → i < s.slots.emptied + capacity →
    s.memory.sequences (i % capacity) = if i ∈ s.slots.filled then i + 1 else i
  kept : ∀ i ∈ s.slots.filled, s.readCount ≤ i →
    s.memory.buffer (i % capacity) = s.slots.claimed[i]?
  producers : ∀ p, ProducerOk capacity s.slots s.memory.buffer (s.producers p)
  owners : ∀ p q i, (s.producers p).slot = some i → (s.producers q).slot = some i → p = q
  consumer : ConsumerOk s.slots s.memory.tail s.consumer
  popped : s.popped = (s.slots.claimed.take s.slots.emptied).map some
  failures : ∀ n ∈ s.failures, n = capacity

variable {capacity : Nat}

theorem ringInv_start (hcapacity : capacity ≤ 2 ^ 63) :
    RingInv capacity ({} : RingRun P T) where
  slots := SlotQueue.wellFormed_empty
  head_eq := rfl
  range := by simpa using hcapacity
  sequence i _ hi := by
    have hlt : i < capacity := by simpa using hi
    simp [Nat.mod_eq_of_lt hlt]
  kept i hi := by simp at hi
  producers _ := trivial
  owners _ _ _ h := by simp [Producer.slot] at h
  consumer := rfl
  popped := rfl
  failures := by simp

/-- The sequence number a thread loads is that of a slot of the window. -/
theorem RingInv.exists_slot {s : RingRun P T} (h : RingInv capacity s) (hcapacity : 0 < capacity)
    (index : Nat) : ∃ i, s.slots.emptied ≤ i ∧ i < s.slots.emptied + capacity ∧
      i % capacity = index % capacity ∧
      s.memory.sequences (index % capacity) = if i ∈ s.slots.filled then i + 1 else i := by
  obtain ⟨i, hle, hlt, hmod⟩ := exists_window hcapacity s.slots.emptied index
  exact ⟨i, hle, hlt, hmod, hmod ▸ h.sequence i hle hlt⟩

theorem RingInv.emptied_le {s : RingRun P T} (h : RingInv capacity s) :
    s.slots.emptied ≤ s.slots.claimed.length := h.slots.emptied_le

theorem RingInv.popped_length {s : RingRun P T} (h : RingInv capacity s) :
    s.popped.length = s.slots.emptied := by
  rw [h.popped, List.length_map, List.length_take]
  exact min_eq_left h.emptied_le

theorem RingInv.emptied_le_readCount (s : RingRun P T) : s.slots.emptied ≤ s.readCount := by
  unfold RingRun.readCount
  split
  · omega
  · exact le_rfl

/-- Two slots that are in use are in different cells. -/
theorem RingInv.cell_ne {s : RingRun P T} (h : RingInv capacity s) {i j : Nat} (hi : s.slots.emptied ≤ i)
    (hi' : i < s.slots.claimed.length) (hj : s.slots.emptied ≤ j)
    (hj' : j < s.slots.claimed.length) (hne : i ≠ j) : i % capacity ≠ j % capacity := by
  have hbounded := h.slots.bounded
  exact window_ne hi (by omega) hj (by omega) hne

/-! ### Steps of a producer -/

section Producers

variable [DecidableEq P] {s : RingRun P T}

/-- A producer that claims and changes nothing. -/
theorem RingInv.setProducer (h : RingInv capacity s) (p : P) (state : Producer T)
    (hok : ProducerOk capacity s.slots s.memory.buffer state) (hslot : state.slot = none) :
    RingInv capacity (s.setProducer p state) where
  slots := h.slots
  head_eq := h.head_eq
  range := h.range
  sequence := h.sequence
  kept := h.kept
  producers q := by
    by_cases hq : q = p
    · subst hq
      simpa [RingRun.setProducer] using hok
    · simpa [RingRun.setProducer, hq] using h.producers q
  owners q r i hq hr := by
    have hqp : q ≠ p := by
      rintro rfl
      simp [RingRun.setProducer, hslot] at hq
    have hrp : r ≠ p := by
      rintro rfl
      simp [RingRun.setProducer, hslot] at hr
    exact h.owners q r i (by simpa [RingRun.setProducer, hqp] using hq)
      (by simpa [RingRun.setProducer, hrp] using hr)
  consumer := h.consumer
  popped := h.popped
  failures := h.failures

variable (hpos : ∀ i, slotPos capacity i = i % capacity) (htwo : 2 ≤ capacity)

include hpos htwo

/-- What the load of the sequence number tells a producer: the slot is free, or the buffer is full. -/
theorem RingInv.push_load (h : RingInv capacity s) (p : P) (item : T) {head : Nat}
    (hhead : head ≤ s.slots.claimed.length) : RingInv capacity (pushLoad capacity s p item head) := by
  obtain ⟨i, hle, hlt, hmod, hseq⟩ := h.exists_slot (by omega) head
  have hbounded := h.slots.bounded
  have hemptied := h.emptied_le
  have hrange := h.range
  have hvalue : s.memory.sequences (head % capacity) = i ∨
      s.memory.sequences (head % capacity) = i + 1 ∧ i < s.slots.claimed.length := by
    rw [hseq]
    split
    · rename_i hfilled
      exact .inr ⟨rfl, h.slots.filled_lt i hfilled⟩
    · exact .inl rfl
  have hseqRange : s.memory.sequences (head % capacity) < 2 ^ 63 := by omega
  unfold pushLoad
  dsimp only
  rw [hpos, toIntptr_eq hseqRange, toIntptr_eq (by omega)]
  split
  · rename_i hzero
    refine h.setProducer p _ ⟨hhead, fun hlast => ?_⟩ rfl
    rcases hvalue with hvalue | ⟨hvalue, _⟩
    · omega
    -- the slot before, filled, would be in the same cell
    · have hfar := le_of_same_cell hmod (by omega)
      omega
  · split
    · rename_i hnegative
      have hbefore : i < head := by omega
      have hfar := le_of_same_cell hmod hbefore
      have hidle := h.setProducer p .idle trivial rfl
      refine { hidle with failures := fun n hn => ?_ }
      rcases List.mem_append.mp hn with hn | hn
      · exact h.failures n hn
      · rw [List.mem_singleton.mp hn]
        unfold SlotQueue.outstanding
        omega
    · exact h.setProducer p _ trivial rfl

omit htwo hpos in
/-- The slots that the threads know of, after a claim. -/
theorem ProducerOk.claim {q : SlotQueue T} {buffer : Nat → Option T} {state : Producer T}
    (h : ProducerOk capacity q buffer state) (item : T) :
    ProducerOk capacity (q.claim item) buffer state := by
  cases state with
  | idle => trivial
  | loadHead item' => trivial
  | loadSequence item' head =>
    simp only [ProducerOk, SlotQueue.claim, List.length_append, List.length_singleton] at h ⊢
    omega
  | compareExchange item' head =>
    simp only [ProducerOk, SlotQueue.claim, List.length_append, List.length_singleton] at h ⊢
    omega
  | write item' head =>
    obtain ⟨hfree, hitem⟩ := h
    obtain ⟨hlt, _⟩ := List.getElem?_eq_some_iff.mp hitem
    exact ⟨hfree, (List.getElem?_append_left hlt).trans hitem⟩
  | publish head =>
    obtain ⟨hfree, hlt, hbuffer⟩ := h
    refine ⟨hfree, ?_, hbuffer.trans (List.getElem?_append_left hlt).symm⟩
    simp only [SlotQueue.claim, List.length_append, List.length_singleton]
    omega

omit htwo hpos in
/-- The slot of a producer is claimed and not filled. -/
theorem ProducerOk.slot {q : SlotQueue T} {buffer : Nat → Option T} {state : Producer T}
    (h : ProducerOk capacity q buffer state) {i : Nat} (hi : state.slot = some i) :
    i < q.claimed.length ∧ i ∉ q.filled := by
  cases state with
  | write item head =>
    obtain rfl : head = i := by simpa [Producer.slot] using hi
    exact ⟨(List.getElem?_eq_some_iff.mp h.2).1, h.1⟩
  | publish head =>
    obtain rfl : head = i := by simpa [Producer.slot] using hi
    exact ⟨h.2.1, h.1⟩
  | idle => cases hi
  | loadHead item => cases hi
  | loadSequence item head => cases hi
  | compareExchange item head => cases hi

omit htwo hpos in
theorem ConsumerOk.claim {q : SlotQueue T} {tail : Nat} {state : Consumer T}
    (h : ConsumerOk q tail state) (hfilled : ∀ i ∈ q.filled, i < q.claimed.length) (item : T) :
    ConsumerOk (q.claim item) tail state := by
  cases state with
  | release t result =>
    obtain ⟨htail, ht, hmem, hresult⟩ := h
    exact ⟨htail, ht, hmem, hresult.trans (List.getElem?_append_left (hfilled _ hmem)).symm⟩
  | idle => exact h
  | loadTail => exact h
  | loadSequence t => exact h
  | storeTail t => exact h
  | read t => exact h

omit hpos in
/-- A successful compare-exchange claims the next slot. -/
theorem RingInv.push_exchange (h : RingInv capacity s) {p : P} {item : T} {head : Nat}
    (hstate : s.producers p = .compareExchange item head) (spurious : Bool)
    (hrange : spurious = false → head = s.memory.head → s.memory.head + capacity < 2 ^ 63) :
    RingInv capacity (pushExchange s p item head spurious) := by
  have hok : ProducerOk capacity s.slots s.memory.buffer (.compareExchange item head) :=
    hstate ▸ h.producers p
  unfold pushExchange
  split
  · rename_i hsame
    obtain ⟨hhead, hspurious⟩ := hsame
    have hroom := hrange hspurious hhead.symm
    have hlast : head = s.slots.claimed.length := hhead ▸ h.head_eq
    have hfree : head ∉ s.slots.filled := fun hmem => by
      have hlt := h.slots.filled_lt head hmem
      omega
    have hclaimed : (s.slots.claimed ++ [item]).length = s.slots.claimed.length + 1 := by simp
    refine ⟨h.slots.claim (hok.2 hlast) item, ?_, ?_, h.sequence, ?_, ?_, ?_, ?_, ?_, h.failures⟩
    · show wrap (head + 1) = (s.slots.claimed ++ [item]).length
      have hwrap : head + 1 < 2 ^ 63 := by omega
      rw [hclaimed, wrap_eq hwrap, hlast]
    · show (s.slots.claimed ++ [item]).length + capacity ≤ 2 ^ 63
      rw [hclaimed, ← hlast, ← hhead]
      omega
    · intro i hi hread
      have hlt := h.slots.filled_lt i hi
      exact (h.kept i hi hread).trans (List.getElem?_append_left hlt).symm
    · intro q
      by_cases hq : q = p
      · subst hq
        have hnew : ProducerOk capacity (s.slots.claim item) s.memory.buffer (.write item head) :=
          ⟨hfree, by simp [SlotQueue.claim, hlast]⟩
        simpa [RingRun.setProducer] using hnew
      · simpa [RingRun.setProducer, hq] using (h.producers q).claim item
    · intro q r i hq hr
      -- no other producer owns the new slot
      have hothers : ∀ q, q ≠ p → (s.producers q).slot ≠ some head := by
        intro q _ hslot
        have hlt := ((h.producers q).slot hslot).1
        omega
      by_cases hqp : q = p
      · by_cases hrp : r = p
        · rw [hqp, hrp]
        · have hi : head = i := by simpa [RingRun.setProducer, hqp, Producer.slot] using hq
          have hslot : (s.producers r).slot = some i := by
            simpa [RingRun.setProducer, hrp] using hr
          exact absurd (hi ▸ hslot) (hothers r hrp)
      · have hslot : (s.producers q).slot = some i := by
          simpa [RingRun.setProducer, hqp] using hq
        by_cases hrp : r = p
        · have hi : head = i := by simpa [RingRun.setProducer, hrp, Producer.slot] using hr
          exact absurd (hi ▸ hslot) (hothers q hqp)
        · exact h.owners q r i hslot (by simpa [RingRun.setProducer, hrp] using hr)
    · exact h.consumer.claim h.slots.filled_lt item
    · show s.popped = ((s.slots.claimed ++ [item]).take s.slots.emptied).map some
      rw [List.take_append_of_le_length h.emptied_le]
      exact h.popped
  · exact h.setProducer p _ (le_of_eq h.head_eq) rfl

omit htwo hpos in
/-- Only a producer that is about to publish looks at a cell. -/
theorem ProducerOk.of_buffer {q : SlotQueue T} {buffer buffer' : Nat → Option T}
    {state : Producer T} (h : ProducerOk capacity q buffer state)
    (hsame : ∀ head, state = .publish head →
      buffer' (head % capacity) = buffer (head % capacity)) :
    ProducerOk capacity q buffer' state := by
  cases state with
  | publish head => exact ⟨h.1, h.2.1, (hsame head rfl).trans h.2.2⟩
  | idle => trivial
  | loadHead item => trivial
  | loadSequence item head => exact h
  | compareExchange item head => exact h
  | write item head => exact h

omit htwo in
/-- The write of a cell: it is the cell of the producer's own slot. -/
theorem RingInv.push_write (h : RingInv capacity s) {p : P} {item : T} {head : Nat}
    (hstate : s.producers p = .write item head) :
    RingInv capacity (pushWrite capacity s p item head) := by
  have hok : ProducerOk capacity s.slots s.memory.buffer (.write item head) :=
    hstate ▸ h.producers p
  obtain ⟨hfree, hitem⟩ := hok
  have hslot : (s.producers p).slot = some head := by rw [hstate]; rfl
  have hlt : head < s.slots.claimed.length := (List.getElem?_eq_some_iff.mp hitem).1
  have hemptied := h.slots.emptied_le_of_notMem hfree
  have hslots : ∀ q, ((s.setProducer p (.publish head)).producers q).slot =
      (s.producers q).slot := by
    intro q
    by_cases hq : q = p
    · subst hq
      rw [hslot]
      simp [RingRun.setProducer, Producer.slot]
    · simp [RingRun.setProducer, hq]
  have hother : ∀ i, s.slots.emptied ≤ i → i < s.slots.claimed.length → i ≠ head →
      Function.update s.memory.buffer (head % capacity) (some item) (i % capacity) =
        s.memory.buffer (i % capacity) := fun i hi hi' hne =>
    Function.update_of_ne (h.cell_ne hi hi' hemptied hlt hne) _ _
  unfold pushWrite
  rw [hpos]
  refine ⟨h.slots, h.head_eq, h.range, h.sequence, ?_, ?_, ?_, h.consumer, h.popped, h.failures⟩
  · intro i hi hread
    have hne : i ≠ head := fun heq => hfree (heq ▸ hi)
    have hle := (RingInv.emptied_le_readCount s).trans hread
    exact (hother i hle (h.slots.filled_lt i hi) hne).trans (h.kept i hi hread)
  · intro q
    by_cases hq : q = p
    · subst hq
      have hnew : ProducerOk capacity s.slots
          (Function.update s.memory.buffer (head % capacity) (some item)) (.publish head) :=
        ⟨hfree, hlt, by rw [Function.update_self, hitem]⟩
      simpa [RingRun.setProducer] using hnew
    · have hq' := h.producers q
      have hsame : ProducerOk capacity s.slots
          (Function.update s.memory.buffer (head % capacity) (some item)) (s.producers q) := by
        refine hq'.of_buffer fun head' hproducer => ?_
        have hslot' : (s.producers q).slot = some head' := by rw [hproducer]; rfl
        obtain ⟨hlt', hfree'⟩ := hq'.slot hslot'
        have hne : head' ≠ head := by
          rintro rfl
          exact hq (h.owners q p head' hslot' hslot)
        exact hother head' (h.slots.emptied_le_of_notMem hfree') hlt' hne
      simpa [RingRun.setProducer, hq] using hsame
  · intro q r i hq hr
    exact h.owners q r i ((hslots q).symm.trans hq) ((hslots r).symm.trans hr)

omit htwo hpos in
theorem ProducerOk.fill {q : SlotQueue T} {buffer : Nat → Option T} {state : Producer T}
    (h : ProducerOk capacity q buffer state) {i : Nat} (hi : state.slot ≠ some i) :
    ProducerOk capacity (q.fill i) buffer state := by
  have hfree : ∀ head, head ∉ q.filled → head ≠ i → head ∉ (q.fill i).filled := by
    intro head hhead hne hmem
    rcases List.mem_append.mp hmem with hmem | hmem
    · exact hhead hmem
    · exact hne (List.mem_singleton.mp hmem)
  cases state with
  | write item head =>
    have hne : head ≠ i := fun heq => hi (congrArg some heq)
    exact ⟨hfree head h.1 hne, h.2⟩
  | publish head =>
    have hne : head ≠ i := fun heq => hi (congrArg some heq)
    exact ⟨hfree head h.1 hne, h.2⟩
  | idle => trivial
  | loadHead item => trivial
  | loadSequence item head => exact h
  | compareExchange item head => exact h

omit htwo hpos in
theorem ConsumerOk.fill {q : SlotQueue T} {tail : Nat} {state : Consumer T}
    (h : ConsumerOk q tail state) (i : Nat) : ConsumerOk (q.fill i) tail state := by
  cases state with
  | storeTail t => exact ⟨h.1, h.2.1, List.mem_append_left _ h.2.2⟩
  | read t => exact ⟨h.1, h.2.1, List.mem_append_left _ h.2.2⟩
  | release t result => exact ⟨h.1, h.2.1, List.mem_append_left _ h.2.2.1, h.2.2.2⟩
  | idle => exact h
  | loadTail => exact h
  | loadSequence t => exact h

omit htwo in
/-- The store of the sequence number fills the producer's slot. -/
theorem RingInv.push_publish (h : RingInv capacity s) {p : P} {head : Nat}
    (hstate : s.producers p = .publish head) :
    RingInv capacity (pushPublish capacity s p head) := by
  have hok : ProducerOk capacity s.slots s.memory.buffer (.publish head) := hstate ▸ h.producers p
  obtain ⟨hfree, hlt, hbuffer⟩ := hok
  have hslot : (s.producers p).slot = some head := by rw [hstate]; rfl
  have hemptied := h.slots.emptied_le_of_notMem hfree
  have hbounded := h.slots.bounded
  have hrange := h.range
  have hidle := h.setProducer p .idle trivial rfl
  unfold pushPublish
  rw [hpos, wrap_eq (n := head + 1) (by omega)]
  refine ⟨h.slots.fill hlt hfree, h.head_eq, h.range, ?_, ?_, ?_, hidle.owners,
    h.consumer.fill head, h.popped, h.failures⟩
  · intro i hi hi'
    show Function.update s.memory.sequences (head % capacity) (head + 1) (i % capacity) =
      if i ∈ s.slots.filled ++ [head] then i + 1 else i
    by_cases hne : i = head
    · subst hne
      simp
    · have hcell : i % capacity ≠ head % capacity :=
        window_ne (r := s.slots.emptied) hi hi' hemptied (by omega) hne
      rw [Function.update_of_ne hcell, h.sequence i hi hi']
      simp [hne]
  · intro i hi hread
    rcases List.mem_append.mp hi with hi | hi
    · exact h.kept i hi hread
    · rw [List.mem_singleton.mp hi]
      exact hbuffer
  · intro q
    by_cases hq : q = p
    · subst hq
      simp [RingRun.setProducer, ProducerOk]
    · have hne : (s.producers q).slot ≠ some head := fun hq' => hq (h.owners q p head hq' hslot)
      simpa [RingRun.setProducer, hq] using (h.producers q).fill hne

theorem RingInv.producer_step (h : RingInv capacity s) (p : P) (spurious : Bool)
    (hrange : InRange capacity s (.producer p spurious)) :
    RingInv capacity (producerStep capacity s p spurious) := by
  have hok := h.producers p
  unfold producerStep
  cases hstate : s.producers p with
  | idle => exact h
  | loadHead item => exact h.setProducer p _ (le_of_eq h.head_eq) rfl
  | loadSequence item head =>
    rw [hstate] at hok
    exact h.push_load hpos htwo p item hok
  | compareExchange item head =>
    refine h.push_exchange htwo hstate spurious fun hspurious hhead => ?_
    subst hspurious hhead
    exact hrange item hstate
  | write item head => exact h.push_write hpos hstate
  | publish head => exact h.push_publish hpos hstate

end Producers

/-! ### Steps of the consumer -/

section Consumer

variable {s : RingRun P T}

/-- The consumer claims and fills nothing. -/
theorem consumerStep_slots (capacity : Nat) (movedFrom : T → T) (s : RingRun P T) :
    (consumerStep capacity movedFrom s).slots.claimed = s.slots.claimed ∧
      (consumerStep capacity movedFrom s).slots.filled = s.slots.filled := by
  unfold consumerStep
  cases s.consumer with
  | loadSequence tail =>
    dsimp only [popLoad]
    split
    · exact ⟨rfl, rfl⟩
    · split
      · exact ⟨rfl, rfl⟩
      · exact ⟨rfl, rfl⟩
  | idle => exact ⟨rfl, rfl⟩
  | loadTail => exact ⟨rfl, rfl⟩
  | storeTail tail => exact ⟨rfl, rfl⟩
  | read tail => exact ⟨rfl, rfl⟩
  | release tail result => exact ⟨rfl, rfl⟩

/-- The consumer moves on before it has read a cell. -/
theorem RingInv.setConsumer (h : RingInv capacity s) (hread : s.readCount = s.slots.emptied)
    (state : Consumer T) (hok : ConsumerOk s.slots s.memory.tail state) :
    RingInv capacity { s with consumer := state } :=
  { h with
    kept := fun i hi hle =>
      h.kept i hi (hread ▸ (RingInv.emptied_le_readCount { s with consumer := state }).trans hle)
    consumer := hok }

variable (hpos : ∀ i, slotPos capacity i = i % capacity) (htwo : 2 ≤ capacity)

include hpos htwo

/-- What the consumer loads: its slot is filled, or it is not. -/
theorem RingInv.pop_load (h : RingInv capacity s) :
    popLoad capacity s s.slots.emptied =
      if s.slots.emptied ∈ s.slots.filled then { s with consumer := .storeTail s.slots.emptied }
      else { s with consumer := .idle } := by
  have hseq := h.sequence s.slots.emptied le_rfl (by omega)
  have hrange := h.range
  have hemptied := h.emptied_le
  have hsmall : s.slots.emptied + 1 < 2 ^ 63 := by omega
  unfold popLoad
  dsimp only
  rw [hpos, hseq, wrap_eq hsmall, toIntptr_eq hsmall]
  by_cases hfilled : s.slots.emptied ∈ s.slots.filled
  · rw [if_pos hfilled, if_pos hfilled, toIntptr_eq hsmall, if_pos (by omega)]
  · rw [if_neg hfilled, if_neg hfilled, toIntptr_eq (by omega), if_neg (by omega),
      if_pos (by omega)]

omit htwo in
/-- The value is taken out of the cell of the first slot. -/
theorem RingInv.pop_read (h : RingInv capacity s) (movedFrom : T → T)
    (hstate : s.consumer = .read s.slots.emptied) (htail : s.memory.tail = s.slots.emptied + 1)
    (hfilled : s.slots.emptied ∈ s.slots.filled) :
    RingInv capacity (popRead capacity movedFrom s s.slots.emptied) := by
  have hread : s.readCount = s.slots.emptied := by simp [RingRun.readCount, hstate]
  have hresult := h.kept s.slots.emptied hfilled hread.le
  have hlt := h.slots.filled_lt s.slots.emptied hfilled
  have hother : ∀ i, s.slots.emptied ≤ i → i < s.slots.claimed.length → i ≠ s.slots.emptied →
      Function.update s.memory.buffer (s.slots.emptied % capacity)
        ((s.memory.buffer (s.slots.emptied % capacity)).map movedFrom) (i % capacity) =
          s.memory.buffer (i % capacity) := fun i hi hi' hne =>
    Function.update_of_ne (h.cell_ne hi hi' le_rfl hlt hne) _ _
  unfold popRead
  rw [hpos]
  refine ⟨h.slots, h.head_eq, h.range, h.sequence, ?_, ?_, h.owners,
    ⟨htail, rfl, hfilled, hresult⟩, h.popped, h.failures⟩
  · intro i hi hle
    have hi₁ : s.slots.emptied + 1 ≤ i := hle
    exact (hother i (by omega) (h.slots.filled_lt i hi) (by omega)).trans
      (h.kept i hi (by omega))
  · intro p
    refine (h.producers p).of_buffer fun head hproducer => ?_
    obtain ⟨hlt', hfree⟩ := (h.producers p).slot (by rw [hproducer]; rfl)
    have hne : head ≠ s.slots.emptied := fun heq => hfree (heq ▸ hfilled)
    exact hother head (h.slots.emptied_le_of_notMem hfree) hlt' hne

omit hpos htwo in
theorem ProducerOk.empty {q : SlotQueue T} {buffer : Nat → Option T} {state : Producer T}
    (h : ProducerOk capacity q buffer state) : ProducerOk capacity q.empty buffer state := by
  cases state with
  | compareExchange item head =>
    refine ⟨h.1, fun hlast => ?_⟩
    have hroom := h.2 hlast
    simp only [SlotQueue.empty]
    omega
  | idle => trivial
  | loadHead item => trivial
  | loadSequence item head => exact h
  | write item head => exact h
  | publish head => exact h

/-- The cell is given the number of the slot it has in the next lap. -/
theorem RingInv.pop_release (h : RingInv capacity s) {result : Option T}
    (hstate : s.consumer = .release s.slots.emptied result) :
    RingInv capacity (popRelease capacity s s.slots.emptied result) := by
  have hconsumer := h.consumer
  rw [hstate] at hconsumer
  obtain ⟨htail, -, hfilled, hresult⟩ := hconsumer
  have hlt := h.slots.filled_lt s.slots.emptied hfilled
  have hrange := h.range
  have hbounded := h.slots.bounded
  unfold popRelease
  rw [hpos, wrap_eq (n := s.slots.emptied + capacity) (by omega)]
  refine ⟨h.slots.empty hfilled, h.head_eq, h.range, ?_, ?_, fun p => (h.producers p).empty,
    h.owners, htail, ?_, h.failures⟩
  · intro i hi hi'
    have hi₁ : s.slots.emptied + 1 ≤ i := hi
    have hi₂ : i < s.slots.emptied + 1 + capacity := hi'
    show Function.update s.memory.sequences (s.slots.emptied % capacity)
      (s.slots.emptied + capacity) (i % capacity) = if i ∈ s.slots.filled then i + 1 else i
    by_cases hlast : i = s.slots.emptied + capacity
    · have hfree : s.slots.emptied + capacity ∉ s.slots.filled := fun hmem => by
        have hlt' := h.slots.filled_lt _ hmem
        omega
      subst hlast
      rw [Nat.add_mod_right, Function.update_self, if_neg hfree]
    · have hcell : i % capacity ≠ s.slots.emptied % capacity :=
        window_ne (r := s.slots.emptied) (by omega) (by omega) le_rfl (by omega) (by omega)
      rw [Function.update_of_ne hcell]
      exact h.sequence i (by omega) (by omega)
  · intro i hi hle
    have hread : s.readCount = s.slots.emptied + 1 := by simp [RingRun.readCount, hstate]
    exact h.kept i hi (hread ▸ hle)
  · show s.popped ++ [result] = (s.slots.claimed.take (s.slots.emptied + 1)).map some
    rw [h.popped, hresult, List.take_add_one, List.map_append,
      List.getElem?_eq_getElem hlt]
    rfl

theorem RingInv.consumer_step (h : RingInv capacity s) (movedFrom : T → T) :
    RingInv capacity (consumerStep capacity movedFrom s) := by
  have hok := h.consumer
  unfold consumerStep
  cases hstate : s.consumer with
  | idle => exact h
  | loadTail =>
    rw [hstate] at hok
    have hread : s.readCount = s.slots.emptied := by simp [RingRun.readCount, hstate]
    exact h.setConsumer hread _ ⟨hok, hok⟩
  | loadSequence t =>
    rw [hstate] at hok
    obtain ⟨htail, rfl⟩ := hok
    have hread : s.readCount = s.slots.emptied := by simp [RingRun.readCount, hstate]
    dsimp only
    rw [h.pop_load hpos htwo]
    split
    · rename_i hfilled
      exact h.setConsumer hread _ ⟨htail, rfl, hfilled⟩
    · exact h.setConsumer hread _ htail
  | storeTail t =>
    rw [hstate] at hok
    obtain ⟨htail, rfl, hfilled⟩ := hok
    have hread : s.readCount = s.slots.emptied := by simp [RingRun.readCount, hstate]
    have hrange := h.range
    have hemptied := h.emptied_le
    dsimp only
    rw [wrap_eq (n := s.slots.emptied + 1) (by omega)]
    exact
      { h with
        kept := fun i hi hle => h.kept i hi (hread ▸ hle)
        consumer := ⟨rfl, rfl, hfilled⟩ }
  | read t =>
    rw [hstate] at hok
    obtain ⟨htail, rfl, hfilled⟩ := hok
    exact h.pop_read hpos movedFrom hstate htail hfilled
  | release t result =>
    rw [hstate] at hok
    obtain ⟨-, rfl, -⟩ := hok
    exact h.pop_release hpos htwo hstate

end Consumer

/-! ### The consumer on its own -/

section Alone

variable [DecidableEq P] {movedFrom : T → T} {s : RingRun P T}

theorem consumerSteps_succ (s : RingRun P T) (n : Nat) :
    consumerSteps capacity movedFrom s (n + 1) =
      consumerSteps capacity movedFrom (consumerStep capacity movedFrom s) n := rfl

/-- After `n` steps of its own the consumer has returned, and popped `k` values. -/
def Returns (capacity : Nat) (movedFrom : T → T) (s : RingRun P T) (n k : Nat) : Prop :=
  (consumerSteps capacity movedFrom s n).consumer = .idle ∧
    (consumerSteps capacity movedFrom s n).popped.length = s.popped.length + k

/-- A first step that pops nothing. -/
theorem Returns.step {s' : RingRun P T} {n k : Nat} (h : Returns capacity movedFrom s' n k)
    (hstep : consumerStep capacity movedFrom s = s') (hpopped : s'.popped = s.popped) :
    Returns capacity movedFrom s (n + 1) k := by
  subst hstep
  unfold Returns at h ⊢
  rw [consumerSteps_succ, ← hpopped]
  exact h

theorem returns_release {t : Nat} {result : Option T} (hstate : s.consumer = .release t result) :
    Returns capacity movedFrom s 1 1 := by
  have hstep : consumerSteps capacity movedFrom s 1 = popRelease capacity s t result := by
    show consumerStep capacity movedFrom s = _
    rw [consumerStep, hstate]
  unfold Returns
  rw [hstep]
  exact ⟨rfl, by simp [popRelease]⟩

theorem returns_read {t : Nat} (hstate : s.consumer = .read t) :
    Returns capacity movedFrom s 2 1 := by
  have hstep : consumerStep capacity movedFrom s = popRead capacity movedFrom s t := by
    rw [consumerStep, hstate]
  exact (returns_release (t := t) rfl).step hstep rfl

theorem returns_storeTail {t : Nat} (hstate : s.consumer = .storeTail t) :
    Returns capacity movedFrom s 3 1 := by
  have hstep : consumerStep capacity movedFrom s =
      { s with memory := { s.memory with tail := wrap (t + 1) }, consumer := .read t } := by
    rw [consumerStep, hstate]
  exact (returns_read rfl).step hstep rfl

variable (hpos : ∀ i, slotPos capacity i = i % capacity) (htwo : 2 ≤ capacity)

include hpos htwo

theorem RingInv.returns_loadSequence (h : RingInv capacity s) (movedFrom : T → T) {t : Nat}
    (hstate : s.consumer = .loadSequence t) :
    ∃ n ≤ 4, Returns capacity movedFrom s n (if s.slots.emptied ∈ s.slots.filled then 1 else 0) := by
  have hok := h.consumer
  rw [hstate] at hok
  obtain ⟨-, rfl⟩ := hok
  have hstep : consumerStep capacity movedFrom s = popLoad capacity s s.slots.emptied := by
    rw [consumerStep, hstate]
  have hload := h.pop_load hpos htwo
  by_cases hfilled : s.slots.emptied ∈ s.slots.filled
  · rw [if_pos hfilled] at hload ⊢
    exact ⟨4, le_rfl, (returns_storeTail (t := s.slots.emptied) rfl).step (hstep.trans hload) rfl⟩
  · rw [if_neg hfilled] at hload ⊢
    have hdone : Returns capacity movedFrom { s with consumer := .idle } 0 0 := ⟨rfl, rfl⟩
    exact ⟨1, by omega, hdone.step (hstep.trans hload) rfl⟩

/-- The consumer returns within five steps, and pops the first slot if it is filled. -/
theorem RingInv.returns (h : RingInv capacity s) (movedFrom : T → T) (hbusy : s.consumer ≠ .idle) :
    ∃ n ≤ 5, Returns capacity movedFrom s n (if s.slots.emptied ∈ s.slots.filled then 1 else 0) := by
  have hok := h.consumer
  cases hstate : s.consumer with
  | idle => exact absurd hstate hbusy
  | loadTail =>
    rw [hstate] at hok
    have hread : s.readCount = s.slots.emptied := by simp [RingRun.readCount, hstate]
    have hnext := h.setConsumer hread (.loadSequence s.memory.tail) ⟨hok, hok⟩
    obtain ⟨n, hn, hreturns⟩ := hnext.returns_loadSequence hpos htwo movedFrom rfl
    have hstep : consumerStep capacity movedFrom s =
        { s with consumer := .loadSequence s.memory.tail } := by rw [consumerStep, hstate]
    exact ⟨n + 1, by omega, hreturns.step hstep rfl⟩
  | loadSequence t =>
    obtain ⟨n, hn, hreturns⟩ := h.returns_loadSequence hpos htwo movedFrom hstate
    exact ⟨n, by omega, hreturns⟩
  | storeTail t =>
    rw [hstate] at hok
    rw [if_pos hok.2.2]
    exact ⟨3, by omega, returns_storeTail hstate⟩
  | read t =>
    rw [hstate] at hok
    rw [if_pos hok.2.2]
    exact ⟨2, by omega, returns_read hstate⟩
  | release t result =>
    rw [hstate] at hok
    rw [if_pos hok.2.2.1]
    exact ⟨1, by omega, returns_release hstate⟩

theorem RingInv.consumer_steps (h : RingInv capacity s) (movedFrom : T → T) (n : Nat) :
    RingInv capacity (consumerSteps capacity movedFrom s n) ∧
      (consumerSteps capacity movedFrom s n).slots.claimed = s.slots.claimed ∧
      (consumerSteps capacity movedFrom s n).slots.filled = s.slots.filled := by
  induction n generalizing s with
  | zero => exact ⟨h, rfl, rfl⟩
  | succ n ih =>
    obtain ⟨hclaimed, hfilled⟩ := consumerStep_slots capacity movedFrom s
    obtain ⟨hinv, hclaimed', hfilled'⟩ := ih (h.consumer_step hpos htwo movedFrom)
    rw [consumerSteps_succ]
    exact ⟨hinv, hclaimed'.trans hclaimed, hfilled'.trans hfilled⟩

/-- From an idle consumer, one call for each of the `k` values that are left. -/
theorem RingInv.drains_idle (h : RingInv capacity s) (hidle : s.consumer = .idle) {k : Nat}
    (hleft : s.slots.claimed.length = s.slots.emptied + k)
    (hall : ∀ i < s.slots.claimed.length, i ∈ s.slots.filled) :
    ∃ steps : List (RingStep P T), (∀ step ∈ steps, step.ofConsumer = true) ∧
      (run (ringStep capacity movedFrom) s steps).popped = s.slots.claimed.map some := by
  induction k generalizing s with
  | zero =>
    refine ⟨[], by simp, ?_⟩
    rw [run_nil, h.popped, List.take_of_length_le (by omega)]
  | succ k ih =>
    have hread : s.readCount = s.slots.emptied := by simp [RingRun.readCount, hidle]
    have hok := h.consumer
    rw [hidle] at hok
    have hcall : tryPopCall s = { s with consumer := .loadTail } := by rw [tryPopCall, hidle]
    have hcalled := h.setConsumer hread .loadTail hok
    rw [← hcall] at hcalled
    have hbusy : (tryPopCall s).consumer ≠ .idle := by simp [hcall]
    obtain ⟨n, -, hdone, hlength⟩ := hcalled.returns hpos htwo movedFrom hbusy
    have hfirst : (tryPopCall s).slots.emptied ∈ (tryPopCall s).slots.filled := by
      rw [hcall]
      exact hall s.slots.emptied (by omega)
    rw [if_pos hfirst] at hlength
    obtain ⟨hinv, hclaimed, hfilled⟩ := hcalled.consumer_steps hpos htwo movedFrom n
    have hslots : (tryPopCall s).slots = s.slots := by rw [hcall]
    have hpopped : (tryPopCall s).popped = s.popped := by rw [hcall]
    rw [hslots] at hclaimed hfilled
    rw [hpopped, hinv.popped_length, h.popped_length] at hlength
    obtain ⟨steps, hconsumer, hsteps⟩ := ih hinv hdone (by rw [hclaimed]; omega)
      (by rw [hclaimed, hfilled]; exact hall)
    refine ⟨.tryPop :: (List.replicate n .consumer ++ steps), ?_, ?_⟩
    · intro step hstep
      rcases List.mem_cons.mp hstep with rfl | hstep
      · rfl
      · rcases List.mem_append.mp hstep with hstep | hstep
        · rw [List.eq_of_mem_replicate hstep]
          rfl
        · exact hconsumer step hstep
    · rw [run_cons, run_append, ← hclaimed]
      exact hsteps

theorem RingInv.drains (h : RingInv capacity s)
    (hall : ∀ i < s.slots.claimed.length, i ∈ s.slots.filled) :
    ∃ steps : List (RingStep P T), (∀ step ∈ steps, step.ofConsumer = true) ∧
      (run (ringStep capacity movedFrom) s steps).popped = s.slots.claimed.map some := by
  by_cases hidle : s.consumer = .idle
  · have hle := h.emptied_le
    exact h.drains_idle hpos htwo hidle (k := s.slots.claimed.length - s.slots.emptied)
      (by omega) hall
  · obtain ⟨n, -, hdone, -⟩ := h.returns hpos htwo movedFrom hidle
    obtain ⟨hinv, hclaimed, hfilled⟩ := h.consumer_steps hpos htwo movedFrom n
    have hle := hinv.emptied_le
    obtain ⟨steps, hconsumer, hsteps⟩ := hinv.drains_idle hpos htwo hdone
      (k := (consumerSteps capacity movedFrom s n).slots.claimed.length -
        (consumerSteps capacity movedFrom s n).slots.emptied) (by omega)
      (by rw [hclaimed, hfilled]; exact hall)
    refine ⟨List.replicate n .consumer ++ steps, ?_, ?_⟩
    · intro step hstep
      rcases List.mem_append.mp hstep with hstep | hstep
      · rw [List.eq_of_mem_replicate hstep]
        rfl
      · exact hconsumer step hstep
    · rw [run_append, ← hclaimed]
      exact hsteps

/-! ### Runs -/

theorem RingInv.step (h : RingInv capacity s) (movedFrom : T → T) (step : RingStep P T)
    (hrange : InRange capacity s step) : RingInv capacity (ringStep capacity movedFrom s step) := by
  cases step with
  | push p item =>
    show RingInv capacity (pushCall s p item)
    unfold pushCall
    split
    · exact h.setProducer p _ trivial rfl
    · exact h
  | producer p spurious => exact h.producer_step hpos htwo p spurious hrange
  | tryPop =>
    show RingInv capacity (tryPopCall s)
    unfold tryPopCall
    split
    · rename_i hstate
      have hok := h.consumer
      rw [hstate] at hok
      have hread : s.readCount = s.slots.emptied := by simp [RingRun.readCount, hstate]
      exact h.setConsumer hread .loadTail hok
    · exact h
  | consumer => exact h.consumer_step hpos htwo movedFrom

theorem RingInv.spec (h : RingInv capacity s) : RingSpec capacity movedFrom s where
  inOrder := h.popped
  accepted := ⟨h.slots.filled_nodup, h.slots.filled_lt, h.slots.emptied_filled⟩
  kept i hi hread := by
    rw [hpos]
    exact h.kept i hi hread
  notOverwritten p item head hstate i hi hread := by
    have hok := h.producers p
    rw [hstate] at hok
    have hne : i ≠ head := fun heq => hok.1 (heq ▸ hi)
    have hlt : head < s.slots.claimed.length := (List.getElem?_eq_some_iff.mp hok.2).1
    rw [hpos, hpos]
    exact h.cell_ne ((RingInv.emptied_le_readCount s).trans hread) (h.slots.filled_lt i hi)
      (h.slots.emptied_le_of_notMem hok.1) hlt hne
  bounded := h.slots.filled_bounded
  failures := h.failures
  returns hbusy := h.returns hpos htwo movedFrom hbusy
  drains hall := h.drains hpos htwo hall

end Alone

/-! ### One cell -/

/-- Two pushes into one cell, nothing popped. -/
def oneCellSteps : List (RingStep Unit Nat) :=
  .push () 1 :: List.replicate 5 (.producer () false) ++
    .push () 2 :: List.replicate 5 (.producer () false)

theorem inRange_oneCellSteps : RunOk (ringStep 1 id) (InRange 1) {} oneCellSteps :=
  ⟨trivial, fun _ _ => by decide, fun _ _ => by decide, fun _ _ => by decide, fun _ _ => by decide,
    fun _ _ => by decide, trivial, fun _ _ => by decide, fun _ _ => by decide,
    fun _ _ => by decide, fun _ _ => by decide, fun _ _ => by decide, trivial⟩

/-- Both pushes succeed, so two values are outstanding, and the first is lost. -/
theorem not_ringSpec_oneCell : ¬ RingSpec 1 id (run (ringStep 1 id) {} oneCellSteps) := by
  intro h
  have hbounded := h.bounded
  revert hbounded
  decide

/-- A buffer of the admitted capacity `2 ^ k` meets its specification in every state of every run whose
indices stay in the range of an `intptr_t`, if and only if the capacity is not one. -/
theorem ringBuffer_iff (k : Fin 64) :
    (∀ (P T : Type) [DecidableEq P] (movedFrom : T → T) (steps : List (RingStep P T)),
      RunOk (ringStep (2 ^ k.val) movedFrom) (InRange (2 ^ k.val)) {} steps →
        RingSpec (2 ^ k.val) movedFrom (run (ringStep (2 ^ k.val) movedFrom) {} steps)) ↔
      2 ^ k.val ≠ 1 := by
  constructor
  · intro h hone
    have hspec := h Unit Nat id oneCellSteps
    rw [hone] at hspec
    exact not_ringSpec_oneCell (hspec inRange_oneCellSteps)
  · intro hne P T _ movedFrom steps hrange
    have hpos : ∀ i, slotPos (2 ^ k.val) i = i % 2 ^ k.val := slotPos_eq ⟨k.val, rfl⟩
    have hpositive := Nat.two_pow_pos k.val
    have htwo : 2 ≤ 2 ^ k.val := by omega
    have hcapacity : 2 ^ k.val ≤ 2 ^ 63 :=
      Nat.pow_le_pow_right (by omega) (Nat.le_of_lt_succ k.isLt)
    have hinv : RingInv (2 ^ k.val) (run (ringStep (2 ^ k.val) movedFrom) {} steps) :=
      RunOk.invariant (fun s step h hok => h.step hpos htwo movedFrom step hok)
        (ringInv_start hcapacity) hrange
    exact hinv.spec hpos htwo

/-- A buffer of capacity one takes a second value while the first is unread. -/
theorem second_value_overwrites :
    ¬ ∀ (k : Fin 64) (P T : Type) [DecidableEq P] (movedFrom : T → T) (steps : List (RingStep P T)),
      RunOk (ringStep (2 ^ k.val) movedFrom) (InRange (2 ^ k.val)) {} steps →
        RingSpec (2 ^ k.val) movedFrom (run (ringStep (2 ^ k.val) movedFrom) {} steps) := by
  intro h
  exact not_ringSpec_oneCell (h 0 Unit Nat id oneCellSteps inRange_oneCellSteps)

end TorrentLink
