import Mathlib.Logic.Function.Basic
import TorrentLink.Lib.Runs
import TorrentLink.Lib.SlotQueue

/-!
# The ring buffer

`RingBuffer`: a bounded queue in shared memory for many producers and one consumer. Each cell has a
sequence number; a producer claims the next index with a compare-exchange on `head_`, writes the cell and
publishes it by its sequence number, and the consumer takes the cells in order.

A machine of atomic steps: each is a load or a store of one of the shared variables, taken by one of the
producers or by the consumer, in any order and with sequential consistency. Between two of its steps a
thread keeps what the code has in local variables. Beside the machine stands the record of the slots: what
was claimed, filled and emptied, what was popped, and how full the buffer was when a push failed.
-/

namespace TorrentLink

open Lib

/-! ### Machine words -/

/-- `size_t` arithmetic. -/
def wrap (n : Nat) : Nat := n % 2 ^ 64

/-- `static_cast<intptr_t>` -/
def toIntptr (n : Nat) : Int := if n < 2 ^ 63 then n else (n : Int) - 2 ^ 64

/-! ### Memory and threads -/

/-- The shared variables. Only the first `Capacity` cells are used. -/
structure RingBuffer (T : Type) where
  buffer : Nat → Option T := fun _ => none
  sequences : Nat → Nat := fun i => i
  head : Nat := 0
  tail : Nat := 0

/-- Where a producer is in `PushImpl`, with its local variables. -/
inductive Producer (T : Type)
  | idle
  | loadHead (item : T)
  | loadSequence (item : T) (head : Nat)
  | compareExchange (item : T) (head : Nat)
  | write (item : T) (head : Nat)
  | publish (head : Nat)

/-- Where the consumer is in `TryPop`, with its local variables. -/
inductive Consumer (T : Type)
  | idle
  | loadTail
  | loadSequence (tail : Nat)
  | storeTail (tail : Nat)
  | read (tail : Nat)
  | release (tail : Nat) (result : Option T)

/-- The memory, the threads and the record. -/
structure RingRun (P T : Type) where
  memory : RingBuffer T := {}
  producers : P → Producer T := fun _ => .idle
  consumer : Consumer T := .idle
  slots : SlotQueue T := {}
  popped : List (Option T) := []
  /-- For each push that failed, the number of outstanding slots when it loaded the sequence number. -/
  failures : List Nat := []

inductive RingStep (P T : Type)
  /-- An idle producer calls `Push`. -/
  | push (p : P) (item : T)
  /-- The next step of a producer; a weak compare-exchange may fail for no reason. -/
  | producer (p : P) (spurious : Bool)
  /-- The idle consumer calls `TryPop`. -/
  | tryPop
  /-- The next step of the consumer. -/
  | consumer

variable {P T : Type} [DecidableEq P] (capacity : Nat)

/-- `index & (Capacity - 1)` -/
def slotPos (index : Nat) : Nat := index &&& (capacity - 1)

def RingRun.setProducer (s : RingRun P T) (p : P) (state : Producer T) : RingRun P T :=
  { s with producers := Function.update s.producers p state }

/-! ### The steps -/

/-- The load of the sequence number in `PushImpl`, and what it decides. -/
def pushLoad (s : RingRun P T) (p : P) (item : T) (head : Nat) : RingRun P T :=
  let seq := s.memory.sequences (slotPos capacity head)
  let diff := toIntptr seq - toIntptr head
  if diff = 0 then s.setProducer p (.compareExchange item head)
  else if diff < 0 then
    { s.setProducer p .idle with failures := s.failures ++ [s.slots.outstanding] }
  else s.setProducer p (.loadHead item)

/-- The weak compare-exchange: when it fails, `head` is what it read. -/
def pushExchange (s : RingRun P T) (p : P) (item : T) (head : Nat) (spurious : Bool) :
    RingRun P T :=
  if s.memory.head = head ∧ spurious = false then
    { s.setProducer p (.write item head) with
      memory := { s.memory with head := wrap (head + 1) }
      slots := s.slots.claim item }
  else s.setProducer p (.loadSequence item s.memory.head)

/-- The write of the cell. -/
def pushWrite (s : RingRun P T) (p : P) (item : T) (head : Nat) : RingRun P T :=
  { s.setProducer p (.publish head) with
    memory := { s.memory with
      buffer := Function.update s.memory.buffer (slotPos capacity head) (some item) } }

/-- The store of the sequence number: the push has succeeded. -/
def pushPublish (s : RingRun P T) (p : P) (head : Nat) : RingRun P T :=
  { s.setProducer p .idle with
    memory := { s.memory with
      sequences :=
        Function.update s.memory.sequences (slotPos capacity head) (wrap (head + 1)) }
    slots := s.slots.fill head }

def producerStep (s : RingRun P T) (p : P) (spurious : Bool) : RingRun P T :=
  match s.producers p with
  | .idle => s
  | .loadHead item => s.setProducer p (.loadSequence item s.memory.head)
  | .loadSequence item head => pushLoad capacity s p item head
  | .compareExchange item head => pushExchange s p item head spurious
  | .write item head => pushWrite capacity s p item head
  | .publish head => pushPublish capacity s p head

/-- The load of the sequence number in `TryPop`, and what it decides. -/
def popLoad (s : RingRun P T) (tail : Nat) : RingRun P T :=
  let seq := s.memory.sequences (slotPos capacity tail)
  let diff := toIntptr seq - toIntptr (wrap (tail + 1))
  if diff = 0 then { s with consumer := .storeTail tail }
  else if diff < 0 then { s with consumer := .idle }
  else { s with consumer := .loadTail }

variable (movedFrom : T → T)

/-- The value is moved out of the cell, which keeps what the move leaves. -/
def popRead (s : RingRun P T) (tail : Nat) : RingRun P T :=
  let result := s.memory.buffer (slotPos capacity tail)
  { s with
    memory := { s.memory with
      buffer :=
        Function.update s.memory.buffer (slotPos capacity tail) (result.map movedFrom) }
    consumer := .release tail result }

/-- The cell is free for the next lap, and `TryPop` returns. -/
def popRelease (s : RingRun P T) (tail : Nat) (result : Option T) : RingRun P T :=
  { s with
    memory := { s.memory with
      sequences :=
        Function.update s.memory.sequences (slotPos capacity tail) (wrap (tail + capacity)) }
    consumer := .idle
    slots := s.slots.empty
    popped := s.popped ++ [result] }

def consumerStep (s : RingRun P T) : RingRun P T :=
  match s.consumer with
  | .idle => s
  | .loadTail => { s with consumer := .loadSequence s.memory.tail }
  | .loadSequence tail => popLoad capacity s tail
  | .storeTail tail =>
    { s with memory := { s.memory with tail := wrap (tail + 1) }, consumer := .read tail }
  | .read tail => popRead capacity movedFrom s tail
  | .release tail result => popRelease capacity s tail result

/-- `Push` -/
def pushCall (s : RingRun P T) (p : P) (item : T) : RingRun P T :=
  match s.producers p with
  | .idle => s.setProducer p (.loadHead item)
  | _ => s

/-- `TryPop` -/
def tryPopCall (s : RingRun P T) : RingRun P T :=
  match s.consumer with
  | .idle => { s with consumer := .loadTail }
  | _ => s

def ringStep (s : RingRun P T) : RingStep P T → RingRun P T
  | .push p item => pushCall s p item
  | .producer p spurious => producerStep capacity s p spurious
  | .tryPop => tryPopCall s
  | .consumer => consumerStep capacity movedFrom s

/-! ### What a queue owes -/

/-- The slots whose value was taken out of the cell. -/
def RingRun.readCount (s : RingRun P T) : Nat :=
  match s.consumer with
  | .release _ _ => s.slots.emptied + 1
  | _ => s.slots.emptied

/-- Steps of the consumer alone. -/
def consumerSteps (s : RingRun P T) (n : Nat) : RingRun P T :=
  run (ringStep capacity movedFrom) s (List.replicate n .consumer)

/-- A step of the consumer. -/
def RingStep.ofConsumer : RingStep P T → Bool
  | .tryPop | .consumer => true
  | _ => false

structure RingSpec (s : RingRun P T) : Prop where
  /-- What is popped are the values of the slots, in the order in which they were claimed. -/
  inOrder : s.popped = (s.slots.claimed.take s.slots.emptied).map some
  /-- A push succeeds once for its slot, and only such slots are popped. -/
  accepted : s.slots.filled.Nodup ∧ (∀ i ∈ s.slots.filled, i < s.slots.claimed.length) ∧
    ∀ i < s.slots.emptied, i ∈ s.slots.filled
  /-- A value whose push has succeeded is in its cell until it is read. -/
  kept : ∀ i ∈ s.slots.filled, s.readCount ≤ i →
    s.memory.buffer (slotPos capacity i) = s.slots.claimed[i]?
  /-- No producer is about to write to an unread cell. -/
  notOverwritten : ∀ p item head, s.producers p = .write item head → ∀ i ∈ s.slots.filled,
    s.readCount ≤ i → slotPos capacity i ≠ slotPos capacity head
  /-- At most `Capacity` accepted values are outstanding. -/
  bounded : s.slots.filled.length ≤ s.slots.emptied + capacity
  /-- A push fails only when `Capacity` claimed values are outstanding. -/
  failures : ∀ n ∈ s.failures, n = capacity
  /-- On its own `TryPop` returns, and pops the next value if its push has succeeded. -/
  returns : s.consumer ≠ .idle → ∃ n ≤ 5,
    (consumerSteps capacity movedFrom s n).consumer = .idle ∧
    (consumerSteps capacity movedFrom s n).popped.length =
      s.popped.length + if s.slots.emptied ∈ s.slots.filled then 1 else 0
  /-- If every push has succeeded, calls of `TryPop` pop everything. -/
  drains : (∀ i < s.slots.claimed.length, i ∈ s.slots.filled) →
    ∃ steps : List (RingStep P T), (∀ step ∈ steps, step.ofConsumer = true) ∧
      (run (ringStep capacity movedFrom) s steps).popped = s.slots.claimed.map some

/-- No index reaches the sign of an `intptr_t`: a claim leaves room for a lap below it. -/
def InRange (s : RingRun P T) : RingStep P T → Prop
  | .producer p false => ∀ item, s.producers p = .compareExchange item s.memory.head →
    s.memory.head + capacity < 2 ^ 63
  | _ => True

end TorrentLink
