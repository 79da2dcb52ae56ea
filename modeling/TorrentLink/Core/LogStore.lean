import TorrentLink.Base.RingBufferCalls
import TorrentLink.Base.Types

/-!
# The log store

`LogStoreT`: a ring buffer of log entries and a count of dropped ones for each task. What it is for is told
by a model that keeps, for each task, all entries appended since the last clear: a snapshot shows the first
of the first `Capacity` of them, and the count is how many there are beyond these. Called one operation at
a time the store gives the results of the model, in every run (`logStore_refines`).
-/

namespace TorrentLink

open Lib

inductive LogLevel
  | debug | info | warning | error | fatal
  deriving DecidableEq, Repr

structure LogEntry where
  taskId : TaskId
  level : LogLevel
  timestampMs : Int
  message : String
  detail : String := ""
  deriving DecidableEq, Repr

structure PerTaskStore where
  queue : RingBuffer LogEntry := {}
  dropped : Nat := 0

/-- `stores_` -/
abbrev LogStore := Map TaskId PerTaskStore

/-! ### The operations -/

namespace LogStore

section Operations

variable (W : SizeT) (capacity : Nat) (movedFrom : LogEntry → LogEntry)

def getOrCreate (s : LogStore) (taskId : TaskId) : PerTaskStore := (s.lookup taskId).getD {}

def append (s : LogStore) (entry : LogEntry) (fuel : Nat) : Option LogStore :=
  let store := getOrCreate s entry.taskId
  (pushImpl W capacity store.queue entry fuel).map fun (ok, queue) =>
    s.insert entry.taskId
      { queue := queue, dropped := if ok then store.dropped else W.wrap (store.dropped + 1) }

def snapshot (s : LogStore) (taskId : TaskId) (maxCount : Nat) : List LogEntry :=
  match s.lookup taskId with
  | none => []
  | some store =>
    let count := min maxCount store.queue.size
    (List.range count).filterMap fun i => peekAt W capacity store.queue i

def droppedCount (s : LogStore) (taskId : TaskId) : Nat :=
  match s.lookup taskId with
  | none => 0
  | some store => store.dropped

/-- The loop of `clear`. -/
def drain (queue : RingBuffer LogEntry) : Nat → Option (RingBuffer LogEntry)
  | 0 => none
  | fuel + 1 =>
    (tryPop W capacity movedFrom queue (fuel + 1)).bind fun (item, queue) =>
      match item with
      | none => some queue
      | some _ => drain queue fuel

def clear (s : LogStore) (taskId : TaskId) (fuel : Nat) : Option LogStore :=
  match s.lookup taskId with
  | none => some s
  | some store =>
    (drain W capacity movedFrom store.queue fuel).map fun queue =>
      s.insert taskId { queue := queue, dropped := 0 }

end Operations

end LogStore

inductive LogOp
  | append (entry : LogEntry)
  | snapshot (taskId : TaskId) (maxCount : Nat)
  | clear (taskId : TaskId)
  | droppedCount (taskId : TaskId)

/-- The task an operation is about. -/
def LogOp.taskId : LogOp → TaskId
  | .append entry => entry.taskId
  | .snapshot taskId _ => taskId
  | .clear taskId => taskId
  | .droppedCount taskId => taskId

inductive LogResult
  | done
  | entries (log : List LogEntry)
  | count (n : Nat)
  deriving DecidableEq, Repr

section Runs

variable (W : SizeT) (capacity : Nat) (movedFrom : LogEntry → LogEntry) (fuel : Nat)

/-- One operation, with a bound on the turns of its loops. -/
def logStep (s : LogStore) : LogOp → Option (LogStore × LogResult)
  | .append entry => (LogStore.append W capacity s entry fuel).map fun s => (s, .done)
  | .snapshot taskId maxCount => some (s, .entries (LogStore.snapshot W capacity s taskId maxCount))
  | .clear taskId => (LogStore.clear W capacity movedFrom s taskId fuel).map fun s => (s, .done)
  | .droppedCount taskId => some (s, .count (LogStore.droppedCount s taskId))

/-- The results of some operations, one after the other. -/
def logRun (s : LogStore) : List LogOp → Option (List LogResult)
  | [] => some []
  | op :: ops =>
    (logStep W capacity movedFrom fuel s op).bind fun (s, result) =>
      (logRun s ops).map (result :: ·)

end Runs

/-! ### What the store is for -/

/-- The entries appended to each task since it was cleared. -/
abbrev LogModel := TaskId → List LogEntry

section Model

variable (capacity : Nat)

def modelStep (m : LogModel) : LogOp → LogModel × LogResult
  | .append entry => (Function.update m entry.taskId (m entry.taskId ++ [entry]), .done)
  | .snapshot taskId maxCount => (m, .entries (((m taskId).take capacity).take maxCount))
  | .clear taskId => (Function.update m taskId [], .done)
  | .droppedCount taskId => (m, .count ((m taskId).length - capacity))

def modelRun (m : LogModel) : List LogOp → List LogResult
  | [] => []
  | op :: ops => (modelStep capacity m op).2 :: modelRun (modelStep capacity m op).1 ops

/-- The results of the operations of one task. -/
def resultsOf (t : TaskId) (ops : List LogOp) (results : List LogResult) : List LogResult :=
  ((ops.zip results).filter fun p => p.1.taskId = t).map Prod.snd

end Model

/-! ### One operation -/

/-- The store holds the entries of the model: as many as fit, the others counted. At most `pushes` pushes
were made so far. -/
structure Represents (capacity : Nat) (m : LogModel) (pushes : Nat) (s : LogStore) : Prop where
  absent : ∀ t, s.lookup t = none → m t = []
  queue : ∀ t store, s.lookup t = some store → store.queue.Holds capacity ((m t).take capacity)
  dropped : ∀ t store, s.lookup t = some store → store.dropped = (m t).length - capacity
  head_le : ∀ t store, s.lookup t = some store → store.queue.head ≤ pushes
  length_le : ∀ t, (m t).length ≤ pushes

theorem represents_empty (capacity : Nat) : Represents capacity (fun _ => []) 0 ∅ := by
  constructor <;> simp

theorem filterMap_range_getElem? {α : Type} (l : List α) (n : Nat) :
    (List.range n).filterMap (fun i => l[i]?) = l.take n := by
  induction n with
  | zero => rfl
  | succ n ih =>
    rw [List.range_succ, List.filterMap_append, ih, List.take_add_one]
    cases h : l[n]? with
    | none => rw [List.filterMap_cons_none h]; rfl
    | some a => rw [List.filterMap_cons_some h]; rfl

variable {W : SizeT} {capacity : Nat} {m : LogModel} {pushes : Nat} {s : LogStore}

/-- The store of one task is replaced. -/
theorem Represents.insert (h : Represents capacity m pushes s) {pushes' : Nat} (hle : pushes ≤ pushes')
    {t : TaskId} {log : List LogEntry} {store : PerTaskStore}
    (hqueue : store.queue.Holds capacity (log.take capacity))
    (hdropped : store.dropped = log.length - capacity) (hhead : store.queue.head ≤ pushes')
    (hlog : log.length ≤ pushes') :
    Represents capacity (Function.update m t log) pushes' (s.insert t store) := by
  constructor
  case absent =>
    intro t' hs
    rw [Map.lookup_insert] at hs
    split_ifs at hs with heq
    rw [Function.update_of_ne heq]
    exact h.absent t' hs
  case queue =>
    intro t' store' hs
    rcases Map.lookup_insert_cases hs with ⟨rfl, rfl⟩ | ⟨hne, hs⟩
    · rw [Function.update_self]
      exact hqueue
    · rw [Function.update_of_ne hne]
      exact h.queue t' store' hs
  case dropped =>
    intro t' store' hs
    rcases Map.lookup_insert_cases hs with ⟨rfl, rfl⟩ | ⟨hne, hs⟩
    · rw [Function.update_self]
      exact hdropped
    · rw [Function.update_of_ne hne]
      exact h.dropped t' store' hs
  case head_le =>
    intro t' store' hs
    rcases Map.lookup_insert_cases hs with ⟨rfl, rfl⟩ | ⟨_, hs⟩
    · exact hhead
    · exact (h.head_le t' store' hs).trans hle
  case length_le =>
    intro t'
    by_cases heq : t' = t
    · rw [heq, Function.update_self]
      exact hlog
    · rw [Function.update_of_ne heq]
      exact (h.length_le t').trans hle

/-- The store of a task, made if it is not there. -/
theorem Represents.getOrCreate (h : Represents capacity m pushes s) (t : TaskId) :
    (LogStore.getOrCreate s t).queue.Holds capacity ((m t).take capacity) ∧
      (LogStore.getOrCreate s t).dropped = (m t).length - capacity ∧
      (LogStore.getOrCreate s t).queue.head ≤ pushes := by
  unfold LogStore.getOrCreate
  cases hs : s.lookup t with
  | none =>
    rw [h.absent t hs, List.take_nil]
    exact ⟨RingBuffer.holds_empty, (Nat.zero_sub _).symm, Nat.zero_le _⟩
  | some store => exact ⟨h.queue t store hs, h.dropped t store hs, h.head_le t store hs⟩

section Bounded

variable (hpow : ∃ k, capacity = 2 ^ k) (hcapacity : 2 ≤ capacity)
  (hfits : ∀ n ≤ pushes + capacity, W.Fits n) (movedFrom : LogEntry → LogEntry)

include hpow hcapacity hfits

theorem Represents.append (h : Represents capacity m pushes s) (entry : LogEntry) {fuel : Nat}
    (hfuel : 0 < fuel) :
    ∃ s', LogStore.append W capacity s entry fuel = some s' ∧
      Represents capacity (Function.update m entry.taskId (m entry.taskId ++ [entry])) (pushes + 1) s' := by
  obtain ⟨hqueue, hdropped, hhead⟩ := h.getOrCreate entry.taskId
  obtain ⟨fuel, rfl⟩ := Nat.exists_eq_add_one_of_ne_zero hfuel.ne'
  have hlength := h.length_le entry.taskId
  have hlog : (m entry.taskId ++ [entry]).length ≤ pushes + 1 := by
    rw [List.length_append]
    exact Nat.succ_le_succ hlength
  unfold LogStore.append
  generalize LogStore.getOrCreate s entry.taskId = store at hqueue hdropped hhead
  have hfits' : ∀ n ≤ store.queue.head + capacity, W.Fits n := fun n hn => hfits n (by omega)
  by_cases hroom : (m entry.taskId).length < capacity
  · rw [List.take_of_length_le hroom.le] at hqueue
    dsimp only
    rw [hqueue.pushImpl_room hpow hfits' hroom entry fuel]
    refine ⟨_, rfl, ?_⟩
    refine h.insert (Nat.le_succ _) ?_ ?_ (Nat.succ_le_succ hhead) hlog
    · rw [List.take_of_length_le (by rw [List.length_append, List.length_singleton]; exact hroom)]
      exact hqueue.pushed hroom entry
    · show store.dropped = _
      rw [hdropped, List.length_append, List.length_singleton]
      omega
  · have hfull : ((m entry.taskId).take capacity).length = capacity := by
      rw [List.length_take]
      omega
    dsimp only
    rw [hqueue.pushImpl_full hpow hfits' hfull hcapacity entry fuel]
    refine ⟨_, rfl, ?_⟩
    refine h.insert (Nat.le_succ _) ?_ ?_ (hhead.trans (Nat.le_succ _)) hlog
    · rw [List.take_append_of_le_length (by omega)]
      exact hqueue
    · show W.wrap (store.dropped + 1) = _
      rw [(hfits _ (by omega)).wrap_eq, hdropped, List.length_append, List.length_singleton]
      omega

/-- Items are popped until the queue is empty. -/
theorem drain_eq (items : List LogEntry) {queue : RingBuffer LogEntry} {fuel : Nat}
    (h : queue.Holds capacity items) (hhead : queue.head ≤ pushes) (hfuel : items.length < fuel) :
    ∃ queue', LogStore.drain W capacity movedFrom queue fuel = some queue' ∧
      queue'.Holds capacity [] ∧ queue'.head ≤ pushes := by
  obtain ⟨fuel, rfl⟩ := Nat.exists_eq_add_one_of_ne_zero (Nat.ne_zero_of_lt hfuel)
  have hfits' : ∀ n ≤ queue.head + capacity, W.Fits n := fun n hn => hfits n (by omega)
  induction items generalizing queue fuel with
  | nil =>
    refine ⟨queue, ?_, h, hhead⟩
    rw [LogStore.drain, h.tryPop_nil hpow hfits' hcapacity]
    rfl
  | cons item items ih =>
    rw [List.length_cons] at hfuel
    obtain ⟨fuel, rfl⟩ := Nat.exists_eq_add_one_of_ne_zero (show fuel ≠ 0 by omega)
    rw [LogStore.drain, h.tryPop_cons hpow hfits']
    exact ih (h.popped movedFrom) hhead fuel (by omega) hfits'

theorem Represents.clear (h : Represents capacity m pushes s) (t : TaskId) {fuel : Nat}
    (hfuel : capacity < fuel) :
    ∃ s', LogStore.clear W capacity movedFrom s t fuel = some s' ∧
      Represents capacity (Function.update m t []) pushes s' := by
  unfold LogStore.clear
  cases hs : s.lookup t with
  | none =>
    refine ⟨s, rfl, ?_⟩
    rw [← h.absent t hs, Function.update_eq_self]
    exact h
  | some store =>
    have hqueue := h.queue t store hs
    obtain ⟨queue', hdrain, hempty, hhead⟩ := drain_eq hpow hcapacity hfits movedFrom _ hqueue
      (h.head_le t store hs) (hqueue.bounded.trans_lt hfuel)
    dsimp only
    rw [hdrain]
    refine ⟨_, rfl, h.insert (Nat.le_refl _) ?_ (Nat.zero_sub _).symm hhead (Nat.zero_le _)⟩
    rw [List.take_nil]
    exact hempty

omit hcapacity in
/-- A snapshot reads the first items of the queue. -/
theorem Represents.snapshot (h : Represents capacity m pushes s) (t : TaskId) (maxCount : Nat) :
    LogStore.snapshot W capacity s t maxCount = ((m t).take capacity).take maxCount := by
  unfold LogStore.snapshot
  cases hs : s.lookup t with
  | none =>
    rw [h.absent t hs, List.take_nil, List.take_nil]
  | some store =>
    have hqueue := h.queue t store hs
    have hhead := h.head_le t store hs
    have hpeek : ∀ i, peekAt W capacity store.queue i = ((m t).take capacity)[i]? :=
      hqueue.peekAt_eq hpow fun n hn => hfits n (by omega)
    dsimp only
    simp only [hpeek, hqueue.size_eq]
    rw [filterMap_range_getElem?]
    exact List.take_eq_take_min.symm

end Bounded

theorem Represents.droppedCount (h : Represents capacity m pushes s) (t : TaskId) :
    LogStore.droppedCount s t = (m t).length - capacity := by
  unfold LogStore.droppedCount
  cases hs : s.lookup t with
  | none =>
    rw [h.absent t hs]
    exact (Nat.zero_sub _).symm
  | some store => exact h.dropped t store hs

theorem Represents.mono (h : Represents capacity m pushes s) {pushes' : Nat} (hle : pushes ≤ pushes') :
    Represents capacity m pushes' s where
  absent := h.absent
  queue := h.queue
  dropped := h.dropped
  head_le t store hs := (h.head_le t store hs).trans hle
  length_le t := (h.length_le t).trans hle

/-! ### A run -/

section

variable (hpow : ∃ k, capacity = 2 ^ k) (hcapacity : 2 ≤ capacity)
  (movedFrom : LogEntry → LogEntry) {fuel : Nat} (hfuel : capacity < fuel)

include hpow hcapacity hfuel

/-- An operation gives the result of the model, and leaves the store with the entries of the model. -/
theorem Represents.step (h : Represents capacity m pushes s)
    (hfits : ∀ n ≤ pushes + capacity, W.Fits n) (op : LogOp) :
    ∃ s', logStep W capacity movedFrom fuel s op = some (s', (modelStep capacity m op).2) ∧
      Represents capacity (modelStep capacity m op).1 (pushes + 1) s' := by
  cases op with
  | append entry =>
    obtain ⟨s', hs', hrep⟩ :=
      h.append hpow hcapacity hfits entry (Nat.zero_lt_of_lt hfuel)
    refine ⟨s', ?_, hrep⟩
    rw [logStep, hs']
    rfl
  | snapshot t maxCount =>
    refine ⟨s, ?_, h.mono (Nat.le_succ _)⟩
    rw [logStep, h.snapshot hpow hfits]
    rfl
  | clear t =>
    obtain ⟨s', hs', hrep⟩ := h.clear hpow hcapacity hfits movedFrom t hfuel
    refine ⟨s', ?_, hrep.mono (Nat.le_succ _)⟩
    rw [logStep, hs']
    rfl
  | droppedCount t =>
    refine ⟨s, ?_, h.mono (Nat.le_succ _)⟩
    rw [logStep, h.droppedCount]
    rfl

theorem Represents.run (ops : List LogOp) (h : Represents capacity m pushes s)
    (hfits : ∀ n ≤ pushes + ops.length + capacity, W.Fits n) :
    logRun W capacity movedFrom fuel s ops = some (modelRun capacity m ops) := by
  induction ops generalizing m pushes s with
  | nil => rfl
  | cons op ops ih =>
    rw [List.length_cons] at hfits
    obtain ⟨s', hs', hrep⟩ :=
      h.step hpow hcapacity movedFrom hfuel (fun n hn => hfits n (by omega)) op
    rw [logRun, hs', Option.bind_some]
    dsimp only
    rw [ih hrep fun n hn => hfits n (by omega)]
    rfl

end

/-! ### The other tasks -/

/-- An operation sees the entries of its own task only. -/
theorem modelStep_congr {m m' : LogModel} (op : LogOp) (h : m op.taskId = m' op.taskId) :
    (modelStep capacity m op).2 = (modelStep capacity m' op).2 ∧
      (modelStep capacity m op).1 op.taskId = (modelStep capacity m' op).1 op.taskId := by
  cases op <;> simp_all [modelStep, LogOp.taskId]

theorem modelStep_of_ne {m : LogModel} {op : LogOp} {t : TaskId} (h : op.taskId ≠ t) :
    (modelStep capacity m op).1 t = m t := by
  cases op with
  | append entry => exact Function.update_of_ne (Ne.symm h) _ _
  | clear taskId => exact Function.update_of_ne (Ne.symm h) _ _
  | snapshot taskId maxCount => rfl
  | droppedCount taskId => rfl

/-- The operations of other tasks do not matter to a task. -/
theorem resultsOf_modelRun (t : TaskId) (ops : List LogOp) {m m' : LogModel} (h : m t = m' t) :
    resultsOf t ops (modelRun capacity m ops) =
      modelRun capacity m' (ops.filter fun op => op.taskId = t) := by
  induction ops generalizing m m' with
  | nil => rfl
  | cons op ops ih =>
    by_cases hop : op.taskId = t
    · subst hop
      have hstep : (modelStep capacity m op).2 = (modelStep capacity m' op).2 ∧
          (modelStep capacity m op).1 op.taskId = (modelStep capacity m' op).1 op.taskId :=
        modelStep_congr op h
      rw [List.filter_cons_of_pos (by simp), modelRun, modelRun, ← ih hstep.2, ← hstep.1]
      simp [resultsOf]
    · have hother : (modelStep capacity m op).1 t = m' t := (modelStep_of_ne hop).trans h
      rw [List.filter_cons_of_neg (by simpa using hop), modelRun, ← ih hother]
      simp [resultsOf, hop]

/-- With the loops given more turns than a queue has cells, every run of operations on an empty store gives
the results of the model: with counters of any size, and with words of 64 bits as long as the counters stay
below `2 ^ 63`. The results of a task's operations are those of the run without the other tasks. -/
theorem logStore_refines {capacity : Nat} (hpow : ∃ k, capacity = 2 ^ k) (hcapacity : 2 ≤ capacity)
    (movedFrom : LogEntry → LogEntry) {fuel : Nat} (hfuel : capacity < fuel) :
    (∀ ops, logRun SizeT.unbounded capacity movedFrom fuel ∅ ops =
        some (modelRun capacity (fun _ => []) ops)) ∧
      (∀ ops : List LogOp, ops.length + capacity < 2 ^ 63 →
        logRun SizeT.word64 capacity movedFrom fuel ∅ ops =
          some (modelRun capacity (fun _ => []) ops)) ∧
      ∀ ops t, (logRun SizeT.unbounded capacity movedFrom fuel ∅ ops).map (resultsOf t ops) =
        logRun SizeT.unbounded capacity movedFrom fuel ∅ (ops.filter fun op => op.taskId = t) := by
  have hempty := represents_empty capacity
  have hunbounded := fun ops => hempty.run (W := SizeT.unbounded) hpow hcapacity movedFrom hfuel ops
    fun n _ => SizeT.fits_unbounded n
  refine ⟨hunbounded, ?_, ?_⟩
  · intro ops hlength
    refine hempty.run hpow hcapacity movedFrom hfuel ops fun n hn => SizeT.fits_word64 ?_
    omega
  · intro ops t
    rw [hunbounded, hunbounded, Option.map_some, resultsOf_modelRun t ops rfl]

private def logEntryOf (taskId : TaskId) (message : String) : LogEntry :=
  { taskId := taskId, level := .info, timestampMs := 0, message := message }

/-- A queue of two cells that overflows, and is used again after a clear. -/
theorem logStore_refines_two :
    logRun SizeT.word64 2 id 3 ∅
        [.append (logEntryOf 1 "1"), .append (logEntryOf 2 "x"), .append (logEntryOf 1 "2"),
          .append (logEntryOf 1 "3"), .snapshot 1 5, .droppedCount 1, .clear 1,
          .append (logEntryOf 1 "4"), .snapshot 1 5, .snapshot 2 5, .droppedCount 1] =
      some [.done, .done, .done, .done, .entries [logEntryOf 1 "1", logEntryOf 1 "2"], .count 1,
        .done, .done, .entries [logEntryOf 1 "4"], .entries [logEntryOf 2 "x"], .count 0] :=
  ((logStore_refines ⟨1, rfl⟩ (Nat.le_refl 2) id (by decide)).2.1 _ (by decide)).trans (by decide)

end TorrentLink
