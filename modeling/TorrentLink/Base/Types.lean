import Mathlib.Data.List.AList

/-!
# Task ids, task statuses, errors and time stamps
-/

namespace TorrentLink

/-- `QUuid`: 128 bits, all zero for the null id. -/
abbrev TaskId := BitVec 128

def TaskId.isNull (id : TaskId) : Bool := id = 0

/-- `std::map` and `std::unordered_map`: every key at most once. -/
abbrev Map (α : Type) (β : Type) := AList fun _ : α => β

namespace Map

variable {α β : Type} [DecidableEq α]

theorem lookup_insert (m : Map α β) (a a' : α) (b : β) :
    (AList.insert a b m).lookup a' = if a' = a then some b else m.lookup a' := by
  by_cases h : a' = a
  · rw [if_pos h, h, AList.lookup_insert]
  · rw [if_neg h, AList.lookup_insert_ne h]

theorem lookup_erase (m : Map α β) (a a' : α) :
    (AList.erase a m).lookup a' = if a' = a then none else m.lookup a' := by
  by_cases h : a' = a
  · rw [if_pos h, h, AList.lookup_erase]
  · rw [if_neg h, AList.lookup_erase_ne h]

variable {m : Map α β} {a k : α} {b c : β}

/-- An entry of a map that was written to is the new one or an old one of another key. -/
theorem lookup_insert_cases (h : (AList.insert a b m).lookup k = some c) :
    k = a ∧ c = b ∨ k ≠ a ∧ m.lookup k = some c := by
  rw [lookup_insert] at h
  by_cases hk : k = a
  · rw [if_pos hk] at h
    exact .inl ⟨hk, (Option.some.inj h).symm⟩
  · rw [if_neg hk] at h
    exact .inr ⟨hk, h⟩

theorem lookup_erase_some (h : (AList.erase a m).lookup k = some b) : k ≠ a ∧ m.lookup k = some b := by
  rw [lookup_erase] at h
  by_cases hk : k = a
  · rw [if_pos hk] at h
    cases h
  · rw [if_neg hk] at h
    exact ⟨hk, h⟩

end Map

inductive TaskStatus
  | unknown | queued | checking | downloading | seeding | paused | finished | error
  deriving DecidableEq, Repr

/-- The error codes that the modelled functions produce. -/
inductive ErrorCode
  | invalidMagnet | invalidTorrentPath | invalidSavePath | invalidArgument
  | fileNotFound | fileReadFailed | fileWriteFailed | diskFull | pathPermissionDenied
  deriving DecidableEq, Repr

structure Error where
  code : ErrorCode
  message : String
  detail : String := ""
  deriving DecidableEq, Repr

/-- `invalidMs()`: the value of a time that is not set. -/
def invalidMs : Int := -1

def isValidMs (ms : Int) : Bool := ms ≠ invalidMs && 0 ≤ ms

end TorrentLink
