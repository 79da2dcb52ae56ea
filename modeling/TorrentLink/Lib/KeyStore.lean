import Mathlib.Data.List.Nodup
import Mathlib.Logic.Function.Basic

/-!
# A store of values under keys

Groups of entries are written one after the other. What a group leaves under a key is what its one entry
for the key says, and the keys of other groups are left alone.
-/

namespace TorrentLink.Lib

variable {κ ν : Type} [DecidableEq κ]

/-- What is stored under each key. -/
abbrev KeyStore (κ ν : Type) := κ → Option ν

variable {store : KeyStore κ ν} {entries : List (κ × ν)} {key : κ} {value : ν}

/-- The entries are written in their order. -/
def KeyStore.putAll (store : KeyStore κ ν) (entries : List (κ × ν)) : KeyStore κ ν :=
  entries.foldl (fun store e => Function.update store e.1 (some e.2)) store

theorem KeyStore.putAll_of_notMem (h : key ∉ entries.map Prod.fst) :
    store.putAll entries key = store key := by
  induction entries generalizing store with
  | nil => rfl
  | cons e entries ih =>
    rw [List.map_cons, List.mem_cons, not_or] at h
    exact (ih h.2).trans (Function.update_of_ne h.1 _ _)

theorem KeyStore.putAll_of_mem (hnodup : (entries.map Prod.fst).Nodup) (h : (key, value) ∈ entries) :
    store.putAll entries key = some value := by
  induction entries generalizing store with
  | nil => cases h
  | cons e entries ih =>
    rw [List.map_cons, List.nodup_cons] at hnodup
    rcases List.mem_cons.mp h with rfl | h
    · exact (putAll_of_notMem hnodup.1).trans (Function.update_self _ _ _)
    · exact ih hnodup.2 h

end TorrentLink.Lib
