import TorrentLink.Base.Io
import TorrentLink.Lib.Runs
import TorrentLink.Lt.Session

/-!
# One id for one torrent

A task id is a digest of both info-hashes of a torrent, and is computed anew from whatever info-hashes a
command, an alert or a status carries. Here a torrent has a v1 and a v2 hash, either of which the session
finds it by, and its metadata may reveal a v2 hash that its add did not have. Every view, every key of
`handlesByTaskId` and every resume file of a torrent has the same id as long as no hash is revealed, no
add finds the torrent by one hash under other info-hashes, and no error of a torrent is heard of after
the torrent is gone (`identity_kept`). Ids of different info-hashes differ as the digests do.

`made` records the ids as they are made; nothing reads it.
-/

namespace TorrentLink.Lt

open Lib

/-! ### Info-hashes and ids -/

/-- `info_hash_t`: a hash that is not known is zero. -/
@[ext]
structure InfoHash where
  v1 : BitVec 160 := 0
  v2 : BitVec 256 := 0
  deriving DecidableEq, Repr

/-- The session finds a torrent by either hash. -/
def InfoHash.meets (a b : InfoHash) : Bool := (a.v1 ≠ 0 && a.v1 = b.v1) || (a.v2 ≠ 0 && a.v2 = b.v2)

/-- Info-hashes have a v1 or a v2 hash in common. -/
def InfoHash.sharing : Sharing InfoHash where
  shares := meets
  comm a b := by grind [InfoHash.meets]

/-- The metadata reveals the v2 hash, if it was not known. -/
def InfoHash.reveal (ih : InfoHash) (v2 : BitVec 256) : InfoHash :=
  if ih.v2 = 0 then { ih with v2 := v2 } else ih

structure IdEnv where
  /-- What libtorrent writes for `oss << infoHashes`. -/
  showInfoHashes : InfoHash → Bytes
  /-- `QCryptographicHash::hash` with `Sha1` -/
  sha1 : Bytes → Bytes

/-- `fromRfc4122` of the first 16 bytes, marked as a name-based id. -/
def uuidOfDigest (h : Bytes) : TaskId :=
  let uuidBytes := (List.range 16).map fun i => h.getD i 0
  let uuidBytes := uuidBytes.modify 6 fun b => (b &&& 0x0F) ||| 0x50
  let uuidBytes := uuidBytes.modify 8 fun b => (b &&& 0x3F) ||| 0x80
  uuidBytes.foldl (fun id b => id <<< 8 ||| b.toBitVec.setWidth 128) 0

variable (env : IdEnv)

/-- The text `ih|%1`, as bytes. -/
def idText (ih : InfoHash) : Bytes := [0x69, 0x68, 0x7C] ++ env.showInfoHashes ih

def taskIdFromInfoHashes (ih : InfoHash) : TaskId := uuidOfDigest (env.sha1 (idText env ih))

/-! ### The session -/

inductive IdUse
  | view | handleKey | resumeFile
  deriving DecidableEq, Repr

/-- An id that was made for a torrent, and the info-hashes it was made from. -/
structure Made where
  what : IdUse
  handle : Handle
  infoHashes : InfoHash
  taskId : TaskId
  deriving DecidableEq, Repr

inductive IdOp
  | add (infoHashes : InfoHash)
  | remove (h : Handle)
  deriving DecidableEq, Repr

/-- The alerts that ids are made from, with the info-hashes that they carry. -/
inductive IdAlert
  | added (infoHashes : InfoHash) (h : Handle)
  | removed (infoHashes : InfoHash) (h : Handle)
  /-- `torrent_error_alert`: the info-hashes are asked of the handle. -/
  | error (h : Handle)
  | stateUpdate (status : List (Handle × InfoHash))
  | saved (infoHashes : InfoHash) (h : Handle)
  deriving DecidableEq, Repr

structure IdState where
  torrents : Map Handle InfoHash := ∅
  nextHandle : Handle := 0
  ops : List IdOp := []
  alerts : List IdAlert := []
  handlesByTaskId : Map TaskId Handle := ∅
  made : List Made := []

/-- An id is made. -/
def IdState.make (s : IdState) (what : IdUse) (h : Handle) (ih : InfoHash) : IdState :=
  { s with made := s.made ++ [⟨what, h, ih, taskIdFromInfoHashes env ih⟩] }

/-- An add command for these info-hashes, which has passed its checks. A DuplicateRejected view is for
the torrent whose handle is found. -/
def IdState.addCommand (s : IdState) (ih : InfoHash) : IdState :=
  let queued := { s with ops := s.ops ++ [.add ih] }
  match s.handlesByTaskId.lookup (taskIdFromInfoHashes env ih) with
  | some h => if (s.torrents.lookup h).isSome then s.make env .view h ih else queued
  | none => queued

/-- Remove -/
def IdState.removeCommand (s : IdState) (id : TaskId) : IdState :=
  match s.handlesByTaskId.lookup id with
  | some h => { s with ops := s.ops ++ [.remove h] }
  | none => s

/-- The torrent that an add finds. -/
def IdState.find (s : IdState) (ih : InfoHash) : Option (Handle × InfoHash) :=
  (s.torrents.entries.find? fun e => e.2.meets ih).map fun e => (e.1, e.2)

/-- The session executes a call; an add of a new torrent may fail. -/
def IdState.exec (s : IdState) (fails : Bool) : IdState :=
  match s.ops with
  | [] => s
  | .add ih :: rest =>
    match s.find ih with
    | some (h, _) => { s with ops := rest, alerts := s.alerts ++ [.added ih h] }
    | none =>
      if fails then { s with ops := rest }
      else
        { s with
          ops := rest
          torrents := s.torrents.insert s.nextHandle ih
          nextHandle := s.nextHandle + 1
          alerts := s.alerts ++ [.added ih s.nextHandle] }
  | .remove h :: rest =>
    match s.torrents.lookup h with
    | some ih =>
      { s with ops := rest, torrents := s.torrents.erase h, alerts := s.alerts ++ [.removed ih h] }
    | none => { s with ops := rest }

def IdState.handleAlert (s : IdState) : IdAlert → IdState
  | .added ih h =>
    let s := { s with handlesByTaskId := s.handlesByTaskId.insert (taskIdFromInfoHashes env ih) h }
    (s.make env .handleKey h ih).make env .view h ih
  | .removed ih h =>
    let s := { s with handlesByTaskId := s.handlesByTaskId.erase (taskIdFromInfoHashes env ih) }
    s.make env .view h ih
  -- a handle whose torrent is gone has no info-hashes
  | .error h => s.make env .view h ((s.torrents.lookup h).getD {})
  | .stateUpdate status => status.foldl (fun s st => s.make env .view st.1 st.2) s
  | .saved ih h => s.make env .resumeFile h ih

inductive IdLabel
  | addCommand (infoHashes : InfoHash)
  | removeCommand (id : TaskId)
  | session (fails : Bool)
  /-- The metadata of a torrent reveals its v2 hash. -/
  | reveal (h : Handle) (v2 : BitVec 256)
  | trouble (h : Handle)
  | update
  | save (h : Handle)
  | alert
  deriving DecidableEq, Repr

def idStep (s : IdState) : IdLabel → IdState
  | .addCommand ih => s.addCommand env ih
  | .removeCommand id => s.removeCommand id
  | .session fails => s.exec fails
  | .reveal h v2 =>
    match s.torrents.lookup h with
    | some ih => { s with torrents := s.torrents.insert h (ih.reveal v2) }
    | none => s
  | .trouble h =>
    if (s.torrents.lookup h).isSome then { s with alerts := s.alerts ++ [.error h] } else s
  | .update =>
    { s with alerts := s.alerts ++ [.stateUpdate (s.torrents.entries.map fun e => (e.1, e.2))] }
  | .save h =>
    match s.torrents.lookup h with
    | some ih => { s with alerts := s.alerts ++ [.saved ih h] }
    | none => s
  | .alert =>
    match s.alerts with
    | [] => s
    | a :: rest => { s with alerts := rest }.handleAlert env a

/-! ### The claim of an id -/

/-- All ids of a torrent are the same, and ids of different info-hashes differ. -/
structure Identified (s : IdState) : Prop where
  same : ∀ x ∈ s.made, ∀ y ∈ s.made, x.handle = y.handle → x.taskId = y.taskId
  distinct : ∀ x ∈ s.made, ∀ y ∈ s.made, x.infoHashes ≠ y.infoHashes → x.taskId ≠ y.taskId

/-- The digests that are cut to ids differ where the texts do, on the inputs that occur. -/
def DigestInjective (s : IdState) : Prop :=
  ∀ x ∈ s.made, ∀ y ∈ s.made, uuidOfDigest (env.sha1 (idText env x.infoHashes)) =
    uuidOfDigest (env.sha1 (idText env y.infoHashes)) →
      idText env x.infoHashes = idText env y.infoHashes

/-- The info-hashes of the add that the session executes next. -/
def IdState.addNext (s : IdState) : Option InfoHash :=
  match s.ops with
  | .add ih :: _ => some ih
  | _ => none

/-- The torrent whose error is heard of next. -/
def IdState.errorNext (s : IdState) : Option Handle :=
  match s.alerts with
  | .error h :: _ => some h
  | _ => none

/-- No hash is revealed that was not known, an add that finds a torrent has its info-hashes, and an error
is heard of while its torrent is there. -/
def Steady (s : IdState) : IdLabel → Prop
  | .reveal h v2 => ∀ ih ∈ s.torrents.lookup h, ih.reveal v2 = ih
  | .session _ => ∀ ih ∈ s.addNext, ∀ e ∈ s.find ih, e.2 = ih
  | .alert => ∀ h ∈ s.errorNext, (s.torrents.lookup h).isSome = true
  | _ => True

instance (s : IdState) : ∀ l : IdLabel, Decidable (Steady s l)
  | .reveal h v2 => inferInstanceAs (Decidable (∀ ih ∈ s.torrents.lookup h, ih.reveal v2 = ih))
  | .session _ => inferInstanceAs (Decidable (∀ ih ∈ s.addNext, ∀ e ∈ s.find ih, e.2 = ih))
  | .alert => inferInstanceAs (Decidable (∀ h ∈ s.errorNext, (s.torrents.lookup h).isSome = true))
  | .addCommand _ => isTrue trivial
  | .removeCommand _ => isTrue trivial
  | .trouble _ => isTrue trivial
  | .update => isTrue trivial
  | .save _ => isTrue trivial

/-! ### Who has which id -/

/-- The torrents that an alert carries info-hashes of. -/
def IdAlert.carries : IdAlert → List (Handle × InfoHash)
  | .added ih h => [(h, ih)]
  | .removed ih h => [(h, ih)]
  | .error _ => []
  | .stateUpdate status => status
  | .saved ih h => [(h, ih)]

/-- An id was made for the torrent, is the key of its handle, or is still to be made from what an alert
or the session has of it. -/
def Mentions (s : IdState) (h : Handle) (id : TaskId) : Prop :=
  (∃ x ∈ s.made, x.handle = h ∧ x.taskId = id) ∨
    (∃ a ∈ s.alerts, ∃ ih, (h, ih) ∈ a.carries ∧ taskIdFromInfoHashes env ih = id) ∨
    (∃ ih, s.torrents.lookup h = some ih ∧ taskIdFromInfoHashes env ih = id) ∨
    s.handlesByTaskId.lookup id = some h

structure IdInv (s : IdState) : Prop where
  single : ∀ h id id', Mentions env s h id → Mentions env s h id' → id = id'
  lt : ∀ h id, Mentions env s h id → h < s.nextHandle
  honest : ∀ x ∈ s.made, x.taskId = taskIdFromInfoHashes env x.infoHashes

variable {env}

theorem mentions_alert {s : IdState} {a : IdAlert} (ha : a ∈ s.alerts) {h : Handle} {ih : InfoHash}
    (hc : (h, ih) ∈ a.carries) : Mentions env s h (taskIdFromInfoHashes env ih) :=
  .inr (.inl ⟨a, ha, ih, hc, rfl⟩)

theorem mentions_torrent {s : IdState} {h : Handle} {ih : InfoHash}
    (hh : s.torrents.lookup h = some ih) : Mentions env s h (taskIdFromInfoHashes env ih) :=
  .inr (.inr (.inl ⟨ih, hh, rfl⟩))

variable (env) in
/-- Whatever the state after the step has of a torrent, the state before it had. -/
structure NothingNew (s s' : IdState) : Prop where
  made : ∀ x ∈ s'.made, x ∈ s.made ∨ Mentions env s x.handle x.taskId ∧
    x.taskId = taskIdFromInfoHashes env x.infoHashes
  alerts : ∀ a ∈ s'.alerts, a ∈ s.alerts ∨
    ∀ e ∈ a.carries, Mentions env s e.1 (taskIdFromInfoHashes env e.2)
  torrents : ∀ h ih, s'.torrents.lookup h = some ih → s.torrents.lookup h = some ih
  handles : ∀ id h, s'.handlesByTaskId.lookup id = some h → Mentions env s h id
  next : s'.nextHandle = s.nextHandle

theorem NothingNew.mentions {s s' : IdState} (h : NothingNew env s s') {n : Handle} {id : TaskId}
    (hn : Mentions env s' n id) : Mentions env s n id := by
  rcases hn with ⟨x, hx, rfl, rfl⟩ | ⟨a, ha, ih, hc, rfl⟩ | ⟨ih, hih, rfl⟩ | hk
  · rcases h.made x hx with hold | ⟨hm, _⟩
    · exact .inl ⟨x, hold, rfl, rfl⟩
    · exact hm
  · rcases h.alerts a ha with hold | hm
    · exact mentions_alert hold hc
    · exact hm _ hc
  · exact mentions_torrent (h.torrents n ih hih)
  · exact h.handles id n hk

theorem IdInv.nothingNew {s s' : IdState} (hs : IdInv env s) (h : NothingNew env s s') :
    IdInv env s' where
  single n id id' hn hn' := hs.single n id id' (h.mentions hn) (h.mentions hn')
  lt n id hn := h.next ▸ hs.lt n id (h.mentions hn)
  honest x hx := by
    rcases h.made x hx with hold | ⟨_, hid⟩
    · exact hs.honest x hold
    · exact hid

/-- A torrent comes up under a new handle. -/
theorem IdInv.create {s : IdState} (hs : IdInv env s) (rest : List IdOp) (ih : InfoHash) :
    IdInv env { s with
      ops := rest
      torrents := s.torrents.insert s.nextHandle ih
      nextHandle := s.nextHandle + 1
      alerts := s.alerts ++ [.added ih s.nextHandle] } := by
  have hcases : ∀ n id, Mentions env { s with
      ops := rest
      torrents := s.torrents.insert s.nextHandle ih
      nextHandle := s.nextHandle + 1
      alerts := s.alerts ++ [.added ih s.nextHandle] } n id →
      Mentions env s n id ∨ n = s.nextHandle ∧ id = taskIdFromInfoHashes env ih := by
    rintro n id (hx | ⟨a, ha, ih', hc, rfl⟩ | ⟨ih', hih, rfl⟩ | hk)
    · exact .inl (.inl hx)
    · rcases List.mem_append.mp ha with ha | ha
      · exact .inl (mentions_alert ha hc)
      · rw [List.mem_singleton.mp ha] at hc
        cases List.mem_singleton.mp hc
        exact .inr ⟨rfl, rfl⟩
    · change (s.torrents.insert s.nextHandle ih).lookup n = some ih' at hih
      rcases Map.lookup_insert_cases hih with ⟨hn, hsame⟩ | ⟨_, hih⟩
      · exact .inr ⟨hn, congrArg _ hsame⟩
      · exact .inl (mentions_torrent hih)
    · exact .inl (.inr (.inr (.inr hk)))
  refine ⟨fun n id id' hn hn' => ?_, fun n id hn => ?_, hs.honest⟩
  · rcases hcases n id hn with hn | ⟨rfl, rfl⟩
    · rcases hcases n id' hn' with hn' | ⟨rfl, _⟩
      · exact hs.single n id id' hn hn'
      · exact absurd (hs.lt _ id hn) (lt_irrefl _)
    · rcases hcases _ id' hn' with hn' | ⟨_, rfl⟩
      · exact absurd (hs.lt _ id' hn') (lt_irrefl _)
      · rfl
  · rcases hcases n id hn with hn | ⟨rfl, _⟩
    · exact Nat.lt_succ_of_lt (hs.lt n id hn)
    · exact Nat.lt_succ_self _

/-! ### Steps -/

/-- One id is made, of a torrent that has it. -/
theorem nothingNew_make {s : IdState} (what : IdUse) {h : Handle} {ih : InfoHash}
    (hm : Mentions env s h (taskIdFromInfoHashes env ih)) : NothingNew env s (s.make env what h ih) := by
  refine ⟨fun x hx => ?_, fun _ h => .inl h, fun _ _ h => h, fun _ _ h => .inr (.inr (.inr h)), rfl⟩
  rcases List.mem_append.mp hx with hx | hx
  · exact .inl hx
  · rw [List.mem_singleton.mp hx]
    exact .inr ⟨hm, rfl⟩

theorem nothingNew_addCommand (s : IdState) (ih : InfoHash) :
    NothingNew env s (s.addCommand env ih) := by
  have hqueued : NothingNew env s { s with ops := s.ops ++ [.add ih] } :=
    ⟨fun _ h => .inl h, fun _ h => .inl h, fun _ _ h => h, fun _ _ h => .inr (.inr (.inr h)), rfl⟩
  unfold IdState.addCommand
  cases hk : s.handlesByTaskId.lookup (taskIdFromInfoHashes env ih) with
  | none => exact hqueued
  | some h =>
    simp only
    split
    · exact nothingNew_make .view (.inr (.inr (.inr hk)))
    · exact hqueued

theorem find_some {s : IdState} {ih : InfoHash} {e : Handle × InfoHash} (hf : s.find ih = some e) :
    s.torrents.lookup e.1 = some e.2 := by
  obtain ⟨⟨h, ih'⟩, he, rfl⟩ := Option.map_eq_some_iff.mp hf
  exact AList.mem_lookup_iff.mpr (List.mem_of_find?_eq_some he)

theorem idInv_exec {s : IdState} (hs : IdInv env s) (fails : Bool) (hok : Steady s (.session fails)) :
    IdInv env (s.exec fails) := by
  have hpop : ∀ rest : List IdOp, NothingNew env s { s with ops := rest } := fun _ =>
    ⟨fun _ h => .inl h, fun _ h => .inl h, fun _ _ h => h, fun _ _ h => .inr (.inr (.inr h)), rfl⟩
  unfold IdState.exec
  cases hops : s.ops with
  | nil => exact hs
  | cons op rest =>
    cases op with
    | add ih =>
      simp only
      cases hf : s.find ih with
      | some e =>
        obtain ⟨h, ih'⟩ := e
        obtain rfl : ih' = ih := hok ih (by rw [IdState.addNext, hops]; rfl) _ hf
        refine hs.nothingNew ⟨fun _ h => .inl h, fun a ha => ?_, fun _ _ h => h,
          fun _ _ h => .inr (.inr (.inr h)), rfl⟩
        refine (List.mem_append.mp ha).imp_right fun ha e he => ?_
        rw [List.mem_singleton.mp ha] at he
        rw [List.mem_singleton.mp he]
        exact mentions_torrent (find_some hf)
      | none =>
        simp only
        split
        · exact hs.nothingNew (hpop rest)
        · exact hs.create rest ih
    | remove h =>
      simp only
      cases hh : s.torrents.lookup h with
      | none => exact hs.nothingNew (hpop rest)
      | some ih =>
        refine hs.nothingNew ⟨fun _ h => .inl h, fun a ha => ?_, fun n ih' hn => ?_,
          fun _ _ h => .inr (.inr (.inr h)), rfl⟩
        · refine (List.mem_append.mp ha).imp_right fun ha e he => ?_
          rw [List.mem_singleton.mp ha] at he
          rw [List.mem_singleton.mp he]
          exact mentions_torrent hh
        · change (s.torrents.erase h).lookup n = some ih' at hn
          exact (Map.lookup_erase_some hn).2

/-- The views of a state update. -/
theorem foldl_make (status : List (Handle × InfoHash)) (s : IdState) :
    status.foldl (fun s st => s.make env .view st.1 st.2) s =
      { s with made := s.made ++ status.map fun st =>
          ⟨.view, st.1, st.2, taskIdFromInfoHashes env st.2⟩ } := by
  induction status generalizing s with
  | nil => simp
  | cons st status ih =>
    rw [List.foldl_cons, ih]
    simp [IdState.make]

theorem nothingNew_alert {s : IdState} {a : IdAlert} {rest : List IdAlert}
    (halerts : s.alerts = a :: rest) (hok : Steady s .alert) :
    NothingNew env s ({ s with alerts := rest }.handleAlert env a) := by
  have hmem : a ∈ s.alerts := by
    rw [halerts]
    exact List.mem_cons_self
  have hrest : ∀ b ∈ rest, b ∈ s.alerts := by
    intro b hb
    rw [halerts]
    exact List.mem_cons_of_mem a hb
  -- ids are made of torrents that have them, and handles are kept under keys that their torrents have
  have hmakes : ∀ (made : List Made) (handles : Map TaskId Handle),
      (∀ x ∈ made, Mentions env s x.handle x.taskId ∧
        x.taskId = taskIdFromInfoHashes env x.infoHashes) →
      (∀ id h, handles.lookup id = some h → Mentions env s h id) →
      NothingNew env s { s with alerts := rest, made := s.made ++ made, handlesByTaskId := handles } := by
    intro made handles hmade hhandles
    exact ⟨fun x hx => (List.mem_append.mp hx).imp_right (hmade x), fun b hb => .inl (hrest b hb),
      fun _ _ h => h, hhandles, rfl⟩
  have hkeys : ∀ id h, s.handlesByTaskId.lookup id = some h → Mentions env s h id :=
    fun _ _ h => .inr (.inr (.inr h))
  cases a with
  | added ih h =>
    have hm : Mentions env s h (taskIdFromInfoHashes env ih) :=
      mentions_alert hmem (List.mem_singleton_self _)
    have hnew := hmakes [⟨.handleKey, h, ih, taskIdFromInfoHashes env ih⟩,
      ⟨.view, h, ih, taskIdFromInfoHashes env ih⟩]
      (s.handlesByTaskId.insert (taskIdFromInfoHashes env ih) h) (fun x hx => ?_) fun id n hn => ?_
    · rw [show s.made ++ [_, _] = (s.made ++ [_]) ++ [_] from List.append_cons _ _ _] at hnew
      exact hnew
    · rcases List.mem_cons.mp hx with rfl | hx
      · exact ⟨hm, rfl⟩
      · rw [List.mem_singleton.mp hx]
        exact ⟨hm, rfl⟩
    · rcases Map.lookup_insert_cases hn with ⟨rfl, rfl⟩ | ⟨_, hn⟩
      · exact hm
      · exact hkeys id n hn
  | removed ih h =>
    have hm : Mentions env s h (taskIdFromInfoHashes env ih) :=
      mentions_alert hmem (List.mem_singleton_self _)
    refine hmakes _ _ (fun x hx => ?_) fun id n hn => ?_
    · rw [List.mem_singleton.mp hx]
      exact ⟨hm, rfl⟩
    · exact hkeys id n (Map.lookup_erase_some hn).2
  | error h =>
    obtain ⟨ih, hih⟩ :=
      Option.isSome_iff_exists.mp (hok h (by rw [IdState.errorNext, halerts]; rfl))
    refine hmakes _ _ (fun x hx => ?_) hkeys
    rw [List.mem_singleton.mp hx]
    refine ⟨?_, rfl⟩
    simp only [hih, Option.getD_some]
    exact mentions_torrent hih
  | stateUpdate status =>
    rw [IdState.handleAlert, foldl_make]
    refine hmakes _ _ (fun x hx => ?_) hkeys
    obtain ⟨st, hst, rfl⟩ := List.mem_map.mp hx
    exact ⟨mentions_alert hmem hst, rfl⟩
  | saved ih h =>
    refine hmakes _ _ (fun x hx => ?_) hkeys
    rw [List.mem_singleton.mp hx]
    exact ⟨mentions_alert hmem (List.mem_singleton_self _), rfl⟩

theorem idInv_step (s : IdState) (l : IdLabel) (hs : IdInv env s) (hok : Steady s l) :
    IdInv env (idStep env s l) := by
  -- an alert is posted about torrents that are there
  have hpost : ∀ a : IdAlert, (∀ e ∈ a.carries, Mentions env s e.1 (taskIdFromInfoHashes env e.2)) →
      NothingNew env s { s with alerts := s.alerts ++ [a] } := by
    intro a ha
    refine ⟨fun _ h => .inl h, fun b hb => ?_, fun _ _ h => h, fun _ _ h => .inr (.inr (.inr h)), rfl⟩
    exact (List.mem_append.mp hb).imp_right fun hb => by rw [List.mem_singleton.mp hb]; exact ha
  cases l with
  | addCommand ih => exact hs.nothingNew (nothingNew_addCommand s ih)
  | removeCommand id =>
    unfold idStep IdState.removeCommand
    simp only
    split
    · exact hs.nothingNew ⟨fun _ h => .inl h, fun _ h => .inl h, fun _ _ h => h,
        fun _ _ h => .inr (.inr (.inr h)), rfl⟩
    · exact hs
  | session fails => exact idInv_exec hs fails hok
  | reveal h v2 =>
    unfold idStep
    cases hh : s.torrents.lookup h with
    | none =>
      simp only [hh]
      exact hs
    | some ih =>
      simp only [hh]
      refine hs.nothingNew ⟨fun _ h => .inl h, fun _ h => .inl h, fun n ih' hn => ?_,
        fun _ _ h => .inr (.inr (.inr h)), rfl⟩
      change (s.torrents.insert h (ih.reveal v2)).lookup n = some ih' at hn
      rcases Map.lookup_insert_cases hn with ⟨rfl, hreveal⟩ | ⟨_, hn⟩
      · rw [hh, hreveal, hok ih hh]
      · exact hn
  | trouble h =>
    unfold idStep
    simp only
    split
    · exact hs.nothingNew (hpost _ fun e he => by cases he)
    · exact hs
  | update =>
    refine hs.nothingNew (hpost _ fun e he => ?_)
    obtain ⟨e', he', rfl⟩ := List.mem_map.mp he
    exact mentions_torrent (AList.mem_lookup_iff.mpr he')
  | save h =>
    unfold idStep
    cases hh : s.torrents.lookup h with
    | none =>
      simp only [hh]
      exact hs
    | some ih =>
      simp only [hh]
      refine hs.nothingNew (hpost _ fun e he => ?_)
      rw [List.mem_singleton.mp he]
      exact mentions_torrent hh
  | alert =>
    unfold idStep
    cases halerts : s.alerts with
    | nil => exact hs
    | cons a rest => exact hs.nothingNew (nothingNew_alert halerts hok)

theorem idInv_empty : IdInv env {} := by
  have hnone : ∀ h id, ¬ Mentions env {} h id := by
    rintro h id (⟨x, hx, _⟩ | ⟨a, ha, _⟩ | ⟨ih, hih, _⟩ | hk)
    · cases hx
    · cases ha
    · simp at hih
    · simp at hk
  exact ⟨fun h id id' hn => absurd hn (hnone h id), fun h id hn => absurd hn (hnone h id), by simp⟩

/-- In every state that a run whose steps meet the condition reaches, all ids of a torrent are the same,
and ids of different info-hashes differ. -/
theorem identity_kept (env : IdEnv) (hshow : Function.Injective env.showInfoHashes)
    (labels : List IdLabel) (hdigest : DigestInjective env (run (idStep env) {} labels))
    (hok : RunOk (idStep env) Steady {} labels) : Identified (run (idStep env) {} labels) := by
  have hinv : IdInv env (run (idStep env) {} labels) := hok.invariant idInv_step idInv_empty
  refine ⟨fun x hx y hy hxy => ?_, fun x hx y hy hne heq => hne ?_⟩
  · exact hinv.single x.handle _ _ (.inl ⟨x, hx, rfl, rfl⟩) (.inl ⟨y, hy, hxy.symm, rfl⟩)
  · rw [hinv.honest x hx, hinv.honest y hy] at heq
    exact hshow (List.append_cancel_left (hdigest x hx y hy heq))

/-! ### How libtorrent writes info-hashes -/

def hexDigit (d : BitVec 4) : UInt8 := UInt8.ofNat (if d.toNat < 10 then 0x30 + d.toNat else 0x57 + d.toNat)

/-- The hex digits, the highest first. -/
def hexBytes (n : Nat) (v : BitVec (4 * n)) : Bytes :=
  (List.range n).map fun i => hexDigit (v.extractLsb' (4 * (n - 1 - i)) 4)

/-- `[v1,v2]` -/
def bracketHex (ih : InfoHash) : Bytes :=
  [0x5B] ++ hexBytes 40 ih.v1 ++ [0x2C] ++ hexBytes 64 ih.v2 ++ [0x5D]

theorem hexDigit_injective : Function.Injective hexDigit := by
  unfold Function.Injective
  decide

theorem hexBytes_injective (n : Nat) : Function.Injective (hexBytes n) := by
  intro v w h
  apply BitVec.eq_of_getLsbD_eq
  intro j hj
  -- bit `j` is in the digit that `j / 4` others follow
  have hdigit : hexDigit (v.extractLsb' (4 * (n - 1 - (n - 1 - j / 4))) 4) =
      hexDigit (w.extractLsb' (4 * (n - 1 - (n - 1 - j / 4))) 4) :=
    List.map_inj_left.mp h (n - 1 - j / 4) (List.mem_range.mpr (by omega))
  have hbit := congrArg (fun d : BitVec 4 => d.getLsbD (j % 4)) (hexDigit_injective hdigit)
  have hpos : n - 1 - (n - 1 - j / 4) = j / 4 := by omega
  have hlt : j % 4 < 4 := Nat.mod_lt j (by omega)
  simp only [BitVec.getLsbD_extractLsb', hlt, decide_true, Bool.true_and, hpos, Nat.div_add_mod] at hbit
  exact hbit

theorem bracketHex_injective : Function.Injective bracketHex := by
  intro a b h
  unfold bracketHex at h
  have hlength : ∀ (n : Nat) (v w : BitVec (4 * n)), (hexBytes n v).length = (hexBytes n w).length := by
    intro n v w
    simp [hexBytes]
  obtain ⟨h, _⟩ := List.append_inj' h rfl
  obtain ⟨h, hv2⟩ := List.append_inj' h (hlength 64 a.v2 b.v2)
  obtain ⟨h, _⟩ := List.append_inj' h rfl
  obtain ⟨_, hv1⟩ := List.append_inj' h (hlength 40 a.v1 b.v1)
  exact InfoHash.ext (hexBytes_injective 40 hv1) (hexBytes_injective 64 hv2)

/-- A digest that tells the v2 hashes 0 and 1 apart: the end of the text. -/
def tailEnv : IdEnv where
  showInfoHashes := bracketHex
  sha1 text := text.drop 94

/-- A torrent with both hashes: its metadata, an update and a save. -/
theorem identity_kept_hybrid :
    Identified (run (idStep tailEnv) {}
      [.addCommand ⟨1, 1⟩, .session false, .alert, .reveal 0 1, .update, .alert, .save 0, .alert]) :=
  identity_kept tailEnv bracketHex_injective _ (by unfold DigestInjective; decide +kernel)
    (by decide +kernel)

/-- A v1-only magnet whose metadata reveals a v2 hash: the next status has another id. -/
theorem identity_lost_reveal :
    ¬ ∀ env : IdEnv, Function.Injective env.showInfoHashes → ∀ labels : List IdLabel,
      DigestInjective env (run (idStep env) {} labels) → Identified (run (idStep env) {} labels) := by
  intro h
  have hsame := (h tailEnv bracketHex_injective
    [.addCommand ⟨1, 0⟩, .session false, .alert, .reveal 0 1, .update, .alert]
    (by unfold DigestInjective; decide +kernel)).same
  revert hsame
  decide +kernel

end TorrentLink.Lt
