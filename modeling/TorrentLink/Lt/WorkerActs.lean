import TorrentLink.Lt.WorkerSteps

/-!
# What a step is

The conditions of the statements about the worker ask what a step is about to do: which task it pauses,
where it stores options, which torrent the session gives to an add, which alert is handled. `act` reads
this off the step's label and the state before the step.
-/

namespace TorrentLink.Lt

variable {H : Type}

inductive Act (H : Type)
  | plain
  /-- A Pause, Resume or ForceStart. -/
  | flags (k : TaskId) (paused : Bool)
  /-- An AddTorrentFile stores its options under its id. -/
  | stores (k : TaskId)
  /-- What was prepared under this id is added, and has these info-hashes. -/
  | finalizes (k : TaskId) (ih : H)
  | cancels (k : TaskId)
  | setsDefault (limit : Int)
  | setsLimit (k : TaskId) (limit : Int)
  /-- The session answers an add with a torrent that it has. -/
  | gives (p : AddParams H) (h : Handle)
  | creates (p : AddParams H)
  | takesOut (h : Handle)
  /-- The metadata of a torrent arrives, and its info-hashes with it. -/
  | reveals (h : Handle) (ih : H)
  /-- The alert at this place is handled: an add has succeeded. -/
  | added (i : Nat) (p : AddParams H) (h : Handle)
  /-- The alert at this place is handled: a torrent was removed. -/
  | removed (i : Nat) (ih : H)
  | polls
  deriving DecidableEq, Repr

variable (env : WorkerEnv H)

def commandAct (s : Worker H) : Cmd → Act H
  | .cancelPreparedMagnet k => .cancels k
  | .finalizePreparedMagnet k _ _ _ =>
    match s.preparedTorrentInfo.lookup k with
    | some (ih, _) => .finalizes k ih
    | none => .plain
  | .addTorrentFile filePath _ _ opts =>
    match storesFile env s filePath opts with
    | some k => .stores k
    | none => .plain
  | .pause k => .flags k true
  | .resume k => .flags k false
  | .forceStart k => .flags k false
  | .setDefaultPerTorrentConnectionsLimit limit => .setsDefault limit
  | .setTaskConnectionsLimit k limit => .setsLimit k limit
  | _ => .plain

def sessionAct (s : Session H) (outcome : AddOutcome) : Act H :=
  match s.ops with
  | [] => .plain
  | .add p :: _ =>
    match outcome with
    | .found h => if s.isValid h then .gives p h else .plain
    | .created => .creates p
    | .failed _ => .plain
  | .remove h _ :: _ => if s.isValid h then .takesOut h else .plain

def alertAct (s : Session H) (i : Nat) : Act H :=
  match s.alerts[i]? with
  | some (.added p h) => .added i p h
  | some (.removed ih _) => .removed i ih
  | _ => .plain

def act (s : Worker H) : Label H → Act H
  | .command =>
    match s.cmds with
    | [] => .plain
    | cmd :: _ => commandAct env s cmd
  | .session outcome => sessionAct s.session outcome
  | .metadata h _ ih => if s.session.isValid h then .reveals h ih else .plain
  | .alert i => alertAct s.session i
  | .poll => .polls
  | _ => .plain

end TorrentLink.Lt
