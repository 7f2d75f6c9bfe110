import VirtInfra.Maintenance.Worker
import VirtInfra.Lib.Transition

/-!
# `System` — any number of processes, statement by statement

Every label is one statement of one process, or the end of its transaction. A process may be killed anywhere; its
transaction is then rolled back and its locks are free.
-/

namespace VirtInfra.Maintenance

open Lib

inductive Label
  | tick (seconds : Nat)
  | enqueue (p : Nat) (action : String) (exclusive : Bool)
  | noteWakeFailure (p : Nat) (detail : String)
  | cancel (p id : Nat) (actor : String)
  | recover (p : Nat)
  | readActive (p : Nat)
  | recoverRow (p : Nat) (unitActive : Bool)
  | lockDispatch (p : Nat)
  | checkActive (p : Nat)
  | claimNext (p : Nat)
  | startUnit (p : Nat) (failure : Option String)
  | markStartError (p : Nat)
  | spawn (p id : Nat)
  | acquireLock (p : Nat)
  | readJob (p : Nat)
  | claimJob (p : Nat) (appFile : String)
  | reportProgress (p : Nat) (message : String) (progress : Option Int)
  | heartbeat (p : Nat)
  | finish (p : Nat) (result : String)
  | throws (p : Nat) (message : String)
  | reportError (p : Nat)
  | leave (p : Nat)
  | commit (p : Nat)
  | rollback (p : Nat) (message : String)
  | crash (p : Nat)

/-- The process that makes the step. -/
def Label.process : Label → Option Nat
  | .tick _ => none
  | .enqueue p _ _ | .noteWakeFailure p _ | .cancel p _ _ | .recover p | .readActive p | .recoverRow p _
  | .lockDispatch p | .checkActive p | .claimNext p | .startUnit p _ | .markStartError p | .spawn p _ | .acquireLock p
  | .readJob p | .claimJob p _ | .reportProgress p _ _ | .heartbeat p | .finish p _ | .throws p _ | .reportError p
  | .leave p | .commit p | .rollback p _ | .crash p => some p

/-- `conn.commit()`. -/
def commitTx (s : State) (p : Nat) : Option State :=
  (s.procs p).afterCommit.map fun phase => { (s.goto p phase).releaseXact p with db := s.db.commit p }

/-- The process is killed: the operating system frees its lock file. -/
def crash (s : State) (p : Nat) : State := { s.abandon p .idle with flock := s.flock.filter (· ≠ p) }

def step (s : State) : Label → Option State
  | .tick seconds => some { s with now := s.now + seconds }
  | .enqueue p action exclusive => enqueueJob s p action exclusive
  | .noteWakeFailure p detail => noteWakeFailure s p detail
  | .cancel p id actor => cancelQueuedJob s p id actor
  | .recover p => recoverStaleRows s p
  | .readActive p => readActive s p
  | .recoverRow p unitActive => recoverRow s p unitActive
  | .lockDispatch p => lockDispatch s p
  | .checkActive p => checkActive s p
  | .claimNext p => claimNext s p
  | .startUnit p failure => startUnit s p failure
  | .markStartError p => markStartError s p
  | .spawn p id => spawnWorker s p id
  | .acquireLock p => acquireLock s p
  | .readJob p => readJob s p
  | .claimJob p appFile => claimJob s p appFile
  | .reportProgress p message progress => reportProgress s p message progress
  | .heartbeat p => heartbeatJob s p
  | .finish p result => finishJob s p result
  | .throws p message => ((s.procs p).afterRaise message).map (s.abandon p)
  | .reportError p => reportError s p
  | .leave p => leave s p
  | .commit p => commitTx s p
  | .rollback p message => ((s.procs p).afterRollback message).map (s.abandon p)
  | .crash p => some (crash s p)

def maintenance : System State Label where
  init s := ∃ now, s = .init now
  step := step

end VirtInfra.Maintenance
