import VirtInfra.Maintenance.Queue
import Mathlib.Data.List.Sort

/-!
# `Dispatch` — recovering stale rows and claiming the next job (`maintenance_dispatch.py`)

`main` recovers, claims and asks systemd for the unit. What `systemctl is-active` answers is left open: the worker
unit is a `oneshot`, whose process runs while the unit is `activating`.
-/

namespace VirtInfra.Maintenance

open Lib Python

def startingStaleSeconds : Int := 120
def runningHeartbeatStaleSeconds : Int := 300

/-- `LEGACY_ACTIONS`. -/
def legacyActions : List String := ["clear_live_cache", "checkpoint"]

/-- The first update of `recover_stale_rows`: pending rows of retired actions. -/
def legacyMarks (s : State) (now : Int) : Jobs :=
  s.db.rows.updateWhere (fun _ job => job.action ∈ legacyActions && job.status.pending) fun job =>
    { job with status := .cancelled, finishedAt := some now, progress := 100
               message := "Legacy maintenance action retired during 50.5.7 upgrade" }

/-- **`recover_stale_rows`**, its first update. -/
def recoverStaleRows (s : State) (p : Nat) : Option State :=
  if s.procs p = .idle then s.write p (legacyMarks s s.now) (.sweeping s.now) else none

/-- The read and the commit of its first transaction, which sees its own update. -/
def readActive (s : State) (p : Nat) : Option State :=
  match s.procs p with
  | .sweeping now =>
      let db := s.db.commit p
      let rows := (db.rows.rows.filter fun row => row.2.status.active).mergeSort fun a b => a.1 ≤ b.1
      some { s.goto p (.recovering now rows) with db }
  | _ => none

/-- `value or default`, for an optional integer: zero counts as missing. -/
def orElseInt (value : Option Int) (default : Int) : Int := if value.getD 0 = 0 then default else value.getD 0

/-- The staleness of a row as it was read. -/
def stale (now : Int) (job : Job) : Bool :=
  let created := if job.createdAt = 0 then now else job.createdAt
  let age := now - orElseInt job.startedAt created
  let heartbeatAge := now - orElseInt job.heartbeatAt (orElseInt job.startedAt created)
  (job.status = .starting && age ≥ startingStaleSeconds) ||
    (job.status = .running && heartbeatAge ≥ runningHeartbeatStaleSeconds)

/-- The update of a stale row: still in the status it was read in. -/
def staleMarks (s : State) (now : Int) (id : Nat) (seen : Job) : Jobs :=
  let status := seen.status.text
  s.updated id (fun job => job.status = seen.status) fun job =>
    { job with status := .error, finishedAt := some now, progress := 100
               message := s!"Recovered stale {status} job; systemd unit is inactive" }

/-- The body of the loop of `recover_stale_rows`. -/
def recoverRow (s : State) (p : Nat) (unitActive : Bool) : Option State :=
  match s.procs p with
  | .recovering now ((id, seen) :: rest) =>
      if unitActive || !stale now seen then some (s.goto p (.recovering now rest))
      else s.write p (staleMarks s now id seen) (.marking now rest)
  | _ => none

/-- **`claim_next`** takes the dispatch lock, once every row was examined. -/
def lockDispatch (s : State) (p : Nat) : Option State :=
  match s.procs p with
  | .recovering _ [] =>
      if s.dispatchLock = none then some { s.goto p (.dispatching s.now) with dispatchLock := some p } else none
  | _ => none

/-- `claim_next` returns `None` while a job is starting or running. -/
def checkActive (s : State) (p : Nat) : Option State :=
  match s.procs p with
  | .dispatching now =>
      if s.db.rows.rows.any fun row => row.2.status.active then some ((s.goto p .idle).releaseXact p)
      else some (s.goto p (.checked now))
  | _ => none

/-- A row the dispatcher may take: queued and not to be cancelled. -/
def Job.claimable (job : Job) : Bool := job.status = .queued && !job.cancelRequested

/-- The job `claim_next` picks: `ORDER BY id FOR UPDATE SKIP LOCKED LIMIT 1`. -/
def nextJob (s : State) (p : Nat) : Option Nat :=
  s.db.rows.firstKey fun id job => job.claimable && !s.db.lockedFor p id

/-- The row after `claim_next`. -/
def claimedJob (now : Int) (job : Job) : Job :=
  { job with status := .starting, startedAt := some (job.startedAt.getD now), heartbeatAt := some now
             attempt := job.attempt + 1, message := "Dispatcher claimed job; starting systemd worker" }

/-- The update of `claim_next`; with nothing to claim it commits and returns `None`. -/
def claimNext (s : State) (p : Nat) : Option State :=
  match s.procs p with
  | .checked now =>
      match nextJob s p with
      | none => some ((s.goto p .idle).releaseXact p)
      | some id => s.write p (s.updated id (fun _ => true) (claimedJob now)) (.claiming id)
  | _ => none

/-- `systemctl --no-block start`: `none` when it succeeds, else what it printed. -/
def startUnit (s : State) (p : Nat) (failure : Option String) : Option State :=
  match s.procs p with
  | .claimed id =>
      match failure with
      | none => some { s.goto p .idle with requested := id :: s.requested }
      | some output => some (s.goto p (.startFailed id output))
  | _ => none

/-- **`mark_start_error`.** -/
def markStartError (s : State) (p : Nat) : Option State :=
  match s.procs p with
  | .startFailed id output =>
      let message := clip 4000 (strip (if output = "" then "systemctl start failed" else output))
      s.write p (s.updated id (fun job => job.status = .starting) fun job =>
        { job with status := .error, finishedAt := some s.now, progress := 100, message }) .markingStart
  | _ => none

end VirtInfra.Maintenance
