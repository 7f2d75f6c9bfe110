import VirtInfra.Lib.RowLocks
import VirtInfra.Python.Prelude

/-!
# `Jobs` — the maintenance queue, and the processes that write to it

`maintenance_jobs` is written by three kinds of processes: the web process enqueues and cancels
(`maintenance_queue.py`), dispatchers recover stale rows, claim a row and start its systemd unit
(`maintenance_dispatch.py`), and workers execute (`maintenance.py`). Here are the table, the phases a process goes
through, and the state they share: the committed rows with every open transaction, the advisory locks, the worker's
`flock`, and the units whose start was asked of systemd. The database allows one `starting` or `running` row
(`uq_maintenance_jobs_one_worker`).
-/

namespace VirtInfra.Maintenance

open Lib Python

inductive Status
  | queued
  | starting
  | running
  | ok
  | error
  | cancelled
  deriving DecidableEq, Repr

namespace Status

def text : Status → String
  | queued => "queued"
  | starting => "starting"
  | running => "running"
  | ok => "ok"
  | error => "error"
  | cancelled => "cancelled"

/-- `TERMINAL_STATES`. -/
def terminal : Status → Bool
  | ok | error | cancelled => true
  | _ => false

/-- `ACTIVE_STATES`. -/
def active : Status → Bool
  | starting | running => true
  | _ => false

/-- `status IN ('queued','starting','running')`. -/
def pending (status : Status) : Bool := status = queued || status.active

theorem terminal_eq_not_pending (status : Status) : status.terminal = !status.pending := by
  cases status <;> rfl

end Status

/-- A row of `maintenance_jobs`, under its `id`. -/
structure Job where
  action : String
  status : Status
  message : String
  createdAt : Int
  startedAt : Option Int
  heartbeatAt : Option Int
  finishedAt : Option Int
  progress : Int
  attempt : Nat
  cancelRequested : Bool
  deriving DecidableEq, Repr

abbrev Jobs := KeyedTable Nat Job

/-- **Where a process stands.** A phase that names an open transaction lasts until its commit or rollback. -/
inductive Phase
  | idle
  -- the web process: `enqueue_job`, `cancel_queued_job`
  | enqueuing (id : Nat)
  | enqueued (id : Nat)
  | noting
  | cancelling
  -- a dispatcher: `recover_stale_rows`, `claim_next`, `mark_start_error`
  | sweeping (now : Int)
  | recovering (now : Int) (rows : List (Nat × Job))
  | marking (now : Int) (rows : List (Nat × Job))
  | dispatching (now : Int)
  | checked (now : Int)
  | claiming (id : Nat)
  | claimed (id : Nat)
  | startFailed (id : Nat) (detail : String)
  | markingStart
  -- a worker: `main`
  | booted (id : Nat)
  | locked (id : Nat)
  | read (id : Nat) (status : Status) (action : String) (unclaimed : status = .starting ∨ status = .queued)
  | taking (id : Nat) (updated : Bool)
  | running (id : Nat)
  | reporting (id : Nat)
  | finishing (id : Nat)
  | finished (id : Nat)
  | failing (id : Nat) (owns : Bool) (message : String)
  | erring (id : Nat) (owns : Bool)
  | leaving
  deriving DecidableEq, Repr

namespace Phase

/-- **The job a live worker is running**: from the commit of its claim to the commit of its last write. -/
def runs : Phase → Option Nat
  | running id | reporting id | finishing id | failing id true _ | erring id true => some id
  | _ => none

/-- The job whose row the open transaction has certainly written. -/
def wrote : Phase → Option Nat
  | taking id true | claiming id => some id
  | _ => none

/-- Where the commit of the open transaction leads; `none` where there is none to commit. -/
def afterCommit : Phase → Option Phase
  | enqueuing id => some (enqueued id)
  | noting | cancelling | markingStart => some idle
  | marking now rows => some (recovering now rows)
  | claiming id => some (claimed id)
  | taking id true => some (running id)
  | taking id false =>
      some (failing id false s!"RuntimeError: Maintenance job #{id} could not be claimed atomically")
  | reporting id => some (running id)
  | finishing id => some (finished id)
  | erring _ _ => some leaving
  | _ => none

/-- Where a failed transaction leads: the web process and the dispatcher give up, the worker goes to its `except`
    path, and a failed progress or error report is swallowed. -/
def afterRollback (message : String) : Phase → Option Phase
  | enqueuing _ | noting | cancelling | sweeping _ | marking _ _ | dispatching _ | checked _ | claiming _
  | markingStart => some idle
  | taking id _ => some (failing id false message)
  | reporting id => some (running id)
  | finishing id => some (failing id true message)
  | erring _ _ => some leaving
  | _ => none

/-- Where an exception inside the worker's `try` leads. -/
def afterRaise (message : String) : Phase → Option Phase
  | booted id | locked id | read id _ _ _ | taking id _ | finished id => some (failing id false message)
  | running id | reporting id | finishing id => some (failing id true message)
  | _ => none

end Phase

/-- The queue and everything its processes share. -/
structure State where
  now : Int
  db : Transactional Nat Nat Job
  nextId : Nat
  procs : Nat → Phase
  enqueueLock : Option Nat
  dispatchLock : Option Nat
  flock : Option Nat
  requested : List Nat

/-- An empty queue and no process. -/
def State.init (now : Int) : State :=
  { now, db := .start .empty, nextId := 1, procs := fun _ => .idle, enqueueLock := none, dispatchLock := none
    flock := none, requested := [] }

namespace State

/-- The committed row of a job. -/
def job? (s : State) (id : Nat) : Option Job := s.db.rows.get? id

/-- The committed status of a job. -/
def status? (s : State) (id : Nat) : Option Status := (s.job? id).map Job.status

def goto (s : State) (p : Nat) (phase : Phase) : State := { s with procs := Function.update s.procs p phase }

/-- The advisory locks of a transaction end with it. -/
def releaseXact (s : State) (p : Nat) : State :=
  { s with
    enqueueLock := s.enqueueLock.filter (· ≠ p)
    dispatchLock := s.dispatchLock.filter (· ≠ p) }

/-- The process goes to `phase` without its transaction. -/
def abandon (s : State) (p : Nat) (phase : Phase) : State :=
  { (s.goto p phase).releaseXact p with db := s.db.rollback p }

def duplicateKey : String :=
  "UniqueViolation: duplicate key value violates unique constraint uq_maintenance_jobs_one_worker"

/-- A writing statement: it opens the process's transaction, and waits (`none`) while another one holds a row or decides
    whether the job may be active. Where another job is active it fails. -/
def write (s : State) (p : Nat) (rows : Jobs) (phase : Phase) : Option State :=
  (s.db.write p rows).bind fun db =>
    match s.db.checkIndex (fun job => job.status.active) p rows with
    | .free => some { s.goto p phase with db }
    | .waits => none
    | .duplicate => (phase.afterRollback duplicateKey).map (s.abandon p)

/-- The row versions of `UPDATE maintenance_jobs SET f WHERE id=… AND …`. -/
def updated (s : State) (id : Nat) (cond : Job → Bool) (f : Job → Job) : Jobs :=
  s.db.rows.updateWhere (fun k job => decide (k = id) && cond job) f

end State

end VirtInfra.Maintenance
