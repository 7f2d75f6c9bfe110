import VirtInfra.Maintenance.Dispatch

/-!
# `Worker` — the process that executes a job (`maintenance.py`)

A worker starts when systemd starts its unit, which may be late and, if the unit is started again, more than once. Its
claim is guarded by the status it read; its later reports are not guarded at all.
-/

namespace VirtInfra.Maintenance

open Lib Python

/-- The options of `update_job`. -/
structure Report where
  status : Status
  message : String
  started : Bool := false
  finished : Bool := false
  heartbeat : Bool := false
  progress : Option Int := none

/-- The columns `update_job` sets. -/
def Report.apply (report : Report) (now : Int) (job : Job) : Job :=
  { job with
    status := report.status
    message := clip 4000 report.message
    startedAt := if report.started then some (job.startedAt.getD now) else job.startedAt
    finishedAt := if report.finished then some now else job.finishedAt
    heartbeatAt := if report.heartbeat || report.status.active then some now else job.heartbeatAt
    progress := (report.progress.map (clamp 0 100)).getD job.progress }

/-- **`update_job`**, guarded only where an expected status is given. -/
def updateJob (s : State) (id : Nat) (report : Report) (expectedStatus : Option Status) : Jobs :=
  s.updated id (fun job => expectedStatus.all (job.status = ·)) (report.apply s.now)

/-- systemd starts the unit of a job. -/
def spawnWorker (s : State) (p id : Nat) : Option State :=
  if s.procs p = .idle ∧ id ∈ s.requested then some (s.goto p (.booted id)) else none

/-- **`acquire_lock`** does not wait. -/
def acquireLock (s : State) (p : Nat) : Option State :=
  match s.procs p with
  | .booted id =>
      if s.flock = none then some { s.goto p (.locked id) with flock := some p }
      else some (s.goto p (.failing id false
        ("RuntimeError: Another maintenance worker already owns the exclusive lock; " ++
          "this duplicate unit will not wait in the background")))
  | _ => none

/-- **`read_job`**, and the check of the status it read. -/
def readJob (s : State) (p : Nat) : Option State :=
  match s.procs p with
  | .locked id =>
      match s.job? id with
      | none => some (s.goto p (.failing id false s!"RuntimeError: Maintenance job #{id} does not exist"))
      | some job =>
          if h : job.status = .starting ∨ job.status = .queued then
            some (s.goto p (.read id job.status (lower (strip job.action)) h))
          else
            let status := job.status.text
            some (s.goto p (.failing id false s!"RuntimeError: Maintenance job #{id} is already {status}"))
  | _ => none

def applicationActions : List String :=
  ["retention", "delete_history", "delete_compact", "purge_nodes", "purge_node_vms", "purge_vms"]

/-- What the claim of a worker reports. `appFile` is the name of the application module. -/
def claimReport (action appFile : String) : Report :=
  let backend := if action ∈ applicationActions then appFile else "maintenance_native.py"
  { status := .running, message := s!"Running {action} with {backend} under the exclusive worker lock"
    started := true, heartbeat := true, progress := some 1 }

/-- The worker's claim, guarded by the status it read. -/
def claimJob (s : State) (p : Nat) (appFile : String) : Option State :=
  match s.procs p with
  | .read id status action _ =>
      let rows := updateJob s id (claimReport action appFile) (some status)
      s.write p rows (.taking id (!rows.rows.isEmpty))
  | _ => none

/-- A progress report of `execute_action`. -/
def reportProgress (s : State) (p : Nat) (message : String) (progress : Option Int) : Option State :=
  match s.procs p with
  | .running id => s.write p (updateJob s id { status := .running, message, progress } none) (.reporting id)
  | _ => none

/-- **`heartbeat_job`**, a statement of its own on a thread of its own: while the worker itself has a transaction on the
    row, it waits. -/
def heartbeatJob (s : State) (p : Nat) : Option State :=
  match s.procs p with
  | .running id | .failing id true _ =>
      (s.db.autocommit p id fun job =>
        if job.status = .running then { job with heartbeatAt := some s.now } else job).map fun db => { s with db }
  | _ => none

/-- The last update of a job that succeeded. -/
def finishJob (s : State) (p : Nat) (result : String) : Option State :=
  match s.procs p with
  | .running id =>
      s.write p (updateJob s id { status := .ok, message := result, finished := true, progress := some 100 } none)
        (.finishing id)
  | _ => none

/-- The update of the `except` path: no guard, whoever runs the job. -/
def reportError (s : State) (p : Nat) : Option State :=
  match s.procs p with
  | .failing id owns message =>
      s.write p (updateJob s id { status := .error, message, finished := true, progress := some 100 } none)
        (.erring id owns)
  | _ => none

/-- The `finally` path of a worker, and the end of an enqueue whose wake went through. -/
def leave (s : State) (p : Nat) : Option State :=
  match s.procs p with
  | .finished _ | .leaving | .enqueued _ =>
      some { s.goto p .idle with flock := s.flock.filter (· ≠ p) }
  | _ => none

end VirtInfra.Maintenance
