import VirtInfra.Maintenance.Jobs

/-!
# `Queue` — what the web process does to the queue (`maintenance_queue.py`)
-/

namespace VirtInfra.Maintenance

open Lib Python

/-- `ALLOWED_ACTIONS`. -/
def allowedActions : List String :=
  ["retention", "vacuum", "delete_history", "delete_compact", "clear_monitoring_data", "reset_app_data",
    "configuration_backup", "configuration_restore", "full_backup", "full_backup_verify", "purge_nodes",
    "purge_node_vms", "purge_vms", "clear_api_logs", "clear_api_data"]

/-- What `enqueue_job` checks before it inserts: the action is known, no Nuclear reset is pending, and an exclusive job
    finds the queue empty. -/
def enqueueChecks (jobs : Jobs) (action : String) (exclusive : Bool) : Except String Unit := do
  if action ∉ allowedActions then
    throw "Unsupported maintenance action"
  let nuclear := jobs.firstKey fun _ job => job.action = "reset_app_data" && job.status.pending
  if let some id := nuclear then
    if !exclusive then
      let status := ((jobs.get? id).elim Status.queued Job.status).text
      throw s!"Nuclear reset job #{id} is {status}; new maintenance work is blocked until it finishes"
  if exclusive then
    if let some id := jobs.firstKey fun _ job => job.status.pending then
      let active := (jobs.get? id).elim "" Job.action
      let status := ((jobs.get? id).elim Status.queued Job.status).text
      throw s!"Maintenance queue is not empty: job #{id} ({active}) is {status}"

/-- The row `enqueue_job` inserts. -/
def newJob (now : Int) (action : String) : Job :=
  { action, status := .queued, message := "Waiting in FIFO queue", createdAt := now, startedAt := none
    heartbeatAt := none, finishedAt := none, progress := 0, attempt := 0, cancelRequested := false }

/-- **`enqueue_job`**, up to the commit of its insert. The enqueue lock is held from the checks on, so between them
    and the insert the queue can only drain. -/
def enqueueJob (s : State) (p : Nat) (action : String) (exclusive : Bool) : Option State :=
  if s.procs p = .idle ∧ s.enqueueLock = none then
    let action := lower (strip action)
    match enqueueChecks s.db.rows action exclusive with
    | .error _ => some s
    | .ok () =>
        (s.write p (KeyedTable.empty.put s.nextId (newJob s.now action)) (.enqueuing s.nextId)).map fun s' =>
          { s' with nextId := s.nextId + 1, enqueueLock := some p }
  else none

/-- `enqueue_job` when `wake_dispatcher` failed: the message of the row, if it is still queued. -/
def noteWakeFailure (s : State) (p : Nat) (detail : String) : Option State :=
  match s.procs p with
  | .enqueued id =>
      let message := "Queued; immediate dispatcher wake failed, watchdog will retry: " ++ clip 500 detail
      s.write p (s.updated id (fun job => job.status = .queued) fun job => { job with message }) .noting
  | _ => none

/-- The row after `cancel_queued_job`. -/
def cancelledJob (now : Int) (actor : String) (job : Job) : Job :=
  let who := if actor = "" then "admin" else actor
  { job with status := .cancelled, finishedAt := some now, progress := 100
             message := s!"Cancelled by {who} before execution" }

/-- **`cancel_queued_job`.** -/
def cancelQueuedJob (s : State) (p id : Nat) (actor : String) : Option State :=
  if s.procs p = .idle then
    s.write p (s.updated id (fun job => job.status = .queued) (cancelledJob s.now actor)) .cancelling
  else none

end VirtInfra.Maintenance
