import VirtInfra.Lib.RowLocks
import VirtInfra.Lib.Transition
import VirtInfra.Python.Prelude
import Mathlib.Data.List.Sort
import Mathlib.Data.Rat.Defs

/-!
# `Batches` — the shared VM Consumption snapshot and its builders (`48_vm_consumption_shared_snapshot.py`)

A builder aggregates one window into `vm_consumption_snapshot_rows` and marks its batch `ready`. Any number of processes
run `_r2212_build_snapshot`: the timer's worker and every web process that found no snapshot to serve. One builder per
period is inside its transaction at a time, by an advisory lock that ends with the transaction; a builder that fails
rolls back and records the failure in a second transaction, which takes no advisory lock.

Every label is one statement of one process. A batch that a transaction deletes is a row version `none`.
-/

namespace VirtInfra.Snapshot

open Lib Python

/-- What the layer reads from its environment. -/
structure Config where
  cacheBucketSeconds : Int
  settleSeconds : Option Int
  keepGenerations : Option Int

namespace Config

/-- `R2212_SLOT_SECONDS`. -/
def slot (cfg : Config) : Int := max 60 cfg.cacheBucketSeconds

/-- `R2212_SETTLE_SECONDS`. -/
def settle (cfg : Config) : Int := clamp 30 240 (safeInt cfg.settleSeconds 90)

/-- `R2212_KEEP_GENERATIONS`. -/
def keep (cfg : Config) : Nat := (clamp 2 24 (safeInt cfg.keepGenerations 4)).toNat

/-- `_r2212_normalized_end`. -/
def normalizedEnd (cfg : Config) (value : Int) : Int := value / cfg.slot * cfg.slot

/-- `_r2212_stable_end`. -/
def stableEnd (cfg : Config) (now : Int) : Int := cfg.normalizedEnd (now - cfg.settle)

end Config

/-- `V5058C_PERIODS`, with the seconds of each period. -/
def periods : List (String × Int) :=
  [("1h", 3600), ("2h", 7200), ("6h", 21600), ("12h", 43200), ("24h", 86400), ("2d", 172800), ("7d", 604800)]

inductive Status
  | building
  | ready
  | failed
  deriving DecidableEq, Repr

/-- The primary key of `vm_consumption_snapshot_batches`: `period_key`, `window_end`. -/
abbrev Key := String × Int

/-- A row of `vm_consumption_snapshot_batches`. -/
structure Batch where
  windowStart : Int
  status : Status
  rowCount : Nat
  startedAt : Int
  completedAt : Option Int
  errorText : String
  deriving DecidableEq, Repr

def Batch.isReady (batch : Batch) : Bool := batch.status = .ready

/-- A row of the `vm_rows` query. -/
structure VmRow where
  node : String
  vmUuid : String
  vmName : Option String
  nodeIp : Option String
  publicConfigured : Int
  privateConfigured : Int
  publicRx : Int
  publicTx : Int
  publicTotal : Int
  privateRx : Int
  privateTx : Int
  privateTotal : Int
  coveragePercent : Rat
  latestSample : Int

/-- A row of `vm_consumption_snapshot_rows`, under its batch and VM. -/
structure SnapshotRow where
  windowStart : Int
  vmName : String
  nodeIp : String
  publicConfigured : Int
  privateConfigured : Int
  publicRx : Int
  publicTx : Int
  publicTotal : Int
  privateRx : Int
  privateTx : Int
  privateTotal : Int
  coveragePercent : Rat
  latestSample : Int
  builtAt : Int

abbrev Versions := KeyedTable Key (Option Batch)
abbrev SnapshotRows := KeyedTable (Key × String × String) SnapshotRow

/-! ## One builder -/

/-- The arguments and locals of a call of `_r2212_build_snapshot`. -/
structure Build where
  periodKey : String
  windowStart : Int
  windowEnd : Int
  startedAt : Int

namespace Build

def key (build : Build) : Key := (build.periodKey, build.windowEnd)

/-- The locals, for a period of `V5058C_PERIODS`. -/
def new (cfg : Config) (periodKey : String) (windowEnd : Option Int) (now : Int) : Option Build := do
  let seconds ← periods.lookup periodKey
  let windowEnd := windowEnd.elim (cfg.stableEnd now) cfg.normalizedEnd
  return { periodKey, windowStart := windowEnd - seconds, windowEnd, startedAt := now }

/-- The first upsert of the build: it sets every column. -/
def opened (build : Build) : Batch :=
  { windowStart := build.windowStart, status := .building, rowCount := 0, startedAt := build.startedAt
    completedAt := none, errorText := "" }

/-- The update that ends the build. -/
def completed (build : Build) (rowCount : Nat) (now : Int) : Batch :=
  { build.opened with status := .ready, rowCount, completedAt := some now, errorText := "" }

/-- The upsert of the failure handler. -/
def failed (build : Build) (error : String) (now : Int) (old : Option Batch) : Batch :=
  match old with
  | some batch => { batch with status := .failed, completedAt := some now, errorText := clip 1000 error }
  | none =>
      { windowStart := build.windowStart, status := .failed, rowCount := 0, startedAt := build.startedAt
        completedAt := some now, errorText := clip 1000 error }

def row (build : Build) (builtAt : Int) (vm : VmRow) : SnapshotRow :=
  { windowStart := build.windowStart, vmName := vm.vmName.getD vm.vmUuid, nodeIp := vm.nodeIp.getD ""
    publicConfigured := vm.publicConfigured, privateConfigured := vm.privateConfigured
    publicRx := vm.publicRx, publicTx := vm.publicTx, publicTotal := vm.publicTotal
    privateRx := vm.privateRx, privateTx := vm.privateTx, privateTotal := vm.privateTotal
    coveragePercent := vm.coveragePercent, latestSample := vm.latestSample, builtAt }

end Build

/-- **Where a builder stands.** -/
inductive Phase
  | idle
  | started (build : Build)
  | locked (build : Build)
  | unready (build : Build)
  | opened (build : Build)
  | filled (build : Build) (builtAt : Int) (vms : List VmRow)
  | completed (build : Build) (builtAt : Int) (vms : List VmRow) (batch : Batch)
  | selected (build : Build) (builtAt : Int) (vms : List VmRow) (batch : Batch) (kept : List Int)
  | pruned (build : Build) (builtAt : Int) (vms : List VmRow) (batch : Batch) (kept : List Int) (dropped : List Key)
  -- after the rollback of a failed build
  | failing (build : Build) (error : String)
  | marked (build : Build) (batch : Batch)

namespace Phase

/-- The build whose transaction has the advisory lock of its period. -/
def holder : Phase → Option Build
  | locked build | unready build | opened build | filled build _ _ | completed build _ _ _ | selected build _ _ _ _
  | pruned build _ _ _ _ _ => some build
  | _ => none

/-- The build that has found its batch not ready. -/
def cleared : Phase → Option Build
  | unready build | opened build | filled build _ _ | completed build _ _ _ | selected build _ _ _ _
  | pruned build _ _ _ _ _ => some build
  | _ => none

/-- The build whose `try` block an exception may leave. -/
def inTry : Phase → Option Build
  | started build => some build
  | phase => phase.holder

/-- The batches that the open transaction has written. -/
def versions : Phase → Option Versions
  | opened build | filled build _ _ => some (KeyedTable.empty.put build.key (some build.opened))
  | completed build _ _ batch | selected build _ _ batch _ | marked build batch =>
      some (KeyedTable.empty.put build.key (some batch))
  | pruned build _ _ batch _ dropped =>
      some (dropped.foldl (fun versions key => versions.put key none) (KeyedTable.empty.put build.key (some batch)))
  | _ => none

end Phase

/-- The two tables, the open transactions, the advisory locks and the builders. -/
structure State where
  db : Transactional Nat Key (Option Batch)
  rows : SnapshotRows
  lock : String → Option Nat
  procs : Nat → Phase

/-- No snapshot and no builder. -/
def State.init : State := { db := .start .empty, rows := .empty, lock := fun _ => none, procs := fun _ => .idle }

namespace State

/-- The committed batch of a key. -/
def batch? (s : State) (key : Key) : Option Batch := (s.db.rows.get? key).join

/-- The batches as a statement of `p` sees them: committed, or written by its own transaction. -/
def view (s : State) (p : Nat) : Versions := s.db.rows.overlay ((s.db.pending.get? p).getD .empty)

def goto (s : State) (p : Nat) (phase : Phase) : State := { s with procs := Function.update s.procs p phase }

/-- A writing statement: it waits (`none`) while another transaction has written one of its rows. -/
def write (s : State) (p : Nat) (phase : Phase) : Option State :=
  (s.db.write p (phase.versions.getD .empty)).map fun db => { s.goto p phase with db }

/-- The end of a transaction without its writes; the advisory lock ends with it. -/
def rollback (s : State) (p : Nat) (phase : Phase) : State :=
  { s.goto p phase with
    db := s.db.rollback p
    lock := fun period => (s.lock period).filter (· ≠ p) }

end State

/-! ## The statements of `_r2212_build_snapshot` -/

def start (cfg : Config) (s : State) (p : Nat) (periodKey : String) (windowEnd : Option Int) (now : Int) :
    Option State :=
  match s.procs p with
  | .idle => (Build.new cfg periodKey windowEnd now).map fun build => s.goto p (.started build)
  | _ => none

/-- `pg_try_advisory_xact_lock`; without it the build returns `locked`. -/
def tryLock (s : State) (p : Nat) : Option State :=
  match s.procs p with
  | .started build =>
      match s.lock build.periodKey with
      | none => some { s.goto p (.locked build) with lock := Function.update s.lock build.periodKey (some p) }
      | some _ => some (s.rollback p .idle)
  | _ => none

/-- `_r2212_snapshot_ready`; a ready batch ends the build. -/
def checkReady (s : State) (p : Nat) : Option State :=
  match s.procs p with
  | .locked build =>
      if (s.batch? build.key).any Batch.isReady then some (s.rollback p .idle) else some (s.goto p (.unready build))
  | _ => none

def openBatch (s : State) (p : Nat) : Option State :=
  match s.procs p with
  | .unready build => s.write p (.opened build)
  | _ => none

/-- The `INSERT … SELECT … FROM vm_rows`; a duplicate VM raises. -/
def fill (s : State) (p : Nat) (builtAt : Int) (vms : List VmRow) : Option State :=
  match s.procs p with
  | .opened build =>
      if (vms.map fun vm => (vm.node, vm.vmUuid)).Nodup then some (s.goto p (.filled build builtAt vms)) else none
  | _ => none

def complete (s : State) (p : Nat) (now : Int) : Option State :=
  match s.procs p with
  | .filled build builtAt vms => s.write p (.completed build builtAt vms (build.completed vms.length now))
  | _ => none

/-- The ends of the ready windows of a period. -/
def readyEnds (versions : Versions) (periodKey : String) : List Int :=
  (versions.rows.filter fun row => decide (row.1.1 = periodKey) && row.2.any Batch.isReady).map fun row => row.1.2

/-- The latest `n` of some window ends: `ORDER BY window_end DESC LIMIT n`. -/
def latest (n : Nat) (ends : List Int) : List Int := (ends.mergeSort fun a b => b ≤ a).take n

/-- The query of `_r2212_cleanup_generations`. -/
def selectKeep (cfg : Config) (s : State) (p : Nat) : Option State :=
  match s.procs p with
  | .completed build builtAt vms batch =>
      let kept := latest cfg.keep (readyEnds (s.view p) build.periodKey)
      some (s.goto p (.selected build builtAt vms batch kept))
  | _ => none

/-- The windows of the period that end before the earliest kept one; none without a kept one. -/
def outdated (periodKey : String) (kept : List Int) (key : Key) : Bool :=
  decide (key.1 = periodKey) && kept.min?.any fun cutoff => decide (key.2 < cutoff)

/-- The deletes of `_r2212_cleanup_generations`. -/
def prune (s : State) (p : Nat) : Option State :=
  match s.procs p with
  | .selected build builtAt vms batch kept =>
      let visible := (s.view p).rows.filter fun row => row.2.isSome
      let dropped := (visible.map Prod.fst).filter (outdated build.periodKey kept)
      s.write p (.pruned build builtAt vms batch kept dropped)
  | _ => none

/-- The snapshot rows once a build commits: those of its window are replaced, the outdated ones deleted. -/
def publish (rows : SnapshotRows) (build : Build) (builtAt : Int) (vms : List VmRow) (kept : List Int) : SnapshotRows :=
  let cleared := rows.deleteWhere fun key => decide (key.1 = build.key)
  let inserted := vms.foldl (fun rows vm => rows.put (build.key, vm.node, vm.vmUuid) (build.row builtAt vm)) cleared
  inserted.deleteWhere fun key => outdated build.periodKey kept key.1

/-- `conn.commit()`, of a build or of its failure handler. -/
def commit (s : State) (p : Nat) : Option State :=
  match s.procs p with
  | .pruned build builtAt vms _ kept _ =>
      some { s.rollback p .idle with db := s.db.commit p, rows := publish s.rows build builtAt vms kept }
  | .marked _ _ => some { s.rollback p .idle with db := s.db.commit p }
  | _ => none

/-- An exception inside the `try` block, and the rollback of its handler. -/
def fail (s : State) (p : Nat) (error : String) : Option State :=
  (s.procs p).inTry.map fun build => s.rollback p (.failing build error)

/-- The statement of the failure handler. -/
def mark (s : State) (p : Nat) (now : Int) : Option State :=
  match s.procs p with
  | .failing build error => s.write p (.marked build (build.failed error now (s.batch? build.key)))
  | _ => none

/-! ## The system -/

inductive Label
  | start (p : Nat) (periodKey : String) (windowEnd : Option Int) (now : Int)
  | tryLock (p : Nat)
  | checkReady (p : Nat)
  | openBatch (p : Nat)
  | fill (p : Nat) (builtAt : Int) (vms : List VmRow)
  | complete (p : Nat) (now : Int)
  | selectKeep (p : Nat)
  | prune (p : Nat)
  | commit (p : Nat)
  | fail (p : Nat) (error : String)
  | mark (p : Nat) (now : Int)
  -- the process is killed, or its failure handler fails in its turn
  | stop (p : Nat)

def step (cfg : Config) (s : State) : Label → Option State
  | .start p periodKey windowEnd now => start cfg s p periodKey windowEnd now
  | .tryLock p => tryLock s p
  | .checkReady p => checkReady s p
  | .openBatch p => openBatch s p
  | .fill p builtAt vms => fill s p builtAt vms
  | .complete p now => complete s p now
  | .selectKeep p => selectKeep cfg s p
  | .prune p => prune s p
  | .commit p => commit s p
  | .fail p error => fail s p error
  | .mark p now => mark s p now
  | .stop p => some (s.rollback p .idle)

def snapshots (cfg : Config) : System State Label where
  init s := s = .init
  step := step cfg

end VirtInfra.Snapshot
