import VirtInfra.Consumption.Rows

/-!
# `Ingest` — the push endpoint, the rollup writers, and whole runs

A push is validated, deduplicated by its receipt `(node, time)` and then written in one transaction
(`ingest`); retention deletes rollup rows older than a cutoff (`deleteOlder`). A run is any list of these events.
What the readers have to account for is `history`, the samples of the pushes a run accepted, in order; what they
assume is `Retained`, that no delete removed a row they consult.
-/

namespace VirtInfra.Consumption

open Lib Python

/-! ## The tables and their writers -/

structure RollupTables where
  vmHourly : KeyedTable VmKey VmConsumptionHourly
  vmDaily : KeyedTable VmKey VmConsumption
  node5m : KeyedTable NodeKey NodeConsumption
  nodeHourly : KeyedTable NodeKey NodeRollup
  nodeDaily : KeyedTable NodeKey NodeRollup

def RollupTables.empty : RollupTables :=
  ⟨KeyedTable.empty, KeyedTable.empty, KeyedTable.empty, KeyedTable.empty, KeyedTable.empty⟩

/-- What an accepted push hands to the writers. -/
structure Sample where
  node : String
  dataTime : Int
  intervalSeconds : Int
  interfaces : List (Option IfaceItem)
  physicalInterfaces : List (Option PhysicalItem)

/-- The rows a sample stages. -/
def Sample.stage (off : Int) (s : Sample) : List StageRow :=
  ifaceRows off s.node s.dataTime (bucketFor s.dataTime) s.intervalSeconds s.interfaces

/-- The two VM statements of `_v5052_write_interface_copy_batch`; without staged rows nothing is written. -/
def writeInterfaceCopyBatch (rows : List StageRow) (t : RollupTables) : RollupTables :=
  if rows = [] then t
  else
    { t with
      vmHourly := t.vmHourly.mergeGroups hourlyKey aggVmHourly mergeVmHourly rows
      vmDaily := t.vmDaily.mergeGroups dailyKey (fun _ group => aggVm group) mergeVm rows }

/-- One rollup statement of `_r21_merge_node_vm_preaggregates`, for the hourly and for the daily table. -/
def mergeNodeVmRollup (time : StageRow → Int) (cap : Int) (rows : List StageRow)
    (table : KeyedTable NodeKey NodeRollup) : KeyedTable NodeKey NodeRollup :=
  table.mergeGroups (fun row => ⟨time row, row.node⟩) (fun _ group => { aggNodeVm cap group with })
    (fun old new => { old with toNodeConsumption := mergeNodeVm cap old.toNodeConsumption new.toNodeConsumption })
    rows

/-- `_r21_merge_node_vm_preaggregates`. The 5-minute rows are keyed by the stage's `bucket`, the other two by the
    hour and day of the slot. -/
def mergeNodeVmPreaggregates (rows : List StageRow) (t : RollupTables) : RollupTables :=
  { t with
    node5m := t.node5m.mergeGroups (fun row => ⟨row.bucket, row.node⟩) (fun _ group => aggNodeVm 300 group)
      (mergeNodeVm 300) rows
    nodeHourly := mergeNodeVmRollup StageRow.hourStart 3600 rows t.nodeHourly
    nodeDaily := mergeNodeVmRollup StageRow.dayStart 86400 rows t.nodeDaily }

/-- One rollup statement of `_v5058r4_rollup_physical_consumption`. -/
def upsertPhysicalRollup (start cap interval : Int) (s : Sample) (table : KeyedTable NodeKey NodeRollup) :
    KeyedTable NodeKey NodeRollup :=
  table.upsert ⟨start, s.node⟩
    { physicalRow cap interval s.dataTime s.physicalInterfaces with
      coverageSeconds := min cap interval, sampleCount := 1 }
    (fun old new =>
      { mergePhysical cap old.toNodeConsumption new.toNodeConsumption with
        coverageSeconds := addCovered cap old.coverageSeconds new.coverageSeconds
        sampleCount := old.sampleCount + new.sampleCount })

/-- `_v5058r4_rollup_physical_consumption`, keyed by the bucket, hour and day of `data_time` itself. -/
def rollupPhysicalConsumption (off : Int) (s : Sample) (t : RollupTables) : RollupTables :=
  if validPhysical s.physicalInterfaces = [] then t
  else
    let interval := clamp 1 3600 s.intervalSeconds
    { t with
      node5m := t.node5m.upsert ⟨bucketFor s.dataTime, s.node⟩
        (physicalRow 300 interval s.dataTime s.physicalInterfaces) (mergePhysical 300)
      nodeHourly := upsertPhysicalRollup (localHourStart off s.dataTime) 3600 interval s t.nodeHourly
      nodeDaily := upsertPhysicalRollup (localDayStart off s.dataTime) 86400 interval s t.nodeDaily }

/-- The consumption writes of one accepted push, in the endpoint's order. -/
def writeSample (off : Int) (s : Sample) (t : RollupTables) : RollupTables :=
  let rows := s.stage off
  let t := writeInterfaceCopyBatch rows (rollupPhysicalConsumption off s t)
  if rows = [] then t else mergeNodeVmPreaggregates rows t

/-! ## The push endpoint -/

structure Config where
  tzOffset : Int := 25200
  /-- `V50_MAX_FUTURE_PUSH_SECONDS`. -/
  maxFutureSeconds : Int := 600
  /-- `V5057_OPERATIONAL_PUSH_ACCEPT_AFTER`, 0 when no reset advanced it. -/
  acceptAfter : Int := 0

/-- The JSON body of `/push`. `interfaces` is `none` when it is not a list; a `physical_interfaces` that is no list
    reads as the empty one. -/
structure PushRequest where
  time : Option Int
  node : String
  interval : Option Int
  interfaces : Option (List (Option IfaceItem))
  physicalInterfaces : List (Option PhysicalItem)

inductive PushReply
  | badPayload (detail : String)
  | ignored
  | duplicate
  | ok
  deriving DecidableEq, Repr

/-- A row of `push_receipts`, whose key is `(node, push_time)`. -/
structure Receipt where
  node : String
  pushTime : Int
  bucket : Int
  receivedAt : Int
  deriving DecidableEq, Repr

structure Monitor where
  receipts : List Receipt
  tables : RollupTables

def Monitor.init : Monitor := ⟨[], RollupTables.empty⟩

/-- The checks of the endpoint before its transaction, in its order. -/
def validatePush (cfg : Config) (receivedNow : Int) (req : PushRequest) : Except PushReply Sample :=
  let dataTime := safeInt req.time receivedNow
  let node := strip req.node
  if dataTime > receivedNow + cfg.maxFutureSeconds then
    .error (.badPayload "payload time exceeds allowed future skew")
  else if node = "" then .error (.badPayload "node is required")
  else if cfg.acceptAfter ≠ 0 ∧ dataTime < cfg.acceptAfter then .error .ignored
  else match req.interfaces with
    | none => .error (.badPayload "interfaces must be a list")
    | some interfaces => .ok
        { node, dataTime, interfaces, physicalInterfaces := req.physicalInterfaces
          intervalSeconds := clamp 1 3600 (safeInt req.interval cacheBucketSeconds) }

/-- `INSERT OR IGNORE INTO push_receipts` finds the key taken. -/
def Monitor.hasReceipt (m : Monitor) (s : Sample) : Bool :=
  m.receipts.any fun r => r.node = s.node && r.pushTime = s.dataTime

/-- **`push`.** The per-node advisory lock serialises the transactions of a node, and no two nodes write the same
    row, so one push is one step. -/
def ingest (cfg : Config) (receivedNow : Int) (req : PushRequest) (m : Monitor) : Monitor × PushReply :=
  match validatePush cfg receivedNow req with
  | .error reply => (m, reply)
  | .ok s =>
      if m.hasReceipt s then (m, .duplicate)
      else
        ({ receipts := ⟨s.node, s.dataTime, bucketFor s.dataTime, receivedNow⟩ :: m.receipts
           tables := writeSample cfg.tzOffset s m.tables }, .ok)

/-- The sample `ingest` writes, when it writes one. -/
def acceptedSample (cfg : Config) (receivedNow : Int) (req : PushRequest) (m : Monitor) : Option Sample :=
  match validatePush cfg receivedNow req with
  | .error _ => none
  | .ok s => if m.hasReceipt s then none else some s

/-! ## Retention and runs -/

inductive RollupTable | vmHourly | vmDaily | node5m | nodeHourly | nodeDaily
  deriving DecidableEq, Repr

/-- `DELETE FROM table WHERE column<cutoff`, on the table's time column. -/
def deleteOlder (table : RollupTable) (cutoff : Int) (t : RollupTables) : RollupTables :=
  match table with
  | .vmHourly => { t with vmHourly := t.vmHourly.deleteWhere fun key => key.start < cutoff }
  | .vmDaily => { t with vmDaily := t.vmDaily.deleteWhere fun key => key.start < cutoff }
  | .node5m => { t with node5m := t.node5m.deleteWhere fun key => key.start < cutoff }
  | .nodeHourly => { t with nodeHourly := t.nodeHourly.deleteWhere fun key => key.start < cutoff }
  | .nodeDaily => { t with nodeDaily := t.nodeDaily.deleteWhere fun key => key.start < cutoff }

inductive Event
  | push (receivedNow : Int) (req : PushRequest)
  | delete (table : RollupTable) (cutoff : Int)
  | deleteReceipts (cutoff : Int)

/-- `_r22_consumption_retention_specs`, as the deletes `run_consumption_retention_cleanup` issues. -/
def consumptionRetentionSpecs (off now : Int) (includeVm : Bool) : List Event :=
  let rawCutoff := now - 2 * 86400
  let rollupCutoff := now - 7 * 86400
  [.delete .node5m rawCutoff, .delete .nodeHourly rollupCutoff,
    .delete .nodeDaily (localDayStart off rollupCutoff)] ++
  if includeVm then [.delete .vmHourly rollupCutoff, .delete .vmDaily (localDayStart off rollupCutoff)] else []

def step (cfg : Config) (m : Monitor) : Event → Monitor
  | .push receivedNow req => (ingest cfg receivedNow req m).1
  | .delete table cutoff => { m with tables := deleteOlder table cutoff m.tables }
  | .deleteReceipts cutoff => { m with receipts := m.receipts.filter fun r => ¬ r.receivedAt < cutoff }

/-- The monitor after a run. -/
def run (cfg : Config) (m : Monitor) (events : List Event) : Monitor := events.foldl (step cfg) m

/-- **The samples a run accepts**, in order. -/
def history (cfg : Config) : Monitor → List Event → List Sample
  | _, [] => []
  | m, .push receivedNow req :: rest =>
      (acceptedSample cfg receivedNow req m).toList ++ history cfg (step cfg m (.push receivedNow req)) rest
  | m, .delete table cutoff :: rest => history cfg (step cfg m (.delete table cutoff)) rest
  | m, .deleteReceipts cutoff :: rest => history cfg (step cfg m (.deleteReceipts cutoff)) rest

/-- The time column of a table's rows. -/
def RollupTables.starts (t : RollupTables) : RollupTable → List Int
  | .vmHourly => t.vmHourly.rows.map fun row => row.1.start
  | .vmDaily => t.vmDaily.rows.map fun row => row.1.start
  | .node5m => t.node5m.rows.map fun row => row.1.start
  | .nodeHourly => t.nodeHourly.rows.map fun row => row.1.start
  | .nodeDaily => t.nodeDaily.rows.map fun row => row.1.start

/-- **Every consulted row is retained.** No delete of the run removes a row whose time a reader consults. -/
def Retained (cfg : Config) (consulted : RollupTable → Int → Prop) : Monitor → List Event → Prop
  | _, [] => True
  | m, .push receivedNow req :: rest => Retained cfg consulted (step cfg m (.push receivedNow req)) rest
  | m, .delete table cutoff :: rest =>
      (∀ start ∈ m.tables.starts table, start < cutoff → ¬ consulted table start) ∧
        Retained cfg consulted (step cfg m (.delete table cutoff)) rest
  | m, .deleteReceipts cutoff :: rest => Retained cfg consulted (step cfg m (.deleteReceipts cutoff)) rest

end VirtInfra.Consumption
