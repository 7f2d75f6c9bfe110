import VirtInfra.Consumption.RawStats

/-!
# `Backfill` — rebuilding the node tables from what is left (`consumption_rollup.py`)

`_backfill_impl` overwrites the node tables from the raw rows of the last two days, from the VM tables and, for the
days, from the hourly node rows. Every statement selects its source rows by a cutoff and overwrites whole rows. Those
that read hourly or daily rows take whole rows, by their own start. Those that read raw rows cut at `raw_cutoff`, the
current second less up to two days, so that the first bucket and the first hour they overwrite are rebuilt from a part
of their raw rows.
-/

namespace VirtInfra.Consumption

open Lib Python

/-! ## The statements -/

/-- What a call of `_backfill_impl` depends on: the clock, `--hours` and the environment. -/
structure Backfill where
  now : Int
  hours : Int
  publicBridge : Option String := none
  privateBridge : Option String := none

/-- `MAX_BACKFILL_HOURS`. -/
abbrev maxBackfillHours : Int := 24 * 8

/-- `RAW_EDGE_HOURS`. -/
abbrev rawEdgeHours : Int := 48

/-- `MAX(f)`. -/
def maxBy {α : Type} (f : α → Int) (group : List α) : Int := (group.map f).max?.getD 0

/-- `COUNT(DISTINCT f)`. -/
def countDistinctBy {α β : Type} [DecidableEq β] (f : α → β) (group : List α) : Int := (group.map f).dedup.length

/-- `((t+offset)/3600)*3600-offset` on `bigint`, whose division truncates. -/
def sqlHourStart (off t : Int) : Int := (t + off).tdiv 3600 * 3600 - off

/-- `((t+offset)/86400)*86400-offset`. -/
def sqlDayStart (off t : Int) : Int := (t + off).tdiv 86400 * 86400 - off

/-- The physical columns of a statement's rows, on the row it finds. -/
def overwritePhysical (old new : NodeConsumption) : NodeConsumption :=
  { old with
    bytes := fun column => match column.meter with
      | .physical => new.bytes column
      | .vm => old.bytes column
    physicalCoverageSeconds := new.physicalCoverageSeconds
    physicalSampleCount := new.physicalSampleCount
    lastPush := max old.lastPush new.lastPush }

/-- The VM columns of a statement's rows, on the row it finds. -/
def overwriteVm (old new : NodeConsumption) : NodeConsumption :=
  { old with
    bytes := fun column => match column.meter with
      | .vm => new.bytes column
      | .physical => old.bytes column
    vmCoverageSeconds := new.vmCoverageSeconds
    vmSampleCount := new.vmSampleCount
    vmCount := new.vmCount
    lastPush := max old.lastPush new.lastPush }

/-- A rollup row has two more columns, which the physical statements set. -/
def overwritePhysicalRollup (old new : NodeRollup) : NodeRollup :=
  { overwritePhysical old.toNodeConsumption new.toNodeConsumption with
    coverageSeconds := new.coverageSeconds
    sampleCount := new.sampleCount }

def overwriteVmRollup (old new : NodeRollup) : NodeRollup :=
  { old with toNodeConsumption := overwriteVm old.toNodeConsumption new.toNodeConsumption }

/-- The bytes of some NIC rows in a physical column. -/
def physicalTotalOf (group : List PhysicalStat) (role : Role) (dir : Direction) : Nat :=
  (group.map fun row => if row.role = role then row.delta dir else 0).sum

/-- The bytes of some taps or VMs in a VM column: `SUM(CASE WHEN bridge=… THEN … ELSE 0 END)`. -/
def guestTotalOf {κ ρ : Type} (bridgeOf : κ → String) (deltas : ρ → Counters) (bridge : Role → String)
    (group : List (κ × ρ)) (role : Role) (dir : Direction) : Nat :=
  (group.map fun row => if bridgeOf row.1 = bridge role then (deltas row.2).bytes dir.swap else 0).sum

/-- A row of the physical columns. -/
def physicalColumns (total : Role → Direction → Nat) : NodeColumn → Nat :=
  fun column => match column.meter with
    | .physical => total column.role column.dir
    | .vm => 0

/-- A row of the VM columns. -/
def vmColumns (total : Role → Direction → Nat) : NodeColumn → Nat :=
  fun column => match column.meter with
    | .vm => total column.role column.dir
    | .physical => 0

def aggPhysical5m (group : List PhysicalStat) : NodeConsumption :=
  { bytes := physicalColumns (physicalTotalOf group)
    physicalCoverageSeconds := min 300 (maxBy PhysicalStat.intervalSeconds group)
    physicalSampleCount := countDistinctBy PhysicalStat.lastPush group
    lastPush := maxBy PhysicalStat.lastPush group }

def aggVm5m (bridge : Role → String) (group : List (NodeStatKey × NodeStat)) : NodeConsumption :=
  { bytes := vmColumns (guestTotalOf NodeStatKey.bridge NodeStat.deltas bridge group)
    vmCoverageSeconds := min 300 (maxBy (fun row => row.2.intervalSeconds) group)
    vmSampleCount := countDistinctBy (fun row => row.2.lastPush) group
    vmCount := countDistinctBy (fun row => row.1.vmUuid) group
    lastPush := maxBy (fun row => row.2.lastPush) group }

/-- A row of the `per_bucket` query. -/
structure PhysicalBucket where
  hourStart : Int
  node : String
  total : Role → Direction → Nat
  coverage : Int
  lastPush : Int

/-- `per_bucket`: the raw rows by local hour, node and bucket. -/
def perBucket (off : Int) (rows : List PhysicalStat) : List PhysicalBucket :=
  (KeyedTable.groupBy (fun row => (sqlHourStart off row.time, row.node, row.bucket)) rows).rows.map fun group =>
    { hourStart := group.1.1, node := group.1.2.1, total := physicalTotalOf group.2
      coverage := maxBy PhysicalStat.intervalSeconds group.2, lastPush := maxBy PhysicalStat.lastPush group.2 }

def bucketTotalOf (group : List PhysicalBucket) (role : Role) (dir : Direction) : Nat :=
  (group.map fun bucket => bucket.total role dir).sum

def aggPhysicalHourly (group : List PhysicalBucket) : NodeRollup :=
  { bytes := physicalColumns (bucketTotalOf group)
    coverageSeconds := min 3600 (group.map PhysicalBucket.coverage).sum
    sampleCount := group.length
    physicalCoverageSeconds := min 3600 (group.map PhysicalBucket.coverage).sum
    physicalSampleCount := group.length
    lastPush := maxBy PhysicalBucket.lastPush group }

/-- The row that the hourly and the daily VM statement insert. -/
def aggVmRollup (cap : Int) (bridge : Role → String) (group : List (VmKey × VmConsumption)) : NodeRollup :=
  { bytes := vmColumns (guestTotalOf VmKey.bridge VmConsumption.deltas bridge group)
    vmCoverageSeconds := min cap (maxBy (fun row => row.2.sampleCount) group * 300)
    vmSampleCount := maxBy (fun row => row.2.sampleCount) group
    vmCount := countDistinctBy (fun row => row.1.vmUuid) group
    lastPush := maxBy (fun row => row.2.lastPush) group }

def hourTotalOf (group : List (NodeKey × NodeRollup)) (role : Role) (dir : Direction) : Nat :=
  (group.map fun row => row.2.bytes ⟨.physical, role, dir⟩).sum

def aggPhysicalDaily (group : List (NodeKey × NodeRollup)) : NodeRollup :=
  { bytes := physicalColumns (hourTotalOf group)
    coverageSeconds := min 86400 (group.map fun row => row.2.physicalCoverageSeconds).sum
    sampleCount := (group.map fun row => row.2.physicalSampleCount).sum
    physicalCoverageSeconds := min 86400 (group.map fun row => row.2.physicalCoverageSeconds).sum
    physicalSampleCount := (group.map fun row => row.2.physicalSampleCount).sum
    lastPush := maxBy (fun row => row.2.lastPush) group }

namespace Backfill

variable (b : Backfill)

def cutoff : Int := b.now - max 1 (min maxBackfillHours b.hours) * 3600

def rawCutoff : Int := max b.cutoff (b.now - rawEdgeHours * 3600)

/-- `first_day`. -/
def firstDay (off : Int) : Int := localDayStart off b.cutoff

/-- `str(os.environ.get(name) or default).strip()`. -/
def bridge : Role → String
  | .pub => strip (if b.publicBridge.getD "" = "" then "br0" else b.publicBridge.getD "")
  | .priv => strip (if b.privateBridge.getD "" = "" then "br1" else b.privateBridge.getD "")

def physical5m (rows : List PhysicalStat) (table : KeyedTable NodeKey NodeConsumption) :
    KeyedTable NodeKey NodeConsumption :=
  table.mergeGroups (fun row => ⟨row.bucket, row.node⟩) (fun _ group => aggPhysical5m group) overwritePhysical
    (rows.filter fun row => b.rawCutoff ≤ row.time)

def vm5m (taps : KeyedTable NodeStatKey NodeStat) (table : KeyedTable NodeKey NodeConsumption) :
    KeyedTable NodeKey NodeConsumption :=
  table.mergeGroups (fun row => ⟨row.1.bucket, row.1.node⟩) (fun _ group => aggVm5m b.bridge group) overwriteVm
    (taps.rows.filter fun row => b.rawCutoff ≤ row.2.lastPush)

def physicalHourly (off : Int) (rows : List PhysicalStat) (table : KeyedTable NodeKey NodeRollup) :
    KeyedTable NodeKey NodeRollup :=
  table.mergeGroups (fun bucket => ⟨bucket.hourStart, bucket.node⟩) (fun _ group => aggPhysicalHourly group)
    overwritePhysicalRollup (perBucket off (rows.filter fun row => b.rawCutoff ≤ row.time))

/-- The hourly and the daily VM statement, for the VM rows that start at or after `first`. -/
def vmRollup (cap first : Int) (vms : List (VmKey × VmConsumption)) (table : KeyedTable NodeKey NodeRollup) :
    KeyedTable NodeKey NodeRollup :=
  table.mergeGroups (fun row => ⟨row.1.start, row.1.node⟩) (fun _ group => aggVmRollup cap b.bridge group)
    overwriteVmRollup (vms.filter fun row => first ≤ row.1.start)

def vmHourly (vms : KeyedTable VmKey VmConsumptionHourly) (table : KeyedTable NodeKey NodeRollup) :
    KeyedTable NodeKey NodeRollup :=
  b.vmRollup 3600 b.cutoff (vms.rows.map fun row => (row.1, row.2.toVmConsumption)) table

def physicalDaily (off : Int) (hours table : KeyedTable NodeKey NodeRollup) : KeyedTable NodeKey NodeRollup :=
  table.mergeGroups (fun row => ⟨sqlDayStart off row.1.start, row.1.node⟩) (fun _ group => aggPhysicalDaily group)
    overwritePhysicalRollup (hours.rows.filter fun row => b.firstDay off ≤ row.1.start)

def vmDaily (off : Int) (vms : KeyedTable VmKey VmConsumption) (table : KeyedTable NodeKey NodeRollup) :
    KeyedTable NodeKey NodeRollup :=
  b.vmRollup 86400 (b.firstDay off) vms.rows table

end Backfill

/-- **`_backfill_impl`**, in one transaction. -/
def Archive.backfill (off : Int) (a : Archive) (b : Backfill) : Archive :=
  let t := a.monitor.tables
  let nodeHourly := b.vmHourly t.vmHourly (b.physicalHourly off a.physicalStats t.nodeHourly)
  let tables :=
    { t with
      node5m := b.vm5m a.nodeStats (b.physical5m a.physicalStats t.node5m)
      nodeHourly
      nodeDaily := b.vmDaily off t.vmDaily (b.physicalDaily off nodeHourly t.nodeDaily) }
  { a with monitor := { a.monitor with tables } }

/-! ## What a statement writes -/

section Statement

variable {ρ α : Type} {toRow : ρ → NodeConsumption} {table : KeyedTable NodeKey ρ} {key : α → NodeKey}
  {agg : List α → ρ} {merge : ρ → ρ → ρ} {items : List α} (meter : Meter) (total : List α → Role → Direction → Nat)

end Statement

namespace Backfill

section Lost

variable {off horizon : Int} {b : Backfill}

section TwoNics

variable (off) {x y : Int} (hne : x ≠ y)
include hne

end TwoNics

/-- `a'` holds what `a` holds: the raw rows, the VM hours and the bytes. -/
structure Unchanged (a a' : Archive) : Prop where
  physicalStats : a'.physicalStats = a.physicalStats
  nodeStats : a'.nodeStats = a.nodeStats
  vmHourly : a'.monitor.tables.vmHourly = a.monitor.tables.vmHourly
  byteColumns : a'.monitor.tables.byteColumns = a.monitor.tables.byteColumns

end Lost

/-! ## Which runs keep every byte -/

/-- A backfill of a day, started on a local hour. -/
def onTheHour : Backfill := { now := 8640000, hours := 24 }

end Backfill

end VirtInfra.Consumption
