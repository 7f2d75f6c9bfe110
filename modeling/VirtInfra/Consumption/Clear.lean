import VirtInfra.Consumption.NodeWindow
import Mathlib.Algebra.Order.BigOperators.Group.List
import Mathlib.Algebra.Order.Group.Nat
import VirtInfra.Consumption.VmWindow
import VirtInfra.Snapshot.Batches

/-!
# `Clear` — what clearing the monitoring data leaves to the readers (`maintenance_native.py`)

`clear_monitoring_data` truncates the tables of `MONITORING_TABLES`. The list has both VM tables, the snapshot tables
and the hourly and daily node tables, and lacks `node_consumption_5m`, from which the Node reader takes the ragged ends
of a window.
-/

namespace VirtInfra.Consumption

open Lib Python

/-- `MONITORING_TABLES`. -/
def monitoringTables : List String :=
  ["vm_iface_current", "vm_current_fast", "node_current_fast", "vm_abuse_state", "vm_abuse_events",
    "vm_abuse_incidents", "vm_disk_current", "node_storage_current", "vm_disk_summary_current",
    "node_storage_mount_summary_current", "vm_latest_metrics", "node_host_latest", "node_filesystem_latest",
    "node_physical_net_latest", "node_bridge_addresses_latest", "agent_health_latest", "vm_location_latest",
    "vm_node_presence", "vm_migration_events", "node_missed_events", "push_receipts", "node_push_snapshots",
    "vm_consumption_snapshot_rows", "vm_consumption_snapshot_batches", "vm_consumption_daily",
    "vm_consumption_hourly", "usage", "node_stats", "vm_perf_stats", "node_host_stats", "node_filesystem_stats",
    "node_physical_net_stats", "agent_health_stats", "node_bandwidth_consumption_2h", "node_consumption_hourly",
    "node_consumption_daily", "node_vm_consumption_hourly", "node_vm_consumption_daily", "vm_chart_5m",
    "vm_raw_detail_5m", "node_chart_5m", "node_logs", "retention_runs"]

/-- Every table a Consumption reader consults. -/
structure ConsumptionDb where
  rollups : RollupTables
  batches : KeyedTable Snapshot.Key Snapshot.Batch
  snapshots : Snapshot.SnapshotRows

/-- The public tables among them, which no foreign key names, so that `CASCADE` adds none. -/
def existingTables : List String :=
  ["vm_consumption_hourly", "vm_consumption_daily", "node_consumption_5m", "node_consumption_hourly",
    "node_consumption_daily", "vm_consumption_snapshot_batches", "vm_consumption_snapshot_rows"]

/-- One table under `TRUNCATE TABLE selected`. -/
def truncate {κ ρ : Type*} (selected : List String) (name : String) (table : KeyedTable κ ρ) : KeyedTable κ ρ :=
  if name ∈ selected then .empty else table

/-- **`truncate_tables`.** -/
def truncateTables (requested : List String) (db : ConsumptionDb) : ConsumptionDb :=
  let selected := requested.filter (· ∈ existingTables)
  { rollups :=
      { vmHourly := truncate selected "vm_consumption_hourly" db.rollups.vmHourly
        vmDaily := truncate selected "vm_consumption_daily" db.rollups.vmDaily
        node5m := truncate selected "node_consumption_5m" db.rollups.node5m
        nodeHourly := truncate selected "node_consumption_hourly" db.rollups.nodeHourly
        nodeDaily := truncate selected "node_consumption_daily" db.rollups.nodeDaily }
    batches := truncate selected "vm_consumption_snapshot_batches" db.batches
    snapshots := truncate selected "vm_consumption_snapshot_rows" db.snapshots }

/-- **`clear_monitoring_data`.** -/
def clearMonitoringData (db : ConsumptionDb) : ConsumptionDb := truncateTables monitoringTables db

/-! ## The VM page -/

/-- `_r2212_period_key(start, end)`. -/
def periodKey (slot start stop : Int) : String :=
  let seconds := max slot (stop - start)
  ((Snapshot.periods.find? fun period => period.2 = seconds).map Prod.fst).getD "24h"

/-- `_r2212_select_snapshot`: the end of the latest ready window that is not too old. -/
def selectSnapshot (maxStale : Int) (db : ConsumptionDb) (period : String) (requestedEnd : Int) : Option Int :=
  ((db.batches.rows.filter fun row => decide (row.1.1 = period) && row.2.isReady &&
    decide (row.1.2 ≤ requestedEnd) && decide (requestedEnd - maxStale ≤ row.1.2)).map fun row => row.1.2).max?

/-- **`_v5058c_vm_rows`** of the snapshot layer, before sorting and paging. `visible` is the condition of
    `_r2212_snapshot_where` on a row: its node, VM, group and coverage, and the search text. -/
def vmPage (cfg : Snapshot.Config) (maxStale : Int) (visible : String → String → Snapshot.SnapshotRow → Bool)
    (start stop : Int) (db : ConsumptionDb) : List ((Snapshot.Key × String × String) × Snapshot.SnapshotRow) :=
  let period := periodKey cfg.slot start stop
  match selectSnapshot maxStale db period (cfg.normalizedEnd stop) with
  | none => []
  | some snapshotEnd =>
      db.snapshots.rows.filter fun row => decide (row.1.1 = (period, snapshotEnd)) && visible row.1.2.1 row.1.2.2 row.2

/-! ## What is left -/

/-- **The readers return no bytes**, for any window. -/
structure NoBytes (off : Int) (db : ConsumptionDb) : Prop where
  node : ∀ start stop now node column,
    nodeWindowBytes off start stop (nodeRawAvailableStart now) db.rollups node column = 0
  vm : ∀ start stop selectedNode node vmUuid bridge dir bytes,
    vmWindowBytes off start stop selectedNode db.rollups node vmUuid bridge dir = .ok bytes → bytes = 0
  page : ∀ cfg maxStale visible start stop, vmPage cfg maxStale visible start stop db = []

/-- The action empties every table but one. -/
theorem clearMonitoringData_eq (db : ConsumptionDb) : clearMonitoringData db =
    { rollups := { RollupTables.empty with node5m := db.rollups.node5m }, batches := .empty, snapshots := .empty } := by
  unfold clearMonitoringData truncateTables truncate
  have hselected : monitoringTables.filter (· ∈ existingTables) =
      ["vm_consumption_snapshot_rows", "vm_consumption_snapshot_batches", "vm_consumption_daily",
        "vm_consumption_hourly", "node_consumption_hourly", "node_consumption_daily"] := by decide
  rw [hselected]
  simp [RollupTables.empty]

theorem VmBranch.rows_of_empty {t : RollupTables} (hhourly : t.vmHourly = .empty) (hdaily : t.vmDaily = .empty)
    (selectedNode : String) (branch : VmBranch) : branch.rows selectedNode t = [] := by
  cases branch <;> simp [VmBranch.rows, hhourly, hdaily, KeyedTable.select, KeyedTable.empty]

theorem vmWindowBytes_of_empty {off start stop : Int} {selectedNode node vmUuid bridge : String} {dir : Direction}
    {t : RollupTables} {bytes : Nat} (hhourly : t.vmHourly = .empty) (hdaily : t.vmDaily = .empty)
    (h : vmWindowBytes off start stop selectedNode t node vmUuid bridge dir = .ok bytes) : bytes = 0 := by
  unfold vmWindowBytes at h
  cases hsource : vmSource off start stop with
  | error message =>
      rw [hsource] at h
      cases h
  | ok branches =>
      rw [hsource] at h
      obtain rfl := Except.ok.inj h
      have hnil : branches.flatMap (VmBranch.rows selectedNode t) = [] := by
        rw [List.flatMap_eq_nil_iff]
        exact fun branch _ => branch.rows_of_empty hhourly hdaily selectedNode
      rw [hnil]
      rfl

/-- The reader never asks for a 5-minute row before time 0. -/
theorem nodeSource_raw {off start stop avail : Int} {part : NodePart} (h : part ∈ nodeSource off start stop avail)
    (hraw : part.resolution = .raw) : 0 ≤ part.start := by
  obtain ⟨plan, -, hclip⟩ := List.mem_filterMap.mp h
  unfold clipRaw at hclip
  split at hclip
  · dsimp only at hclip
    split at hclip
    · cases hclip
    · obtain rfl := Option.some.inj hclip
      show 0 ≤ max plan.start (max 0 avail)
      omega
  · next hother =>
      obtain rfl := Option.some.inj hclip
      exact absurd hraw hother

/-- The Node reader over a database with 5-minute rows only. -/
theorem nodeWindowBytes_of_node5m {off start stop avail : Int} {t : RollupTables} {node : String} {column : NodeColumn}
    (hhourly : t.nodeHourly = .empty) (hdaily : t.nodeDaily = .empty)
    (hzero : ∀ row ∈ t.node5m.rows, 0 ≤ row.1.start → row.2.bytes column = 0) :
    nodeWindowBytes off start stop avail t node column = 0 := by
  unfold nodeWindowBytes nodeSum
  apply List.sum_eq_zero
  intro bytes hbytes
  obtain ⟨row, hrow, rfl⟩ := List.mem_map.mp hbytes
  obtain ⟨part, hpart, hmem⟩ := List.mem_flatMap.mp hrow
  have hrow0 : row.2.bytes column = 0 := by
    unfold NodePart.rows at hmem
    dsimp only at hmem
    split at hmem
    · next hraw =>
        obtain ⟨hrows, hin⟩ := List.mem_filter.mp hmem
        simp only [Bool.and_eq_true, decide_eq_true_eq] at hin
        exact hzero row hrows (le_trans (nodeSource_raw hpart hraw) hin.1)
    · simp [hhourly, KeyedTable.select, KeyedTable.empty] at hmem
    · simp [hdaily, KeyedTable.select, KeyedTable.empty] at hmem
  split
  · exact hrow0
  · rfl

/-- A window of one second is read from the 5-minute rows. -/
theorem nodePlan_second (off x : Int) : nodePlan off x (x + 1) = [⟨.raw, x, x + 1⟩] := by
  have hday : ¬ (if x = localDayStart off x then localDayStart off x else localDayStart off x + 86400) <
      localDayStart off (x + 1) := by
    unfold localDayStart
    split <;> omega
  have hhour : ceilHour off x ≥ localHourStart off (x + 1) := by
    unfold ceilHour localHourStart
    split <;> omega
  unfold nodePlan nodeEdge rawPart
  dsimp only
  rw [if_neg hday, if_neg (by omega), if_pos hhour, if_neg (by omega)]

theorem nodeRawAvailableStart_le {now : Int} (h : 0 ≤ now) : max 0 (nodeRawAvailableStart now) ≤ now := by
  unfold nodeRawAvailableStart
  dsimp only
  omega

/-- The window of one second at a 5-minute row, read when the row is fresh, returns its bytes. -/
theorem bytes_le_nodeWindowBytes (off : Int) {t : RollupTables} {row : NodeKey × NodeConsumption}
    (hrow : row ∈ t.node5m.rows) (hstart : 0 ≤ row.1.start) (column : NodeColumn) :
    row.2.bytes column ≤ nodeWindowBytes off row.1.start (row.1.start + 1) (nodeRawAvailableStart row.1.start) t
      row.1.node column := by
  have havail := nodeRawAvailableStart_le hstart
  have hsource : nodeSource off row.1.start (row.1.start + 1) (nodeRawAvailableStart row.1.start) =
      [⟨.raw, row.1.start, row.1.start + 1⟩] := by
    unfold nodeSource
    rw [nodePlan_second]
    simp only [List.filterMap_cons, List.filterMap_nil, clipRaw, max_eq_left havail]
    rw [if_neg (by omega)]
  unfold nodeWindowBytes nodeSum
  rw [hsource]
  apply List.single_le_sum (fun _ _ => Nat.zero_le _)
  refine List.mem_map.mpr ⟨row, ?_, if_pos rfl⟩
  rw [List.flatMap_singleton]
  refine List.mem_filter.mpr ⟨hrow, ?_⟩
  simp

/-- **Clearing clears the readers exactly if no 5-minute node row had bytes.** -/
theorem clear_empties_readers_iff (off : Int) (db : ConsumptionDb) :
    NoBytes off (clearMonitoringData db) ↔
      ∀ row ∈ db.rollups.node5m.rows, 0 ≤ row.1.start → ∀ column, row.2.bytes column = 0 := by
  rw [clearMonitoringData_eq]
  constructor
  · intro h row hrow hstart column
    have hle := bytes_le_nodeWindowBytes off (t := { RollupTables.empty with node5m := db.rollups.node5m }) hrow hstart
      column
    rw [h.node] at hle
    exact Nat.le_zero.mp hle
  · intro h
    refine ⟨fun start stop now node column => ?_, fun start stop selectedNode node vmUuid bridge dir bytes hbytes => ?_,
      fun cfg maxStale visible start stop => rfl⟩
    · exact nodeWindowBytes_of_node5m rfl rfl fun row hrow hstart => h row hrow hstart column
    · exact vmWindowBytes_of_empty rfl rfl hbytes

/-- A push with 700 bytes on the public NIC. -/
def physicalPush (time : Int) : PushRequest :=
  { time := some time, node := "n1", interval := none, interfaces := some []
    physicalInterfaces := [some { role := "public", rxDelta := some 700 }] }

/-- **Clearing forgets a table**: the push of 20:10 is cleared, and the window 19:15-20:15 still shows its bytes. -/
theorem clear_leaves_node_bytes : ¬ ∀ (cfg : Config) (events : List Event),
    NoBytes cfg.tzOffset (clearMonitoringData ⟨(run cfg Monitor.init events).tables, .empty, .empty⟩) := by
  intro hclaim
  have hzero := (hclaim { tzOffset := 0 } [.push 72610 (physicalPush 72600)]).node 69300 72900 73000 "n1"
    ⟨.physical, .pub, .rx⟩
  revert hzero
  decide +kernel

end VirtInfra.Consumption
