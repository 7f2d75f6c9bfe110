import Mathlib.Algebra.Order.Field.Basic
import Mathlib.Algebra.Order.Field.Rat
import VirtInfra.Consumption.PurgeVm
import VirtInfra.Lib.Cells

/-!
# `Coverage` — how much of a window a node's rows cover

A row of a node table also counts the seconds that its pushes cover, physical and VM for themselves. Every writer caps
them at the length of the row's cell, so what the reader adds up for a window is at most the length of the cells it
consults. Where retention has clipped an edge of the window, the reader says less than 100 percent
(`coverage_never_overstated`).

The offset of the local hours need not be a multiple of a bucket: the buckets at the ends of the hourly part then overlap
it on one side and leave a gap of the same length on the other.
-/

namespace VirtInfra.Consumption

open Lib Python

/-! ## The columns -/

def NodeConsumption.coverage (row : NodeConsumption) : Meter → Int
  | .physical => row.physicalCoverageSeconds
  | .vm => row.vmCoverageSeconds

/-- The coverage of a row fits into a cell of `g` seconds. -/
def NodeConsumption.Within (g : Int) (row : NodeConsumption) : Prop := ∀ meter, row.coverage meter ≤ g

/-- Rows of a grid, none of which covers more than its cell. -/
def Capped {ρ : Type} (g off : Int) (toRow : ρ → NodeConsumption) (table : KeyedTable NodeKey ρ) : Prop :=
  table.Every fun key row => OnGrid g off key.start ∧ (toRow row).Within g

/-! ## The reader -/

/-- `SUM(coverage) … GROUP BY node`, for one node. -/
def coverageSum (rows : List (NodeKey × NodeConsumption)) (node : String) (meter : Meter) : Int :=
  ((rows.filter fun row => row.1.node = node).map fun row => row.2.coverage meter).sum

/-- The coverage of a node in `_r21_node_dataset_sql`: a sum over the requested length is that length. -/
def nodeCoverageSeconds (off start stop rawAvailableStart : Int) (t : RollupTables) (node : String) (meter : Meter) : Int :=
  let expected := max 1 (stop - start)
  let sum := coverageSum ((nodeSource off start stop rawAvailableStart).flatMap (NodePart.rows t)) node meter
  if sum > expected then expected else sum

/-- Its `coverage_percent`, of the meter that covers less. -/
def coveragePercent (off start stop rawAvailableStart : Int) (t : RollupTables) (node : String) : ℚ :=
  let expected := max 1 (stop - start)
  let physical := nodeCoverageSeconds off start stop rawAvailableStart t node .physical
  let vm := nodeCoverageSeconds off start stop rawAvailableStart t node .vm
  let covered := if physical < vm then physical else vm
  if (covered : ℚ) * 100 / expected > 100 then 100 else (covered : ℚ) * 100 / expected

/-! ## The cells of a window -/

def Resolution.seconds : Resolution → Int
  | .raw => 300
  | .hourly => 3600
  | .daily => 86400

/-- The hours and days are local, the buckets are not. -/
def Resolution.shift (off : Int) : Resolution → Int
  | .raw => 0
  | _ => off

/-- The buckets, hours or days whose rows a part consults. -/
def NodePart.cells (off : Int) (part : NodePart) : Finset Int :=
  gridCells part.resolution.seconds (part.resolution.shift off) part.start part.stop

/-- Their length. -/
def NodePart.seconds (off : Int) (part : NodePart) : Int := part.resolution.seconds * (part.cells off).card

/-- **The length of the buckets whose rows the reader consults.** -/
def consultedSeconds (off start stop rawAvailableStart : Int) : Int :=
  ((nodeSource off start stop rawAvailableStart).map (NodePart.seconds off)).sum

/-- Retention has clipped an edge: one of its buckets starts before the raw rows that are left. -/
def EdgeClipped (off start stop rawAvailableStart : Int) : Prop :=
  ∃ part ∈ nodePlan off start stop, part.resolution = .raw ∧ ∃ bucket ∈ part.cells off, bucket < rawAvailableStart

/-! ## The rows of the writers -/

section Writers

variable {g cap off : Int} {old new : NodeConsumption}

theorem addCovered_le (cap a b : Int) : addCovered cap a b ≤ cap := by
  unfold addCovered
  split <;> omega

theorem within_physicalRow (hcap : 0 ≤ cap) (interval dataTime : Int) (items : List (Option PhysicalItem)) :
    (physicalRow cap interval dataTime items).Within cap := by
  intro meter
  cases meter with
  | physical => exact min_le_left cap interval
  | vm => exact hcap

theorem within_mergePhysical (hold : old.Within cap) : (mergePhysical cap old new).Within cap := by
  intro meter
  cases meter with
  | physical => exact addCovered_le cap _ _
  | vm => exact hold .vm

theorem within_aggNodeVm (hcap : 0 ≤ cap) (group : List StageRow) : (aggNodeVm cap group).Within cap := by
  intro meter
  cases meter with
  | physical => exact hcap
  | vm => exact min_le_left cap _

theorem within_mergeNodeVm (hold : old.Within cap) : (mergeNodeVm cap old new).Within cap := by
  intro meter
  cases meter with
  | physical => exact hold .physical
  | vm => exact addCovered_le cap _ _

theorem within_overwritePhysical (hold : old.Within cap) (hnew : new.Within cap) :
    (overwritePhysical old new).Within cap := by
  intro meter
  cases meter with
  | physical => exact hnew .physical
  | vm => exact hold .vm

theorem within_overwriteVm (hold : old.Within cap) (hnew : new.Within cap) : (overwriteVm old new).Within cap := by
  intro meter
  cases meter with
  | physical => exact hold .physical
  | vm => exact hnew .vm

theorem within_aggPhysical5m (group : List PhysicalStat) : (aggPhysical5m group).Within 300 := by
  intro meter
  cases meter with
  | physical => exact min_le_left 300 _
  | vm => exact (by decide : (0 : Int) ≤ 300)

theorem within_aggVm5m (bridge : Role → String) (group : List (NodeStatKey × NodeStat)) :
    (aggVm5m bridge group).Within 300 := by
  intro meter
  cases meter with
  | physical => exact (by decide : (0 : Int) ≤ 300)
  | vm => exact min_le_left 300 _

theorem within_aggPhysicalHourly (group : List PhysicalBucket) : (aggPhysicalHourly group).Within 3600 := by
  intro meter
  cases meter with
  | physical => exact min_le_left 3600 _
  | vm => exact (by decide : (0 : Int) ≤ 3600)

theorem within_aggPhysicalDaily (group : List (NodeKey × NodeRollup)) : (aggPhysicalDaily group).Within 86400 := by
  intro meter
  cases meter with
  | physical => exact min_le_left 86400 _
  | vm => exact (by decide : (0 : Int) ≤ 86400)

theorem within_aggVmRollup (hcap : 0 ≤ cap) (bridge : Role → String) (group : List (VmKey × VmConsumption)) :
    (aggVmRollup cap bridge group).Within cap := by
  intro meter
  cases meter with
  | physical => exact hcap
  | vm => exact min_le_left cap _

theorem within_resetVm (hcap : 0 ≤ cap) (hold : old.Within cap) : (resetVm old).Within cap := by
  intro meter
  cases meter with
  | physical => exact hold .physical
  | vm => exact hcap

/-- A rebuilt row keeps its physical columns; the others are zero, or capped like those of the backfill. -/
theorem within_rebuildRow (hcap : 0 ≤ cap) {data : Option NodeConsumption} (hdata : ∀ row, data = some row → row.Within cap)
    (hold : old.Within cap) : (rebuildRow data old).Within cap := by
  cases data with
  | none => exact within_resetVm hcap hold
  | some row => exact within_overwriteVm (within_resetVm hcap hold) (hdata row rfl)

/-! ## Capped tables -/

variable {ρ α : Type} {toRow : ρ → NodeConsumption} {table : KeyedTable NodeKey ρ}

/-- **A statement on a node table keeps it capped** when its keys are on the grid and its rows fit. -/
theorem Capped.mergeGroups (h : Capped g off toRow table) {key : α → NodeKey} {agg : List α → ρ} {merge : ρ → ρ → ρ}
    {items : List α} (hkeys : ∀ a ∈ items, OnGrid g off (key a).start) (hagg : ∀ group, (toRow (agg group)).Within g)
    (hmerge : ∀ old new, (toRow old).Within g → (toRow new).Within g → (toRow (merge old new)).Within g) :
    Capped g off toRow (table.mergeGroups key (fun _ group => agg group) merge items) := by
  refine KeyedTable.Every.mergeGroups h (fun k group hgroup => ⟨?_, hagg group⟩)
    fun old k group _ hold => ⟨hold.1, hmerge old (agg group) hold.2 (hagg group)⟩
  obtain ⟨a, ha⟩ := List.exists_mem_of_ne_nil _ hgroup.1
  rw [← (hgroup.2 a ha).2]
  exact hkeys a (hgroup.2 a ha).1

end Writers

/-! ## The database -/

/-- **Every node row covers at most its cell**, and the VM rows it can be rebuilt from are of its grid. -/
structure RollupTables.Capped (off : Int) (t : RollupTables) : Prop where
  node5m : Consumption.Capped 300 0 id t.node5m
  nodeHourly : Consumption.Capped 3600 off NodeRollup.toNodeConsumption t.nodeHourly
  nodeDaily : Consumption.Capped 86400 off NodeRollup.toNodeConsumption t.nodeDaily
  vmHours : ∀ key ∈ t.vmHourly.keys, OnHour off key.start
  vmDays : ∀ key ∈ t.vmDaily.keys, OnDay off key.start

structure Archive.Capped (off : Int) (a : Archive) : Prop where
  tables : a.monitor.tables.Capped off
  taps : ∀ key ∈ a.nodeStats.keys, Aligned key.bucket

theorem Archive.capped_init (off : Int) : Archive.init.Capped off where
  tables :=
    { node5m := KeyedTable.every_empty, nodeHourly := KeyedTable.every_empty, nodeDaily := KeyedTable.every_empty
      vmHours := nofun, vmDays := nofun }
  taps := nofun

section Steps

variable {off : Int} {a : Archive} {t : RollupTables} {s : Sample}

/-! ### A push -/

theorem capped_upsertPhysicalRollup {cap start interval : Int} {table : KeyedTable NodeKey NodeRollup} (hcap : 0 ≤ cap)
    (h : Capped cap off NodeRollup.toNodeConsumption table) (hstart : OnGrid cap off start) :
    Capped cap off NodeRollup.toNodeConsumption (upsertPhysicalRollup start cap interval s table) :=
  KeyedTable.Every.upsert h ⟨hstart, within_physicalRow hcap interval s.dataTime s.physicalInterfaces⟩
    fun _ hold => ⟨hold.1, within_mergePhysical hold.2⟩

theorem capped_mergeNodeVmRollup {cap : Int} {time : StageRow → Int} {rows : List StageRow}
    {table : KeyedTable NodeKey NodeRollup} (hcap : 0 ≤ cap) (h : Capped cap off NodeRollup.toNodeConsumption table)
    (hkeys : ∀ row ∈ rows, OnGrid cap off (time row)) :
    Capped cap off NodeRollup.toNodeConsumption (mergeNodeVmRollup time cap rows table) :=
  Capped.mergeGroups h hkeys (within_aggNodeVm hcap) fun _ _ hold _ => within_mergeNodeVm hold

theorem RollupTables.Capped.rollupPhysicalConsumption (h : t.Capped off) :
    (rollupPhysicalConsumption off s t).Capped off := by
  unfold Consumption.rollupPhysicalConsumption
  split
  · exact h
  · have hnew := within_physicalRow (by decide : (0 : Int) ≤ 300) (clamp 1 3600 s.intervalSeconds) s.dataTime
      s.physicalInterfaces
    exact
      { node5m := KeyedTable.Every.upsert h.node5m ⟨aligned_bucketFor s.dataTime, hnew⟩
          fun _ hold => ⟨hold.1, within_mergePhysical hold.2⟩
        nodeHourly := capped_upsertPhysicalRollup (by decide) h.nodeHourly onGrid_gridFloor
        nodeDaily := capped_upsertPhysicalRollup (by decide) h.nodeDaily onGrid_gridFloor
        vmHours := h.vmHours
        vmDays := h.vmDays }

/-- **A sample** is written under the times of its push and its slot. -/
theorem RollupTables.Capped.writeSample (h : t.Capped off) : (writeSample off s t).Capped off := by
  have hphysical : (Consumption.rollupPhysicalConsumption off s t).Capped off := h.rollupPhysicalConsumption
  constructor
  · rw [writeSample_node5m]
    refine Consumption.Capped.mergeGroups hphysical.node5m (fun row hrow => ?_) (within_aggNodeVm (by decide))
      fun _ _ hold _ => within_mergeNodeVm hold
    rw [(Sample.stage_mem hrow).2.2.1]
    exact aligned_bucketFor s.dataTime
  · rw [writeSample_nodeHourly]
    refine capped_mergeNodeVmRollup (by decide) hphysical.nodeHourly fun row hrow => ?_
    rw [(Sample.stage_mem hrow).1]
    exact onGrid_gridFloor
  · rw [writeSample_nodeDaily]
    refine capped_mergeNodeVmRollup (by decide) hphysical.nodeDaily fun row hrow => ?_
    rw [(Sample.stage_mem hrow).2.1]
    exact onGrid_gridFloor
  · intro key hkey
    rw [writeSample_vmHourly, KeyedTable.mem_keys_mergeGroups] at hkey
    rcases hkey with hold | ⟨row, hrow, rfl⟩
    · exact h.vmHours key hold
    · unfold hourlyKey
      rw [(Sample.stage_mem hrow).1]
      exact onGrid_gridFloor
  · intro key hkey
    rw [writeSample_vmDaily, KeyedTable.mem_keys_mergeGroups] at hkey
    rcases hkey with hold | ⟨row, hrow, rfl⟩
    · exact h.vmDays key hold
    · unfold dailyKey
      rw [(Sample.stage_mem hrow).2.1]
      exact onGrid_gridFloor

/-- **A push** keeps the tables capped. -/
theorem Archive.Capped.push {cfg : Config} (h : a.Capped cfg.tzOffset) (receivedNow : Int) (req : PushRequest) :
    (a.step cfg (.push receivedNow req)).Capped cfg.tzOffset := by
  have htables := ingest_tables cfg receivedNow req a.monitor
  dsimp only [Archive.step]
  cases haccepted : acceptedSample cfg receivedNow req a.monitor with
  | none =>
      rw [haccepted] at htables
      dsimp only at htables ⊢
      exact ⟨by rw [htables]; exact h.tables, h.taps⟩
  | some s =>
      rw [haccepted] at htables
      dsimp only at htables ⊢
      refine ⟨by rw [htables]; exact h.tables.writeSample, fun key hkey => ?_⟩
      unfold writeNodeStats at hkey
      rcases KeyedTable.mem_keys_mergeGroups.mp hkey with hold | ⟨row, hrow, rfl⟩
      · exact h.taps key hold
      · unfold nodeStatKey
        rw [(Sample.stage_mem hrow).2.2.1]
        exact aligned_bucketFor s.dataTime

/-! ### Deletes -/

theorem RollupTables.Capped.deleteOlder (h : t.Capped off) (table : RollupTable) (cutoff : Int) :
    (deleteOlder table cutoff t).Capped off := by
  cases table with
  | vmHourly => exact { h with vmHours := fun key hkey => h.vmHours key (KeyedTable.mem_keys_deleteWhere.mp hkey).1 }
  | vmDaily => exact { h with vmDays := fun key hkey => h.vmDays key (KeyedTable.mem_keys_deleteWhere.mp hkey).1 }
  | node5m => exact { h with node5m := h.node5m.deleteWhere _ }
  | nodeHourly => exact { h with nodeHourly := h.nodeHourly.deleteWhere _ }
  | nodeDaily => exact { h with nodeDaily := h.nodeDaily.deleteWhere _ }

theorem Archive.Capped.dropVm (h : a.Capped off) (vmUuid : String) : (a.dropVm vmUuid).Capped off where
  tables :=
    { node5m := h.tables.node5m, nodeHourly := h.tables.nodeHourly, nodeDaily := h.tables.nodeDaily
      vmHours := fun key hkey => h.tables.vmHours key (KeyedTable.mem_keys_deleteWhere.mp hkey).1
      vmDays := fun key hkey => h.tables.vmDays key (KeyedTable.mem_keys_deleteWhere.mp hkey).1 }
  taps := fun key hkey => h.taps key (KeyedTable.mem_keys_deleteWhere.mp hkey).1

/-! ### Purges -/

def NodeTable.seconds : NodeTable → Int
  | .fiveMinutes => 300
  | .hourly => 3600
  | .daily => 86400

/-- What a row is rebuilt from fits into its cell. -/
theorem within_data (a : Archive) (table : NodeTable) (key : NodeKey) (row : NodeConsumption)
    (h : a.data table key = some row) : row.Within table.seconds := by
  cases table with
  | fiveMinutes =>
      dsimp only [Archive.data] at h
      split at h
      · cases h
      · exact Option.some.inj h ▸ within_aggVm5m _ _
  | hourly =>
      dsimp only [Archive.data] at h
      split at h
      · cases h
      · exact Option.some.inj h ▸ within_aggVmRollup (by decide) _ _
  | daily =>
      dsimp only [Archive.data] at h
      split at h
      · cases h
      · exact Option.some.inj h ▸ within_aggVmRollup (by decide) _ _

/-- An update of the rows that keeps what they cover within their cells. -/
theorem Capped.update {ρ : Type} {g : Int} {toRow : ρ → NodeConsumption} {table : KeyedTable NodeKey ρ}
    (h : Capped g off toRow table) {f : NodeKey → ρ → ρ} (hf : ∀ key row, (toRow row).Within g → (toRow (f key row)).Within g) :
    Capped g off toRow (table.update f) :=
  KeyedTable.Every.update h fun key row hrow => ⟨hrow.1, hf key row hrow.2⟩

theorem Archive.Capped.rebuildNodeVmColumns (h : a.Capped off) (nodes : List String) :
    (a.rebuildNodeVmColumns nodes).Capped off where
  tables :=
    { node5m := h.tables.node5m.update fun key row hrow => by
        dsimp only [id]
        split
        · exact within_rebuildRow (by decide) (within_data a .fiveMinutes key) hrow
        · exact hrow
      nodeHourly := h.tables.nodeHourly.update fun key row hrow => by
        dsimp only
        split
        · exact within_rebuildRow (by decide) (within_data a .hourly key) hrow
        · exact hrow
      nodeDaily := h.tables.nodeDaily.update fun key row hrow => by
        dsimp only
        split
        · exact within_rebuildRow (by decide) (within_data a .daily key) hrow
        · exact hrow
      vmHours := h.tables.vmHours
      vmDays := h.tables.vmDays }
  taps := h.taps

theorem Archive.Capped.purgeAllVmsForNode (h : a.Capped off) (node : String) : (a.purgeAllVmsForNode node).Capped off where
  tables :=
    { node5m := h.tables.node5m.update fun key row hrow => by
        dsimp only [id]
        split
        · exact within_resetVm (by decide) hrow
        · exact hrow
      nodeHourly := h.tables.nodeHourly.update fun key row hrow => by
        dsimp only
        split
        · exact within_resetVm (by decide) hrow
        · exact hrow
      nodeDaily := h.tables.nodeDaily.update fun key row hrow => by
        dsimp only
        split
        · exact within_resetVm (by decide) hrow
        · exact hrow
      vmHours := fun key hkey => h.tables.vmHours key (KeyedTable.mem_keys_deleteWhere.mp hkey).1
      vmDays := fun key hkey => h.tables.vmDays key (KeyedTable.mem_keys_deleteWhere.mp hkey).1 }
  taps := fun key hkey => h.taps key (KeyedTable.mem_keys_deleteWhere.mp hkey).1

theorem Archive.Capped.purgeNodeData (h : a.Capped off) (node : String) : (a.purgeNodeData node).Capped off := by
  have hpurged := h.purgeAllVmsForNode node
  exact
    { tables :=
        { node5m := hpurged.tables.node5m.deleteWhere _
          nodeHourly := hpurged.tables.nodeHourly.deleteWhere _
          nodeDaily := hpurged.tables.nodeDaily.deleteWhere _
          vmHours := hpurged.tables.vmHours
          vmDays := hpurged.tables.vmDays }
      taps := hpurged.taps }

/-! ### A backfill -/

theorem onGrid_sqlHourStart (off x : Int) : OnHour off (sqlHourStart off x) := by
  unfold sqlHourStart OnHour OnGrid
  rw [sub_add_cancel]
  exact dvd_mul_left 3600 _

theorem onGrid_sqlDayStart (off x : Int) : OnDay off (sqlDayStart off x) := by
  unfold sqlDayStart OnDay OnGrid
  rw [sub_add_cancel]
  exact dvd_mul_left 86400 _

theorem hourStart_of_mem_perBucket {rows : List PhysicalStat} {bucket : PhysicalBucket} (h : bucket ∈ perBucket off rows) :
    OnHour off bucket.hourStart := by
  obtain ⟨group, hgroup, rfl⟩ := List.mem_map.mp h
  obtain ⟨hne, hmem⟩ := KeyedTable.groupBy_groupOf _ _ group hgroup
  obtain ⟨row, hrow⟩ := List.exists_mem_of_ne_nil _ hne
  dsimp only
  rw [← (hmem row hrow).2]
  exact onGrid_sqlHourStart off row.time

theorem capped_vmRollup {b : Backfill} {cap first : Int} {vms : List (VmKey × VmConsumption)}
    {table : KeyedTable NodeKey NodeRollup} (hcap : 0 ≤ cap) (h : Capped cap off NodeRollup.toNodeConsumption table)
    (hkeys : ∀ row ∈ vms, OnGrid cap off row.1.start) :
    Capped cap off NodeRollup.toNodeConsumption (b.vmRollup cap first vms table) :=
  Capped.mergeGroups h (fun row hrow => hkeys row (List.mem_filter.mp hrow).1) (within_aggVmRollup hcap b.bridge)
    fun _ _ hold hnew => within_overwriteVm hold hnew

/-- **A backfill** overwrites rows with others that are capped in the same way. -/
theorem Archive.Capped.backfill (h : a.Capped off) (b : Backfill) : (a.backfill off b).Capped off := by
  have hphysical5m : Consumption.Capped 300 0 id (b.physical5m a.physicalStats a.monitor.tables.node5m) := by
    refine h.tables.node5m.mergeGroups (fun row _ => ?_) within_aggPhysical5m
      fun _ _ hold hnew => within_overwritePhysical hold hnew
    rw [row.bucket_eq]
    exact aligned_bucketFor row.time
  have hphysicalHourly : Consumption.Capped 3600 off NodeRollup.toNodeConsumption
      (b.physicalHourly off a.physicalStats a.monitor.tables.nodeHourly) :=
    h.tables.nodeHourly.mergeGroups (fun _ hbucket => hourStart_of_mem_perBucket hbucket) within_aggPhysicalHourly
      fun _ _ hold hnew => within_overwritePhysical hold hnew
  have hvmHourly : Consumption.Capped 3600 off NodeRollup.toNodeConsumption (b.vmHourly a.monitor.tables.vmHourly
      (b.physicalHourly off a.physicalStats a.monitor.tables.nodeHourly)) := by
    refine capped_vmRollup (by decide) hphysicalHourly fun row hrow => ?_
    obtain ⟨vm, hvm, rfl⟩ := List.mem_map.mp hrow
    exact h.tables.vmHours vm.1 (List.mem_map_of_mem hvm)
  have hphysicalDaily : ∀ hours, Consumption.Capped 86400 off NodeRollup.toNodeConsumption
      (b.physicalDaily off hours a.monitor.tables.nodeDaily) := by
    intro hours
    exact h.tables.nodeDaily.mergeGroups (fun row _ => onGrid_sqlDayStart off row.1.start) within_aggPhysicalDaily
      fun _ _ hold hnew => within_overwritePhysical hold hnew
  exact
    { tables :=
        { node5m := hphysical5m.mergeGroups
            (fun row hrow => h.taps row.1 (List.mem_map_of_mem (List.mem_filter.mp hrow).1)) (within_aggVm5m b.bridge)
            fun _ _ hold hnew => within_overwriteVm hold hnew
          nodeHourly := hvmHourly
          nodeDaily := capped_vmRollup (by decide) (hphysicalDaily _)
            fun row hrow => h.tables.vmDays row.1 (List.mem_map_of_mem hrow)
          vmHours := h.tables.vmHours
          vmDays := h.tables.vmDays }
      taps := h.taps }

end Steps

/-- Every event keeps the tables capped. -/
theorem Books.capped_step {cfg : Config} {b : Books} (h : b.archive.Capped cfg.tzOffset) (event : BookEvent) :
    (b.step cfg event).archive.Capped cfg.tzOffset := by
  cases event with
  | push receivedNow req => exact h.push receivedNow req
  | prune cutoff keep => exact ⟨h.tables, fun key hkey => h.taps key (KeyedTable.mem_keys_deleteWhere.mp hkey).1⟩
  | delete table cutoff => exact ⟨h.tables.deleteOlder table cutoff, h.taps⟩
  | deleteReceipts cutoff => exact ⟨h.tables, h.taps⟩
  | purgeVm item => exact (h.dropVm item.vmUuid).rebuildNodeVmColumns _
  | purgeNodeVms node => exact h.purgeAllVmsForNode node
  | purgeNode node => exact h.purgeNodeData node
  | backfill b => exact h.backfill b

/-- **The caps hold in every run.** -/
theorem Books.capped_run {cfg : Config} {b : Books} (h : b.archive.Capped cfg.tzOffset) (events : List BookEvent) :
    (b.run cfg events).archive.Capped cfg.tzOffset := by
  induction events generalizing b with
  | nil => exact h
  | cons event rest ih => exact ih (capped_step h event)

/-! ## What the reader adds up -/

section Reader

variable {off start stop rawAvailableStart : Int} {t : RollupTables} {node : String} {meter : Meter}

theorem coverageSum_flatMap {β : Type} (parts : List β) (f : β → List (NodeKey × NodeConsumption)) :
    coverageSum (parts.flatMap f) node meter = (parts.map fun part => coverageSum (f part) node meter).sum := by
  induction parts with
  | nil => rfl
  | cons part rest ih =>
      rw [List.flatMap_cons, List.map_cons, List.sum_cons, ← ih]
      simp [coverageSum]

/-- **The selected rows of a capped table** cover at most the cells they are selected from. -/
theorem coverageSum_select_le {ρ : Type} {g shift : Int} (lo hi : Int) {toRow : ρ → NodeConsumption}
    {table : KeyedTable NodeKey ρ} (node : String) (meter : Meter) (hg : 0 ≤ g) (h : Capped g shift toRow table) :
    coverageSum ((table.select fun key => lo ≤ key.start && key.start < hi).map fun row => (row.1, toRow row.2)) node meter ≤
      g * (gridCells g shift lo hi).card := by
  unfold coverageSum
  rw [List.filter_map, List.map_map]
  have hrow : ∀ row ∈ (table.select fun key => lo ≤ key.start && key.start < hi).filter
      ((fun row : NodeKey × NodeConsumption => decide (row.1.node = node)) ∘ fun row => (row.1, toRow row.2)),
      row ∈ table.rows ∧ row.1.node = node ∧ lo ≤ row.1.start ∧ row.1.start < hi := by
    intro row hmem
    simpa [KeyedTable.select, and_assoc, and_comm, and_left_comm] using hmem
  refine sum_le_gridCells (fun row => row.1.start) _ hg ?_ (fun row hmem => ?_) fun row hmem => ?_
  · -- Rows of one node and one time would share their key.
    refine List.Nodup.map_on (fun row hmem other hother heq => ?_)
      ((List.Nodup.of_map Prod.fst table.nodupKeys).filter _ |>.filter _)
    obtain ⟨hin, hnode, -⟩ := hrow row hmem
    obtain ⟨hin', hnode', -⟩ := hrow other hother
    have hkey : row.1 = other.1 := by
      obtain ⟨⟨rowStart, rowNode⟩, columns⟩ := row
      obtain ⟨⟨otherStart, otherNode⟩, columns'⟩ := other
      exact NodeKey.mk.injEq .. ▸ ⟨heq, hnode.trans hnode'.symm⟩
    exact List.inj_on_of_nodup_map table.nodupKeys hin hin' hkey
  · obtain ⟨hin, -, hlo, hhi⟩ := hrow row hmem
    exact mem_gridCells.mpr ⟨⟨hlo, hhi⟩, (h row.1 row.2 (KeyedTable.get?_of_mem_rows hin)).1⟩
  · obtain ⟨hin, -⟩ := hrow row hmem
    exact (h row.1 row.2 (KeyedTable.get?_of_mem_rows hin)).2 meter

/-- A part of the window covers at most its cells. -/
theorem coverageSum_part_le (h : t.Capped off) (part : NodePart) :
    coverageSum (part.rows t) node meter ≤ part.seconds off := by
  obtain ⟨resolution, start, stop⟩ := part
  cases resolution with
  | raw =>
      have hle := coverageSum_select_le start stop node meter (by decide) h.node5m
      rwa [show (fun row : NodeKey × NodeConsumption => (row.1, id row.2)) = id from rfl, List.map_id] at hle
  | hourly => exact coverageSum_select_le start stop node meter (by decide : (0 : Int) ≤ 3600) h.nodeHourly
  | daily => exact coverageSum_select_le start stop node meter (by decide : (0 : Int) ≤ 86400) h.nodeDaily

/-- **The reader's coverage is at most the length of the cells it consults.** -/
theorem nodeCoverageSeconds_le (h : t.Capped off) :
    nodeCoverageSeconds off start stop rawAvailableStart t node meter ≤ consultedSeconds off start stop rawAvailableStart := by
  have hsum : coverageSum ((nodeSource off start stop rawAvailableStart).flatMap (NodePart.rows t)) node meter ≤
      consultedSeconds off start stop rawAvailableStart := by
    rw [coverageSum_flatMap]
    exact List.sum_le_sum fun part _ => coverageSum_part_le h part
  unfold nodeCoverageSeconds
  dsimp only
  split <;> omega

/-! ## The cells of a window -/

theorem seconds_of_le {part : NodePart} (h : part.start ≤ part.stop) : part.seconds off =
    gridCeil part.resolution.seconds (part.resolution.shift off) part.stop -
      gridCeil part.resolution.seconds (part.resolution.shift off) part.start :=
  mul_card_gridCells (by cases part.resolution <;> decide) h

theorem seconds_rawPart (h : start ≤ stop) :
    ((rawPart start stop).map (NodePart.seconds off)).sum = gridCeil 300 0 stop - gridCeil 300 0 start := by
  unfold rawPart
  split
  · obtain rfl : start = stop := by omega
    simp
  · rw [List.map_singleton, List.sum_singleton, seconds_of_le h]
    rfl

/-- The buckets keep their place within the local hours. -/
theorem gridCeil_bucket_of_hours {x y : Int} (hx : OnHour off x) (hy : OnHour off y) :
    gridCeil 300 0 x - x = gridCeil 300 0 y - y := by
  obtain ⟨a, ha⟩ := hx
  obtain ⟨b, hb⟩ := hy
  unfold gridCeil gridFloor
  split <;> split <;> omega

theorem seconds_hours {x y : Int} (hx : OnHour off x) (hy : OnHour off y) (h : x ≤ y) :
    NodePart.seconds off ⟨.hourly, x, y⟩ = y - x := by
  rw [seconds_of_le h]
  show gridCeil 3600 off y - gridCeil 3600 off x = y - x
  rw [hx.gridCeil_eq (by decide), hy.gridCeil_eq (by decide)]

/-- **An edge is covered by its cells**, whatever the offset of the hours. -/
theorem seconds_nodeEdge (h : start ≤ stop) :
    ((nodeEdge off start stop).map (NodePart.seconds off)).sum = gridCeil 300 0 stop - gridCeil 300 0 start := by
  have hceil : start ≤ ceilHour off start := le_gridCeil (by decide)
  have hfloor : localHourStart off stop ≤ stop := gridFloor_le (by decide)
  unfold nodeEdge
  dsimp only
  split
  · obtain rfl : start = stop := by omega
    simp
  · split
    · exact seconds_rawPart h
    · next hhours =>
        have hfirst : OnHour off (ceilHour off start) := onGrid_gridCeil
        have hlast : OnHour off (localHourStart off stop) := onGrid_gridFloor
        have hplace := gridCeil_bucket_of_hours hfirst hlast
        have hhead : ((if start < ceilHour off start then rawPart start (ceilHour off start) else []).map
            (NodePart.seconds off)).sum = gridCeil 300 0 (ceilHour off start) - gridCeil 300 0 start := by
          split
          · exact seconds_rawPart hceil
          · obtain heq : ceilHour off start = start := by omega
            rw [heq]
            simp
        have htail : ((if localHourStart off stop < stop then rawPart (localHourStart off stop) stop else []).map
            (NodePart.seconds off)).sum = gridCeil 300 0 stop - gridCeil 300 0 (localHourStart off stop) := by
          split
          · exact seconds_rawPart hfloor
          · obtain heq : localHourStart off stop = stop := by omega
            rw [heq]
            simp
        rw [List.map_append, List.map_append, List.sum_append, List.sum_append, hhead, htail, List.map_singleton,
          List.sum_singleton, seconds_hours hfirst hlast (by omega)]
        omega

/-- **The plan covers the window.** -/
theorem seconds_nodePlan (h : start ≤ stop) :
    ((nodePlan off start stop).map (NodePart.seconds off)).sum = gridCeil 300 0 stop - gridCeil 300 0 start := by
  rw [nodePlan_eq]
  split
  · next hdays =>
      have hfirst : OnDay off (gridCeil 86400 off start) := onGrid_gridCeil
      have hlast : OnDay off (localDayStart off stop) := onGrid_gridFloor
      have hplace := gridCeil_bucket_of_hours hfirst.onHour hlast.onHour
      have hdaily : NodePart.seconds off ⟨.daily, gridCeil 86400 off start, localDayStart off stop⟩ =
          localDayStart off stop - gridCeil 86400 off start := by
        rw [seconds_of_le hdays.le]
        show gridCeil 86400 off (localDayStart off stop) - gridCeil 86400 off (gridCeil 86400 off start) = _
        rw [hlast.gridCeil_eq (by decide), hfirst.gridCeil_eq (by decide)]
      have hto : localDayStart off stop ≤ stop := gridFloor_le (by decide)
      rw [List.map_cons, List.map_append, List.sum_cons, List.sum_append, hdaily,
        seconds_nodeEdge (le_gridCeil (by decide)), seconds_nodeEdge hto]
      omega
  · exact seconds_nodeEdge h

/-! ## Clipping -/

theorem seconds_nonneg (part : NodePart) : 0 ≤ part.seconds off := by
  unfold NodePart.seconds
  have hseconds : 0 ≤ part.resolution.seconds := by cases part.resolution <;> decide
  exact mul_nonneg hseconds (Int.natCast_nonneg _)

/-- The cells of a part from a later start on. -/
theorem cells_subset (off : Int) (part : NodePart) {x : Int} (h : part.start ≤ x) :
    ({ part with start := x } : NodePart).cells off ⊆ part.cells off := by
  intro cell hcell
  obtain ⟨hrange, hgrid⟩ := mem_gridCells.mp hcell
  exact mem_gridCells.mpr ⟨⟨h.trans hrange.1, hrange.2⟩, hgrid⟩

/-- What clipping leaves of a part. -/
def clippedSeconds (off rawAvailableStart : Int) (part : NodePart) : Int :=
  (clipRaw rawAvailableStart part).elim 0 (NodePart.seconds off)

theorem clippedSeconds_le (part : NodePart) : clippedSeconds off rawAvailableStart part ≤ part.seconds off := by
  obtain ⟨resolution, start, stop⟩ := part
  cases resolution with
  | raw =>
      unfold clippedSeconds clipRaw
      dsimp only
      split
      · exact seconds_nonneg _
      · have hcard := Finset.card_le_card (cells_subset off ⟨.raw, start, stop⟩
          (le_max_left start rawAvailableStart))
        exact mul_le_mul_of_nonneg_left (Int.ofNat_le.mpr hcard) (by decide : (0 : Int) ≤ 300)
  | hourly => exact le_rfl
  | daily => exact le_rfl

/-- A bucket before the rows that are left is lost. -/
theorem clippedSeconds_lt {part : NodePart} (hraw : part.resolution = .raw) {bucket : Int} (hbucket : bucket ∈ part.cells off)
    (hlost : bucket < rawAvailableStart) : clippedSeconds off rawAvailableStart part < part.seconds off := by
  obtain ⟨resolution, start, stop⟩ := part
  obtain rfl : resolution = .raw := hraw
  unfold clippedSeconds clipRaw
  dsimp only
  split
  · have hcard : 0 < (NodePart.cells off ⟨.raw, start, stop⟩).card := Finset.card_pos.mpr ⟨bucket, hbucket⟩
    exact mul_pos (by decide : (0 : Int) < 300) (Int.ofNat_lt.mpr hcard)
  · have hcard : (NodePart.cells off ⟨.raw, max start rawAvailableStart, stop⟩).card <
        (NodePart.cells off ⟨.raw, start, stop⟩).card := by
      refine Finset.card_lt_card (Finset.ssubset_iff_of_subset (cells_subset off ⟨.raw, start, stop⟩
        (le_max_left start rawAvailableStart)) |>.mpr ⟨bucket, hbucket, fun hmem => ?_⟩)
      have hle : max start rawAvailableStart ≤ bucket := (mem_gridCells.mp hmem).1.1
      omega
    exact mul_lt_mul_of_pos_left (Int.ofNat_lt.mpr hcard) (by decide : (0 : Int) < 300)

theorem consultedSeconds_eq : consultedSeconds off start stop rawAvailableStart =
    ((nodePlan off start stop).map (clippedSeconds off (max 0 rawAvailableStart))).sum := by
  unfold consultedSeconds nodeSource
  induction nodePlan off start stop with
  | nil => rfl
  | cons part rest ih =>
      rw [List.map_cons, List.sum_cons, ← ih, List.filterMap_cons]
      unfold clippedSeconds
      cases clipRaw (max 0 rawAvailableStart) part <;> simp

/-- **A clipped edge shortens what the reader consults.** -/
theorem consultedSeconds_lt (hstart : Aligned start) (hstop : Aligned stop) (hle : start ≤ stop)
    (h : EdgeClipped off start stop (max 0 rawAvailableStart)) :
    consultedSeconds off start stop rawAvailableStart < stop - start := by
  obtain ⟨part, hpart, hraw, bucket, hbucket, hlost⟩ := h
  have hplan : ((nodePlan off start stop).map (NodePart.seconds off)).sum = _ := seconds_nodePlan hle
  rw [hstop.gridCeil_eq (by decide), hstart.gridCeil_eq (by decide)] at hplan
  rw [consultedSeconds_eq, ← hplan]
  exact List.sum_lt_sum _ _ (fun part _ => clippedSeconds_le part) ⟨part, hpart, clippedSeconds_lt hraw hbucket hlost⟩

end Reader

/-- Without a window there is no edge. -/
theorem le_of_edgeClipped {off start stop rawAvailableStart : Int} (h : EdgeClipped off start stop rawAvailableStart) :
    start ≤ stop := by
  obtain ⟨part, hpart, -⟩ := h
  by_contra hlt
  have hday : start ≤ gridCeil 86400 off start := le_gridCeil (by decide)
  have hday' : localDayStart off stop ≤ stop := gridFloor_le (by decide)
  rw [nodePlan_eq, if_neg (by omega), nodeEdge, if_pos (by omega)] at hpart
  cases hpart

/-- Less than the window is less than 100 percent. -/
theorem coveragePercent_lt {off start stop rawAvailableStart : Int} {t : RollupTables} {node : String}
    (h : ∀ meter, nodeCoverageSeconds off start stop rawAvailableStart t node meter < max 1 (stop - start)) :
    coveragePercent off start stop rawAvailableStart t node < 100 := by
  unfold coveragePercent
  dsimp only
  have hcovered : (if nodeCoverageSeconds off start stop rawAvailableStart t node .physical <
      nodeCoverageSeconds off start stop rawAvailableStart t node .vm then
        nodeCoverageSeconds off start stop rawAvailableStart t node .physical
      else nodeCoverageSeconds off start stop rawAvailableStart t node .vm) < max 1 (stop - start) := by
    split
    · exact h .physical
    · exact h .vm
  have hexpected : (0 : ℚ) < (max 1 (stop - start) : Int) := by exact_mod_cast (by omega : (0 : Int) < max 1 (stop - start))
  have hlt : ∀ covered : Int, covered < max 1 (stop - start) →
      (covered : ℚ) * 100 / (max 1 (stop - start) : Int) < 100 := by
    intro covered hlt
    rw [div_lt_iff₀ hexpected, mul_comm]
    exact mul_lt_mul_of_pos_left (Int.cast_lt.mpr hlt) (by decide)
  rw [if_neg (not_lt.mpr (hlt _ hcovered).le)]
  exact hlt _ hcovered

/-- **Coverage is never overstated**: after any run, either coverage of a node over a window is at most the length of the
    buckets, hours and days whose rows the reader consults, and a window with a clipped edge shows less than 100
    percent. -/
theorem coverage_never_overstated (cfg : Config) (events : List BookEvent) {start stop : Int} (hstart : Aligned start)
    (hstop : Aligned stop) (now : Int) (node : String) :
    let t := (Books.init.run cfg events).archive.monitor.tables
    let available := nodeRawAvailableStart now
    (∀ meter, nodeCoverageSeconds cfg.tzOffset start stop available t node meter ≤
      consultedSeconds cfg.tzOffset start stop available) ∧
    (EdgeClipped cfg.tzOffset start stop available → coveragePercent cfg.tzOffset start stop available t node < 100) := by
  intro t available
  have hcapped : t.Capped cfg.tzOffset := (Books.capped_run (b := Books.init) (Archive.capped_init cfg.tzOffset) events).tables
  refine ⟨fun meter => nodeCoverageSeconds_le hcapped, fun hclipped => coveragePercent_lt fun meter => ?_⟩
  have havailable : max 0 available = available := by
    show max 0 (nodeRawAvailableStart now) = nodeRawAvailableStart now
    unfold nodeRawAvailableStart
    dsimp only
    omega
  have hconsulted : consultedSeconds cfg.tzOffset start stop available < stop - start :=
    consultedSeconds_lt hstart hstop (le_of_edgeClipped hclipped) (by rwa [havailable])
  have hcoverage : nodeCoverageSeconds cfg.tzOffset start stop available t node meter ≤
      consultedSeconds cfg.tzOffset start stop available := nodeCoverageSeconds_le hcapped
  omega

/-- A push with a NIC and a tap. -/
def coveredPush (time : Int) : PushRequest :=
  { time := some time, node := "n1", interval := some 3600
    interfaces := some [some { vmUuid := "vm-1", bridge := "br0", rxDelta := some 1 }]
    physicalInterfaces := [some { role := "public", rxDelta := some 1 }] }

/-- The first bucket of the window is past the two days. -/
theorem coverage_never_overstated_clipped :
    let t := (Books.init.run { tzOffset := 0 } [.push 600 (coveredPush 600), .push 900 (coveredPush 900)]).archive.monitor.tables
    nodeCoverageSeconds 0 300 1200 600 t "n1" .physical ≤ consultedSeconds 0 300 1200 600 ∧
      coveragePercent 0 300 1200 600 t "n1" < 100 := by
  have hclipped : EdgeClipped 0 300 1200 (nodeRawAvailableStart 173400) :=
    ⟨⟨.raw, 300, 1200⟩, by decide, rfl, 300, mem_gridCells.mpr (by decide), by decide⟩
  have hwindow := coverage_never_overstated { tzOffset := 0 } [.push 600 (coveredPush 600), .push 900 (coveredPush 900)]
    (by decide : Aligned 300) (by decide : Aligned 1200) 173400 "n1"
  exact ⟨hwindow.1 .physical, hwindow.2 hclipped⟩

end VirtInfra.Consumption
