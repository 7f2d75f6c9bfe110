import VirtInfra.Consumption.Backfill
import VirtInfra.Lib.Attribution

/-!
# `PurgeVm` — taking one VM out of the node tables

`purge_vm_data` deletes the rows of one VM. The rows of the node tables hold the bytes of all VMs of a node together, so
the purge zeroes their VM columns and rebuilds them from the rows that are left of the other VMs: the tap rows for the
5-minute rows, the hourly and daily VM rows for the others. What retention took from these sources before is gone from
the node rows with the first purge on the node. A ledger beside the tables says which VM the bytes of a row came from;
the purge is exact if and only if the sources still hold what the ledger says (`purge_vm_exact_iff`).
-/

namespace VirtInfra.Consumption

open Lib Python

/-! ## The node rows and their sources -/

inductive NodeTable | fiveMinutes | hourly | daily
  deriving DecidableEq, Repr

/-- A row of a node table, without the two columns only the rollups have. -/
def RollupTables.nodeRow (t : RollupTables) : NodeTable → NodeKey → Option NodeConsumption
  | .fiveMinutes, key => t.node5m.get? key
  | .hourly, key => (t.nodeHourly.get? key).map NodeRollup.toNodeConsumption
  | .daily, key => (t.nodeDaily.get? key).map NodeRollup.toNodeConsumption

/-- A VM byte column. -/
abbrev VmColumn := Role × Direction

def NodeConsumption.vmBytes (row : NodeConsumption) (column : VmColumn) : Nat := row.bytes ⟨.vm, column.1, column.2⟩

/-- The physical columns of a row. -/
def NodeConsumption.physical (row : NodeConsumption) : (Role → Direction → Nat) × Int × Int :=
  (fun role dir => row.bytes ⟨.physical, role, dir⟩, row.physicalCoverageSeconds, row.physicalSampleCount)

/-- The bytes in a VM column, 0 without a row. -/
def RollupTables.vmBytes (t : RollupTables) (table : NodeTable) (key : NodeKey) (column : VmColumn) : Nat :=
  ((t.nodeRow table key).map fun row => row.vmBytes column).getD 0

/-- The bytes of one VM in one row. -/
abbrev VmEntry := Entry NodeKey String VmColumn

/-- `SUM(CASE WHEN bridge=? THEN … ELSE 0 END)` over a single row. -/
def guestEntry {κ ρ : Type} (key : κ → NodeKey) (vmUuid bridgeOf : κ → String) (deltas : ρ → Counters)
    (bridge : Role → String) (row : κ × ρ) : VmEntry :=
  { key := key row.1, owner := vmUuid row.1
    amount := fun column =>
      if bridgeOf row.1 = bridge column.1 then (deltas row.2).bytes column.2.swap else 0 }

def NodeStatKey.nodeKey (key : NodeStatKey) : NodeKey := ⟨key.bucket, key.node⟩

def VmKey.nodeKey (key : VmKey) : NodeKey := ⟨key.start, key.node⟩

def tapEntry : (Role → String) → NodeStatKey × NodeStat → VmEntry :=
  guestEntry NodeStatKey.nodeKey NodeStatKey.vmUuid NodeStatKey.bridge NodeStat.deltas

def vmEntry : (Role → String) → VmKey × VmConsumption → VmEntry :=
  guestEntry VmKey.nodeKey VmKey.vmUuid VmKey.bridge VmConsumption.deltas

/-- The hourly VM rows with the columns they share with the daily ones. -/
def RollupTables.vmHourlyRows (t : RollupTables) : List (VmKey × VmConsumption) :=
  t.vmHourly.rows.map fun row => (row.1, row.2.toVmConsumption)

/-- **The rows a node table is rebuilt from**, as entries. -/
def Archive.sources (bridge : Role → String) (a : Archive) : NodeTable → List VmEntry
  | .fiveMinutes => a.nodeStats.rows.map (tapEntry bridge)
  | .hourly => a.monitor.tables.vmHourlyRows.map (vmEntry bridge)
  | .daily => a.monitor.tables.vmDaily.rows.map (vmEntry bridge)

/-! ## `purge_vm_data` -/

/-- An item of a `purge_vms` job, whose fields `execute_action` has stripped and found set. -/
structure PurgeItem where
  node : String
  vmUuid : String
  node_clean : strip node = node ∧ node ≠ ""
  vm_clean : strip vmUuid = vmUuid ∧ vmUuid ≠ ""

/-- The nodes of the item and of the VM's hourly and daily rows. -/
def affectedNodes (t : RollupTables) (item : PurgeItem) : List String :=
  (strip item.node :: ((t.vmHourly.keys ++ t.vmDaily.keys).filter fun key => key.vmUuid = item.vmUuid).map fun key =>
    strip key.node).filter (· ≠ "")

/-- `DELETE FROM … WHERE vm_uuid=?`, for the three tables the node rows are rebuilt from. -/
def Archive.dropVm (vmUuid : String) (a : Archive) : Archive :=
  let t := a.monitor.tables
  { a with
    nodeStats := a.nodeStats.deleteWhere fun key => key.vmUuid = vmUuid
    monitor := { a.monitor with
      tables := { t with
        vmHourly := t.vmHourly.deleteWhere fun key => key.vmUuid = vmUuid
        vmDaily := t.vmDaily.deleteWhere fun key => key.vmUuid = vmUuid } } }

/-- `UPDATE … SET vm_public_rx_bytes=0, …`. -/
def resetVm (row : NodeConsumption) : NodeConsumption :=
  { row with
    bytes := fun column => match column.meter with
      | .vm => 0
      | .physical => row.bytes column
    vmCoverageSeconds := 0
    vmSampleCount := 0
    vmCount := 0 }

/-- The row of a key in the three `data` queries. -/
def Archive.data (a : Archive) : NodeTable → NodeKey → Option NodeConsumption
  | .fiveMinutes, key =>
      let group := a.nodeStats.rows.filter fun row => row.1.nodeKey = key
      if group.isEmpty then none else some (aggVm5m Role.bridge group)
  | .hourly, key =>
      let group := a.monitor.tables.vmHourlyRows.filter fun row => row.1.nodeKey = key
      if group.isEmpty then none else some (aggVmRollup 3600 Role.bridge group).toNodeConsumption
  | .daily, key =>
      let group := a.monitor.tables.vmDaily.rows.filter fun row => row.1.nodeKey = key
      if group.isEmpty then none else some (aggVmRollup 86400 Role.bridge group).toNodeConsumption

/-- A row after its two updates. -/
def rebuildRow (data : Option NodeConsumption) (row : NodeConsumption) : NodeConsumption :=
  data.elim (resetVm row) (overwriteVm (resetVm row))

/-- **`_r21_rebuild_node_vm_columns`.** -/
def Archive.rebuildNodeVmColumns (nodes : List String) (a : Archive) : Archive :=
  let rebuild := fun table key row => if nodes.contains key.node then rebuildRow (a.data table key) row else row
  let t := a.monitor.tables
  { a with
    monitor := { a.monitor with
      tables := { t with
        node5m := t.node5m.update (rebuild .fiveMinutes)
        nodeHourly := t.nodeHourly.update fun key row =>
          { row with toNodeConsumption := rebuild .hourly key row.toNodeConsumption }
        nodeDaily := t.nodeDaily.update fun key row =>
          { row with toNodeConsumption := rebuild .daily key row.toNodeConsumption } } } }

/-- **`purge_vm_data`**, on the tables of the node consumption. -/
def Archive.purgeVmData (item : PurgeItem) (a : Archive) : Archive :=
  (a.dropVm item.vmUuid).rebuildNodeVmColumns (affectedNodes a.monitor.tables item)

/-- `purge_all_vms_for_node`, which only zeroes. -/
def Archive.purgeAllVmsForNode (node : String) (a : Archive) : Archive :=
  let reset := fun (key : NodeKey) row => if key.node = node then resetVm row else row
  let t := a.monitor.tables
  { a with
    nodeStats := a.nodeStats.deleteWhere fun key => key.node = node
    monitor := { a.monitor with
      tables :=
        { vmHourly := t.vmHourly.deleteWhere fun key => key.node = node
          vmDaily := t.vmDaily.deleteWhere fun key => key.node = node
          node5m := t.node5m.update reset
          nodeHourly := t.nodeHourly.update fun key row =>
            { row with toNodeConsumption := reset key row.toNodeConsumption }
          nodeDaily := t.nodeDaily.update fun key row =>
            { row with toNodeConsumption := reset key row.toNodeConsumption } } } }

/-- `purge_node_data`. -/
def Archive.purgeNodeData (node : String) (a : Archive) : Archive :=
  let a := a.purgeAllVmsForNode node
  let t := a.monitor.tables
  { a with
    physicalStats := a.physicalStats.filter fun row => row.node ≠ node
    monitor :=
      { receipts := a.monitor.receipts.filter fun receipt => receipt.node ≠ node
        tables := { t with
          node5m := t.node5m.deleteWhere fun key => key.node = node
          nodeHourly := t.nodeHourly.deleteWhere fun key => key.node = node
          nodeDaily := t.nodeDaily.deleteWhere fun key => key.node = node } } }

/-! ## The ledger -/

/-- **The database with its ledger**: for each node table, what each VM put into the rows that are there. -/
structure Books where
  archive : Archive
  ledger : NodeTable → List VmEntry

/-- The entries of a push. -/
def stageEntry (time : StageRow → Int) (row : StageRow) : VmEntry :=
  { key := ⟨time row, row.node⟩, owner := row.vmUuid, amount := fun column => vmShare ⟨.vm, column.1, column.2⟩ row }

def NodeTable.time : NodeTable → StageRow → Int
  | .fiveMinutes => StageRow.bucket
  | .hourly => StageRow.hourStart
  | .daily => StageRow.dayStart

/-- The rollup table it is. -/
def NodeTable.rollup : NodeTable → RollupTable
  | .fiveMinutes => .node5m
  | .hourly => .nodeHourly
  | .daily => .nodeDaily

/-- What changes the node tables or their sources. -/
inductive BookEvent
  | push (receivedNow : Int) (req : PushRequest)
  -- retention on the raw rows, `delete_history_older_than` among it
  | prune (cutoff : Int) (keep : String → Int → Bool)
  -- retention on the rollups and on the receipts
  | delete (table : RollupTable) (cutoff : Int)
  | deleteReceipts (cutoff : Int)
  | purgeVm (item : PurgeItem)
  | purgeNodeVms (node : String)
  | purgeNode (node : String)
  | backfill (b : Backfill)

/-- The sources that a backfill overwrites rows with. -/
def Backfill.sources (off : Int) (b : Backfill) (a : Archive) : NodeTable → List VmEntry
  | .fiveMinutes => (a.nodeStats.rows.filter fun row => b.rawCutoff ≤ row.2.lastPush).map (tapEntry b.bridge)
  | .hourly => (a.monitor.tables.vmHourlyRows.filter fun row => b.cutoff ≤ row.1.start).map (vmEntry b.bridge)
  | .daily => (a.monitor.tables.vmDaily.rows.filter fun row => b.firstDay off ≤ row.1.start).map (vmEntry b.bridge)

/-- The purge of a VM, and what the rows of the affected nodes are made of by then. -/
def Books.purgeVm (item : PurgeItem) (b : Books) : Books :=
  let nodes := affectedNodes b.archive.monitor.tables item
  let sources := (b.archive.dropVm item.vmUuid).sources Role.bridge
  { archive := b.archive.purgeVmData item
    ledger := fun table =>
      ((b.ledger table).filter fun entry => !nodes.contains entry.key.node) ++
        (sources table).filter fun entry =>
          nodes.contains entry.key.node && (b.archive.monitor.tables.nodeRow table entry.key).isSome }

def Books.step (cfg : Config) (b : Books) : BookEvent → Books
  | .push receivedNow req =>
      { archive := b.archive.step cfg (.push receivedNow req)
        ledger := fun table =>
          match acceptedSample cfg receivedNow req b.archive.monitor with
          | none => b.ledger table
          | some s => b.ledger table ++ (s.stage cfg.tzOffset).map (stageEntry table.time) }
  | .prune cutoff keep => { b with archive := b.archive.step cfg (.prune cutoff keep) }
  | .delete table cutoff =>
      { archive :=
          { b.archive with monitor := Consumption.step cfg b.archive.monitor (.delete table cutoff) }
        ledger := fun t =>
          if t.rollup = table then (b.ledger t).filter fun entry => !(entry.key.start < cutoff : Bool)
          else b.ledger t }
  | .deleteReceipts cutoff =>
      { b with
        archive := { b.archive with monitor := Consumption.step cfg b.archive.monitor (.deleteReceipts cutoff) } }
  | .purgeVm item => b.purgeVm item
  | .purgeNodeVms node =>
      { archive := b.archive.purgeAllVmsForNode node
        ledger := fun table => (b.ledger table).filter fun entry => !(entry.key.node = node : Bool) }
  | .purgeNode node =>
      { archive := b.archive.purgeNodeData node
        ledger := fun table => (b.ledger table).filter fun entry => !(entry.key.node = node : Bool) }
  | .backfill backfill =>
      let sources := backfill.sources cfg.tzOffset b.archive
      { archive := b.archive.backfill cfg.tzOffset backfill
        ledger := fun table =>
          ((b.ledger table).filter fun entry => (sources table).all fun source => source.key ≠ entry.key) ++
            sources table }

def Books.init : Books := { archive := .init, ledger := fun _ => [] }

def Books.run (cfg : Config) (b : Books) (events : List BookEvent) : Books := events.foldl (Books.step cfg) b

/-- What a VM put into a row. -/
def Books.contribution (b : Books) (table : NodeTable) (key : NodeKey) (vmUuid : String) (column : VmColumn) : Nat :=
  Attribution.share (b.ledger table) key vmUuid column

/-! ## What the operations do to a row -/

section Rows

variable {a : Archive} {t : RollupTables} {table : NodeTable} {key : NodeKey} {column : VmColumn}

theorem total_guestEntry {κ ρ : Type} (keyOf : κ → NodeKey) (vmUuid bridgeOf : κ → String) (deltas : ρ → Counters)
    (bridge : Role → String) (rows : List (κ × ρ)) :
    Attribution.total (rows.map (guestEntry keyOf vmUuid bridgeOf deltas bridge)) key column =
      guestTotalOf bridgeOf deltas bridge (rows.filter fun row => keyOf row.1 = key) column.1 column.2 := by
  unfold Attribution.total guestTotalOf
  rw [List.filter_map, List.map_map]
  rfl

theorem vmBytes_rebuildRow_of {κ ρ : Type} {keyOf : κ → NodeKey} {vmUuid bridgeOf : κ → String}
    {deltas : ρ → Counters} {rows : List (κ × ρ)} (agg : List (κ × ρ) → NodeConsumption) (row : NodeConsumption)
    (hagg : ∀ group, (agg group).vmBytes column = guestTotalOf bridgeOf deltas Role.bridge group column.1 column.2) :
    let group := rows.filter fun row => keyOf row.1 = key
    (rebuildRow (if group.isEmpty then none else some (agg group)) row).vmBytes column =
      Attribution.total (rows.map (guestEntry keyOf vmUuid bridgeOf deltas Role.bridge)) key column := by
  intro group
  rw [total_guestEntry]
  by_cases hempty : group.isEmpty = true
  · rw [if_pos hempty]
    have hnil : group = [] := List.isEmpty_iff.mp hempty
    show 0 = guestTotalOf _ _ _ group _ _
    rw [hnil]
    rfl
  · rw [if_neg hempty]
    exact hagg group

/-- **A rebuilt row** has the bytes of its sources. -/
theorem vmBytes_rebuildRow (a : Archive) (row : NodeConsumption) :
    (rebuildRow (a.data table key) row).vmBytes column = Attribution.total (a.sources Role.bridge table) key column := by
  cases table with
  | fiveMinutes => exact vmBytes_rebuildRow_of (aggVm5m Role.bridge) row fun _ => rfl
  | hourly =>
      exact vmBytes_rebuildRow_of (fun group => (aggVmRollup 3600 Role.bridge group).toNodeConsumption) row fun _ => rfl
  | daily =>
      exact vmBytes_rebuildRow_of (fun group => (aggVmRollup 86400 Role.bridge group).toNodeConsumption) row fun _ => rfl

theorem physical_rebuildRow (data : Option NodeConsumption) (row : NodeConsumption) :
    (rebuildRow data row).physical = row.physical := by
  cases data <;> rfl

theorem nodeRow_rebuild (nodes : List String) (a : Archive) :
    (a.rebuildNodeVmColumns nodes).monitor.tables.nodeRow table key =
      (a.monitor.tables.nodeRow table key).map fun row =>
        if nodes.contains key.node then rebuildRow (a.data table key) row else row := by
  cases table with
  | fiveMinutes => exact KeyedTable.get?_update _ _ _
  | hourly =>
      show Option.map _ (KeyedTable.get? (KeyedTable.update _ _) _) = _
      rw [KeyedTable.get?_update, Option.map_map]
      show _ = Option.map _ (Option.map _ _)
      rw [Option.map_map]
      rfl
  | daily =>
      show Option.map _ (KeyedTable.get? (KeyedTable.update _ _) _) = _
      rw [KeyedTable.get?_update, Option.map_map]
      show _ = Option.map _ (Option.map _ _)
      rw [Option.map_map]
      rfl

theorem nodeRow_dropVm (vmUuid : String) (a : Archive) :
    (a.dropVm vmUuid).monitor.tables.nodeRow table key = a.monitor.tables.nodeRow table key := by
  cases table <;> rfl

theorem filter_guestEntry {κ ρ : Type} (keyOf : κ → NodeKey) (vmUuid bridgeOf : κ → String) (deltas : ρ → Counters)
    (bridge : Role → String) (rows : List (κ × ρ)) (dropped : String) :
    (rows.filter fun row => !decide (vmUuid row.1 = dropped)).map (guestEntry keyOf vmUuid bridgeOf deltas bridge) =
      (rows.map (guestEntry keyOf vmUuid bridgeOf deltas bridge)).filter fun entry => entry.owner ≠ dropped := by
  rw [List.filter_map]
  refine congrArg (List.map _) (List.filter_congr fun row _ => ?_)
  exact decide_not.symm

/-- Dropping a VM drops its sources. -/
theorem sources_dropVm (vmUuid : String) (bridge : Role → String) (a : Archive) (table : NodeTable) :
    (a.dropVm vmUuid).sources bridge table = (a.sources bridge table).filter fun entry => entry.owner ≠ vmUuid := by
  cases table with
  | fiveMinutes => exact filter_guestEntry _ _ _ _ _ _ _
  | hourly =>
      have hrows : (a.dropVm vmUuid).monitor.tables.vmHourlyRows =
          a.monitor.tables.vmHourlyRows.filter fun row => !decide (row.1.vmUuid = vmUuid) := by
        unfold RollupTables.vmHourlyRows
        rw [List.filter_map]
        rfl
      unfold Archive.sources
      rw [hrows]
      exact filter_guestEntry _ _ _ _ _ _ _
  | daily => exact filter_guestEntry _ _ _ _ _ _ _

end Rows

/-! ## The books balance -/

/-- **The ledger accounts for every VM byte** of the node tables. -/
def Books.Balanced (b : Books) : Prop :=
  ∀ table key column, b.archive.monitor.tables.vmBytes table key column = Attribution.total (b.ledger table) key column

theorem balanced_init : Books.init.Balanced := by
  intro table key column
  cases table <;> rfl

section Balance

variable {cfg : Config} {b : Books} {t : RollupTables} {table : NodeTable} {key : NodeKey} {column : VmColumn}

/-- The VM bytes of a row as a sum over its table. -/
theorem vmBytes_eq_sumOf (t : RollupTables) (table : NodeTable) (key : NodeKey) (column : VmColumn) :
    t.vmBytes table key column =
      match table with
      | .fiveMinutes =>
          t.node5m.sumOf (nodeKeyIn key.node key.start (key.start + 1)) fun row => row.bytes ⟨.vm, column.1, column.2⟩
      | .hourly =>
          t.nodeHourly.sumOf (nodeKeyIn key.node key.start (key.start + 1)) fun row =>
            row.bytes ⟨.vm, column.1, column.2⟩
      | .daily =>
          t.nodeDaily.sumOf (nodeKeyIn key.node key.start (key.start + 1)) fun row =>
            row.bytes ⟨.vm, column.1, column.2⟩ := by
  unfold RollupTables.vmBytes RollupTables.nodeRow
  cases table with
  | fiveMinutes => exact (KeyedTable.sumOf_singleton (nodeKeyIn_self key) _).symm
  | hourly =>
      dsimp only
      rw [KeyedTable.sumOf_singleton (nodeKeyIn_self key), Option.map_map]
      rfl
  | daily =>
      dsimp only
      rw [KeyedTable.sumOf_singleton (nodeKeyIn_self key), Option.map_map]
      rfl

/-- The entries of a push, all of which are of one time. -/
theorem total_stageEntry {off : Int} {s : Sample} {time : StageRow → Int} {start : Int}
    (h : ∀ row ∈ s.stage off, time row = start) :
    Attribution.total ((s.stage off).map (stageEntry time)) key column =
      if key.start ≤ start ∧ start < key.start + 1 then nodeBytes off key.node ⟨.vm, column.1, column.2⟩ s else 0 := by
  unfold Attribution.total nodeBytes columnBytes
  rw [List.filter_map, List.map_map]
  have hkeep : (s.stage off).filter ((fun entry => decide (entry.key = key)) ∘ stageEntry time) =
      (s.stage off).filter fun _ => decide (start = key.start ∧ s.node = key.node) := by
    refine List.filter_congr fun row hrow => ?_
    show decide ((⟨time row, row.node⟩ : NodeKey) = key) = _
    rw [h row hrow, (Sample.stage_mem hrow).2.2.2]
    obtain ⟨keyStart, node⟩ := key
    simp
  rw [hkeep]
  by_cases hstart : start = key.start
  · rw [if_pos (by omega)]
    by_cases hnode : s.node = key.node
    · rw [if_pos hnode]
      simp [hstart, hnode]
      rfl
    · simp [hnode]
  · rw [if_neg (by omega)]
    simp [hstart]

/-- **An accepted push** adds its entries. -/
theorem vmBytes_writeSample (off : Int) (s : Sample) (t : RollupTables) :
    (writeSample off s t).vmBytes table key column = t.vmBytes table key column +
      Attribution.total ((s.stage off).map (stageEntry table.time)) key column := by
  rw [vmBytes_eq_sumOf, vmBytes_eq_sumOf]
  cases table with
  | fiveMinutes =>
      dsimp only
      rw [sumOf_node5m_writeSample, NodeTable.time, total_stageEntry fun row hrow => (Sample.stage_mem hrow).2.2.1]
  | hourly =>
      dsimp only
      rw [sumOf_nodeHourly_writeSample, NodeTable.time, total_stageEntry fun row hrow => (Sample.stage_mem hrow).1]
      rfl
  | daily =>
      dsimp only
      rw [sumOf_nodeDaily_writeSample, NodeTable.time, total_stageEntry fun row hrow => (Sample.stage_mem hrow).2.1]
      rfl

theorem nodeRow_deleteOlder (rollup : RollupTable) (cutoff : Int) (t : RollupTables) :
    (deleteOlder rollup cutoff t).nodeRow table key =
      if table.rollup = rollup ∧ key.start < cutoff then none else t.nodeRow table key := by
  by_cases hcutoff : key.start < cutoff <;> cases rollup <;> cases table <;>
    simp [deleteOlder, RollupTables.nodeRow, NodeTable.rollup, KeyedTable.get?_deleteWhere, hcutoff]

/-- **Retention on a node table** takes the entries of the rows it deletes. -/
theorem Books.Balanced.delete (h : b.Balanced) (rollup : RollupTable) (cutoff : Int) :
    (b.step cfg (.delete rollup cutoff)).Balanced := by
  intro table key column
  show (deleteOlder rollup cutoff b.archive.monitor.tables).vmBytes table key column = Attribution.total _ key column
  unfold RollupTables.vmBytes
  rw [nodeRow_deleteOlder]
  by_cases htable : table.rollup = rollup
  · dsimp only [Books.step]
    rw [if_pos htable, Attribution.total_filter_key fun key : NodeKey => !decide (key.start < cutoff), ← h table key column]
    by_cases hcutoff : key.start < cutoff
    · simp [htable, hcutoff]
    · simp [hcutoff, RollupTables.vmBytes]
  · dsimp only [Books.step]
    rw [if_neg htable, if_neg fun hboth => htable hboth.1]
    exact h table key column

theorem Books.Balanced.push (h : b.Balanced) (receivedNow : Int) (req : PushRequest) :
    (b.step cfg (.push receivedNow req)).Balanced := by
  intro table key column
  have htables := ingest_tables cfg receivedNow req b.archive.monitor
  dsimp only [Books.step, Archive.step]
  cases haccepted : acceptedSample cfg receivedNow req b.archive.monitor with
  | none =>
      rw [haccepted] at htables
      dsimp only at htables ⊢
      rw [htables]
      exact h table key column
  | some s =>
      rw [haccepted] at htables
      dsimp only at htables ⊢
      rw [htables, vmBytes_writeSample, Attribution.total_append, h table key column]

/-! ### Purges -/

theorem vmBytes_purgeVm (item : PurgeItem) (a : Archive) :
    (a.purgeVmData item).monitor.tables.vmBytes table key column =
      if key.node ∈ affectedNodes a.monitor.tables item then
        if (a.monitor.tables.nodeRow table key).isSome then
          Attribution.total ((a.dropVm item.vmUuid).sources Role.bridge table) key column
        else 0
      else a.monitor.tables.vmBytes table key column := by
  unfold Archive.purgeVmData RollupTables.vmBytes
  rw [nodeRow_rebuild, nodeRow_dropVm]
  cases a.monitor.tables.nodeRow table key with
  | none => simp
  | some row =>
      by_cases hnode : key.node ∈ affectedNodes a.monitor.tables item
      · simp [hnode, vmBytes_rebuildRow]
      · simp [hnode]

/-- **The ledger after the purge of a VM**: the totals of any choice of entries. -/
theorem total_purgeVm (item : PurgeItem) (b : Books) (keep : VmEntry → Bool) :
    Attribution.total (((b.purgeVm item).ledger table).filter keep) key column =
      if key.node ∈ affectedNodes b.archive.monitor.tables item then
        if (b.archive.monitor.tables.nodeRow table key).isSome then
          Attribution.total (((b.archive.dropVm item.vmUuid).sources Role.bridge table).filter keep) key column
        else 0
      else Attribution.total ((b.ledger table).filter keep) key column := by
  let nodes := affectedNodes b.archive.monitor.tables item
  have hold := @Attribution.total_filter_key _ _ _ _ ((b.ledger table).filter keep) key column
    fun key : NodeKey => !nodes.contains key.node
  have hnew := @Attribution.total_filter_key _ _ _ _
    (((b.archive.dropVm item.vmUuid).sources Role.bridge table).filter keep) key column
    fun key : NodeKey => nodes.contains key.node && (b.archive.monitor.tables.nodeRow table key).isSome
  dsimp only [Books.purgeVm]
  rw [List.filter_append, Attribution.total_append, List.filter_comm, hold, List.filter_comm, hnew]
  by_cases hnode : key.node ∈ nodes
  · have hmem : key.node ∈ affectedNodes b.archive.monitor.tables item := hnode
    simp [hnode, hmem]
  · rw [if_neg hnode]
    simp [hnode]

theorem Books.Balanced.purgeVm (h : b.Balanced) (item : PurgeItem) : (b.purgeVm item).Balanced := by
  intro table key column
  have htotal := @total_purgeVm table key column item b fun _ => true
  simp only [List.filter_true] at htotal
  rw [htotal, ← h table key column]
  exact vmBytes_purgeVm item b.archive

theorem nodeRow_purgeAllVmsForNode (node : String) (a : Archive) :
    (a.purgeAllVmsForNode node).monitor.tables.nodeRow table key =
      (a.monitor.tables.nodeRow table key).map fun row => if key.node = node then resetVm row else row := by
  cases table with
  | fiveMinutes => exact KeyedTable.get?_update _ _ _
  | hourly =>
      show Option.map _ (KeyedTable.get? (KeyedTable.update _ _) _) = Option.map _ (Option.map _ _)
      rw [KeyedTable.get?_update, Option.map_map, Option.map_map]
      rfl
  | daily =>
      show Option.map _ (KeyedTable.get? (KeyedTable.update _ _) _) = Option.map _ (Option.map _ _)
      rw [KeyedTable.get?_update, Option.map_map, Option.map_map]
      rfl

theorem vmBytes_purgeAllVmsForNode (node : String) (a : Archive) :
    (a.purgeAllVmsForNode node).monitor.tables.vmBytes table key column =
      if key.node = node then 0 else a.monitor.tables.vmBytes table key column := by
  unfold RollupTables.vmBytes
  rw [nodeRow_purgeAllVmsForNode, Option.map_map]
  by_cases hnode : key.node = node
  · rw [if_pos hnode]
    cases a.monitor.tables.nodeRow table key with
    | none => rfl
    | some row =>
        simp only [Option.map_some, Function.comp_apply, if_pos hnode, Option.getD_some]
        rfl
  · rw [if_neg hnode]
    simp only [Function.comp_def, if_neg hnode]

theorem nodeRow_purgeNodeData (node : String) (a : Archive) :
    (a.purgeNodeData node).monitor.tables.nodeRow table key =
      if key.node = node then none else (a.purgeAllVmsForNode node).monitor.tables.nodeRow table key := by
  unfold Archive.purgeNodeData RollupTables.nodeRow
  by_cases hnode : key.node = node <;> cases table <;> simp [KeyedTable.get?_deleteWhere, hnode]

/-- **The purges of a node** take all entries of the node. -/
theorem Books.Balanced.purgeNodeVms (h : b.Balanced) (node : String) : (b.step cfg (.purgeNodeVms node)).Balanced := by
  intro table key column
  dsimp only [Books.step]
  rw [vmBytes_purgeAllVmsForNode, Attribution.total_filter_key fun key : NodeKey => !decide (key.node = node),
    h table key column]
  by_cases hnode : key.node = node <;> simp [hnode]

theorem Books.Balanced.purgeNode (h : b.Balanced) (node : String) : (b.step cfg (.purgeNode node)).Balanced := by
  intro table key column
  have hvms := @Books.Balanced.purgeNodeVms cfg b h node table key column
  dsimp only [Books.step] at hvms ⊢
  rw [← hvms]
  unfold RollupTables.vmBytes
  rw [nodeRow_purgeNodeData]
  by_cases hnode : key.node = node
  · have hzero := @vmBytes_purgeAllVmsForNode table key column node b.archive
    rw [if_pos hnode] at hzero
    rw [if_pos hnode]
    exact hzero.symm
  · rw [if_neg hnode]

/-! ### Backfills -/

/-- The VM bytes of a row of some table. -/
def vmBytesOf {ρ : Type} (toRow : ρ → NodeConsumption) (table : KeyedTable NodeKey ρ) (key : NodeKey)
    (column : VmColumn) : Nat :=
  ((table.get? key).map fun row => (toRow row).vmBytes column).getD 0

theorem vmBytes_hourly (t : RollupTables) :
    t.vmBytes .hourly key column = vmBytesOf NodeRollup.toNodeConsumption t.nodeHourly key column := by
  unfold RollupTables.vmBytes RollupTables.nodeRow vmBytesOf
  rw [Option.map_map]
  rfl

theorem vmBytes_daily (t : RollupTables) :
    t.vmBytes .daily key column = vmBytesOf NodeRollup.toNodeConsumption t.nodeDaily key column := by
  unfold RollupTables.vmBytes RollupTables.nodeRow vmBytesOf
  rw [Option.map_map]
  rfl

/-- A statement on the physical columns changes no VM byte. -/
theorem vmBytesOf_physical {ρ α : Type} {toRow : ρ → NodeConsumption} {table : KeyedTable NodeKey ρ}
    {keyOf : α → NodeKey} {agg : List α → ρ} {merge : ρ → ρ → ρ} (items : List α)
    (hagg : ∀ group, (toRow (agg group)).vmBytes column = 0)
    (hmerge : ∀ old new, (toRow (merge old new)).vmBytes column = (toRow old).vmBytes column) :
    vmBytesOf toRow (table.mergeGroups keyOf (fun _ group => agg group) merge items) key column =
      vmBytesOf toRow table key column := by
  unfold vmBytesOf
  rw [KeyedTable.get?_mergeGroups]
  split
  · rfl
  · cases table.get? key with
    | none => exact hagg _
    | some old => exact hmerge old _

/-- A statement on the VM columns sets the rows that have sources to their totals. -/
theorem vmBytesOf_vm {κ σ ρ : Type} (table : KeyedTable NodeKey ρ) (toRow : ρ → NodeConsumption)
    (keyOf : κ → NodeKey) (vmUuid bridgeOf : κ → String) (deltas : σ → Counters) (bridge : Role → String)
    (agg : List (κ × σ) → ρ) (merge : ρ → ρ → ρ) (items : List (κ × σ))
    (hagg : ∀ group, (toRow (agg group)).vmBytes column = guestTotalOf bridgeOf deltas bridge group column.1 column.2)
    (hmerge : ∀ old new, (toRow (merge old new)).vmBytes column = (toRow new).vmBytes column) :
    let sources := items.map (guestEntry keyOf vmUuid bridgeOf deltas bridge)
    vmBytesOf toRow (table.mergeGroups (fun row => keyOf row.1) (fun _ group => agg group) merge items) key column =
      if sources.all fun source => source.key ≠ key then vmBytesOf toRow table key column
      else Attribution.total sources key column := by
  intro sources
  unfold vmBytesOf
  rw [KeyedTable.get?_mergeGroups, total_guestEntry]
  have hall : (sources.all fun source => source.key ≠ key) = true ↔ (items.filter fun row => keyOf row.1 = key) = [] := by
    rw [List.all_eq_true, List.forall_mem_map, List.filter_eq_nil_iff]
    refine forall₂_congr fun row _ => ?_
    rw [decide_eq_true_eq, decide_eq_true_eq]
    rfl
  by_cases hgroup : (items.filter fun row => keyOf row.1 = key) = []
  · rw [if_pos hgroup, if_pos (hall.mpr hgroup)]
  · rw [if_neg hgroup, if_neg fun h => hgroup (hall.mp h)]
    cases table.get? key with
    | none => exact hagg _
    | some old => exact (hmerge old _).trans (hagg _)

/-- **The VM bytes after a backfill.** -/
theorem vmBytes_backfill (off : Int) (b : Backfill) (a : Archive) :
    (a.backfill off b).monitor.tables.vmBytes table key column =
      if (b.sources off a table).all fun source => source.key ≠ key then a.monitor.tables.vmBytes table key column
      else Attribution.total (b.sources off a table) key column := by
  let t := a.monitor.tables
  cases table with
  | fiveMinutes =>
      have hphysical : vmBytesOf id (b.physical5m a.physicalStats t.node5m) key column =
          t.vmBytes .fiveMinutes key column :=
        vmBytesOf_physical _ (fun _ => rfl) fun _ _ => rfl
      rw [← hphysical]
      exact vmBytesOf_vm (b.physical5m a.physicalStats t.node5m) id NodeStatKey.nodeKey NodeStatKey.vmUuid
        NodeStatKey.bridge NodeStat.deltas b.bridge (aggVm5m b.bridge) overwriteVm
        (a.nodeStats.rows.filter fun row => b.rawCutoff ≤ row.2.lastPush) (fun _ => rfl) fun _ _ => rfl
  | hourly =>
      have hphysical : vmBytesOf NodeRollup.toNodeConsumption (b.physicalHourly off a.physicalStats t.nodeHourly) key
          column = t.vmBytes .hourly key column := by
        rw [vmBytes_hourly]
        exact vmBytesOf_physical _ (fun _ => rfl) fun _ _ => rfl
      rw [← hphysical, vmBytes_hourly]
      exact vmBytesOf_vm (b.physicalHourly off a.physicalStats t.nodeHourly) NodeRollup.toNodeConsumption VmKey.nodeKey
        VmKey.vmUuid VmKey.bridge VmConsumption.deltas b.bridge (aggVmRollup 3600 b.bridge) overwriteVmRollup
        (t.vmHourlyRows.filter fun row => b.cutoff ≤ row.1.start) (fun _ => rfl) fun _ _ => rfl
  | daily =>
      let hours := b.vmHourly t.vmHourly (b.physicalHourly off a.physicalStats t.nodeHourly)
      have hphysical : vmBytesOf NodeRollup.toNodeConsumption (b.physicalDaily off hours t.nodeDaily) key column =
          t.vmBytes .daily key column := by
        rw [vmBytes_daily]
        exact vmBytesOf_physical _ (fun _ => rfl) fun _ _ => rfl
      rw [← hphysical, vmBytes_daily]
      exact vmBytesOf_vm (b.physicalDaily off hours t.nodeDaily) NodeRollup.toNodeConsumption VmKey.nodeKey VmKey.vmUuid
        VmKey.bridge VmConsumption.deltas b.bridge (aggVmRollup 86400 b.bridge) overwriteVmRollup
        (t.vmDaily.rows.filter fun row => b.firstDay off ≤ row.1.start) (fun _ => rfl) fun _ _ => rfl

theorem Books.Balanced.backfill (h : b.Balanced) (backfill : Backfill) :
    (b.step cfg (.backfill backfill)).Balanced := by
  intro table key column
  dsimp only [Books.step]
  rw [vmBytes_backfill, Attribution.total_append,
    Attribution.total_filter_key fun key : NodeKey =>
      (backfill.sources cfg.tzOffset b.archive table).all fun source => source.key ≠ key, ← h table key column]
  split
  · rename_i hall
    have hnone : (backfill.sources cfg.tzOffset b.archive table).filter (fun source => source.key = key) = [] := by
      rw [List.filter_eq_nil_iff]
      intro source hsource
      simpa using List.all_eq_true.mp hall source hsource
    rw [Attribution.total, hnone]
    rfl
  · rw [Nat.zero_add]

/-- **The books balance throughout every run.** -/
theorem Books.Balanced.step (h : b.Balanced) (event : BookEvent) : (b.step cfg event).Balanced := by
  cases event with
  | push receivedNow req => exact h.push receivedNow req
  | prune cutoff keep => exact h
  | delete rollup cutoff => exact h.delete rollup cutoff
  | deleteReceipts cutoff => exact h
  | purgeVm item => exact h.purgeVm item
  | purgeNodeVms node => exact h.purgeNodeVms node
  | purgeNode node => exact h.purgeNode node
  | backfill backfill => exact h.backfill backfill

theorem Books.Balanced.run (h : b.Balanced) (events : List BookEvent) : (b.run cfg events).Balanced := by
  induction events generalizing b with
  | nil => exact h
  | cons event rest ih => exact ih (h.step event)

end Balance

/-! ## Exact purges -/

/-- **The purge removes exactly the VM**: every VM column loses what the VM put in, and nothing else changes. -/
structure PurgesExactly (b : Books) (item : PurgeItem) : Prop where
  bytes : ∀ table key column,
    (b.purgeVm item).archive.monitor.tables.vmBytes table key column + b.contribution table key item.vmUuid column =
      b.archive.monitor.tables.vmBytes table key column
  physical : ∀ table key,
    ((b.purgeVm item).archive.monitor.tables.nodeRow table key).map NodeConsumption.physical =
      (b.archive.monitor.tables.nodeRow table key).map NodeConsumption.physical
  gone : ∀ table key column, (b.purgeVm item).contribution table key item.vmUuid column = 0
  others : ∀ table key vmUuid column, vmUuid ≠ item.vmUuid →
    (b.purgeVm item).contribution table key vmUuid column = b.contribution table key vmUuid column
  taps : ∀ key : NodeStatKey, key.vmUuid ≠ item.vmUuid →
    (b.purgeVm item).archive.nodeStats.get? key = b.archive.nodeStats.get? key
  hours : ∀ key : VmKey, key.vmUuid ≠ item.vmUuid →
    (b.purgeVm item).archive.monitor.tables.vmHourly.get? key = b.archive.monitor.tables.vmHourly.get? key
  days : ∀ key : VmKey, key.vmUuid ≠ item.vmUuid →
    (b.purgeVm item).archive.monitor.tables.vmDaily.get? key = b.archive.monitor.tables.vmDaily.get? key

/-- **The sources hold**: for each row of an affected node they still have what the other VMs put into it, and the VM put
    nothing into the rows of other nodes. -/
structure SourcesHold (b : Books) (item : PurgeItem) : Prop where
  affected : ∀ table key vmUuid column, key.node ∈ affectedNodes b.archive.monitor.tables item →
    (b.archive.monitor.tables.nodeRow table key).isSome = true → vmUuid ≠ item.vmUuid →
    Attribution.share (b.archive.sources Role.bridge table) key vmUuid column = b.contribution table key vmUuid column
  elsewhere : ∀ table key column, key.node ∉ affectedNodes b.archive.monitor.tables item →
    b.contribution table key item.vmUuid column = 0

section Exact

variable {b : Books} {item : PurgeItem} {table : NodeTable} {key : NodeKey} {column : VmColumn} {vmUuid : String}

/-- What a VM has in a row after the purge. -/
theorem contribution_purgeVm : (b.purgeVm item).contribution table key vmUuid column =
    if key.node ∈ affectedNodes b.archive.monitor.tables item then
      if (b.archive.monitor.tables.nodeRow table key).isSome then
        if vmUuid = item.vmUuid then 0
        else Attribution.share (b.archive.sources Role.bridge table) key vmUuid column
      else 0
    else b.contribution table key vmUuid column := by
  have hshare := @total_purgeVm table key column item b fun entry => entry.owner = vmUuid
  rw [sources_dropVm] at hshare
  rw [← Attribution.share_filter_owner]
  exact hshare

/-- A VM has nothing in a row that is not there. -/
theorem Books.Balanced.contribution_eq_zero (h : b.Balanced)
    (hrow : (b.archive.monitor.tables.nodeRow table key).isSome = false) :
    b.contribution table key vmUuid column = 0 := by
  have hle : b.contribution table key vmUuid column ≤ Attribution.total (b.ledger table) key column :=
    Attribution.share_le_total
  have hzero : b.archive.monitor.tables.vmBytes table key column = 0 := by
    rw [Option.isSome_eq_false_iff, Option.isNone_iff_eq_none] at hrow
    rw [RollupTables.vmBytes, hrow]
    rfl
  rw [← h table key column, hzero] at hle
  exact Nat.le_zero.mp hle

theorem physical_purgeVm (item : PurgeItem) (b : Books) (table : NodeTable) (key : NodeKey) :
    ((b.purgeVm item).archive.monitor.tables.nodeRow table key).map NodeConsumption.physical =
      (b.archive.monitor.tables.nodeRow table key).map NodeConsumption.physical := by
  show ((b.archive.purgeVmData item).monitor.tables.nodeRow table key).map _ = _
  unfold Archive.purgeVmData
  rw [nodeRow_rebuild, nodeRow_dropVm, Option.map_map]
  refine congrArg (Option.map · _) (funext fun row => ?_)
  dsimp only [Function.comp_apply]
  split
  · exact physical_rebuildRow _ row
  · rfl

/-- **The purge is exact if and only if the sources hold.** -/
theorem purgesExactly_iff (h : b.Balanced) : PurgesExactly b item ↔ SourcesHold b item := by
  constructor
  · intro hexact
    constructor
    · intro table key vmUuid column hnode hrow hother
      have hsame := hexact.others table key vmUuid column hother
      rwa [contribution_purgeVm, if_pos hnode, if_pos hrow, if_neg hother] at hsame
    · intro table key column hnode
      have hgone := hexact.gone table key column
      rwa [contribution_purgeVm, if_neg hnode] at hgone
  · intro hsources
    have hgone : ∀ table key column, (b.purgeVm item).contribution table key item.vmUuid column = 0 := by
      intro table key column
      rw [contribution_purgeVm]
      split
      · split <;> simp
      · rename_i hnode
        exact hsources.elsewhere table key column hnode
    have hothers : ∀ table key vmUuid column, vmUuid ≠ item.vmUuid →
        (b.purgeVm item).contribution table key vmUuid column = b.contribution table key vmUuid column := by
      intro table key vmUuid column hother
      rw [contribution_purgeVm]
      split
      · rename_i hnode
        split
        · rename_i hrow
          exact hsources.affected table key vmUuid column hnode hrow hother
        · rename_i hrow
          exact (h.contribution_eq_zero (by simpa using hrow)).symm
      · rfl
    refine ⟨fun table key column => ?_, physical_purgeVm item b, hgone, hothers, ?_, ?_, ?_⟩
    · -- both tables hold the totals of their ledgers
      rw [h.purgeVm item table key column, h table key column]
      exact Attribution.total_add_share (hgone table key column) fun other hother =>
        hothers table key other column hother
    · intro key hother
      exact (KeyedTable.get?_deleteWhere _ _ key).trans (if_neg (by simpa using hother))
    · intro key hother
      exact (KeyedTable.get?_deleteWhere _ _ key).trans (if_neg (by simpa using hother))
    · intro key hother
      exact (KeyedTable.get?_deleteWhere _ _ key).trans (if_neg (by simpa using hother))

end Exact

/-- **Purging one VM removes exactly that VM** from the node tables, after any run of pushes, retention, purges and
    backfills, if and only if the sources hold at that point. -/
theorem purge_vm_exact_iff (cfg : Config) (events : List BookEvent) (item : PurgeItem) :
    PurgesExactly (Books.init.run cfg events) item ↔ SourcesHold (Books.init.run cfg events) item :=
  purgesExactly_iff (balanced_init.run events)

/-- Two VMs of one node, each with traffic on the public bridge. -/
def twoVms : PushRequest :=
  { time := some 72000, node := "node1", interval := some 300, physicalInterfaces := []
    interfaces := some
      [some { vmUuid := "vm1", bridge := "br0", iface := "tap1", rxDelta := some 10, txDelta := some 10 },
        some { vmUuid := "vm2", bridge := "br0", iface := "tap2", rxDelta := some 20, txDelta := some 20 }] }

/-- The push, and `delete_history_older_than(1)` a day later. -/
def prunedRun : List BookEvent := [.push 72000 twoVms, .prune 86400 fun _ _ => false]

def PurgeItem.sample : PurgeItem :=
  { node := "node1", vmUuid := "vm1", node_clean := by decide, vm_clean := by decide }

/-- The 5-minute row held 30 bytes, 10 of them of the purged VM, and holds none after the purge. -/
theorem purge_takes_other_vm : ¬ PurgesExactly (Books.init.run {} prunedRun) PurgeItem.sample := by
  intro h
  have hbytes := h.bytes .fiveMinutes ⟨72000, "node1"⟩ (.pub, .rx)
  have hvalues : ((Books.init.run {} prunedRun).purgeVm PurgeItem.sample).archive.monitor.tables.vmBytes .fiveMinutes
        ⟨72000, "node1"⟩ (.pub, .rx) = 0 ∧
      (Books.init.run {} prunedRun).contribution .fiveMinutes ⟨72000, "node1"⟩ "vm1" (.pub, .rx) = 10 ∧
      (Books.init.run {} prunedRun).archive.monitor.tables.vmBytes .fiveMinutes ⟨72000, "node1"⟩ (.pub, .rx) = 30 := by
    decide +kernel
  obtain ⟨hafter, hshare, hbefore⟩ := hvalues
  rw [hafter, hbefore] at hbytes
  have hshare' : (Books.init.run {} prunedRun).contribution .fiveMinutes ⟨72000, "node1"⟩ PurgeItem.sample.vmUuid
      (.pub, .rx) = 10 := hshare
  rw [hshare'] at hbytes
  omega

end VirtInfra.Consumption
