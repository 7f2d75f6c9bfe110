import VirtInfra.Consumption.LegacyUsage
import VirtInfra.Consumption.Retention
import VirtInfra.Retention.History

/-!
# `Preview` — what a dry run counts, and what the run deletes

`run_retention(dry_run=True)` counts with the `WHERE` clauses of the deletes, on the tables as they are. On the metric
tables that is what the run deletes, marker or no marker, as long as the index misses no push and no row of another chunk
goes with the rows that are to. On the consumption tables it need not be: before it deletes there, the run rolls `usage` up,
and the rows that the roll-up inserts under the cutoffs are deleted with the rest.
-/

namespace VirtInfra.Retention

open Lib Consumption

/-! ## The database -/

inductive LogTable
  | vmAbuseEvents | apiAccessLogs | apiKeyEvents | nodeLogs | accountLogs | nodeMissedEvents | vmMigrationEvents
  | maintenanceJobs | retentionRuns | vmAbuseIncidents | nodeBandwidthConsumption2h
  deriving DecidableEq, Repr

/-- A row of a log table: its time column, its `finished_at` or `ended_at`, and its status. -/
structure LogRow where
  time : Int
  ended : Option Int := none
  status : String := ""

structure Database where
  live : Live
  billing : Billing
  logs : LogTable → List LogRow

abbrev Database.history (db : Database) : History := db.live.history

/-- A push, an event of the history, or anything that happens to the other tables. -/
inductive DatabaseEvent
  | push (receivedNow : Int) (req : PushRequest) (measured : Measured)
  | history (event : HistoryEvent)
  | elsewhere (billing : Billing) (logs : LogTable → List LogRow)

def HistoryEvent.isPush : HistoryEvent → Bool
  | push _ => true
  | _ => false

/-- What a push writes into the history, if it is accepted. -/
def pushRows (cfg : BillingConfig) (db : Database) (receivedNow : Int) (req : PushRequest) (measured : Measured) :
    Option PushRows :=
  (acceptedSample cfg.toConfig receivedNow req db.billing.monitor).map fun s =>
    { measured with node := s.node, time := s.dataTime }

def Database.step (cfg : BillingConfig) (db : Database) : DatabaseEvent → Option Database
  | .push receivedNow req measured =>
      some { db with
        live := { db.live with
          history := (pushRows cfg db receivedNow req measured).elim db.history fun p => db.history.push p }
        billing := db.billing.step cfg (.monitor (.push receivedNow req)) }
  | .history event => if event.isPush then none else (db.live.step event).map fun live => { db with live }
  | .elsewhere billing logs => some { db with billing, logs }

def databaseSystem (cfg : BillingConfig) : System Database DatabaseEvent := ⟨fun db => db.live.Initial, Database.step cfg⟩

/-- **No push in a bucket that a cleanup in progress deletes**, and no cleanup that deletes other rows of the index. -/
def KeepsClear (cfg : BillingConfig) (db : Database) : DatabaseEvent → Prop
  | .push receivedNow req measured =>
      ∀ p, pushRows cfg db receivedNow req measured = some p → Careful db.live (.push p)
  | .history event => Careful db.live event
  | .elsewhere _ _ => True

/-- The history of a run is a run of the history. -/
theorem live_of_reachable {cfg : BillingConfig} {db : Database} (h : (databaseSystem cfg).Reachable (KeepsClear cfg) db) :
    historySystem.Reachable Careful db.live := by
  induction h with
  | init hinit => exact .init hinit
  | @step db db' event _ hok hstep ih =>
      cases event with
      | push receivedNow req measured =>
          obtain rfl := Option.some.inj hstep
          cases hrows : pushRows cfg db receivedNow req measured with
          | none => exact ih
          | some p => exact .step ih (hok p hrows) rfl
      | history event =>
          simp only [databaseSystem, Database.step, Option.ite_none_left_eq_some] at hstep
          obtain ⟨live, hlive, rfl⟩ := Option.map_eq_some_iff.mp hstep.2
          exact .step ih hok hlive
      | elsewhere billing logs =>
          obtain rfl := Option.some.inj hstep
          exact ih

/-! ## The cutoffs of the other tables -/

/-- The `WHERE` of a log table's delete. -/
def LogTable.expired (now : Int) (table : LogTable) (row : LogRow) : Bool :=
  let cutoff := now - historyRetentionDays * 86400
  match table with
  | .maintenanceJobs => row.status ≠ "queued" && row.status ≠ "running" && row.ended.getD row.time < cutoff
  | .retentionRuns => row.ended.getD row.time < cutoff
  | .vmAbuseIncidents => row.status = "closed" && row.ended.any fun ended => ended < cutoff
  | .nodeBandwidthConsumption2h => row.time ≤ cutoff
  | _ => row.time < cutoff

/-- The cutoffs of the consumption tables: that of the run, `HISTORY_RETENTION_DAYS`, and those of
    `_r22_consumption_retention_specs` without the VM tables. -/
def rollupCutoff (config : Config) (now : Int) : RollupTable → Int
  | .vmHourly => (config.cutoffs now).hourly
  | .vmDaily => now - historyRetentionDays * 86400
  | .node5m => now - nodeRawRetentionSeconds
  | .nodeHourly => now - 7 * 86400
  | .nodeDaily => localDayStart config.tzOffset (now - 7 * 86400)

/-- The tables that a dry run reports. -/
inductive Reported
  | metrics (table : MetricTable)
  | usage
  | rollup (table : RollupTable)
  | logs (table : LogTable)

/-! ## The dry run -/

/-- `retention_keep_buckets` of a dry run: the metric tables are read whether the marker is set or not. -/
def previewKept (config : Config) (cutoffs : Cutoffs) (h : History) : List SnapshotKey :=
  keepBuckets config.tzOffset cutoffs (snapshotSource h.snapshots h.metrics true)

/-- The bucket that a dry run filters a row by. -/
def previewBucket (table : MetricTable) (row : MetricRow) : Int :=
  if table = .nodeFilesystemStats then if 0 < row.bucket then row.bucket else sqlBucket row.time else row.bucket

def previewExpired (config : Config) (cutoffs : Cutoffs) (h : History) (table : MetricTable) (row : MetricRow) : Bool :=
  expired cutoffs (previewKept config cutoffs h) (row.node, previewBucket table row)

/-- **`run_retention(dry_run=True)`**, by table. -/
def preview (config : Config) (now : Int) (db : Database) : Reported → Nat
  | .metrics table => (db.history.metrics table).countP (previewExpired config (config.cutoffs now) db.history table)
  | .usage => db.billing.usage.countP fun row => row.lastPush < (config.cutoffs now).raw
  | .rollup table => (db.billing.monitor.tables.starts table).countP fun start => start < rollupCutoff config now table
  | .logs table => (db.logs table).countP (table.expired now)

/-! ## The run -/

/-- `usage` rolled up, before the consumption tables are deleted from. -/
def rolledUp (config : Config) (now : Int) (db : Database) : Billing :=
  rollupAndDeleteLegacyUsage config.tzOffset (config.cutoffs now).raw db.billing

/-- The run has a row of `retention_runs` itself. -/
def logged (now : Int) (db : Database) : LogTable → List LogRow :=
  Function.update db.logs .retentionRuns
    (db.logs .retentionRuns ++ [{ time := now, ended := some now, status := "ok" }])

/-- A log table is no hypertable, so a `ctid` names one row of it: a row's position. -/
def LogTable.delete (config : Config) (now : Int) (table : LogTable) (rows : List LogRow) : List LogRow :=
  if table = .nodeBandwidthConsumption2h then rows.filter fun row => !table.expired now row
  else deleteStored (fun i => i) (table.expired now) config.batchRows rows

/-- The `ctid`s during a run: of the filesystem rows when their buckets are populated, of every table when it is deleted
    from, `vm_consumption_hourly` and `vm_consumption_daily` included. -/
structure RunAddresses extends Addresses where
  populated : Nat → Ctid
  rollups : Grain → VmKey → Ctid

/-- The VM tables are deleted from in batches. -/
def deleteVmRollups (config : Config) (now : Int) (ctids : RunAddresses) (t : RollupTables) : RollupTables :=
  { t with
    vmHourly := t.vmHourly.deleteWhereInBatches (ctids.rollups .hour)
      (fun key => key.start < rollupCutoff config now .vmHourly) config.batchRows
    vmDaily := t.vmDaily.deleteWhereInBatches (ctids.rollups .day)
      (fun key => key.start < rollupCutoff config now .vmDaily) config.batchRows }

/-- **`run_retention()`** with its wrappers. -/
def Database.runRetention (config : Config) (now : Int) (ctids : RunAddresses) (db : Database) : Database where
  live := { db.live with
    history := Retention.runRetention config (config.cutoffs now) ctids.populated ctids.toAddresses db.history }
  billing :=
    { usage := (rolledUp config now db).usage
      monitor :=
        { receipts := (rolledUp config now db).monitor.receipts.filter fun r => ¬ r.receivedAt < (config.cutoffs now).raw
          tables := [RollupTable.node5m, .nodeHourly, .nodeDaily].foldl
            (fun t table => deleteOlder table (rollupCutoff config now table) t)
            (deleteVmRollups config now ctids (rolledUp config now db).monitor.tables) } }
  logs := fun table => table.delete config now (logged now db table)

/-- What the deletes of a run report: the rows of a table before its delete, less those after it. -/
def deleted (config : Config) (now : Int) (ctids : RunAddresses) (db : Database) : Reported → Nat
  | .metrics table =>
      (populatedMetrics ctids.populated db.history table).length -
        ((db.runRetention config now ctids).history.metrics table).length
  | .usage => db.billing.usage.length - (db.runRetention config now ctids).billing.usage.length
  | .rollup table =>
      ((rolledUp config now db).monitor.tables.starts table).length -
        ((db.runRetention config now ctids).billing.monitor.tables.starts table).length
  | .logs table => (logged now db table).length - ((db.runRetention config now ctids).logs table).length

/-! ## The metric tables -/

section Metrics

variable {config : Config} {cutoffs : Cutoffs} {h : History}

/-- What the backfill adds to the index is incomplete, and stands for rows of the metric tables. -/
theorem get?_backfillIndex_eq_some {key : SnapshotKey} {snapshot : PushSnapshot}
    (hkey : (backfillIndex h).get? key = some snapshot) :
    h.snapshots.get? key = some snapshot ∨ h.snapshots.get? key = none ∧ snapshot.inventoryComplete = false ∧
      ∃ table ∈ MetricTable.indexed, ∃ row ∈ h.metrics table, 0 < row.bucket ∧ row.key = key := by
  have hfold : ∀ (tables : List MetricTable) (t : KeyedTable SnapshotKey PushSnapshot),
      (tables.foldl (fun t table => indexRows (h.metrics table) t) t).get? key = some snapshot →
      t.get? key = some snapshot ∨ t.get? key = none ∧ snapshot.inventoryComplete = false ∧
        ∃ table ∈ tables, ∃ row ∈ h.metrics table, 0 < row.bucket ∧ row.key = key := by
    intro tables
    induction tables with
    | nil => exact fun t ht => .inl ht
    | cons table rest ih =>
        intro t ht
        rw [List.foldl_cons] at ht
        have hnew : ∀ {r}, (indexRows (h.metrics table) t).get? key = some r → t.get? key = some r ∨
            t.get? key = none ∧ r.inventoryComplete = false ∧
              ∃ row ∈ h.metrics table, 0 < row.bucket ∧ row.key = key := by
          intro r hr
          rcases KeyedTable.get?_foldl_insertNew_eq_some hr with hold | ⟨hnone, group, hgroup, rfl, rfl⟩
          · exact .inl hold
          · refine .inr ⟨hnone, rfl, ?_⟩
            have hget := KeyedTable.get?_of_mem_rows hgroup
            rw [KeyedTable.get?_groupBy] at hget
            split at hget
            · cases hget
            · rename_i hne
              obtain ⟨row, hrow⟩ := List.exists_mem_of_ne_nil _ hne
              obtain ⟨hin, hkey⟩ := List.mem_filter.mp hrow
              obtain ⟨hmem, hpos⟩ := List.mem_filter.mp hin
              exact ⟨row, hmem, of_decide_eq_true hpos, of_decide_eq_true hkey⟩
        rcases ih _ ht with hin | ⟨hnone, hincomplete, other, hother, hrow⟩
        · rcases hnew hin with hold | ⟨hnone, hincomplete, hrow⟩
          · exact .inl hold
          · exact .inr ⟨hnone, hincomplete, table, List.mem_cons_self, hrow⟩
        · refine .inr ⟨?_, hincomplete, other, List.mem_cons_of_mem _ hother, hrow⟩
          cases hold : t.get? key with
          | none => rfl
          | some old =>
              have hkept : (indexRows (h.metrics table) t).get? key = some old :=
                KeyedTable.get?_foldl_insertNew_of_some hold _
              rw [hkept] at hnone
              cases hnone
  unfold backfillIndex at hkey
  split at hkey
  · exact .inl hkey
  · exact hfold MetricTable.indexed h.snapshots hkey

/-- The pushes of the index, and the rows of the metric tables, that a dry run reads. -/
def indexedSource (h : History) : KeyedTable SnapshotKey Bool :=
  (h.snapshots.deleteWhere fun key => !decide (0 < key.2)).mapRows fun _ snapshot => snapshot.inventoryComplete

def metricRows (h : History) : List MetricRow :=
  MetricTable.indexed.flatMap fun table => (h.metrics table).filter fun row => 0 < row.bucket

theorem previewSource_eq (h : History) : snapshotSource h.snapshots h.metrics true =
    (metricRows h).foldl (fun t row => t.insertNew row.key false) (indexedSource h) := rfl

theorem get?_indexedSource (key : SnapshotKey) : (indexedSource h).get? key =
    if 0 < key.2 then (h.snapshots.get? key).map PushSnapshot.inventoryComplete else none := by
  unfold indexedSource
  rw [KeyedTable.get?_mapRows, KeyedTable.get?_deleteWhere]
  by_cases hpos : 0 < key.2 <;> simp [hpos]

theorem mem_metricRows {row : MetricRow} :
    row ∈ metricRows h ↔ ∃ table ∈ MetricTable.indexed, row ∈ h.metrics table ∧ 0 < row.bucket := by
  simp [metricRows]

/-- **A dry run sees the pushes that the run sees.** -/
theorem get?_previewSource (hindexed : h.backfilled = true → Indexed h) (key : SnapshotKey) :
    (snapshotSource h.snapshots h.metrics true).get? key =
      (snapshotSource (backfillIndex h) h.metrics (!h.backfilled)).get? key := by
  rw [get?_snapshotSource, previewSource_eq]
  have hrows : ∀ row ∈ metricRows h, ((backfillIndex h).get? row.key).isSome ∧ 0 < row.key.2 := by
    intro row hrow
    obtain ⟨table, htable, hin, hpos⟩ := mem_metricRows.mp hrow
    exact ⟨indexed_backfillIndex hindexed htable hin hpos, hpos⟩
  apply Option.ext
  intro c
  constructor
  · intro hc
    rcases KeyedTable.get?_foldl_insertNew_eq_some hc with hold | ⟨hnone, row, hrow, rfl, rfl⟩
    · rw [get?_indexedSource] at hold
      split at hold
      · rename_i hpos
        obtain ⟨snapshot, hsnapshot, rfl⟩ := Option.map_eq_some_iff.mp hold
        rw [if_pos hpos, get?_backfillIndex_of_some hsnapshot, Option.map_some]
      · cases hold
    · -- a push that only the metric tables know is in the index after the backfill, as an incomplete one
      obtain ⟨hsome, hpos⟩ := hrows row hrow
      obtain ⟨snapshot, hsnapshot⟩ := Option.isSome_iff_exists.mp hsome
      rw [get?_indexedSource, if_pos hpos, Option.map_eq_none_iff] at hnone
      rw [if_pos hpos, hsnapshot, Option.map_some]
      rcases get?_backfillIndex_eq_some hsnapshot with hold | ⟨-, hincomplete, -⟩
      · rw [hnone] at hold
        cases hold
      · rw [hincomplete]
  · intro hrun
    split at hrun
    · rename_i hpos
      -- a push is in the index already, or the backfill adds it as incomplete, as the dry run does
      obtain ⟨snapshot, hsnapshot, rfl⟩ := Option.map_eq_some_iff.mp hrun
      rcases get?_backfillIndex_eq_some hsnapshot with hold | ⟨hnone, hincomplete, table, htable, row, hrow, hbucket, rfl⟩
      · apply KeyedTable.get?_foldl_insertNew_of_some
        rw [get?_indexedSource, if_pos hpos, hold, Option.map_some]
      · have hin : row ∈ metricRows h := mem_metricRows.mpr ⟨table, htable, hrow, hbucket⟩
        have hsome : (((metricRows h).foldl (fun t row => t.insertNew row.key false) (indexedSource h)).get?
            row.key).isSome := KeyedTable.isSome_get?_foldl_insertNew (fun _ => false) (.inr ⟨row, hin, rfl⟩)
        obtain ⟨c, hc⟩ := Option.isSome_iff_exists.mp hsome
        rcases KeyedTable.get?_foldl_insertNew_eq_some hc with hold | ⟨-, _, _, _, rfl⟩
        · rw [get?_indexedSource, if_pos hpos, hnone] at hold
          cases hold
        · rw [hincomplete]
          exact hc
    · cases hrun

/-- **A dry run keeps the buckets that the run keeps.** -/
theorem expired_previewKept (hindexed : h.backfilled = true → Indexed h) (key : SnapshotKey) :
    expired cutoffs (previewKept config cutoffs h) key = expired cutoffs (kept config cutoffs h) key := by
  have hmem : key ∈ previewKept config cutoffs h ↔ key ∈ kept config cutoffs h := by
    obtain ⟨node, b⟩ := key
    unfold previewKept kept
    rw [mem_keepBuckets, mem_keepBuckets]
    simp only [get?_previewSource hindexed]
  unfold expired
  congr 2
  rw [Bool.eq_iff_iff, List.contains_iff_mem, List.contains_iff_mem]
  exact hmem

/-- **No row of another chunk goes** with the rows of a metric table that are to. -/
def RowsApart (config : Config) (now : Int) (ctids : RunAddresses) (db : Database) (table : MetricTable) : Prop :=
  ∀ (i : Nat) (row : MetricRow), (populatedMetrics ctids.populated db.history table)[i]? = some row →
    RowTaken config (config.cutoffs now) ctids.populated ctids.toAddresses db.history table i →
    Outdated config (config.cutoffs now) db.history row.key

theorem rowsApart_iff {config : Config} {now : Int} {ctids : RunAddresses} {db : Database} {table : MetricTable} :
    RowsApart config now ctids db table ↔ ApartAt (ctids.metrics table)
      (fun row => expired (config.cutoffs now) (kept config (config.cutoffs now) db.history) row.key)
      (populatedMetrics ctids.populated db.history table) := by
  unfold RowsApart ApartAt
  simp only [rowTaken_iff, expired_iff_outdated]

/-- **A metric table whose rows have the bucket of the dry run.** -/
theorem preview_indexed_iff (config : Config) (now : Int) (ctids : RunAddresses) {db : Database}
    (hindexed : db.history.backfilled = true → Indexed db.history) {table : MetricTable} (htable : table ∈ MetricTable.indexed) :
    preview config now db (.metrics table) = deleted config now ctids db (.metrics table) ↔
      RowsApart config now ctids db table := by
  have hcount : preview config now db (.metrics table) = (populatedMetrics ctids.populated db.history table).countP fun row =>
      expired (config.cutoffs now) (kept config (config.cutoffs now) db.history) row.key := by
    rw [populatedMetrics_of_indexed htable]
    apply List.countP_congr
    intro row _
    unfold previewExpired previewBucket
    rw [if_neg (MetricTable.ne_of_indexed htable), expired_previewKept hindexed]
    rfl
  rw [hcount, rowsApart_iff]
  refine (countP_eq_deleted_iff fun _ _ => id).trans ?_
  exact and_iff_left fun _ _ => id

/-- The bucket that a dry run gives a filesystem row is that of its time. -/
theorem previewBucket_filesystem {backfilled : Prop} (hdated : Dated h backfilled) {row : MetricRow}
    (hrow : row ∈ h.metrics .nodeFilesystemStats) : previewBucket .nodeFilesystemStats row = sqlBucket row.time := by
  unfold previewBucket
  rw [if_pos rfl]
  split
  · exact hdated.positive row hrow ‹_›
  · rfl

/-- Populating leaves the node and the time of a row. -/
theorem countP_populated (populated : Nat → Ctid) (p : String → Int → Bool) :
    (populatedMetrics populated h .nodeFilesystemStats).countP (fun row => p row.node row.time) =
      (h.metrics .nodeFilesystemStats).countP fun row => p row.node row.time := by
  unfold populatedMetrics
  split
  · rfl
  · rw [Function.update_self]
    unfold populateInBatches
    have hsame : ∀ row : MetricRow × Nat, ((fun row : MetricRow => p row.node row.time) ∘ fun row : MetricRow × Nat =>
        if sharesAddressAt populated (fun old => old.bucket = 0) (h.metrics .nodeFilesystemStats) row.2 then
          row.1.populated else row.1) row = ((fun row : MetricRow => p row.node row.time) ∘ Prod.fst) row := by
      intro row
      dsimp only [Function.comp_apply]
      split <;> rfl
    rw [List.countP_map, funext hsame, ← List.countP_map, List.zipIdx_map_fst]

/-- **`node_filesystem_stats`**: a row that is deleted is counted unless SQL's division puts its time on the other side of
    the cutoff. -/
theorem preview_filesystem_iff (config : Config) (now : Int) (ctids : RunAddresses) {db : Database}
    (hindexed : db.history.backfilled = true → Indexed db.history)
    (hdated : Dated db.history (db.history.backfilled = true)) :
    preview config now db (.metrics .nodeFilesystemStats) = deleted config now ctids db (.metrics .nodeFilesystemStats) ↔
      RowsApart config now ctids db .nodeFilesystemStats ∧
      ∀ row ∈ populatedMetrics ctids.populated db.history .nodeFilesystemStats, row.bucket < 0 →
        row.bucket < (config.cutoffs now).raw → sqlBucket row.time < (config.cutoffs now).raw := by
  have hstored : Dated ⟨db.history.snapshots, populatedMetrics ctids.populated db.history, true⟩ True :=
    hdated.populatedMetrics _ _ _ _
  -- neither bucket of a row of before the epoch is kept
  have hexpired : ∀ node b, b ≤ 0 → (expired (config.cutoffs now) (kept config (config.cutoffs now) db.history) (node, b) = true ↔
      b < (config.cutoffs now).raw) := by
    intro node b hb
    rw [expired_iff_outdated]
    exact and_iff_left fun hkeeps => by
      have hpos : 0 < b := hkeeps.isSome_get?.1
      omega
  have hcount : preview config now db (.metrics .nodeFilesystemStats) =
      (populatedMetrics ctids.populated db.history .nodeFilesystemStats).countP fun row =>
        expired (config.cutoffs now) (kept config (config.cutoffs now) db.history) (row.node, sqlBucket row.time) := by
    rw [countP_populated ctids.populated fun node time =>
      expired (config.cutoffs now) (kept config (config.cutoffs now) db.history) (node, sqlBucket time)]
    apply List.countP_congr
    intro row hrow
    unfold previewExpired
    rw [previewBucket_filesystem hdated hrow, expired_previewKept hindexed]
  -- the stored bucket differs from the counted one only before the epoch
  have hbucket : ∀ row ∈ populatedMetrics ctids.populated db.history .nodeFilesystemStats,
      row.bucket = sqlBucket row.time ∨ row.bucket < 0 ∧ row.bucket ≤ sqlBucket row.time ∧ sqlBucket row.time ≤ 0 := by
    intro row hrow
    rcases lt_trichotomy row.bucket 0 with hneg | hzero | hpos
    · exact .inr ⟨hneg, hstored.negative row hrow hneg⟩
    · exact .inl (hzero.trans (hstored.zero trivial row hrow hzero).symm)
    · exact .inl (hstored.positive row hrow hpos)
  have hcounted : ∀ row ∈ populatedMetrics ctids.populated db.history .nodeFilesystemStats,
      expired (config.cutoffs now) (kept config (config.cutoffs now) db.history) (row.node, sqlBucket row.time) = true →
      expired (config.cutoffs now) (kept config (config.cutoffs now) db.history) row.key = true := by
    intro row hrow hcounted
    unfold MetricRow.key
    rcases hbucket row hrow with hsame | ⟨hneg, hle, hnonpos⟩
    · rwa [hsame]
    · rw [hexpired _ _ hnonpos] at hcounted
      rw [hexpired _ _ (by omega)]
      omega
  have hback : ∀ row ∈ populatedMetrics ctids.populated db.history .nodeFilesystemStats,
      (expired (config.cutoffs now) (kept config (config.cutoffs now) db.history) row.key = true →
        expired (config.cutoffs now) (kept config (config.cutoffs now) db.history) (row.node, sqlBucket row.time) = true) ↔
      (row.bucket < 0 → row.bucket < (config.cutoffs now).raw → sqlBucket row.time < (config.cutoffs now).raw) := by
    intro row hrow
    unfold MetricRow.key
    rcases hbucket row hrow with hsame | ⟨hneg, hle, hnonpos⟩
    · rw [hsame]
      exact ⟨fun _ _ hraw => hraw, fun _ => id⟩
    · rw [hexpired _ _ hnonpos, hexpired _ _ (by omega)]
      exact ⟨fun hback _ => hback, fun hback => hback hneg⟩
  rw [hcount, rowsApart_iff]
  exact (countP_eq_deleted_iff hcounted).trans (and_congr_right fun _ => forall₂_congr hback)

end Metrics

/-! ## The other tables -/

section Others

variable (config : Config) (now : Int) (ctids : RunAddresses) (db : Database)

/-- **`usage`**: the roll-up deletes what a dry run counts unless it stops at a time of 0 or less. -/
theorem preview_usage_iff : preview config now db .usage = deleted config now ctids db .usage ↔
    ∀ row ∈ db.billing.usage, row.lastPush < (config.cutoffs now).raw → 0 < row.lastPush := by
  show db.billing.usage.countP _ = db.billing.usage.length - (rolledUp config now db).usage.length ↔ _
  constructor
  · intro hsame row hrow hold
    by_contra hnonpos
    -- the loop breaks at once, and the run deletes nothing
    have hstop : oldestUsage (config.cutoffs now).raw db.billing.usage ≤ 0 := by
      have := (oldestUsage_of_mem hrow hold).1
      omega
    unfold rolledUp at hsame
    rw [rollupAndDeleteLegacyUsage_of_empty hstop, Nat.sub_self, List.countP_eq_zero] at hsame
    exact hsame row hrow (decide_eq_true hold)
  · intro hpos
    -- the loop runs through, so that what is left is what it was not to delete
    have hclear := (rollupAndDeleteLegacyUsage_complete_iff config.tzOffset (config.cutoffs now).raw db.billing).mpr hpos
    have hrecent := rollupUsageLoop_recent config.tzOffset (config.cutoffs now).raw db.billing.usage.length db.billing
    have hleft : (rolledUp config now db).usage =
        db.billing.usage.filter fun row => !decide (row.lastPush < (config.cutoffs now).raw) := by
      rw [← hrecent]
      symm
      apply List.filter_eq_self.mpr
      intro row hrow
      rw [decide_eq_false (hclear row hrow)]
      rfl
    rw [hleft, length_sub_length_filter_not]

theorem starts_deleteOlder_self (table : RollupTable) (cutoff : Int) (t : RollupTables) :
    (deleteOlder table cutoff t).starts table = (t.starts table).filter fun start => !decide (start < cutoff) := by
  cases table <;> simp [deleteOlder, RollupTables.starts, KeyedTable.deleteWhere, List.filter_map, Function.comp_def]

theorem starts_deleteOlder_of_ne {table other : RollupTable} (h : other ≠ table) (cutoff : Int) (t : RollupTables) :
    (deleteOlder other cutoff t).starts table = t.starts table := by
  cases other <;> cases table <;> first | rfl | exact absurd rfl h

/-- What a run deletes from a table that it deletes from by time. -/
theorem deleted_node {table : RollupTable} (hnode : table ≠ .vmHourly ∧ table ≠ .vmDaily) :
    deleted config now ctids db (.rollup table) =
      ((rolledUp config now db).monitor.tables.starts table).countP fun start => start < rollupCutoff config now table := by
  have hstarts : (db.runRetention config now ctids).billing.monitor.tables.starts table =
      ((rolledUp config now db).monitor.tables.starts table).filter
        fun start => !decide (start < rollupCutoff config now table) := by
    have hvm : (deleteVmRollups config now ctids (rolledUp config now db).monitor.tables).starts table =
        (rolledUp config now db).monitor.tables.starts table := by
      cases table with
      | vmHourly => exact absurd rfl hnode.1
      | vmDaily => exact absurd rfl hnode.2
      | node5m | nodeHourly | nodeDaily => rfl
    rw [← hvm]
    unfold Database.runRetention
    cases table with
    | vmHourly => exact absurd rfl hnode.1
    | vmDaily => exact absurd rfl hnode.2
    | node5m | nodeHourly | nodeDaily => simp [starts_deleteOlder_self, starts_deleteOlder_of_ne]
  show _ - _ = _
  rw [hstarts, length_sub_length_filter_not]

/-- The roll-up leaves the Node tables. -/
theorem rollupUsageLoop_node (off cutoff : Int) : ∀ (fuel : Nat) (b : Billing),
    (rollupUsageLoop off cutoff fuel b).monitor.tables.node5m = b.monitor.tables.node5m ∧
      (rollupUsageLoop off cutoff fuel b).monitor.tables.nodeHourly = b.monitor.tables.nodeHourly ∧
      (rollupUsageLoop off cutoff fuel b).monitor.tables.nodeDaily = b.monitor.tables.nodeDaily := by
  intro fuel
  induction fuel with
  | zero => exact fun b => ⟨rfl, rfl, rfl⟩
  | succ fuel ih =>
      intro b
      unfold rollupUsageLoop
      dsimp only
      split
      · exact ⟨rfl, rfl, rfl⟩
      · exact ih _

/-- The table of a grain. -/
def grainTable : Grain → RollupTable
  | .hour => .vmHourly
  | .day => .vmDaily

def grainKeys (g : Grain) (t : RollupTables) : List VmKey :=
  match g with
  | .hour => t.vmHourly.keys
  | .day => t.vmDaily.keys

/-- A key that a VM table has, or gets by the roll-up of `usage`. -/
def WillHold (g : Grain) (key : VmKey) : Prop :=
  g.holds key db.billing.monitor.tables ∨
    ∃ row ∈ db.billing.usage, row.lastPush < (config.cutoffs now).raw ∧ g.usageKey config.tzOffset row = key

/-- **No row of another chunk goes** with the rows of a VM table that are to. -/
def RollupsApart (g : Grain) : Prop :=
  ∀ key other, WillHold config now db g key → WillHold config now db g other → ctids.rollups g other = ctids.rollups g key →
    other.start < rollupCutoff config now (grainTable g) → key.start < rollupCutoff config now (grainTable g)

section Grains

variable {config now ctids db}

/-- What the roll-up leaves in a VM table, when it runs through. -/
theorem holds_rolledUp_iff {g : Grain} {key : VmKey}
    (hpos : ∀ row ∈ db.billing.usage, row.lastPush < (config.cutoffs now).raw → 0 < row.lastPush) :
    g.holds key (rolledUp config now db).monitor.tables ↔ WillHold config now db g key := by
  constructor
  · intro hkey
    rcases holds_of_rollupUsageLoop config.tzOffset _ _ db.billing hkey with hold | ⟨row, hrow, hlt, rfl⟩
    · exact .inl hold
    · exact .inr ⟨row, hrow, hlt, rfl⟩
  · rintro (hold | ⟨row, hrow, hold, rfl⟩)
    · exact holds_rollupUsageLoop config.tzOffset _ _ db.billing hold
    -- a row that the roll-up has deleted is in the VM tables
    · have hgone : row ∉ (rolledUp config now db).usage := fun hleft =>
        (rollupAndDeleteLegacyUsage_complete_iff config.tzOffset _ db.billing).mpr hpos row hleft hold
      exact Represented.rollupUsageLoop config.tzOffset _ _ db.billing row hrow hgone g

theorem countP_starts (g : Grain) (t : RollupTables) (cutoff : Int) :
    (t.starts (grainTable g)).countP (fun start => start < cutoff) =
      (grainKeys g t).countP fun key => key.start < cutoff := by
  cases g <;> simp [grainTable, grainKeys, RollupTables.starts, KeyedTable.keys, List.countP_map, Function.comp_def]

theorem length_starts (g : Grain) (t : RollupTables) : (t.starts (grainTable g)).length = (grainKeys g t).length := by
  cases g <;> simp [grainTable, grainKeys, RollupTables.starts, KeyedTable.keys]

/-- A dry run counts what the delete of a VM table reports exactly when the rows to be deleted are apart, and were there
    before the roll-up. -/
theorem preview_keys_iff (g : Grain) :
    preview config now db (.rollup (grainTable g)) = deleted config now ctids db (.rollup (grainTable g)) ↔
      Apart (ctids.rollups g) (fun key => key.start < rollupCutoff config now (grainTable g))
          (grainKeys g (rolledUp config now db).monitor.tables) ∧
        ∀ key, g.holds key (rolledUp config now db).monitor.tables → key.start < rollupCutoff config now (grainTable g) →
          g.holds key db.billing.monitor.tables := by
  -- the roll-up adds keys and takes none
  have hkept : ∀ key, g.holds key db.billing.monitor.tables → g.holds key (rolledUp config now db).monitor.tables :=
    fun _ => holds_rollupUsageLoop config.tzOffset _ _ db.billing
  show List.countP _ (db.billing.monitor.tables.starts _) =
    ((rolledUp config now db).monitor.tables.starts _).length -
      ((db.runRetention config now ctids).billing.monitor.tables.starts _).length ↔ _
  rw [countP_starts, length_starts, length_starts]
  cases g with
  | hour =>
      refine (KeyedTable.countP_keys_eq_deleted_iff hkept config.batchRows).trans ?_
      simp only [decide_eq_true_eq]
      rfl
  | day =>
      refine (KeyedTable.countP_keys_eq_deleted_iff hkept config.batchRows).trans ?_
      simp only [decide_eq_true_eq]
      rfl

/-- **A table that the roll-up writes**: a dry run counts what is deleted exactly when the roll-up inserts nothing under the
    cutoff and no row of another chunk goes. -/
theorem preview_grain_iff (g : Grain)
    (hpos : ∀ row ∈ db.billing.usage, row.lastPush < (config.cutoffs now).raw → 0 < row.lastPush) :
    preview config now db (.rollup (grainTable g)) = deleted config now ctids db (.rollup (grainTable g)) ↔
      RollupsApart config now ctids db g ∧
      ∀ row ∈ db.billing.usage, row.lastPush < (config.cutoffs now).raw →
        (g.usageKey config.tzOffset row).start < rollupCutoff config now (grainTable g) →
        g.holds (g.usageKey config.tzOffset row) db.billing.monitor.tables := by
  have hmem : ∀ key, key ∈ grainKeys g (rolledUp config now db).monitor.tables ↔ WillHold config now db g key := by
    intro key
    rw [← holds_rolledUp_iff hpos]
    cases g <;> rfl
  rw [preview_keys_iff]
  refine and_congr ?_ ?_
  · unfold Apart RollupsApart
    simp only [sharesAddress_iff, decide_eq_true_eq, hmem]
    constructor
    · intro h key other hkey hother haddr hold
      exact h key hkey ⟨other, hother, hold, haddr⟩
    · rintro h key hkey ⟨other, hother, hold, haddr⟩
      exact h key other hkey hother haddr hold
  · simp only [holds_rolledUp_iff hpos]
    constructor
    · exact fun hback row hrow hold hstart => hback _ (.inr ⟨row, hrow, hold, rfl⟩) hstart
    · rintro hpresent key (hheld | ⟨row, hrow, hold, rfl⟩) hstart
      · exact hheld
      · exact hpresent row hrow hold hstart

end Grains

theorem preview_node (table : RollupTable) (h : ∀ g, table ≠ grainTable g) :
    preview config now db (.rollup table) = deleted config now ctids db (.rollup table) := by
  obtain ⟨hfive, hhourly, hdaily⟩ :=
    rollupUsageLoop_node config.tzOffset (config.cutoffs now).raw db.billing.usage.length db.billing
  have hstarts : (rolledUp config now db).monitor.tables.starts table = db.billing.monitor.tables.starts table := by
    cases table with
    | vmHourly => exact absurd rfl (h .hour)
    | vmDaily => exact absurd rfl (h .day)
    | node5m => exact congrArg (fun t => t.rows.map fun row => row.1.start) hfive
    | nodeHourly => exact congrArg (fun t => t.rows.map fun row => row.1.start) hhourly
    | nodeDaily => exact congrArg (fun t => t.rows.map fun row => row.1.start) hdaily
  rw [deleted_node config now ctids db ⟨h .hour, h .day⟩, hstarts]
  rfl

/-- **The log tables.** The run's own row is too new to go. -/
theorem preview_logs (table : LogTable) : preview config now db (.logs table) = deleted config now ctids db (.logs table) := by
  have hdeleted : deleted config now ctids db (.logs table) = (logged now db table).countP (table.expired now) := by
    show (logged now db table).length - (table.delete config now (logged now db table)).length = _
    have hleft : table.delete config now (logged now db table) =
        (logged now db table).filter fun row => !table.expired now row := by
      unfold LogTable.delete
      split
      · rfl
      · exact deleteStored_of_apart (apartAt_of_injective fun _ _ => id)
    rw [hleft, length_sub_length_filter_not]
  rw [hdeleted]
  unfold logged
  by_cases htable : table = .retentionRuns
  · subst htable
    -- the run logs itself before it deletes from the log
    have hnew : LogTable.expired now .retentionRuns { time := now, ended := some now, status := "ok" } = false := by
      unfold LogTable.expired
      exact decide_eq_false (by simp)
    rw [Function.update_self, List.countP_append, List.countP_singleton, hnew]
    rfl
  · rw [Function.update_of_ne htable]
    rfl

end Others

/-! ## When a dry run counts right -/

/-- **The states in which it does**, at a time and under the `ctid`s of the run: no row that is to be rolled up has a time of
    0 or less, the roll-up inserts no row that is deleted at once, no filesystem row of before the epoch lies between its two
    buckets, and no row of another chunk has the `ctid` of a row that is to go. -/
structure PreviewExact (config : Config) (now : Int) (ctids : RunAddresses) (db : Database) : Prop where
  positive : ∀ row ∈ db.billing.usage, row.lastPush < (config.cutoffs now).raw → 0 < row.lastPush
  present : ∀ (g : Grain), ∀ row ∈ db.billing.usage, row.lastPush < (config.cutoffs now).raw →
    (g.usageKey config.tzOffset row).start < rollupCutoff config now (grainTable g) →
    g.holds (g.usageKey config.tzOffset row) db.billing.monitor.tables
  dated : ∀ row ∈ populatedMetrics ctids.populated db.history .nodeFilesystemStats, row.bucket < 0 →
    row.bucket < (config.cutoffs now).raw → sqlBucket row.time < (config.cutoffs now).raw
  rowsApart : ∀ table, RowsApart config now ctids db table
  rollupsApart : ∀ g, RollupsApart config now ctids db g

/-- Once the raw cutoff is past the epoch, the buckets of before it do not matter. -/
theorem dated_of_raw_pos {config : Config} {now : Int} {db : Database} (hraw : 0 < (config.cutoffs now).raw)
    (hdated : Dated db.history (db.history.backfilled = true)) (populated : Nat → Ctid) :
    ∀ row ∈ populatedMetrics populated db.history .nodeFilesystemStats, row.bucket < 0 →
      row.bucket < (config.cutoffs now).raw → sqlBucket row.time < (config.cutoffs now).raw := by
  intro row hrow hneg _
  have hstored := hdated.populatedMetrics populated db.history.snapshots true True
  have := (hstored.negative row hrow hneg).2
  omega

/-- **When a retention preview is faithful.** In every state that pushes, purges, retention runs and history deletions
    lead to, with the marker or without it and with cleanups under way, as long as no push goes to a bucket that a cleanup
    is deleting and no cleanup deletes other rows of the index: a dry run counts of every table it reports what the run
    deletes there, exactly when the roll-up of `usage` runs through and inserts nothing under the cutoffs, and no row of
    another chunk goes with those that are to. -/
theorem retention_preview_iff {cfg : BillingConfig} (config : Config) (now : Int) (ctids : RunAddresses) {db : Database}
    (h : (databaseSystem cfg).Reachable (KeepsClear cfg) db) :
    (∀ table, preview config now db table = deleted config now ctids db table) ↔ PreviewExact config now ctids db := by
  have hsound := sound_of_reachable (live_of_reachable h)
  have hindexed : db.history.backfilled = true → Indexed db.history := fun hdone => hsound.indexed (.inl hdone)
  have hdated : Dated db.history (db.history.backfilled = true) :=
    ⟨hsound.dated.positive, fun hdone => hsound.dated.zero (.inl hdone), hsound.dated.negative⟩
  have hfilesystem := preview_filesystem_iff config now ctids hindexed hdated
  constructor
  · intro hall
    -- `usage` comes first: the other counts rest on a roll-up that runs through
    have hpos := (preview_usage_iff config now ctids db).mp (hall .usage)
    have hgrain := fun g => (preview_grain_iff g hpos).mp (hall (.rollup (grainTable g)))
    obtain ⟨hrows, hclause⟩ := hfilesystem.mp (hall _)
    refine ⟨hpos, fun g => (hgrain g).2, hclause, fun table => ?_, fun g => (hgrain g).1⟩
    by_cases htable : table = .nodeFilesystemStats
    · rw [htable]
      exact hrows
    · exact (preview_indexed_iff config now ctids hindexed (MetricTable.indexed_of_ne htable)).mp (hall _)
  · intro hexact table
    cases table with
    | metrics table =>
        by_cases htable : table = .nodeFilesystemStats
        · rw [htable]
          exact hfilesystem.mpr ⟨hexact.rowsApart _, hexact.dated⟩
        · exact (preview_indexed_iff config now ctids hindexed (MetricTable.indexed_of_ne htable)).mpr (hexact.rowsApart table)
    | usage => exact (preview_usage_iff config now ctids db).mpr hexact.positive
    | rollup table =>
        by_cases hgrain : ∃ g, table = grainTable g
        · obtain ⟨g, rfl⟩ := hgrain
          exact (preview_grain_iff g hexact.positive).mpr ⟨hexact.rollupsApart g, hexact.present g⟩
        · exact preview_node config now ctids db table fun g hg => hgrain ⟨g, hg⟩
    | logs table => exact preview_logs config now ctids db table

/-- An installation at UTC that still writes `usage`. -/
def legacyConfig : BillingConfig := { tzOffset := 0, writeLegacyUsage := true }

/-- A new installation. -/
def emptyDatabase : Database where
  live := { history := { snapshots := KeyedTable.empty, metrics := fun _ => [], backfilled := false }, sweeps := fun _ => none }
  billing := Billing.init
  logs := fun _ => []

theorem initial_emptyDatabase : emptyDatabase.live.Initial := by
  refine ⟨rfl, fun _ => rfl, ?_⟩
  intro row hrow
  cases hrow

/-- Addresses that no two rows of a table share, as where it has one chunk. -/
def oneChunk : RunAddresses where
  metrics := fun _ i => (0, i + 1)
  snapshots := fun _ => (0, 1)
  populated := fun i => (0, i + 1)
  rollups := fun _ _ => (0, 1)

/-- A payload of one VM, collected on an exact hour and delivered eight days late. -/
def lateRequest : PushRequest where
  time := some 172800
  node := "node1"
  interval := some 300
  interfaces := some [some { vmUuid := "vm1", bridge := "br0", iface := "vnet0", rxDelta := some 1 }]
  physicalInterfaces := []

def latePush : DatabaseEvent :=
  .push 864000 lateRequest
    { vmCount := 1, ifaceCount := 1, inventoryComplete := true
      entities := fun table => if table = .nodeStats then ["vm1"] else [] }

/-- Where `usage` is no longer written, the payload leaves a database that the theorem speaks of. -/
theorem retention_preview_iff_late : ∃ db, (databaseSystem {}).step emptyDatabase latePush = some db ∧
    ((∀ table, preview Config.sample 864000 db table = deleted Config.sample 864000 oneChunk db table) ↔
      PreviewExact Config.sample 864000 oneChunk db) := by
  refine ⟨_, rfl, ?_⟩
  have hclear : KeepsClear {} emptyDatabase latePush := by
    rintro p - id sweep ⟨⟩
  exact retention_preview_iff Config.sample 864000 oneChunk
    (.step (.init initial_emptyDatabase) hclear rfl : (databaseSystem {}).Reachable (KeepsClear {}) _)

/-- **The preview is one row short.** The push has its row of `vm_consumption_hourly` in the hour of its slot, the one
    before. The roll-up of `usage` adds a row in the hour of its time, and the run deletes both. -/
theorem retention_preview_short : ¬ ∀ (cfg : BillingConfig) (config : Config) (now : Int) (ctids : RunAddresses) (db : Database),
    (databaseSystem cfg).Reachable System.AnyStep db →
      ∀ table, preview config now db table = deleted config now ctids db table := by
  intro hall
  have hrun : ∃ db, (databaseSystem legacyConfig).step emptyDatabase latePush = some db ∧
      preview Config.sample 864000 db (.rollup .vmHourly) ≠ deleted Config.sample 864000 oneChunk db (.rollup .vmHourly) := by
    refine ⟨_, rfl, ?_⟩
    decide +kernel
  obtain ⟨db, hdb, hne⟩ := hrun
  have hreachable : (databaseSystem legacyConfig).Reachable System.AnyStep db :=
    .step (.init initial_emptyDatabase) trivial hdb
  exact hne (hall legacyConfig Config.sample 864000 oneChunk db hreachable (.rollup .vmHourly))

end VirtInfra.Retention
