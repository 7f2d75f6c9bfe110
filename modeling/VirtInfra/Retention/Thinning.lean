import VirtInfra.Consumption.Clock
import VirtInfra.Lib.Batches

/-!
# `Thinning` — one push an hour

`run_retention` thins what the pushes recorded: everything since the raw cutoff is to stay, of an hour before it one push,
and what is older than the hourly cutoff goes. Which push stays is read off `node_push_snapshots`, the index of the pushes;
the metric tables then lose every row of another push.

The deletes name their rows by `rowid`, which on PostgreSQL is `ctid`. The index and the metric tables are hypertables, and
a `ctid` names one row of each chunk: a recent row goes with an old one that has its `ctid` in another chunk
(`retention_deletes_recent_push`).
-/

namespace VirtInfra.Retention

open Lib Consumption

/-! ## The tables -/

inductive Tier | raw | hourly
  deriving DecidableEq, Repr

abbrev SnapshotKey := String × Int

/-- A row of `node_push_snapshots`. -/
structure PushSnapshot where
  pushTime : Int
  lastPush : Int
  vmCount : Nat
  ifaceCount : Nat
  inventoryComplete : Bool
  retentionTier : Tier
  deriving DecidableEq

inductive MetricTable
  | nodeStats | vmPerfStats | nodeHostStats | nodePhysicalNetStats | agentHealthStats | nodeFilesystemStats
  deriving DecidableEq, Repr

/-- The tables the index is backfilled from. -/
def MetricTable.indexed : List MetricTable :=
  [.nodeStats, .vmPerfStats, .nodeHostStats, .nodePhysicalNetStats, .agentHealthStats]

/-- A row of a metric table: the push it came with, and what it measures (a VM, an interface, a mount). -/
structure MetricRow where
  node : String
  bucket : Int
  time : Int
  entity : String
  deriving DecidableEq

def MetricRow.key (row : MetricRow) : SnapshotKey := (row.node, row.bucket)

/-- `(CAST(time AS INTEGER) / ?) * ?`, with SQL's division, which rounds to zero. -/
def sqlBucket (time : Int) : Int := time.tdiv 300 * 300

theorem sqlBucket_of_bucketFor {time : Int} (h : 0 ≤ bucketFor time) : sqlBucket time = bucketFor time := by
  have hpos : 0 ≤ time := le_trans h (bucketFor_le time)
  unfold sqlBucket
  rw [Int.tdiv_eq_ediv_of_nonneg hpos]
  rfl

@[ext] structure History where
  snapshots : KeyedTable SnapshotKey PushSnapshot
  metrics : MetricTable → List MetricRow
  backfilled : Bool

/-- The `ctid` of every row when its table is deleted from: of a metric row by its position, of a push by its key. -/
structure Addresses where
  metrics : MetricTable → Nat → Ctid
  snapshots : SnapshotKey → Ctid

/-! ## The cutoffs -/

/-- `RAW_RETENTION_DAYS`, `HOURLY_RETENTION_DAYS`, `RETENTION_BATCH_ROWS` and `RETENTION_TZ_OFFSET_SECONDS`. -/
structure Config where
  rawDays : Int
  hourlyDays : Int
  batchRows : { n : Nat // 0 < n }
  tzOffset : Int
  ordered : rawDays ≤ hourlyDays

/-- A raw cutoff on a bucket, and an hourly cutoff before it. -/
structure Cutoffs where
  hourly : Int
  raw : Int
  ordered : hourly ≤ raw
  aligned : Aligned raw

/-- The cutoffs of a run started at a time. -/
def Config.cutoffs (config : Config) (started : Int) : Cutoffs where
  hourly := bucketFor (started - config.hourlyDays * 86400)
  raw := bucketFor (started - config.rawDays * 86400)
  ordered := bucketFor_mono (by have := config.ordered; omega)
  aligned := aligned_bucketFor _

/-- Before the epoch SQL rounds a time up, and `bucket_for` down. -/
theorem bucketFor_le_sqlBucket {time : Int} (h : bucketFor time < 0) :
    bucketFor time ≤ sqlBucket time ∧ sqlBucket time ≤ 0 := by
  have hneg : time < 0 := by
    by_contra hpos
    have hle : bucketFor 0 ≤ bucketFor time := bucketFor_mono (not_lt.mp hpos)
    exact absurd h (not_lt.mpr hle)
  have hle := bucketFor_le time
  have hup : (-time).tdiv 300 = (-time) / 300 := Int.tdiv_eq_ediv_of_nonneg (by omega)
  rw [Int.neg_tdiv] at hup
  unfold sqlBucket
  omega

/-! ## The run -/

/-- The rows of a metric table that the index misses are inserted, one a push. -/
def indexRows (rows : List MetricRow) (snapshots : KeyedTable SnapshotKey PushSnapshot) :
    KeyedTable SnapshotKey PushSnapshot :=
  (KeyedTable.groupBy MetricRow.key (rows.filter fun row => 0 < row.bucket)).rows.foldl
    (fun t group =>
      let last := (group.2.map MetricRow.time).foldl max 0
      t.insertNew group.1
        { pushTime := last, lastPush := last, vmCount := 0, ifaceCount := 0, inventoryComplete := false
          retentionTier := .raw })
    snapshots

/-- The first run backfills the index. -/
def backfillIndex (h : History) : KeyedTable SnapshotKey PushSnapshot :=
  if h.backfilled then h.snapshots
  else MetricTable.indexed.foldl (fun t table => indexRows (h.metrics table) t) h.snapshots

def MetricRow.populated (row : MetricRow) : MetricRow := { row with bucket := sqlBucket row.time }

/-- Filesystem rows of before the column get the bucket of their time, and so do the rows at their `ctid`. -/
def populateInBatches (ctid : Nat → Ctid) (rows : List MetricRow) : List MetricRow :=
  rows.zipIdx.map fun row =>
    if sharesAddressAt ctid (fun old => old.bucket = 0) rows row.2 then row.1.populated else row.1

/-- The first run populates the buckets of old filesystem rows. -/
def populatedMetrics (ctid : Nat → Ctid) (h : History) : MetricTable → List MetricRow :=
  if h.backfilled then h.metrics
  else Function.update h.metrics .nodeFilesystemStats (populateInBatches ctid (h.metrics .nodeFilesystemStats))

/-- `retention_snapshot_source`: the pushes, and whether their inventory was complete. -/
def snapshotSource (snapshots : KeyedTable SnapshotKey PushSnapshot) (metrics : MetricTable → List MetricRow)
    (backfill : Bool) : KeyedTable SnapshotKey Bool :=
  let indexed := (snapshots.deleteWhere fun key => !decide (0 < key.2)).mapRows fun _ snapshot =>
    snapshot.inventoryComplete
  if backfill then
    (MetricTable.indexed.flatMap fun table => (metrics table).filter fun row => 0 < row.bucket).foldl
      (fun t row => t.insertNew row.key false) indexed
  else indexed

/-- SQL's division of a bucket's local time, which rounds to zero. -/
def hourIndex (off bucket : Int) : Int := (bucket + off).tdiv 3600

/-- `COALESCE(MIN(CASE WHEN inventory_complete=1 THEN bucket END), MIN(bucket))`. -/
def representative (group : List (SnapshotKey × Bool)) : Int :=
  (((group.filter Prod.snd).map fun row => row.1.2).min?).getD (((group.map fun row => row.1.2).min?).getD 0)

/-- `retention_keep_buckets`. -/
def keepBuckets (off : Int) (cutoffs : Cutoffs) (source : KeyedTable SnapshotKey Bool) : List SnapshotKey :=
  let rows := source.rows.filter fun row => cutoffs.hourly ≤ row.1.2 && row.1.2 < cutoffs.raw
  (KeyedTable.groupBy (fun row => (row.1.1, hourIndex off row.1.2)) rows).rows.map fun group =>
    (group.1.1, representative group.2)

/-- The tier of a push after a run. -/
def retier (cutoffs : Cutoffs) (keep : List SnapshotKey) (key : SnapshotKey) (snapshot : PushSnapshot) : PushSnapshot :=
  if key.2 ≥ cutoffs.raw then { snapshot with retentionTier := .raw }
  else if keep.contains key then { snapshot with retentionTier := .hourly }
  else snapshot

/-- `bucket<? AND NOT EXISTS (SELECT 1 FROM retention_keep_buckets …)`. -/
def expired (cutoffs : Cutoffs) (keep : List SnapshotKey) (key : SnapshotKey) : Bool :=
  key.2 < cutoffs.raw && !keep.contains key

/-- The rows of `retention_keep_buckets` in a run. -/
def kept (config : Config) (cutoffs : Cutoffs) (h : History) : List SnapshotKey :=
  keepBuckets config.tzOffset cutoffs (snapshotSource (backfillIndex h) h.metrics (!h.backfilled))

/-- **`run_retention`**, on the pushes and their metrics. -/
def runRetention (config : Config) (cutoffs : Cutoffs) (populated : Nat → Ctid) (ctids : Addresses) (h : History) : History :=
  let keep := kept config cutoffs h
  { metrics := fun table =>
      deleteStored (ctids.metrics table) (fun row => expired cutoffs keep row.key) config.batchRows
        (populatedMetrics populated h table)
    snapshots := ((backfillIndex h).update (retier cutoffs keep)).deleteWhereInBatches ctids.snapshots
      (expired cutoffs keep) config.batchRows
    backfilled := true }

/-! ## The representative of an hour -/

/-- **The push that stands for a group of buckets**: the earliest complete one, or the earliest when none is complete. -/
def Represents (complete : Int → Option Bool) (group : Int → Prop) (bucket : Int) : Prop :=
  group bucket ∧ ∃ c, complete bucket = some c ∧
    ∀ bucket' c', group bucket' → complete bucket' = some c' → (c' = true → c = true) ∧ (c' = c → bucket ≤ bucket')

variable {complete complete' : Int → Option Bool} {group group' : Int → Prop}

theorem Represents.unique {a b : Int} (ha : Represents complete group a) (hb : Represents complete group b) : a = b := by
  obtain ⟨hgroupA, ca, hca, hleastA⟩ := ha
  obtain ⟨hgroupB, cb, hcb, hleastB⟩ := hb
  have hcab : ca = cb := by
    have hab := (hleastA b cb hgroupB hcb).1
    have hba := (hleastB a ca hgroupA hca).1
    cases ca <;> cases cb <;> simp_all
  have hle := (hleastA b cb hgroupB hcb).2 hcab.symm
  have hge := (hleastB a ca hgroupA hca).2 hcab
  omega

theorem Represents.congr {b : Int} (h : Represents complete group b) (hgroup : ∀ b', group' b' ↔ group b')
    (hcomplete : ∀ b', group b' → complete' b' = complete b') : Represents complete' group' b := by
  obtain ⟨hb, c, hc, hleast⟩ := h
  refine ⟨(hgroup b).mpr hb, c, (hcomplete b hb).trans hc, ?_⟩
  intro b' c' hb' hc'
  have hold := (hgroup b').mp hb'
  exact hleast b' c' hold ((hcomplete b' hold).symm.trans hc')

/-- Deleting other pushes leaves a representative one. -/
theorem Represents.restrict {b : Int} (h : Represents complete group b)
    (hsub : ∀ b' c', complete' b' = some c' → complete b' = some c') (hb : complete' b = complete b) :
    Represents complete' group b := by
  obtain ⟨hgroup, c, hc, hleast⟩ := h
  exact ⟨hgroup, c, hb.trans hc, fun b' c' hb' hc' => hleast b' c' hb' (hsub b' c' hc')⟩

/-- **`COALESCE(MIN(…), MIN(…))` picks the representative.** -/
theorem represents_representative {source : KeyedTable SnapshotKey Bool} {node : String}
    {rows : List (SnapshotKey × Bool)}
    (hrows : ∀ row, row ∈ rows ↔ row ∈ source.rows ∧ row.1.1 = node ∧ group row.1.2) (hne : rows ≠ []) :
    Represents (fun bucket => source.get? (node, bucket)) group (representative rows) := by
  have hget : ∀ b c, group b → source.get? (node, b) = some c → ((node, b), c) ∈ rows := by
    intro b c hb hc
    exact (hrows _).mpr ⟨KeyedTable.mem_rows_of_get? hc, rfl, hb⟩
  have hrow : ∀ row ∈ rows, group row.1.2 ∧ source.get? (node, row.1.2) = some row.2 := by
    intro row hmem
    obtain ⟨hsource, rfl, hgroup⟩ := (hrows row).mp hmem
    exact ⟨hgroup, KeyedTable.get?_of_mem_rows hsource⟩
  unfold representative
  cases hfirst : ((rows.filter Prod.snd).map fun row => row.1.2).min? with
  | some b =>
      -- a complete push exists
      obtain ⟨hmem, hleast⟩ := List.min?_eq_some_iff.mp hfirst
      obtain ⟨row, hrowmem, rfl⟩ := List.mem_map.mp hmem
      obtain ⟨hin, hcomplete⟩ := List.mem_filter.mp hrowmem
      refine ⟨(hrow row hin).1, row.2, (hrow row hin).2, ?_⟩
      intro b' c' hb' hc'
      refine ⟨fun _ => hcomplete, fun heq => ?_⟩
      apply hleast
      exact List.mem_map.mpr ⟨_, List.mem_filter.mpr ⟨hget b' c' hb' hc', heq.trans hcomplete⟩, rfl⟩
  | none =>
      have hnone : ∀ row ∈ rows, row.2 = false := by
        intro row hmem
        have hempty : rows.filter Prod.snd = [] := by simpa using hfirst
        simpa using List.filter_eq_nil_iff.mp hempty row hmem
      obtain ⟨b, hb⟩ := Option.isSome_iff_exists.mp
        (List.isSome_min?_of_ne_nil (l := rows.map fun row => row.1.2) (by simpa using hne))
      rw [Option.getD_none, hb, Option.getD_some]
      obtain ⟨hmem, hleast⟩ := List.min?_eq_some_iff.mp hb
      obtain ⟨row, hin, rfl⟩ := List.mem_map.mp hmem
      refine ⟨(hrow row hin).1, row.2, (hrow row hin).2, ?_⟩
      intro b' c' hb' hc'
      have hfalse : c' = false := hnone _ (hget b' c' hb' hc')
      refine ⟨fun htrue => absurd htrue (by simp [hfalse]), fun _ => ?_⟩
      apply hleast
      exact List.mem_map.mpr ⟨_, hget b' c' hb' hc', rfl⟩

section KeepBuckets

variable {off : Int} {cutoffs : Cutoffs} {source : KeyedTable SnapshotKey Bool} {node : String} {b : Int}

/-- The buckets of one of SQL's hours, between the cutoffs. -/
def InGroup (off : Int) (cutoffs : Cutoffs) (hour b : Int) : Prop :=
  (cutoffs.hourly ≤ b ∧ b < cutoffs.raw) ∧ hourIndex off b = hour

/-- A group of `retention_keep_buckets` is kept by its representative. -/
theorem keepBuckets_group (off : Int) (hc : (source.get? (node, b)).isSome) (hb : cutoffs.hourly ≤ b ∧ b < cutoffs.raw) :
    ∃ b', (node, b') ∈ keepBuckets off cutoffs source ∧
      Represents (fun bucket => source.get? (node, bucket)) (InGroup off cutoffs (hourIndex off b)) b' := by
  obtain ⟨c, hc⟩ := Option.isSome_iff_exists.mp hc
  let items := source.rows.filter fun row => cutoffs.hourly ≤ row.1.2 && row.1.2 < cutoffs.raw
  let rows := items.filter fun row => (row.1.1, hourIndex off row.1.2) = (node, hourIndex off b)
  have hrows : ∀ row, row ∈ rows ↔
      row ∈ source.rows ∧ row.1.1 = node ∧ InGroup off cutoffs (hourIndex off b) row.1.2 := by
    intro row
    simp only [rows, items, InGroup, List.mem_filter, Bool.and_eq_true, decide_eq_true_eq, Prod.mk.injEq]
    tauto
  have hne : rows ≠ [] := List.ne_nil_of_mem ((hrows _).mpr ⟨KeyedTable.mem_rows_of_get? hc, rfl, hb, rfl⟩)
  have hstored := KeyedTable.get?_groupBy (fun row : SnapshotKey × Bool => (row.1.1, hourIndex off row.1.2)) items
    (node, hourIndex off b)
  rw [if_neg hne] at hstored
  exact ⟨representative rows, List.mem_map.mpr ⟨_, KeyedTable.mem_rows_of_get? hstored, rfl⟩,
    represents_representative hrows hne⟩

/-- **What `retention_keep_buckets` holds**: the representative of each hour between the cutoffs. -/
theorem mem_keepBuckets :
    (node, b) ∈ keepBuckets off cutoffs source ↔
      Represents (fun bucket => source.get? (node, bucket)) (InGroup off cutoffs (hourIndex off b)) b := by
  constructor
  · intro hmem
    obtain ⟨⟨⟨node', hour⟩, members⟩, hgroup, heq⟩ := List.mem_map.mp hmem
    obtain ⟨rfl, rfl⟩ := Prod.mk.inj heq
    have hget := KeyedTable.get?_of_mem_rows hgroup
    rw [KeyedTable.get?_groupBy] at hget
    split at hget
    · cases hget
    · rename_i hne
      obtain rfl := Option.some.inj hget
      have hrep : Represents (fun bucket => source.get? (node', bucket)) (InGroup off cutoffs hour) (representative _) :=
        represents_representative (by
          intro row
          simp only [InGroup, List.mem_filter, Bool.and_eq_true, decide_eq_true_eq, Prod.mk.injEq]
          tauto) hne
      have hhour := hrep.1.2
      exact hrep.congr (fun b' => by rw [hhour]) fun b' _ => rfl
  · intro h
    obtain ⟨hgroup, c, hc, -⟩ := id h
    obtain ⟨b', hmem, hrep⟩ := keepBuckets_group off (Option.isSome_iff_exists.mpr ⟨c, hc⟩) hgroup.1
    exact hrep.unique h ▸ hmem

end KeepBuckets

/-! ## Local hours -/

/-- **SQL's hours are the local hours** that start after the epoch. -/
theorem hourIndex_eq_iff {off start b : Int} (hstart : OnHour off start) (hpos : 0 < start + off) :
    hourIndex off b = hourIndex off start ↔ localHourStart off b = start := by
  obtain ⟨hour, hhour⟩ := hstart
  have hstored : hourIndex off start = hour := by
    unfold hourIndex
    rw [hhour]
    exact Int.mul_tdiv_cancel_left hour (by decide)
  rw [hstored]
  unfold hourIndex localHourStart
  by_cases hb : 0 ≤ b + off
  · rw [Int.tdiv_eq_ediv_of_nonneg hb]
    omega
  · -- before the local epoch the division rounds up, and to no hour after it
    have hle : 0 ≤ (-(b + off)).tdiv 3600 := Int.tdiv_nonneg (by omega) (by decide)
    rw [Int.neg_tdiv] at hle
    omega

/-! ## What a run keeps -/

section Run

variable {config : Config} {cutoffs : Cutoffs} {h : History}

theorem isSome_get?_indexRows {rows : List MetricRow} {t : KeyedTable SnapshotKey PushSnapshot} {key : SnapshotKey}
    (hkey : (t.get? key).isSome ∨ ∃ row ∈ rows, 0 < row.bucket ∧ row.key = key) :
    ((indexRows rows t).get? key).isSome := by
  apply KeyedTable.isSome_get?_foldl_insertNew
  rcases hkey with hold | ⟨row, hrow, hpos, rfl⟩
  · exact .inl hold
  · right
    have hin : row ∈ (rows.filter fun row => 0 < row.bucket).filter fun other => other.key = row.key := by
      simp [hrow, hpos]
    have hstored := KeyedTable.get?_groupBy MetricRow.key (rows.filter fun row => 0 < row.bucket) row.key
    rw [if_neg (List.ne_nil_of_mem hin)] at hstored
    exact ⟨_, KeyedTable.mem_rows_of_get? hstored, rfl⟩

/-- After the backfill every push of the metric tables is in the index. -/
theorem isSome_get?_backfillIndex (hfirst : h.backfilled = false) {table : MetricTable} (htable : table ∈ MetricTable.indexed)
    {row : MetricRow} (hrow : row ∈ h.metrics table) (hpos : 0 < row.bucket) :
    ((backfillIndex h).get? row.key).isSome := by
  have hfold : ∀ (tables : List MetricTable) (t : KeyedTable SnapshotKey PushSnapshot),
      (t.get? row.key).isSome ∨ table ∈ tables →
      ((tables.foldl (fun t table => indexRows (h.metrics table) t) t).get? row.key).isSome := by
    intro tables
    induction tables with
    | nil => exact fun t ht => by simpa using ht
    | cons first rest ih =>
        intro t ht
        rw [List.foldl_cons]
        apply ih
        -- the table's turn in the fold has come, or it is still ahead
        rcases ht with hold | hmem
        · exact .inl (isSome_get?_indexRows (.inl hold))
        · rcases List.mem_cons.mp hmem with rfl | hrest
          · exact .inl (isSome_get?_indexRows (.inr ⟨row, hrow, hpos, rfl⟩))
          · exact .inr hrest
  unfold backfillIndex
  rw [if_neg (by simp [hfirst])]
  exact hfold MetricTable.indexed h.snapshots (.inr htable)

/-- **The source of a run is the index**, with its first backfill or without. -/
theorem get?_snapshotSource (key : SnapshotKey) :
    (snapshotSource (backfillIndex h) h.metrics (!h.backfilled)).get? key =
      if 0 < key.2 then ((backfillIndex h).get? key).map PushSnapshot.inventoryComplete else none := by
  have hindexed : ∀ key : SnapshotKey, (((backfillIndex h).deleteWhere fun key => !decide (0 < key.2)).mapRows
      fun _ snapshot => snapshot.inventoryComplete).get? key =
        if 0 < key.2 then ((backfillIndex h).get? key).map PushSnapshot.inventoryComplete else none := by
    intro key
    rw [KeyedTable.get?_mapRows, KeyedTable.get?_deleteWhere]
    by_cases hpos : 0 < key.2 <;> simp [hpos]
  unfold snapshotSource
  dsimp only
  split
  · rename_i hfirst
    rw [Bool.not_eq_true'] at hfirst
    -- the metric tables add nothing that the backfill has not put in the index
    rw [KeyedTable.get?_foldl_insertNew, hindexed]
    intro row hrow
    obtain ⟨table, htable, hmem⟩ := List.mem_flatMap.mp hrow
    obtain ⟨hin, hpos⟩ := List.mem_filter.mp hmem
    have hpos : 0 < row.bucket := by simpa using hpos
    rw [hindexed, if_pos (show 0 < row.key.2 from hpos), Option.isSome_map]
    exact isSome_get?_backfillIndex hfirst htable hin hpos
  · exact hindexed key

theorem backfillIndex_of_backfilled (hdone : h.backfilled = true) : backfillIndex h = h.snapshots := if_pos hdone

theorem populatedMetrics_of_backfilled (hdone : h.backfilled = true) (populated : Nat → Ctid) :
    populatedMetrics populated h = h.metrics := if_pos hdone

/-- The index keeps the rows it has through the backfill. -/
theorem get?_backfillIndex_of_some {key : SnapshotKey} {snapshot : PushSnapshot} (hkey : h.snapshots.get? key = some snapshot) :
    (backfillIndex h).get? key = some snapshot := by
  have hfold : ∀ (tables : List MetricTable) (t : KeyedTable SnapshotKey PushSnapshot), t.get? key = some snapshot →
      (tables.foldl (fun t table => indexRows (h.metrics table) t) t).get? key = some snapshot := by
    intro tables
    induction tables with
    | nil => exact fun t ht => ht
    | cons first rest ih =>
        intro t ht
        rw [List.foldl_cons]
        exact ih _ (KeyedTable.get?_foldl_insertNew_of_some ht _)
  unfold backfillIndex
  split
  · exact hkey
  · exact hfold MetricTable.indexed h.snapshots hkey

/-! ## The pushes that stay, and those that go -/

/-- The inventory of a push in the index, where it counts. -/
def completeness (h : History) (node : String) (bucket : Int) : Option Bool :=
  if 0 < bucket then ((backfillIndex h).get? (node, bucket)).map PushSnapshot.inventoryComplete else none

/-- **The push that its hour keeps**, of those between the cutoffs. -/
def Keeps (config : Config) (cutoffs : Cutoffs) (h : History) (key : SnapshotKey) : Prop :=
  Represents (completeness h key.1) (InGroup config.tzOffset cutoffs (hourIndex config.tzOffset key.2)) key.2

/-- **A push that is to go**: it is older than the raw cutoff, and its hour keeps another or none. -/
def Outdated (config : Config) (cutoffs : Cutoffs) (h : History) (key : SnapshotKey) : Prop :=
  key.2 < cutoffs.raw ∧ ¬ Keeps config cutoffs h key

theorem mem_kept {key : SnapshotKey} : key ∈ kept config cutoffs h ↔ Keeps config cutoffs h key := by
  obtain ⟨node, b⟩ := key
  unfold kept Keeps
  rw [mem_keepBuckets]
  simp only [get?_snapshotSource]
  rfl

theorem expired_iff_outdated {key : SnapshotKey} :
    expired cutoffs (kept config cutoffs h) key = true ↔ Outdated config cutoffs h key := by
  unfold expired Outdated
  rw [Bool.and_eq_true, decide_eq_true_eq, Bool.not_eq_true', ← Bool.not_eq_true, List.contains_iff_mem, mem_kept]

theorem Keeps.lt_raw {key : SnapshotKey} (hkeeps : Keeps config cutoffs h key) : key.2 < cutoffs.raw := hkeeps.1.1.2

/-- What an hour keeps is in the index. -/
theorem Keeps.isSome_get? {key : SnapshotKey} (hkeeps : Keeps config cutoffs h key) :
    0 < key.2 ∧ ((backfillIndex h).get? key).isSome := by
  obtain ⟨-, c, hc, -⟩ := hkeeps
  unfold completeness at hc
  split at hc
  · rename_i hpos
    obtain ⟨snapshot, hsnapshot, -⟩ := Option.map_eq_some_iff.mp hc
    exact ⟨hpos, Option.isSome_of_eq_some hsnapshot⟩
  · cases hc

variable {populated : Nat → Ctid} {ctids : Addresses}

/-- **A push that the delete of the index takes**: one that is to go has its `ctid`. -/
def PushTaken (config : Config) (cutoffs : Cutoffs) (ctids : Addresses) (h : History) (key : SnapshotKey) : Prop :=
  ∃ other, ((backfillIndex h).get? other).isSome ∧ Outdated config cutoffs h other ∧ ctids.snapshots other = ctids.snapshots key

/-- **A position that the delete of a metric table takes**: a row that is to go has its `ctid`. -/
def RowTaken (config : Config) (cutoffs : Cutoffs) (populated : Nat → Ctid) (ctids : Addresses) (h : History)
    (table : MetricTable) (i : Nat) : Prop :=
  ∃ (j : Nat) (other : MetricRow), (populatedMetrics populated h table)[j]? = some other ∧
    Outdated config cutoffs h other.key ∧ ctids.metrics table j = ctids.metrics table i

theorem pushTaken_iff {key : SnapshotKey} : PushTaken config cutoffs ctids h key ↔
    ((backfillIndex h).update (retier cutoffs (kept config cutoffs h))).sharesAddress ctids.snapshots
      (expired cutoffs (kept config cutoffs h)) key = true := by
  unfold PushTaken KeyedTable.sharesAddress
  rw [sharesAddress_iff]
  refine exists_congr fun other => ?_
  rw [expired_iff_outdated, ← KeyedTable.get?_isSome_iff, KeyedTable.get?_update, Option.isSome_map]

theorem rowTaken_iff {table : MetricTable} {i : Nat} : RowTaken config cutoffs populated ctids h table i ↔
    sharesAddressAt (ctids.metrics table) (fun row => expired cutoffs (kept config cutoffs h) row.key)
      (populatedMetrics populated h table) i = true := by
  unfold RowTaken
  rw [sharesAddressAt_iff]
  simp only [expired_iff_outdated]

theorem get?_runRetention_of_taken {key : SnapshotKey} (htaken : PushTaken config cutoffs ctids h key) :
    (runRetention config cutoffs populated ctids h).snapshots.get? key = none := by
  show (KeyedTable.deleteWhereInBatches _ _ _ _).get? key = _
  rw [KeyedTable.deleteWhereInBatches_eq, KeyedTable.get?_deleteWhere, if_pos (pushTaken_iff.mp htaken)]

theorem get?_runRetention_of_spared {key : SnapshotKey} (hspared : ¬ PushTaken config cutoffs ctids h key) :
    (runRetention config cutoffs populated ctids h).snapshots.get? key =
      ((backfillIndex h).get? key).map (retier cutoffs (kept config cutoffs h) key) := by
  show (KeyedTable.deleteWhereInBatches _ _ _ _).get? key = _
  rw [KeyedTable.deleteWhereInBatches_eq, KeyedTable.get?_deleteWhere, if_neg (fun htaken => hspared (pushTaken_iff.mpr htaken)),
    KeyedTable.get?_update]

/-- What a run leaves in the index was there, and is not to go. -/
theorem get?_runRetention_eq_some {key : SnapshotKey} {snapshot : PushSnapshot}
    (hkey : (runRetention config cutoffs populated ctids h).snapshots.get? key = some snapshot) :
    ¬ PushTaken config cutoffs ctids h key ∧ ¬ Outdated config cutoffs h key ∧
      ∃ old, (backfillIndex h).get? key = some old ∧ retier cutoffs (kept config cutoffs h) key old = snapshot := by
  by_cases htaken : PushTaken config cutoffs ctids h key
  · rw [get?_runRetention_of_taken htaken] at hkey
    cases hkey
  · rw [get?_runRetention_of_spared htaken, Option.map_eq_some_iff] at hkey
    obtain ⟨old, hold, hretier⟩ := hkey
    refine ⟨htaken, fun houtdated => htaken ?_, old, hold, hretier⟩
    exact ⟨key, Option.isSome_of_eq_some hold, houtdated, rfl⟩

theorem metrics_runRetention (table : MetricTable) : (runRetention config cutoffs populated ctids h).metrics table =
    deleteStored (ctids.metrics table) (fun row => expired cutoffs (kept config cutoffs h) row.key) config.batchRows
      (populatedMetrics populated h table) := rfl

theorem mem_runRetention {table : MetricTable} {row : MetricRow} :
    row ∈ (runRetention config cutoffs populated ctids h).metrics table ↔
      ∃ i : Nat, (populatedMetrics populated h table)[i]? = some row ∧ ¬ RowTaken config cutoffs populated ctids h table i := by
  rw [metrics_runRetention, mem_deleteStored_iff]
  refine exists_congr fun i => ?_
  rw [rowTaken_iff, Bool.not_eq_true]

/-- A metric row that a run leaves is not to go. -/
theorem not_outdated_of_mem {table : MetricTable} {row : MetricRow}
    (hrow : row ∈ (runRetention config cutoffs populated ctids h).metrics table) : ¬ Outdated config cutoffs h row.key := by
  obtain ⟨i, hi, hspared⟩ := mem_runRetention.mp hrow
  exact fun houtdated => hspared ⟨i, row, hi, houtdated, rfl⟩

theorem filter_runRetention_iff {table : MetricTable} {q : MetricRow → Bool} :
    ((runRetention config cutoffs populated ctids h).metrics table).filter q =
        (populatedMetrics populated h table).filter q ↔
      ∀ (i : Nat) (row : MetricRow), (populatedMetrics populated h table)[i]? = some row → q row = true →
        ¬ RowTaken config cutoffs populated ctids h table i := by
  rw [metrics_runRetention, filter_deleteStored_iff]
  simp only [rowTaken_iff, Bool.not_eq_true]

/-! ## Running it again -/

@[simp] theorem retier_inventoryComplete (keep : List SnapshotKey) (key : SnapshotKey) (snapshot : PushSnapshot) :
    (retier cutoffs keep key snapshot).inventoryComplete = snapshot.inventoryComplete := by
  unfold retier
  split
  · rfl
  · split <;> rfl

/-- **A second run keeps what the first kept**, if the first left it in the index. -/
theorem Keeps.again {key : SnapshotKey} (hkeeps : Keeps config cutoffs h key) (hspared : ¬ PushTaken config cutoffs ctids h key) :
    Keeps config cutoffs (runRetention config cutoffs populated ctids h) key := by
  have hindex : ∀ bucket, ¬ PushTaken config cutoffs ctids h (key.1, bucket) →
      completeness (runRetention config cutoffs populated ctids h) key.1 bucket = completeness h key.1 bucket := by
    intro bucket hleft
    unfold completeness
    rw [backfillIndex_of_backfilled rfl, get?_runRetention_of_spared hleft, Option.map_map]
    congr 2
    funext snapshot
    exact retier_inventoryComplete _ _ snapshot
  apply hkeeps.restrict
  · -- what is left was there
    intro b' c' hc'
    by_cases htaken : PushTaken config cutoffs ctids h (key.1, b')
    · unfold completeness at hc'
      rw [backfillIndex_of_backfilled rfl, get?_runRetention_of_taken htaken] at hc'
      simp at hc'
    · rwa [hindex b' htaken] at hc'
  · exact hindex key.2 hspared

/-- A push that the index has lost is kept no longer. -/
theorem not_keeps_of_taken {key : SnapshotKey} (htaken : PushTaken config cutoffs ctids h key) :
    ¬ Keeps config cutoffs (runRetention config cutoffs populated ctids h) key := by
  intro hkeeps
  have hsome := hkeeps.isSome_get?.2
  rw [backfillIndex_of_backfilled rfl, get?_runRetention_of_taken htaken] at hsome
  cases hsome

/-- A run changes nothing where nothing is to go and every tier is as it would be set. -/
theorem runRetention_eq_self (hdone : h.backfilled = true)
    (hsnapshots : ∀ row ∈ h.snapshots.rows, ¬ Outdated config cutoffs h row.1 ∧
      retier cutoffs (kept config cutoffs h) row.1 row.2 = row.2)
    (hmetrics : ∀ table, ∀ row ∈ h.metrics table, ¬ Outdated config cutoffs h row.key) :
    runRetention config cutoffs populated ctids h = h := by
  apply History.ext
  · show KeyedTable.deleteWhereInBatches ((backfillIndex h).update (retier cutoffs (kept config cutoffs h))) _
      (expired cutoffs (kept config cutoffs h)) _ = h.snapshots
    rw [KeyedTable.deleteWhereInBatches_eq]
    apply KeyedTable.ext_rows
    have hmap : (h.snapshots.rows.map fun row => (row.1, retier cutoffs (kept config cutoffs h) row.1 row.2)) =
        h.snapshots.rows := by
      rw [List.map_congr_left (g := id), List.map_id]
      intro row hmem
      rw [(hsnapshots row hmem).2]
      rfl
    have hupdate : ((backfillIndex h).update (retier cutoffs (kept config cutoffs h))).rows = h.snapshots.rows := by
      rw [backfillIndex_of_backfilled hdone]
      exact hmap
    refine (List.filter_eq_self.mpr ?_).trans hupdate
    intro row _
    rw [Bool.not_eq_true', ← Bool.not_eq_true, ← pushTaken_iff]
    -- a row is taken only where some row is to go
    rintro ⟨other, hother, houtdated, -⟩
    rw [backfillIndex_of_backfilled hdone] at hother
    obtain ⟨snapshot, hsnapshot⟩ := Option.isSome_iff_exists.mp hother
    exact (hsnapshots _ (KeyedTable.mem_rows_of_get? hsnapshot)).1 houtdated
  · funext table
    have hall : ((runRetention config cutoffs populated ctids h).metrics table).filter (fun _ => true) =
        (populatedMetrics populated h table).filter fun _ => true := by
      refine filter_runRetention_iff.mpr ?_
      rintro i row - - ⟨j, other, hother, houtdated, -⟩
      rw [populatedMetrics_of_backfilled hdone] at hother
      exact hmetrics table other (List.mem_of_getElem? hother) houtdated
    rwa [List.filter_true, List.filter_true, populatedMetrics_of_backfilled hdone] at hall
  · exact hdone.symm

/-- What a run leaves in the index it leaves a second time, with its tier. -/
theorem retier_retier {key : SnapshotKey} (hfresh : ¬ Outdated config cutoffs h key)
    (hspared : ¬ PushTaken config cutoffs ctids h key) (snapshot : PushSnapshot) :
    retier cutoffs (kept config cutoffs (runRetention config cutoffs populated ctids h)) key
      (retier cutoffs (kept config cutoffs h) key snapshot) = retier cutoffs (kept config cutoffs h) key snapshot := by
  unfold retier
  by_cases hraw : key.2 ≥ cutoffs.raw
  · rw [if_pos hraw, if_pos hraw]
  · have hkeeps : Keeps config cutoffs h key := by
      by_contra hnot
      exact hfresh ⟨not_le.mp hraw, hnot⟩
    rw [if_neg hraw, if_neg hraw, if_pos (List.contains_iff_mem.mpr (mem_kept.mpr (hkeeps.again hspared))),
      if_pos (List.contains_iff_mem.mpr (mem_kept.mpr hkeeps))]

/-- **Running it again changes nothing**, whatever the `ctid`s are by then, exactly when no metric row outlives the push that
    its hour keeps. -/
theorem runRetention_again_iff : (∀ populated' ctids',
      runRetention config cutoffs populated' ctids' (runRetention config cutoffs populated ctids h) =
        runRetention config cutoffs populated ctids h) ↔
    ∀ key, Keeps config cutoffs h key → PushTaken config cutoffs ctids h key → ∀ table i row,
      (populatedMetrics populated h table)[i]? = some row → row.key = key →
      RowTaken config cutoffs populated ctids h table i := by
  constructor
  · rintro hagain key hkeeps htaken table i row hi rfl
    by_contra hleft
    have hrow : row ∈ (runRetention config cutoffs populated ctids h).metrics table := mem_runRetention.mpr ⟨i, hi, hleft⟩
    -- the second run would find the row without the push that its hour keeps
    rw [← hagain populated ctids] at hrow
    exact not_outdated_of_mem hrow ⟨hkeeps.lt_raw, not_keeps_of_taken htaken⟩
  · intro hdivided populated' ctids'
    -- what a run leaves is not to go by the second run either
    have hfresh : ∀ key, ¬ Outdated config cutoffs h key → ¬ PushTaken config cutoffs ctids h key →
        ¬ Outdated config cutoffs (runRetention config cutoffs populated ctids h) key := by
      rintro key hfresh hspared ⟨hraw, hnot⟩
      have hkeeps : Keeps config cutoffs h key := by
        by_contra hnot
        exact hfresh ⟨hraw, hnot⟩
      exact hnot (hkeeps.again hspared)
    apply runRetention_eq_self rfl
    · intro row hmem
      obtain ⟨hspared, hrow, old, -, hold⟩ := get?_runRetention_eq_some (KeyedTable.get?_of_mem_rows hmem)
      rw [← hold]
      exact ⟨hfresh row.1 hrow hspared, retier_retier hrow hspared old⟩
    · rintro table row hmem ⟨hraw, hnot⟩
      obtain ⟨i, hi, hleft⟩ := mem_runRetention.mp hmem
      have hkeeps : Keeps config cutoffs h row.key := by
        by_contra hnot
        exact not_outdated_of_mem hmem ⟨hraw, hnot⟩
      by_cases htaken : PushTaken config cutoffs ctids h row.key
      · exact hleft (hdivided row.key hkeeps htaken table i row hi rfl)
      · exact hnot (hkeeps.again htaken)

/-! ## Whole hours -/

/-- **A local hour that lies between the cutoffs** as a whole, after the epoch. -/
structure WholeHour (config : Config) (cutoffs : Cutoffs) (start : Int) : Prop where
  onHour : OnHour config.tzOffset start
  pos : 0 < start
  local_pos : 0 < start + config.tzOffset
  low : cutoffs.hourly ≤ start
  high : start + 3600 ≤ cutoffs.raw

/-- The push that an hour of the index is to keep: the earliest complete one, or the earliest. -/
def Stands (off : Int) (h : History) (node : String) (start b : Int) : Prop :=
  Represents (fun b' => ((backfillIndex h).get? (node, b')).map PushSnapshot.inventoryComplete)
    (fun b' => localHourStart off b' = start) b

theorem Stands.mem {off start b : Int} {node : String} (hstands : Stands off h node start b) :
    localHourStart off b = start ∧ ((backfillIndex h).get? (node, b)).isSome := by
  obtain ⟨hin, c, hc, -⟩ := hstands
  obtain ⟨snapshot, hsnapshot, -⟩ := Option.map_eq_some_iff.mp hc
  exact ⟨hin, Option.isSome_of_eq_some hsnapshot⟩

/-- **A whole hour with a push keeps one of them.** -/
theorem exists_keeps {node : String} {start b₀ : Int} (hhour : WholeHour config cutoffs start)
    (hb₀ : localHourStart config.tzOffset b₀ = start) (hsome : ((backfillIndex h).get? (node, b₀)).isSome) :
    ∃ b, Stands config.tzOffset h node start b ∧
      ∀ b', localHourStart config.tzOffset b' = start → (Keeps config cutoffs h (node, b') ↔ b' = b) := by
  -- the hour is a group of the query, and nothing of it is outside the cutoffs
  have hmem : ∀ b', localHourStart config.tzOffset b' = start → 0 < b' ∧ cutoffs.hourly ≤ b' ∧ b' < cutoffs.raw := by
    rintro b' rfl
    have hle := localHourStart_le config.tzOffset b'
    have hlt := lt_localHourStart_add config.tzOffset b'
    have hpos := hhour.pos
    have hlow := hhour.low
    have hhigh := hhour.high
    omega
  have hindex : ∀ b', localHourStart config.tzOffset b' = start →
      hourIndex config.tzOffset b' = hourIndex config.tzOffset start :=
    fun b' hb' => (hourIndex_eq_iff hhour.onHour hhour.local_pos).mpr hb'
  -- the query groups by a division that agrees with the local hours here
  have hgroup : ∀ b', localHourStart config.tzOffset b' = start ↔
      InGroup config.tzOffset cutoffs (hourIndex config.tzOffset start) b' := by
    intro b'
    unfold InGroup
    rw [hourIndex_eq_iff hhour.onHour hhour.local_pos]
    exact ⟨fun hb' => ⟨(hmem b' hb').2, hb'⟩, fun hb' => hb'.2⟩
  have hin : ((snapshotSource (backfillIndex h) h.metrics (!h.backfilled)).get? (node, b₀)).isSome := by
    rw [get?_snapshotSource, if_pos (hmem b₀ hb₀).1, Option.isSome_map]
    exact hsome
  obtain ⟨b, hkept, hrep⟩ := keepBuckets_group config.tzOffset hin (hmem b₀ hb₀).2
  rw [hindex b₀ hb₀] at hrep
  have hb : localHourStart config.tzOffset b = start := (hgroup b).mpr hrep.1
  refine ⟨b, hrep.congr hgroup ?_, ?_⟩
  · intro b' hb'
    rw [get?_snapshotSource, if_pos (hmem b' ((hgroup b').mpr hb')).1]
  · intro b' hb'
    constructor
    · intro hkeeps
      have hrep' := mem_keepBuckets.mp (mem_kept.mpr hkeeps)
      rw [hindex b' hb'] at hrep'
      exact hrep'.unique hrep
    · rintro rfl
      exact mem_kept.mp hkept

/-- A row of a node and a local hour. -/
def inHour (off : Int) (node : String) (start : Int) (row : MetricRow) : Bool :=
  row.node = node && localHourStart off row.bucket = start

theorem inHour_iff {off start : Int} {node : String} {row : MetricRow} :
    inHour off node start row = true ↔ row.node = node ∧ localHourStart off row.bucket = start := by
  unfold inHour
  rw [Bool.and_eq_true, decide_eq_true_eq, decide_eq_true_eq]

/-- **An hour has data**: a push in the index, or a row in a metric table. -/
def HasData (off : Int) (h : History) (populated : Nat → Ctid) (node : String) (start : Int) : Prop :=
  (∃ b, localHourStart off b = start ∧ ((backfillIndex h).get? (node, b)).isSome) ∨
    ∃ table, ∃ row ∈ populatedMetrics populated h table, inHour off node start row = true

/-- **An hour is thinned to the push `b`**: the index has no other of the hour, and every metric table that had rows of the
    hour has those of `b`, of which there are some, and no others. -/
structure ThinnedTo (config : Config) (cutoffs : Cutoffs) (populated : Nat → Ctid) (ctids : Addresses) (h : History)
    (node : String) (start b : Int) : Prop where
  stands : Stands config.tzOffset h node start b
  index : ∀ b', localHourStart config.tzOffset b' = start →
    (((runRetention config cutoffs populated ctids h).snapshots.get? (node, b')).isSome ↔ b' = b)
  metrics : ∀ table, (∃ row ∈ populatedMetrics populated h table, inHour config.tzOffset node start row = true) →
    ((runRetention config cutoffs populated ctids h).metrics table).filter (inHour config.tzOffset node start) =
        (populatedMetrics populated h table).filter (fun row => row.key = (node, b)) ∧
      ∃ row ∈ (runRetention config cutoffs populated ctids h).metrics table, row.key = (node, b)

/-- **Retention keeps one push an hour**: every whole hour with data is thinned to the push that stands for it, what is since
    the raw cutoff stays, and running it again changes nothing. -/
structure KeepsOnePushAnHour (config : Config) (cutoffs : Cutoffs) (populated : Nat → Ctid) (ctids : Addresses)
    (h : History) : Prop where
  hours : ∀ node start, WholeHour config cutoffs start → HasData config.tzOffset h populated node start →
    ∃ b, ThinnedTo config cutoffs populated ctids h node start b
  recentPushes : ∀ key snapshot, (backfillIndex h).get? key = some snapshot → cutoffs.raw ≤ key.2 →
    (runRetention config cutoffs populated ctids h).snapshots.get? key = some { snapshot with retentionTier := .raw }
  recentRows : ∀ table, ((runRetention config cutoffs populated ctids h).metrics table).filter (fun row => cutoffs.raw ≤ row.time) =
    (populatedMetrics populated h table).filter fun row => cutoffs.raw ≤ row.time
  again : ∀ populated' ctids', runRetention config cutoffs populated' ctids' (runRetention config cutoffs populated ctids h) =
    runRetention config cutoffs populated ctids h

/-- **When it does**: the index has a push of every whole hour with data, a metric table with rows of such an hour has some of
    the push that it keeps, and no row that is to stay has the `ctid` of one that is to go. -/
structure Thinnable (config : Config) (cutoffs : Cutoffs) (populated : Nat → Ctid) (ctids : Addresses) (h : History) :
    Prop where
  indexed : ∀ node start, WholeHour config cutoffs start → HasData config.tzOffset h populated node start →
    ∃ b, localHourStart config.tzOffset b = start ∧ ((backfillIndex h).get? (node, b)).isSome
  measured : ∀ node b, Keeps config cutoffs h (node, b) → WholeHour config cutoffs (localHourStart config.tzOffset b) →
    ∀ table, (∃ row ∈ populatedMetrics populated h table,
        inHour config.tzOffset node (localHourStart config.tzOffset b) row = true) →
      ∃ row ∈ populatedMetrics populated h table, row.key = (node, b)
  spared : ∀ key, Keeps config cutoffs h key → WholeHour config cutoffs (localHourStart config.tzOffset key.2) →
    ¬ PushTaken config cutoffs ctids h key ∧ ∀ table i row, (populatedMetrics populated h table)[i]? = some row →
      row.key = key → ¬ RowTaken config cutoffs populated ctids h table i
  recentPushes : ∀ key, ((backfillIndex h).get? key).isSome → cutoffs.raw ≤ key.2 → ¬ PushTaken config cutoffs ctids h key
  recentRows : ∀ table i row, (populatedMetrics populated h table)[i]? = some row → cutoffs.raw ≤ row.time →
    ¬ RowTaken config cutoffs populated ctids h table i
  /-- of an hour that a cutoff divides, the metric rows go with the push -/
  divided : ∀ key, Keeps config cutoffs h key → PushTaken config cutoffs ctids h key → ∀ table i row,
    (populatedMetrics populated h table)[i]? = some row → row.key = key → RowTaken config cutoffs populated ctids h table i

/-- Where the index has a push of the hour, the hour is thinned exactly when its push and the rows of it are spared, and no
    metric table has rows of other pushes only. -/
theorem thinnedTo_of_keeps {node : String} {start b : Int} (hstands : Stands config.tzOffset h node start b)
    (hkeeps : ∀ b', localHourStart config.tzOffset b' = start → (Keeps config cutoffs h (node, b') ↔ b' = b))
    (hmeasured : ∀ table, (∃ row ∈ populatedMetrics populated h table, inHour config.tzOffset node start row = true) →
      ∃ row ∈ populatedMetrics populated h table, row.key = (node, b))
    (hpush : ¬ PushTaken config cutoffs ctids h (node, b))
    (hrows : ∀ table i row, (populatedMetrics populated h table)[i]? = some row → row.key = (node, b) →
      ¬ RowTaken config cutoffs populated ctids h table i)
    (hraw : ∀ b', localHourStart config.tzOffset b' = start → b' < cutoffs.raw) :
    ThinnedTo config cutoffs populated ctids h node start b := by
  obtain ⟨hb, hsome⟩ := hstands.mem
  have houtdated : ∀ b', localHourStart config.tzOffset b' = start → b' ≠ b → Outdated config cutoffs h (node, b') :=
    fun b' hb' hne => ⟨hraw b' hb', fun hkept => hne ((hkeeps b' hb').mp hkept)⟩
  refine ⟨hstands, fun b' hb' => ?_, fun table hhas => ?_⟩
  · constructor
    · intro hleft
      obtain ⟨snapshot, hsnapshot⟩ := Option.isSome_iff_exists.mp hleft
      by_contra hne
      exact (get?_runRetention_eq_some hsnapshot).2.1 (houtdated b' hb' hne)
    · rintro rfl
      rw [get?_runRetention_of_spared hpush, Option.isSome_map]
      exact hsome
  -- the rows of the push are spared, the others of the hour are to go
  · have hsame : ((runRetention config cutoffs populated ctids h).metrics table).filter (fun row => row.key = (node, b)) =
        (populatedMetrics populated h table).filter fun row => row.key = (node, b) :=
      filter_runRetention_iff.mpr fun i row hi hkey => hrows table i row hi (of_decide_eq_true hkey)
    constructor
    · rw [← hsame]
      apply List.filter_congr
      intro row hrow
      rw [Bool.eq_iff_iff, inHour_iff, decide_eq_true_eq]
      unfold MetricRow.key
      rw [Prod.mk.injEq]
      refine and_congr_right fun hnode => ⟨fun hin => ?_, fun hbucket => by rw [hbucket]; exact hb⟩
      by_contra hne
      refine not_outdated_of_mem hrow ?_
      unfold MetricRow.key
      rw [hnode]
      exact houtdated row.bucket hin hne
    · obtain ⟨row, hrow, hkey⟩ := hmeasured table hhas
      have hmem : row ∈ (populatedMetrics populated h table).filter fun row => row.key = (node, b) :=
        List.mem_filter.mpr ⟨hrow, decide_eq_true hkey⟩
      rw [← hsame] at hmem
      exact ⟨row, (List.mem_filter.mp hmem).1, hkey⟩

/-- The push that stands for a whole hour is the one that it keeps. -/
theorem Stands.eq_of_keeps {node : String} {start b b' : Int} (hhour : WholeHour config cutoffs start)
    (hstands : Stands config.tzOffset h node start b) (hkeeps : Keeps config cutoffs h (node, b'))
    (hb' : localHourStart config.tzOffset b' = start) : b = b' := by
  obtain ⟨hb, hsome⟩ := hstands.mem
  obtain ⟨kept, hkept, hiff⟩ := exists_keeps hhour hb hsome
  rw [(hiff b' hb').mp hkeeps]
  exact Represents.unique hstands hkept

/-- The rows of a push, out of those of its hour. -/
theorem filter_inHour_key {off b : Int} {node : String} (rows : List MetricRow) :
    (rows.filter (inHour off node (localHourStart off b))).filter (fun row => row.key = (node, b)) =
      rows.filter fun row => row.key = (node, b) := by
  rw [List.filter_filter]
  apply List.filter_congr
  intro row _
  by_cases hkey : row.key = (node, b)
  · obtain ⟨hnode, hbucket⟩ := Prod.mk.inj hkey
    rw [inHour_iff.mpr ⟨hnode, by rw [hbucket]⟩, Bool.and_true]
  · rw [decide_eq_false hkey, Bool.false_and]

/-- **What an hour is thinned to is spared**, in the index and in the metric tables. -/
theorem ThinnedTo.spared {node : String} {b : Int}
    (hthinned : ThinnedTo config cutoffs populated ctids h node (localHourStart config.tzOffset b) b) :
    ¬ PushTaken config cutoffs ctids h (node, b) ∧ ∀ table i row, (populatedMetrics populated h table)[i]? = some row →
      row.key = (node, b) → ¬ RowTaken config cutoffs populated ctids h table i := by
  constructor
  · intro htaken
    have hleft := (hthinned.index b rfl).mpr rfl
    rw [get?_runRetention_of_taken htaken] at hleft
    cases hleft
  · intro table i row hi hkey
    obtain ⟨hnode, hbucket⟩ := Prod.mk.inj hkey
    have hin : inHour config.tzOffset node (localHourStart config.tzOffset b) row = true :=
      inHour_iff.mpr ⟨hnode, by rw [hbucket]⟩
    have hhour := (hthinned.metrics table ⟨row, List.mem_of_getElem? hi, hin⟩).1
    have hsame : ((runRetention config cutoffs populated ctids h).metrics table).filter (fun row => row.key = (node, b)) =
        (populatedMetrics populated h table).filter fun row => row.key = (node, b) := by
      rw [← filter_inHour_key, hhour, List.filter_filter]
      simp only [Bool.and_self]
    exact filter_runRetention_iff.mp hsame i row hi (decide_eq_true hkey)

/-- Where retention keeps one push an hour, the hour of a push that it keeps is thinned to that push. -/
theorem KeepsOnePushAnHour.thinnedTo (hthins : KeepsOnePushAnHour config cutoffs populated ctids h) {node : String} {b : Int}
    (hkeeps : Keeps config cutoffs h (node, b)) (hhour : WholeHour config cutoffs (localHourStart config.tzOffset b)) :
    ThinnedTo config cutoffs populated ctids h node (localHourStart config.tzOffset b) b := by
  obtain ⟨b', hthinned⟩ := hthins.hours node _ hhour (.inl ⟨b, rfl, hkeeps.isSome_get?.2⟩)
  rwa [hthinned.stands.eq_of_keeps hhour hkeeps rfl] at hthinned

/-- **Exactly when retention keeps one push an hour.** -/
theorem retention_keeps_one_push_an_hour_iff (config : Config) (cutoffs : Cutoffs) (populated : Nat → Ctid) (ctids : Addresses)
    (h : History) :
    KeepsOnePushAnHour config cutoffs populated ctids h ↔ Thinnable config cutoffs populated ctids h := by
  constructor
  · intro hthins
    refine ⟨?_, ?_, ?_, ?_, ?_, runRetention_again_iff.mp hthins.again⟩
    · intro node start hhour hdata
      obtain ⟨b, hthinned⟩ := hthins.hours node start hhour hdata
      exact ⟨b, hthinned.stands.mem⟩
    · intro node b hkeeps hhour table hhas
      obtain ⟨row, hrow, hkey⟩ := ((hthins.thinnedTo hkeeps hhour).metrics table hhas).2
      obtain ⟨i, hi, -⟩ := mem_runRetention.mp hrow
      exact ⟨row, List.mem_of_getElem? hi, hkey⟩
    · rintro ⟨node, b⟩ hkeeps hhour
      exact (hthins.thinnedTo hkeeps hhour).spared
    · intro key hsome hraw htaken
      obtain ⟨snapshot, hsnapshot⟩ := Option.isSome_iff_exists.mp hsome
      have hleft := hthins.recentPushes key snapshot hsnapshot hraw
      rw [get?_runRetention_of_taken htaken] at hleft
      cases hleft
    · intro table i row hi hraw
      exact filter_runRetention_iff.mp (hthins.recentRows table) i row hi (decide_eq_true hraw)
  · intro hsafe
    refine ⟨?_, ?_, ?_, runRetention_again_iff.mpr hsafe.divided⟩
    · intro node start hhour hdata
      obtain ⟨b₀, hb₀, hsome⟩ := hsafe.indexed node start hhour hdata
      obtain ⟨b, hstands, hkeeps⟩ := exists_keeps hhour hb₀ hsome
      have hb : localHourStart config.tzOffset b = start := hstands.mem.1
      have hkept : Keeps config cutoffs h (node, b) := (hkeeps b hb).mpr rfl
      subst hb
      obtain ⟨hpush, hrows⟩ := hsafe.spared (node, b) hkept hhour
      refine ⟨b, thinnedTo_of_keeps hstands hkeeps (hsafe.measured node b hkept hhour) hpush hrows ?_⟩
      -- the hour ends before the raw cutoff
      intro b' hb'
      have hlt := lt_localHourStart_add config.tzOffset b'
      have hhigh := hhour.high
      omega
    · intro key snapshot hkey hraw
      rw [get?_runRetention_of_spared (hsafe.recentPushes key (Option.isSome_of_eq_some hkey) hraw), hkey]
      unfold retier
      rw [Option.map_some, if_pos hraw]
    · intro table
      exact filter_runRetention_iff.mpr fun i row hi hraw => hsafe.recentRows table i row hi (of_decide_eq_true hraw)

end Run

/-- The defaults, at UTC. -/
def Config.sample : Config :=
  { rawDays := 2, hourlyDays := 7, batchRows := ⟨25000, by decide⟩, tzOffset := 0, ordered := by decide }

/-- The row of a push with one VM. -/
def PushSnapshot.sample (time : Int) : PushSnapshot :=
  { pushTime := time, lastPush := time, vmCount := 1, ifaceCount := 0, inventoryComplete := true, retentionTier := .raw }

/-- Of one node, two pushes of the second day and one of the last five minutes of the tenth. -/
def oldAndNew : History where
  snapshots := [86400, 86700, 863700].foldl
    (fun t bucket => t.insertNew ("node1", bucket) (PushSnapshot.sample bucket)) KeyedTable.empty
  metrics := fun _ => []
  backfilled := true

/-- The old pushes are the two rows of their chunk. The new one was the first row of its chunk, and is the second since the
    run has set its tier. -/
def oldAndNewCtids : Addresses where
  snapshots := fun key => if key.2 = 86400 then (0, 1) else (0, 2)
  metrics := fun _ i => (0, i + 1)

/-- **Retention deletes a push of today**: it has the `ctid` of an old one, in another chunk. -/
theorem retention_deletes_recent_push : ¬ ∀ (config : Config) (cutoffs : Cutoffs) (populated : Nat → Ctid) (ctids : Addresses)
    (h : History), KeepsOnePushAnHour config cutoffs populated ctids h := by
  intro hall
  have htaken : PushTaken Config.sample (Config.sample.cutoffs 864000) oldAndNewCtids oldAndNew ("node1", 863700) :=
    ⟨("node1", 86700), by decide +kernel, expired_iff_outdated.mp (by decide +kernel), rfl⟩
  have hleft := (hall Config.sample (Config.sample.cutoffs 864000) (fun i => (0, i + 1)) oldAndNewCtids oldAndNew).recentPushes
    ("node1", 863700) _ rfl (by decide +kernel)
  rw [get?_runRetention_of_taken htaken] at hleft
  cases hleft

end VirtInfra.Retention
