import VirtInfra.Lib.Transition
import VirtInfra.Retention.Thinning

/-!
# `History` — the index and the metric tables over a run

Pushes, purges, retention runs and history deletions, table by table. A cleanup deletes from the metric tables first and
from the index last, and pushes are written in between. What later runs rely on is that the index misses no push of the
metric tables (`Indexed`); a push loses its index row alone when it is written while a cleanup deletes its bucket, or when
its index row has the `ctid` of an old one.
-/

namespace VirtInfra.Retention

open Lib Consumption

/-! ## Pushes -/

/-- What a payload brings for the index and, of each metric table, the things it measured. -/
structure Measured where
  vmCount : Nat
  ifaceCount : Nat
  inventoryComplete : Bool
  entities : MetricTable → List String

/-- What one push writes. -/
structure PushRows extends Measured where
  node : String
  time : Int

namespace PushRows

def key (p : PushRows) : SnapshotKey := (p.node, bucketFor p.time)

def row (p : PushRows) (entity : String) : MetricRow := { node := p.node, bucket := bucketFor p.time, time := p.time, entity }

/-- `INSERT INTO node_push_snapshots … ON CONFLICT(node, bucket)`. -/
def index (p : PushRows) (snapshots : KeyedTable SnapshotKey PushSnapshot) : KeyedTable SnapshotKey PushSnapshot :=
  snapshots.upsert p.key
    { pushTime := p.time, lastPush := p.time, vmCount := p.vmCount, ifaceCount := p.ifaceCount
      inventoryComplete := p.inventoryComplete, retentionTier := .raw }
    fun old new =>
      { pushTime := max old.pushTime new.pushTime, lastPush := max old.lastPush new.lastPush, vmCount := new.vmCount
        ifaceCount := new.ifaceCount, inventoryComplete := old.inventoryComplete || new.inventoryComplete
        retentionTier := .raw }

end PushRows

/-- An insert into a metric table. Only `node_stats` has a key that a second push of the bucket may find taken; the other
    tables number their rows. -/
def insertRow (table : MetricTable) (rows : List MetricRow) (row : MetricRow) : List MetricRow :=
  if table = .nodeStats && rows.any fun old => old.key = row.key && old.entity = row.entity then
    rows.map fun old =>
      if old.key = row.key && old.entity = row.entity then { old with time := max old.time row.time } else old
  else rows ++ [row]

def History.push (p : PushRows) (h : History) : History :=
  { h with
    snapshots := p.index h.snapshots
    metrics := fun table => ((p.entities table).map p.row).foldl (insertRow table) (h.metrics table) }

/-! ## Cleanups -/

/-- A cleanup in progress: the buckets it deletes, what is left to go through, and whether it ends with the marker of the
    backfill. -/
structure Sweep where
  expires : SnapshotKey → Bool
  batchRows : { n : Nat // 0 < n }
  left : List MetricTable
  index : Bool
  marks : Bool

def MetricTable.all : List MetricTable := indexed ++ [.nodeFilesystemStats]

/-- The database while cleanups run. -/
structure Live where
  history : History
  sweeps : Nat → Option Sweep

inductive HistoryEvent
  | push (p : PushRows)
  /-- `purge_vm_data` and `purge_all_vms_for_node`: the rows of the VMs go, and the index counts again -/
  | purgeVms (gone : MetricRow → Bool) (counts : SnapshotKey → Nat × Nat)
  /-- `purge_node_data` -/
  | purgeNode (node : String)
  /-- `run_retention` up to its first delete -/
  | startRetention (id : Nat) (config : Config) (cutoffs : Cutoffs) (populated : Nat → Ctid)
  /-- `delete_history_older_than` up to its first delete -/
  | startDeletion (id : Nat) (batchRows : { n : Nat // 0 < n }) (cutoff : Int)
  /-- the next statement of a cleanup -/
  | sweep (id : Nat) (ctids : Addresses)
  /-- an exception ends a cleanup -/
  | abort (id : Nat)

/-- The deletes of the purges on the metric tables. -/
def History.purgeVms (gone : MetricRow → Bool) (counts : SnapshotKey → Nat × Nat) (h : History) : History :=
  { h with
    metrics := fun table =>
      match table with
      | .nodeStats | .vmPerfStats => (h.metrics table).filter fun row => !gone row
      | _ => h.metrics table
    snapshots := h.snapshots.update fun key snapshot =>
      { snapshot with vmCount := (counts key).1, ifaceCount := (counts key).2 } }

def History.purgeNode (node : String) (h : History) : History :=
  { h with
    metrics := fun table => (h.metrics table).filter fun row => row.node ≠ node
    snapshots := h.snapshots.deleteWhere fun key => key.1 = node }

/-- The backfill, the tiers, and the buckets that the run will delete. -/
def startRetention (config : Config) (cutoffs : Cutoffs) (populated : Nat → Ctid) (h : History) : History × Sweep :=
  ({ h with
      snapshots := (backfillIndex h).update (retier cutoffs (kept config cutoffs h))
      metrics := populatedMetrics populated h },
    { expires := expired cutoffs (kept config cutoffs h), batchRows := config.batchRows, left := MetricTable.all
      index := true, marks := !h.backfilled })

/-- One `UPDATE` populates the buckets of old filesystem rows. -/
def populate (rows : List MetricRow) : List MetricRow :=
  rows.map fun row => if row.bucket = 0 then row.populated else row

def startDeletion (batchRows : { n : Nat // 0 < n }) (cutoff : Int) (h : History) : History × Sweep :=
  ({ h with metrics := Function.update h.metrics .nodeFilesystemStats (populate (h.metrics .nodeFilesystemStats)) },
    { expires := fun key => key.2 < cutoff, batchRows, left := MetricTable.all, index := true, marks := false })

/-- One statement of a cleanup, and what is left of it. -/
def Sweep.next (sweep : Sweep) (ctids : Addresses) (h : History) : History × Option Sweep :=
  match sweep.left, sweep.index with
  | table :: rest, _ =>
      ({ h with
          metrics := Function.update h.metrics table
            (deleteStored (ctids.metrics table) (fun row => sweep.expires row.key) sweep.batchRows (h.metrics table)) },
        some { sweep with left := rest })
  | [], true =>
      ({ h with snapshots := h.snapshots.deleteWhereInBatches ctids.snapshots sweep.expires sweep.batchRows },
        some { sweep with index := false })
  | [], false => ({ h with backfilled := h.backfilled || sweep.marks }, none)

def Live.step (s : Live) : HistoryEvent → Option Live
  | .push p => some { s with history := s.history.push p }
  | .purgeVms gone counts => some { s with history := s.history.purgeVms gone counts }
  | .purgeNode node => some { s with history := s.history.purgeNode node }
  | .startRetention id config cutoffs populated =>
      if (s.sweeps id).isNone then
        let (history, sweep) := startRetention config cutoffs populated s.history
        some { history, sweeps := Function.update s.sweeps id (some sweep) }
      else none
  | .startDeletion id batchRows cutoff =>
      if (s.sweeps id).isNone then
        let (history, sweep) := startDeletion batchRows cutoff s.history
        some { history, sweeps := Function.update s.sweeps id (some sweep) }
      else none
  | .sweep id ctids => (s.sweeps id).map fun sweep =>
      { history := (sweep.next ctids s.history).1, sweeps := Function.update s.sweeps id (sweep.next ctids s.history).2 }
  | .abort id => some { s with sweeps := Function.update s.sweeps id none }

/-- An installation without the marker: an empty one, or one that an older release left. Filesystem rows of before the
    column have the bucket 0, and later ones that of their time. -/
def Live.Initial (s : Live) : Prop :=
  s.history.backfilled = false ∧ (∀ id, s.sweeps id = none) ∧
    ∀ row ∈ s.history.metrics .nodeFilesystemStats, row.bucket = 0 ∨ 0 < row.bucket ∧ row.bucket = bucketFor row.time

def historySystem : System Live HistoryEvent := ⟨Live.Initial, Live.step⟩

/-- **A retention run that nothing comes between** is `runRetention`. -/
theorem retention_uninterrupted (s : Live) {id : Nat} (hfree : s.sweeps id = none) (config : Config) (cutoffs : Cutoffs)
    (populated : Nat → Ctid) (ctids : Addresses) :
    historySystem.exec System.AnyStep s (.startRetention id config cutoffs populated :: List.replicate 8 (.sweep id ctids)) =
      some { s with history := runRetention config cutoffs populated ctids s.history } := by
  simp only [List.replicate, System.exec, historySystem, Live.step, hfree, Option.isNone_none, if_true, Option.bind_some,
    startRetention, Sweep.next, MetricTable.all, MetricTable.indexed, List.cons_append, List.nil_append,
    Function.update_self, Function.update_idem, Option.map_some, Bool.or_not_self]
  rw [← hfree, Function.update_eq_self]
  congr 2
  apply History.ext
  · rfl
  · funext table
    cases table <;> rfl
  · rfl

/-- **No push in a bucket that a cleanup deletes**, and no cleanup that deletes other rows of the index than it is to. -/
def Careful (s : Live) : HistoryEvent → Prop
  | .push p => ∀ id sweep, s.sweeps id = some sweep → sweep.expires p.key = false
  | .sweep id ctids => ∀ sweep, s.sweeps id = some sweep → sweep.left = [] → sweep.index = true →
      Apart ctids.snapshots sweep.expires s.history.snapshots.keys
  | _ => True

/-! ## What the cleanups rely on -/

/-- **The index misses no push** of the metric tables that it is backfilled from. -/
def Indexed (h : History) : Prop :=
  ∀ table ∈ MetricTable.indexed, ∀ row ∈ h.metrics table, 0 < row.bucket → (h.snapshots.get? row.key).isSome

/-- The backfill is done: the marker says so, or a cleanup that will set it. -/
def Prepared (s : Live) : Prop :=
  s.history.backfilled = true ∨ ∃ id sweep, s.sweeps id = some sweep ∧ sweep.marks = true

/-- The stored bucket of a filesystem row against the bucket of its time. -/
structure Dated (h : History) (populated : Prop) : Prop where
  positive : ∀ row ∈ h.metrics .nodeFilesystemStats, 0 < row.bucket → row.bucket = sqlBucket row.time
  zero : populated → ∀ row ∈ h.metrics .nodeFilesystemStats, row.bucket = 0 → sqlBucket row.time = 0
  negative : ∀ row ∈ h.metrics .nodeFilesystemStats, row.bucket < 0 →
    row.bucket ≤ sqlBucket row.time ∧ sqlBucket row.time ≤ 0

structure Sound (s : Live) : Prop where
  indexed : Prepared s → Indexed s.history
  dated : Dated s.history (Prepared s)
  /-- what a cleanup has gone through holds nothing that it deletes -/
  swept : ∀ id sweep, s.sweeps id = some sweep → ∀ table ∈ MetricTable.indexed, table ∉ sweep.left →
    ∀ row ∈ s.history.metrics table, sweep.expires row.key = false

theorem Live.Initial.sound {s : Live} (h : s.Initial) : Sound s := by
  obtain ⟨hfirst, hnone, hbucket⟩ := h
  have hnot : ¬ Prepared s := by
    rintro (hdone | ⟨id, sweep, hsweep, -⟩)
    · simp [hfirst] at hdone
    · simp [hnone] at hsweep
  refine ⟨fun hprepared => absurd hprepared hnot, ⟨?_, fun hprepared => absurd hprepared hnot, ?_⟩, ?_⟩
  · intro row hrow hpos
    -- a row of before the column has the bucket 0
    rcases hbucket row hrow with hzero | ⟨-, htime⟩
    · omega
    · rw [sqlBucket_of_bucketFor (by omega), htime]
  · intro row hrow hneg
    have := hbucket row hrow
    omega
  · intro id sweep hsweep
    simp [hnone] at hsweep

/-! ## Pushes -/

theorem mem_insertRow {table : MetricTable} {rows : List MetricRow} {row new : MetricRow}
    (h : new ∈ insertRow table rows row) :
    new ∈ rows ∨ new.key = row.key ∧ (table ≠ .nodeStats → new = row) := by
  unfold insertRow at h
  split at h
  · rename_i htaken
    rw [Bool.and_eq_true, decide_eq_true_eq] at htaken
    obtain ⟨old, hold, rfl⟩ := List.mem_map.mp h
    split
    · rename_i hsame
      rw [Bool.and_eq_true, decide_eq_true_eq, decide_eq_true_eq] at hsame
      exact .inr ⟨hsame.1, fun hne => absurd htaken.1 hne⟩
    · exact .inl hold
  · rcases List.mem_append.mp h with hold | hnew
    · exact .inl hold
    · obtain rfl := List.mem_singleton.mp hnew
      exact .inr ⟨rfl, fun _ => rfl⟩

/-- **A push writes rows of its own bucket.** -/
theorem mem_push {p : PushRows} {h : History} {table : MetricTable} {row : MetricRow}
    (hrow : row ∈ (h.push p).metrics table) :
    row ∈ h.metrics table ∨ row.key = p.key ∧ (table ≠ .nodeStats → row.time = p.time) := by
  -- one row an entity, written one after the other
  have hfold : ∀ (entities : List String) (rows : List MetricRow),
      row ∈ (entities.map p.row).foldl (insertRow table) rows →
      row ∈ rows ∨ row.key = p.key ∧ (table ≠ .nodeStats → row.time = p.time) := by
    intro entities
    induction entities with
    | nil => exact fun rows hmem => .inl hmem
    | cons entity rest ih =>
        intro rows hmem
        rcases ih _ hmem with hin | hnew
        · rcases mem_insertRow hin with hold | ⟨hkey, hsame⟩
          · exact .inl hold
          · exact .inr ⟨hkey, fun hne => by rw [hsame hne]; rfl⟩
        · exact .inr hnew
  exact hfold _ _ hrow

theorem isSome_index {p : PushRows} {h : History} {key : SnapshotKey} :
    ((h.push p).snapshots.get? key).isSome ↔ (h.snapshots.get? key).isSome ∨ key = p.key := by
  rw [KeyedTable.get?_isSome_iff, KeyedTable.get?_isSome_iff]
  exact KeyedTable.mem_keys_upsert (t := h.snapshots)

theorem Sound.push {s : Live} (h : Sound s) {p : PushRows} (hcareful : Careful s (.push p)) :
    Sound { s with history := s.history.push p } := by
  refine ⟨?_, ⟨?_, ?_, ?_⟩, ?_⟩
  · intro hprepared table htable row hrow hpos
    rw [isSome_index]
    rcases mem_push hrow with hold | ⟨hkey, -⟩
    · exact .inl (h.indexed hprepared table htable row hold hpos)
    · exact .inr hkey
  · intro row hrow hpos
    rcases mem_push hrow with hold | ⟨hkey, htime⟩
    · exact h.dated.positive row hold hpos
    · have hbucket : row.bucket = bucketFor p.time := congrArg Prod.snd hkey
      rw [htime (by decide), sqlBucket_of_bucketFor (by omega), hbucket]
  · intro hprepared row hrow hzero
    rcases mem_push hrow with hold | ⟨hkey, htime⟩
    · exact h.dated.zero hprepared row hold hzero
    · have hbucket : row.bucket = bucketFor p.time := congrArg Prod.snd hkey
      rw [htime (by decide), sqlBucket_of_bucketFor (by omega)]
      omega
  · intro row hrow hneg
    rcases mem_push hrow with hold | ⟨hkey, htime⟩
    · exact h.dated.negative row hold hneg
    · have hbucket : row.bucket = bucketFor p.time := congrArg Prod.snd hkey
      rw [htime (by decide), hbucket]
      exact bucketFor_le_sqlBucket (by omega)
  · intro id sweep hsweep table htable hleft row hrow
    rcases mem_push hrow with hold | ⟨hkey, -⟩
    · exact h.swept id sweep hsweep table htable hleft row hold
    · rw [hkey]
      exact hcareful id sweep hsweep

/-! ## Deletes -/

/-- **A delete keeps the index complete** that spares the index rows of what it leaves in the metric tables. -/
theorem Sound.delete {s : Live} (h : Sound s) (history : History)
    (hless : ∀ table row, row ∈ history.metrics table → row ∈ s.history.metrics table)
    (hspared : ∀ table ∈ MetricTable.indexed, ∀ row ∈ history.metrics table,
      (s.history.snapshots.get? row.key).isSome → (history.snapshots.get? row.key).isSome)
    (hmarker : history.backfilled = s.history.backfilled) : Sound { s with history } := by
  have hprepared : Prepared { s with history } → Prepared s := by
    rintro (hdone | hsweep)
    · exact .inl (hmarker ▸ hdone)
    · exact .inr hsweep
  refine ⟨?_, ⟨?_, ?_, ?_⟩, ?_⟩
  · intro hp table htable row hrow hpos
    exact hspared table htable row hrow (h.indexed (hprepared hp) table htable row (hless _ _ hrow) hpos)
  · exact fun row hrow => h.dated.positive row (hless _ _ hrow)
  · exact fun hp row hrow => h.dated.zero (hprepared hp) row (hless _ _ hrow)
  · exact fun row hrow => h.dated.negative row (hless _ _ hrow)
  · exact fun id sweep hsweep table htable hleft row hrow =>
      h.swept id sweep hsweep table htable hleft row (hless _ _ hrow)

theorem update_eq_some {sweeps : Nat → Option Sweep} {id id' : Nat} {new : Option Sweep} {sweep : Sweep}
    (h : Function.update sweeps id new id' = some sweep) : new = some sweep ∨ sweeps id' = some sweep := by
  by_cases hid : id' = id
  · subst hid
    rw [Function.update_self] at h
    exact .inl h
  · rw [Function.update_of_ne hid] at h
    exact .inr h

/-- What a cleanup has left, and which marker it will set, may change. -/
theorem Sound.setSweep {s : Live} (h : Sound s) (id : Nat) {sweep : Option Sweep}
    (hmarks : ∀ new, sweep = some new → new.marks = true → Prepared s)
    (hswept : ∀ new, sweep = some new → ∀ table ∈ MetricTable.indexed, table ∉ new.left →
      ∀ row ∈ s.history.metrics table, new.expires row.key = false) :
    Sound { s with sweeps := Function.update s.sweeps id sweep } := by
  have hprepared : Prepared { s with sweeps := Function.update s.sweeps id sweep } → Prepared s := by
    rintro (hdone | ⟨id', new, hnew, hmark⟩)
    · exact .inl hdone
    · rcases update_eq_some hnew with hnew | hold
      · exact hmarks new hnew hmark
      · exact .inr ⟨id', new, hold, hmark⟩
  refine ⟨fun hp => h.indexed (hprepared hp),
    ⟨h.dated.positive, fun hp => h.dated.zero (hprepared hp), h.dated.negative⟩, ?_⟩
  intro id' new hnew
  rcases update_eq_some hnew with hnew | hold
  · exact hswept new hnew
  · exact h.swept id' new hold

theorem mem_populate {rows : List MetricRow} {row : MetricRow} (h : row ∈ populate rows) :
    row ∈ rows ∧ row.bucket ≠ 0 ∨ row.bucket = sqlBucket row.time := by
  obtain ⟨old, hold, rfl⟩ := List.mem_map.mp h
  split
  · exact .inr rfl
  · exact .inl ⟨hold, ‹_›⟩

theorem mem_populateInBatches {ctid : Nat → Ctid} {rows : List MetricRow} {row : MetricRow}
    (h : row ∈ populateInBatches ctid rows) : row ∈ rows ∧ row.bucket ≠ 0 ∨ row.bucket = sqlBucket row.time := by
  obtain ⟨⟨old, i⟩, hold, rfl⟩ := List.mem_map.mp h
  split
  · exact .inr rfl
  · rename_i hother
    have hget := List.mem_zipIdx_iff_getElem?.mp hold
    refine .inl ⟨List.mem_of_getElem? hget, fun hzero => hother ?_⟩
    exact sharesAddressAt_iff.mpr ⟨i, old, hget, decide_eq_true hzero, rfl⟩

/-- Populating leaves the buckets dated. -/
theorem Dated.populate {h : History} {done : Prop} (hdated : Dated h done) {snapshots : KeyedTable SnapshotKey PushSnapshot}
    {backfilled : Bool} (done' : Prop) {rows : List MetricRow}
    (hrows : ∀ row ∈ rows, row ∈ h.metrics .nodeFilesystemStats ∧ row.bucket ≠ 0 ∨ row.bucket = sqlBucket row.time) :
    Dated ⟨snapshots, Function.update h.metrics .nodeFilesystemStats rows, backfilled⟩ done' := by
  constructor
  · intro row hrow hpos
    simp only [Function.update_self] at hrow
    rcases hrows row hrow with ⟨hold, -⟩ | hbucket
    · exact hdated.positive row hold hpos
    · exact hbucket
  · intro _ row hrow hzero
    simp only [Function.update_self] at hrow
    rcases hrows row hrow with ⟨-, hne⟩ | hbucket
    · exact absurd hzero hne
    · rw [← hbucket, hzero]
  · intro row hrow hneg
    simp only [Function.update_self] at hrow
    rcases hrows row hrow with ⟨hold, -⟩ | hbucket
    · exact hdated.negative row hold hneg
    · omega

/-! ## Cleanups -/

theorem MetricTable.ne_of_indexed {table : MetricTable} (h : table ∈ indexed) : table ≠ .nodeFilesystemStats := by
  rintro rfl
  revert h
  decide

theorem MetricTable.indexed_of_ne {table : MetricTable} (h : table ≠ .nodeFilesystemStats) : table ∈ indexed := by
  cases table <;> first | decide | exact absurd rfl h

/-- The first run leaves the tables that the index is backfilled from. -/
theorem populatedMetrics_of_indexed {h : History} {populated : Nat → Ctid} {table : MetricTable}
    (htable : table ∈ MetricTable.indexed) : populatedMetrics populated h table = h.metrics table := by
  unfold populatedMetrics
  split
  · rfl
  · exact Function.update_of_ne (MetricTable.ne_of_indexed htable) _ _

/-- After the backfill the index misses no push. -/
theorem indexed_backfillIndex {h : History} (hdone : h.backfilled = true → Indexed h) {table : MetricTable}
    (htable : table ∈ MetricTable.indexed) {row : MetricRow} (hrow : row ∈ h.metrics table) (hpos : 0 < row.bucket) :
    ((backfillIndex h).get? row.key).isSome := by
  by_cases hfirst : h.backfilled = true
  · rw [backfillIndex_of_backfilled hfirst]
    exact hdone hfirst table htable row hrow hpos
  · exact isSome_get?_backfillIndex (Bool.not_eq_true _ ▸ hfirst) htable hrow hpos

/-- The first run populates, and a later one finds nothing to. -/
theorem Dated.populatedMetrics {h : History} (hdated : Dated h (h.backfilled = true)) (populated : Nat → Ctid)
    (snapshots : KeyedTable SnapshotKey PushSnapshot) (backfilled : Bool) (done : Prop) :
    Dated ⟨snapshots, Retention.populatedMetrics populated h, backfilled⟩ done := by
  unfold Retention.populatedMetrics
  split
  · rename_i hfirst
    exact ⟨hdated.positive, fun _ => hdated.zero hfirst, hdated.negative⟩
  · exact hdated.populate done fun row => mem_populateInBatches

theorem Sound.startRetention {s : Live} (h : Sound s) (id : Nat) (config : Config) (cutoffs : Cutoffs) (populated : Nat → Ctid) :
    Sound ⟨(Retention.startRetention config cutoffs populated s.history).1,
      Function.update s.sweeps id (some (Retention.startRetention config cutoffs populated s.history).2)⟩ := by
  have hdone : s.history.backfilled = true → Prepared s := fun hdone => .inl hdone
  refine ⟨?_, ?_, ?_⟩
  · intro _ table htable row hrow hpos
    have hrow : row ∈ populatedMetrics populated s.history table := hrow
    rw [populatedMetrics_of_indexed htable] at hrow
    show (((backfillIndex s.history).update _).get? row.key).isSome
    rw [KeyedTable.get?_update, Option.isSome_map]
    exact indexed_backfillIndex (fun hfirst => h.indexed (hdone hfirst)) htable hrow hpos
  · exact Dated.populatedMetrics ⟨h.dated.positive, fun hfirst => h.dated.zero (hdone hfirst), h.dated.negative⟩ _ _ _ _
  · intro id' sweep hsweep table htable hleft row hrow
    have hrow : row ∈ populatedMetrics populated s.history table := hrow
    rw [populatedMetrics_of_indexed htable] at hrow
    rcases update_eq_some hsweep with hnew | hold
    -- a cleanup that starts has gone through no table
    · obtain rfl := Option.some.inj hnew
      exact absurd (List.mem_append_left _ htable) hleft
    · exact h.swept id' sweep hold table htable hleft row hrow

theorem Sound.startDeletion {s : Live} (h : Sound s) (id : Nat) (batchRows : { n : Nat // 0 < n }) (cutoff : Int) :
    Sound ⟨(Retention.startDeletion batchRows cutoff s.history).1,
      Function.update s.sweeps id (some (Retention.startDeletion batchRows cutoff s.history).2)⟩ := by
  have hmetrics : ∀ table ∈ MetricTable.indexed,
      (Retention.startDeletion batchRows cutoff s.history).1.metrics table = s.history.metrics table :=
    fun table htable => Function.update_of_ne (MetricTable.ne_of_indexed htable) _ _
  refine ⟨?_, h.dated.populate _ fun row => mem_populate, ?_⟩
  · intro hprepared table htable row hrow hpos
    rw [hmetrics table htable] at hrow
    refine h.indexed ?_ table htable row hrow hpos
    rcases hprepared with hdone | ⟨id', sweep, hsweep, hmark⟩
    · exact .inl hdone
    · rcases update_eq_some hsweep with hnew | hold
      · obtain rfl := Option.some.inj hnew
        cases hmark
      · exact .inr ⟨id', sweep, hold, hmark⟩
  · intro id' sweep hsweep table htable hleft row hrow
    rw [hmetrics table htable] at hrow
    rcases update_eq_some hsweep with hnew | hold
    · obtain rfl := Option.some.inj hnew
      exact absurd (List.mem_append_left _ htable) hleft
    · exact h.swept id' sweep hold table htable hleft row hrow

/-- **A statement of a cleanup.** The index comes last, so it loses no row that a metric table still needs. -/
theorem Sound.sweep {s : Live} (h : Sound s) {id : Nat} {sweep : Sweep} (hsweep : s.sweeps id = some sweep) {ctids : Addresses}
    (hcareful : sweep.left = [] → sweep.index = true → Apart ctids.snapshots sweep.expires s.history.snapshots.keys) :
    Sound ⟨(sweep.next ctids s.history).1, Function.update s.sweeps id (sweep.next ctids s.history).2⟩ := by
  have hmarks : sweep.marks = true → Prepared s := fun hmark => .inr ⟨id, sweep, hsweep, hmark⟩
  unfold Sweep.next
  split
  · rename_i table rest hleft
    -- what the batches leave was there and is not to go, whichever rows of other chunks they took along
    have hrows : ∀ table' row, row ∈ Function.update s.history.metrics table
        (deleteStored (ctids.metrics table) (fun row => sweep.expires row.key) sweep.batchRows (s.history.metrics table)) table' →
        row ∈ s.history.metrics table' ∧ (table' = table → sweep.expires row.key = false) := by
      intro table' row hrow
      by_cases htable : table' = table
      · subst htable
        rw [Function.update_self] at hrow
        obtain ⟨hmem, hfresh⟩ := mem_deleteStored hrow
        exact ⟨hmem, fun _ => hfresh⟩
      · rw [Function.update_of_ne htable] at hrow
        exact ⟨hrow, fun heq => absurd heq htable⟩
    refine (h.delete { s.history with metrics := _ } (fun table' row hrow => (hrows table' row hrow).1)
      (fun _ _ _ _ hsome => hsome) rfl).setSweep id ?_ ?_
    · rintro new ⟨⟩ hmark
      exact hmarks hmark
    · rintro new ⟨⟩ table' htable' hnot row hrow
      by_cases heq : table' = table
      · exact (hrows table' row hrow).2 heq
      · apply h.swept id sweep hsweep table' htable' ?_ row (hrows table' row hrow).1
        rw [hleft, List.mem_cons]
        exact not_or.mpr ⟨heq, hnot⟩
  · rename_i hleft hindex
    have hspared : ∀ table ∈ MetricTable.indexed, ∀ row ∈ s.history.metrics table,
        (s.history.snapshots.get? row.key).isSome →
        ((s.history.snapshots.deleteWhereInBatches ctids.snapshots sweep.expires sweep.batchRows).get? row.key).isSome := by
      intro table htable row hrow hsome
      -- every metric table has been gone through, so none has a row that is to go
      have hkept := h.swept id sweep hsweep table htable (by simp [hleft]) row hrow
      have hapart := (hcareful hleft hindex).shares_eq (KeyedTable.get?_isSome_iff.mp hsome)
      rw [KeyedTable.deleteWhereInBatches_eq, KeyedTable.get?_deleteWhere, if_neg]
      · exact hsome
      · show ¬ sharesAddress ctids.snapshots sweep.expires s.history.snapshots.keys row.key = true
        rw [hapart, hkept]
        exact Bool.false_ne_true
    refine (h.delete
      { s.history with snapshots := s.history.snapshots.deleteWhereInBatches ctids.snapshots sweep.expires sweep.batchRows }
      (fun _ _ hrow => hrow) hspared rfl).setSweep id ?_ ?_
    · rintro new ⟨⟩ hmark
      exact hmarks hmark
    · rintro new ⟨⟩ table htable hnot row hrow
      exact h.swept id sweep hsweep table htable hnot row hrow
  · -- the marker is set once everything it stands for is done
    have hprepared : Prepared ⟨{ s.history with backfilled := s.history.backfilled || sweep.marks },
        Function.update s.sweeps id none⟩ → Prepared s := by
      rintro (hdone | ⟨id', other, hother, hmark⟩)
      · rcases Bool.or_eq_true_iff.mp hdone with hold | hmark
        · exact .inl hold
        · exact hmarks hmark
      · rcases update_eq_some hother with hnone | hold
        · cases hnone
        · exact .inr ⟨id', other, hold, hmark⟩
    refine ⟨fun hp => h.indexed (hprepared hp),
      ⟨h.dated.positive, fun hp => h.dated.zero (hprepared hp), h.dated.negative⟩, ?_⟩
    intro id' other hother
    rcases update_eq_some hother with hnone | hold
    · cases hnone
    · exact h.swept id' other hold

theorem Sound.step {s s' : Live} (h : Sound s) {event : HistoryEvent} (hcareful : Careful s event)
    (hstep : s.step event = some s') : Sound s' := by
  cases event with
  | push p =>
      obtain rfl := Option.some.inj hstep
      exact h.push hcareful
  | purgeVms gone counts =>
      obtain rfl := Option.some.inj hstep
      have hless : ∀ table row, row ∈ (s.history.purgeVms gone counts).metrics table → row ∈ s.history.metrics table := by
        intro table row hrow
        cases table <;> first | exact hrow | exact (List.mem_filter.mp hrow).1
      refine h.delete _ hless ?_ rfl
      intro table _ row _ hsome
      show ((s.history.snapshots.update _).get? row.key).isSome
      rw [KeyedTable.get?_update, Option.isSome_map]
      exact hsome
  | purgeNode node =>
      obtain rfl := Option.some.inj hstep
      refine h.delete _ (fun table row hrow => (List.mem_filter.mp hrow).1) ?_ rfl
      intro table _ row hrow hsome
      have hother : row.node ≠ node := by simpa using (List.mem_filter.mp hrow).2
      show ((s.history.snapshots.deleteWhere _).get? row.key).isSome
      rw [KeyedTable.get?_deleteWhere, if_neg]
      · exact hsome
      · exact fun heq => hother (of_decide_eq_true heq)
  | startRetention id config cutoffs populated =>
      simp only [Live.step, Option.ite_none_right_eq_some] at hstep
      obtain rfl := Option.some.inj hstep.2
      exact h.startRetention id config cutoffs populated
  | startDeletion id batchRows cutoff =>
      simp only [Live.step, Option.ite_none_right_eq_some] at hstep
      obtain rfl := Option.some.inj hstep.2
      exact h.startDeletion id batchRows cutoff
  | sweep id ctids =>
      obtain ⟨sweep, hsweep, rfl⟩ := Option.map_eq_some_iff.mp hstep
      exact h.sweep hsweep (hcareful sweep hsweep)
  | abort id =>
      obtain rfl := Option.some.inj hstep
      exact h.setSweep id (fun _ hnone => nomatch hnone) (fun _ hnone => nomatch hnone)

/-- **What the cleanups rely on holds over every run** whose pushes keep clear of them. -/
theorem sound_of_reachable {s : Live} (h : historySystem.Reachable Careful s) : Sound s := by
  apply h.invariant
  · intro s hinit
    exact Live.Initial.sound hinit
  · intro s event s' _ hsound hcareful hstep
    exact hsound.step hcareful hstep

end VirtInfra.Retention
