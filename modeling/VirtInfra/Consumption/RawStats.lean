import VirtInfra.Consumption.Agreement
import VirtInfra.Lib.Lookup

/-!
# `RawStats` — the raw rows beside the rollups

An accepted push stores what it reported a second time: one row for each NIC in `node_physical_net_stats`, and one for
each tap and bucket in `node_stats`. Retention prunes both by their bucket. `Mirrored` says what the raw rows and the
VM tables have to do with the node tables: where all raw rows of a bucket or an hour are left, they add up to the
node's row. It is what a backfill from the raw rows relies on.
-/

namespace VirtInfra.Consumption

open Lib Python

/-! ## The raw tables -/

/-- A row of `node_physical_net_stats`, of which the writer stores only the two roles. -/
structure PhysicalStat where
  time : Int
  bucket : Int
  node : String
  role : Role
  intervalSeconds : Int
  rxDelta : Nat
  txDelta : Nat
  rxPackets : Nat
  txPackets : Nat
  lastPush : Int
  bucket_eq : bucket = bucketFor time
  deriving DecidableEq

def PhysicalStat.delta (row : PhysicalStat) : Direction → Nat
  | .rx => row.rxDelta
  | .tx => row.txDelta

def PhysicalStat.packets (row : PhysicalStat) : Direction → Nat
  | .rx => row.rxPackets
  | .tx => row.txPackets

/-- The rows that the loop over `physical_interfaces` inserts. -/
def physicalStats (s : Sample) : List PhysicalStat :=
  (validPhysical s.physicalInterfaces).map fun entry =>
    { time := s.dataTime, bucket := bucketFor s.dataTime, node := s.node, role := entry.1
      intervalSeconds := s.intervalSeconds
      rxDelta := physicalDelta entry.2 .rx, txDelta := physicalDelta entry.2 .tx
      rxPackets := physicalPackets entry.2 .rx, txPackets := physicalPackets entry.2 .tx
      lastPush := s.dataTime, bucket_eq := rfl }

structure NodeStatKey where
  bucket : Int
  node : String
  bridge : String
  iface : String
  vmUuid : String
  deriving DecidableEq, Repr

/-- A row of `node_stats`, the columns the backfill reads. -/
structure NodeStat where
  deltas : Counters
  intervalSeconds : Int
  lastPush : Int
  deriving DecidableEq, Repr

def nodeStatKey (row : StageRow) : NodeStatKey := ⟨row.bucket, row.node, row.bridge, row.iface, row.vmUuid⟩

def aggNodeStat (group : List StageRow) : NodeStat :=
  { deltas := (group.map StageRow.deltas).sum
    intervalSeconds := (group.getLast?.map StageRow.intervalSeconds).getD 0
    lastPush := maxOf StageRow.lastPush group }

def mergeNodeStat (old new : NodeStat) : NodeStat :=
  { deltas := old.deltas + new.deltas
    intervalSeconds := new.intervalSeconds
    lastPush := max old.lastPush new.lastPush }

/-- The `node_stats` statement of `_v5052_write_interface_copy_batch`. -/
def writeNodeStats (rows : List StageRow) (table : KeyedTable NodeStatKey NodeStat) : KeyedTable NodeStatKey NodeStat :=
  table.mergeGroups nodeStatKey (fun _ group => aggNodeStat group) mergeNodeStat rows

/-! ## Runs -/

/-- The monitor with its raw tables. -/
structure Archive where
  monitor : Monitor
  physicalStats : List PhysicalStat
  nodeStats : KeyedTable NodeStatKey NodeStat

def Archive.init : Archive := ⟨.init, [], .empty⟩

/-- A push, or the delete of retention on both raw tables, which spares the buckets of `retention_keep_buckets`. -/
inductive ArchiveEvent
  | push (receivedNow : Int) (req : PushRequest)
  | prune (cutoff : Int) (keep : String → Int → Bool)

/-- `bucket<? AND NOT EXISTS (… retention_keep_buckets …)`. -/
def pruned (cutoff : Int) (keep : String → Int → Bool) (node : String) (bucket : Int) : Bool :=
  bucket < cutoff && !keep node bucket

def Archive.step (cfg : Config) (a : Archive) : ArchiveEvent → Archive
  | .push receivedNow req =>
      let monitor := (ingest cfg receivedNow req a.monitor).1
      match acceptedSample cfg receivedNow req a.monitor with
      | none => { a with monitor }
      | some s =>
          { monitor
            physicalStats := a.physicalStats ++ Consumption.physicalStats s
            nodeStats := writeNodeStats (s.stage cfg.tzOffset) a.nodeStats }
  | .prune cutoff keep =>
      { a with
        physicalStats := a.physicalStats.filter fun row => !pruned cutoff keep row.node row.bucket
        nodeStats := a.nodeStats.deleteWhere fun key => pruned cutoff keep key.node key.bucket }

def Archive.run (cfg : Config) (a : Archive) (events : List ArchiveEvent) : Archive := events.foldl (Archive.step cfg) a

/-- The pushes of a run, as events of the monitor. -/
def pushes (events : List ArchiveEvent) : List Event :=
  events.filterMap fun
    | .push receivedNow req => some (.push receivedNow req)
    | .prune _ _ => none

/-- The byte columns of a node table. -/
def nodeBytesOf {ρ : Type} (toRow : ρ → NodeConsumption) (table : KeyedTable NodeKey ρ) (key : NodeKey) :
    Option (NodeColumn → Nat) :=
  (table.get? key).map fun row => (toRow row).bytes

/-- **The byte columns of every consumption row**, by its key; of the VM tables the whole rows. -/
@[ext] structure ByteColumns where
  vmHourly : VmKey → Option VmConsumptionHourly
  vmDaily : VmKey → Option VmConsumption
  node5m : NodeKey → Option (NodeColumn → Nat)
  nodeHourly : NodeKey → Option (NodeColumn → Nat)
  nodeDaily : NodeKey → Option (NodeColumn → Nat)

def RollupTables.byteColumns (t : RollupTables) : ByteColumns :=
  { vmHourly := t.vmHourly.get?
    vmDaily := t.vmDaily.get?
    node5m := nodeBytesOf id t.node5m
    nodeHourly := nodeBytesOf NodeRollup.toNodeConsumption t.nodeHourly
    nodeDaily := nodeBytesOf NodeRollup.toNodeConsumption t.nodeDaily }

/-! ## What a run stores -/

/-- The bytes of the raw rows that satisfy `p`. -/
def physicalSum (rows : List PhysicalStat) (p : PhysicalStat → Bool) (role : Role) (dir : Direction) : Nat :=
  (rows.map fun row => if p row then if row.role = role then row.delta dir else 0 else 0).sum

section Runs

variable {cfg : Config} {horizon : Int}

theorem step_push_monitor (a : Archive) (receivedNow : Int) (req : PushRequest) :
    (a.step cfg (.push receivedNow req)).monitor = Consumption.step cfg a.monitor (.push receivedNow req) := by
  unfold Archive.step
  dsimp only
  cases acceptedSample cfg receivedNow req a.monitor <;> rfl

end Runs

/-! ## Which rows there are -/

section Keys

variable {off : Int} {s : Sample} {t : RollupTables}

theorem mem_keys_node5m {k : NodeKey} : k ∈ (writeSample off s t).node5m.keys ↔
    k ∈ t.node5m.keys ∨ (validPhysical s.physicalInterfaces ≠ [] ∧ k = ⟨bucketFor s.dataTime, s.node⟩) ∨
      ∃ row ∈ s.stage off, (⟨row.bucket, row.node⟩ : NodeKey) = k := by
  have hphysical : k ∈ (rollupPhysicalConsumption off s t).node5m.keys ↔
      k ∈ t.node5m.keys ∨ (validPhysical s.physicalInterfaces ≠ [] ∧ k = ⟨bucketFor s.dataTime, s.node⟩) := by
    unfold rollupPhysicalConsumption
    by_cases h : validPhysical s.physicalInterfaces = []
    · simp [h]
    · simp [h, KeyedTable.mem_keys_upsert]
  rw [writeSample_node5m, KeyedTable.mem_keys_mergeGroups, hphysical, or_assoc]

theorem mem_keys_nodeHourly {k : NodeKey} : k ∈ (writeSample off s t).nodeHourly.keys ↔
    k ∈ t.nodeHourly.keys ∨ (validPhysical s.physicalInterfaces ≠ [] ∧ k = ⟨localHourStart off s.dataTime, s.node⟩) ∨
      ∃ row ∈ s.stage off, (⟨row.hourStart, row.node⟩ : NodeKey) = k := by
  have hphysical : k ∈ (rollupPhysicalConsumption off s t).nodeHourly.keys ↔
      k ∈ t.nodeHourly.keys ∨
        (validPhysical s.physicalInterfaces ≠ [] ∧ k = ⟨localHourStart off s.dataTime, s.node⟩) := by
    unfold rollupPhysicalConsumption
    by_cases h : validPhysical s.physicalInterfaces = []
    · simp [h]
    · simp [h, upsertPhysicalRollup, KeyedTable.mem_keys_upsert]
  rw [writeSample_nodeHourly, mergeNodeVmRollup, KeyedTable.mem_keys_mergeGroups, hphysical, or_assoc]

theorem mem_keys_nodeDaily {k : NodeKey} : k ∈ (writeSample off s t).nodeDaily.keys ↔
    k ∈ t.nodeDaily.keys ∨ (validPhysical s.physicalInterfaces ≠ [] ∧ k = ⟨localDayStart off s.dataTime, s.node⟩) ∨
      ∃ row ∈ s.stage off, (⟨row.dayStart, row.node⟩ : NodeKey) = k := by
  have hphysical : k ∈ (rollupPhysicalConsumption off s t).nodeDaily.keys ↔
      k ∈ t.nodeDaily.keys ∨
        (validPhysical s.physicalInterfaces ≠ [] ∧ k = ⟨localDayStart off s.dataTime, s.node⟩) := by
    unfold rollupPhysicalConsumption
    by_cases h : validPhysical s.physicalInterfaces = []
    · simp [h]
    · simp [h, upsertPhysicalRollup, KeyedTable.mem_keys_upsert]
  rw [writeSample_nodeDaily, mergeNodeVmRollup, KeyedTable.mem_keys_mergeGroups, hphysical, or_assoc]

end Keys

/-- **Every raw row and every VM row has its node rows.** -/
structure Present (off : Int) (a : Archive) : Prop where
  physical5m : ∀ row ∈ a.physicalStats, ⟨row.bucket, row.node⟩ ∈ a.monitor.tables.node5m.keys
  physicalHourly : ∀ row ∈ a.physicalStats, ⟨localHourStart off row.time, row.node⟩ ∈ a.monitor.tables.nodeHourly.keys
  vm5m : ∀ key ∈ a.nodeStats.keys, ⟨key.bucket, key.node⟩ ∈ a.monitor.tables.node5m.keys
  vmHourly : ∀ key ∈ a.monitor.tables.vmHourly.keys, ⟨key.start, key.node⟩ ∈ a.monitor.tables.nodeHourly.keys
  hourDay : ∀ key ∈ a.monitor.tables.nodeHourly.keys,
    ⟨localDayStart off key.start, key.node⟩ ∈ a.monitor.tables.nodeDaily.keys
  vmDaily : ∀ key ∈ a.monitor.tables.vmDaily.keys, ⟨key.start, key.node⟩ ∈ a.monitor.tables.nodeDaily.keys
  -- a tap row carries a time of its own bucket
  stamped : ∀ key row, a.nodeStats.get? key = some row → bucketFor row.lastPush = key.bucket

theorem Sample.stage_lastPush {off : Int} {s : Sample} {row : StageRow} (h : row ∈ s.stage off) :
    row.lastPush = s.dataTime := by
  obtain ⟨element, -, hbind⟩ := List.mem_filterMap.mp h
  obtain ⟨item, -, hrow⟩ := Option.bind_eq_some_iff.mp hbind
  unfold stageRow at hrow
  dsimp only at hrow
  split at hrow
  · cases hrow
  · obtain rfl := Option.some.inj hrow
    rfl

/-- The tap rows that a push writes are of its bucket. -/
theorem stamped_writeNodeStats {off : Int} {s : Sample} {table : KeyedTable NodeStatKey NodeStat}
    (h : ∀ key row, table.get? key = some row → bucketFor row.lastPush = key.bucket) :
    ∀ key row, (writeNodeStats (s.stage off) table).get? key = some row → bucketFor row.lastPush = key.bucket := by
  intro key row hrow
  unfold writeNodeStats at hrow
  rw [KeyedTable.get?_mergeGroups] at hrow
  split at hrow
  · exact h key row hrow
  · rename_i hgroup
    obtain ⟨first, hfirst⟩ := List.exists_mem_of_ne_nil _ hgroup
    obtain ⟨hstage, hkey⟩ := List.mem_filter.mp hfirst
    have hbucket : key.bucket = bucketFor s.dataTime := by
      rw [← of_decide_eq_true hkey]
      exact (Sample.stage_mem hstage).2.2.1
    have hpush : (aggNodeStat ((s.stage off).filter fun row => nodeStatKey row = key)).lastPush = s.dataTime :=
      maxOf_const hgroup fun row hmem => Sample.stage_lastPush (List.mem_filter.mp hmem).1
    obtain rfl := Option.some.inj hrow
    cases hold : table.get? key with
    | none =>
        show bucketFor (aggNodeStat _).lastPush = _
        rw [hpush, hbucket]
    | some old =>
        have hsame := h key old hold
        show bucketFor (max old.lastPush (aggNodeStat _).lastPush) = _
        rw [hpush]
        rcases max_choice old.lastPush s.dataTime with hmax | hmax
        · rw [hmax, hsame]
        · rw [hmax, hbucket]

theorem Present.write {cfg : Config} {a : Archive} (h : Present cfg.tzOffset a) (s : Sample) (receipts : List Receipt) :
    Present cfg.tzOffset
      { monitor := ⟨receipts, writeSample cfg.tzOffset s a.monitor.tables⟩
        physicalStats := a.physicalStats ++ physicalStats s
        nodeStats := writeNodeStats (s.stage cfg.tzOffset) a.nodeStats } := by
  have hvalid : ∀ row ∈ physicalStats s, validPhysical s.physicalInterfaces ≠ [] ∧ row.bucket = bucketFor s.dataTime ∧
      row.time = s.dataTime ∧ row.node = s.node := by
    intro row hrow
    obtain ⟨entry, hentry, rfl⟩ := List.mem_map.mp hrow
    exact ⟨List.ne_nil_of_mem hentry, rfl, rfl, rfl⟩
  refine ⟨?_, ?_, ?_, ?_, ?_, ?_, stamped_writeNodeStats h.stamped⟩
  · intro row hrow
    rw [mem_keys_node5m]
    rcases List.mem_append.mp hrow with hold | hnew
    · exact Or.inl (h.physical5m row hold)
    · obtain ⟨hne, hbucket, -, hnode⟩ := hvalid row hnew
      exact Or.inr (Or.inl ⟨hne, by rw [hbucket, hnode]⟩)
  · intro row hrow
    rw [mem_keys_nodeHourly]
    rcases List.mem_append.mp hrow with hold | hnew
    · exact Or.inl (h.physicalHourly row hold)
    · obtain ⟨hne, -, htime, hnode⟩ := hvalid row hnew
      exact Or.inr (Or.inl ⟨hne, by rw [htime, hnode]⟩)
  · intro key hkey
    rw [mem_keys_node5m]
    rcases KeyedTable.mem_keys_mergeGroups.mp hkey with hold | ⟨row, hrow, rfl⟩
    · exact Or.inl (h.vm5m key hold)
    · exact Or.inr (Or.inr ⟨row, hrow, rfl⟩)
  · intro key hkey
    rw [mem_keys_nodeHourly]
    rw [writeSample_vmHourly] at hkey
    rcases KeyedTable.mem_keys_mergeGroups.mp hkey with hold | ⟨row, hrow, rfl⟩
    · exact Or.inl (h.vmHourly key hold)
    · exact Or.inr (Or.inr ⟨row, hrow, rfl⟩)
  · intro key hkey
    rw [mem_keys_nodeDaily]
    rcases mem_keys_nodeHourly.mp hkey with hold | ⟨hne, rfl⟩ | ⟨row, hrow, rfl⟩
    · exact Or.inl (h.hourDay key hold)
    · exact Or.inr (Or.inl ⟨hne, by rw [localDayStart_localHourStart]⟩)
    · obtain ⟨hhour, hday, -, -⟩ := Sample.stage_mem hrow
      refine Or.inr (Or.inr ⟨row, hrow, ?_⟩)
      rw [hday, hhour, localDayStart_localHourStart]
  · intro key hkey
    rw [mem_keys_nodeDaily]
    rw [writeSample_vmDaily] at hkey
    rcases KeyedTable.mem_keys_mergeGroups.mp hkey with hold | ⟨row, hrow, rfl⟩
    · exact Or.inl (h.vmDaily key hold)
    · exact Or.inr (Or.inr ⟨row, hrow, rfl⟩)

theorem Present.step {cfg : Config} {a : Archive} (h : Present cfg.tzOffset a) (event : ArchiveEvent) :
    Present cfg.tzOffset (a.step cfg event) := by
  cases event with
  | prune cutoff keep =>
      refine ⟨fun row hrow => h.physical5m row (List.mem_filter.mp hrow).1,
        fun row hrow => h.physicalHourly row (List.mem_filter.mp hrow).1, fun key hkey => ?_, h.vmHourly, h.hourDay,
        h.vmDaily, fun key row hrow => h.stamped key row (KeyedTable.get?_deleteWhere_eq_some.mp hrow).2⟩
      obtain ⟨row, hrow, rfl⟩ := List.mem_map.mp hkey
      exact h.vm5m row.1 (List.mem_map_of_mem (List.mem_filter.mp hrow).1)
  | push receivedNow req =>
      unfold Archive.step
      dsimp only
      cases haccepted : acceptedSample cfg receivedNow req a.monitor with
      | none =>
          have htables := ingest_tables cfg receivedNow req a.monitor
          rw [haccepted] at htables
          dsimp only at htables ⊢
          obtain ⟨h₁, h₂, h₃, h₄, h₅, h₆, h₇⟩ := h
          rw [← htables] at h₁ h₂ h₃ h₄ h₅ h₆
          exact ⟨h₁, h₂, h₃, h₄, h₅, h₆, h₇⟩
      | some s =>
          have htables := ingest_tables cfg receivedNow req a.monitor
          rw [haccepted] at htables
          dsimp only at htables ⊢
          have hwrite := h.write s (ingest cfg receivedNow req a.monitor).1.receipts
          rw [← htables] at hwrite
          exact hwrite

/-- A node row with the bytes `total` in the columns of a meter. -/
def Holds (row : Option (NodeColumn → Nat)) (meter : Meter) (total : Role → Direction → Nat) : Prop :=
  ∃ bytes, row = some bytes ∧ ∀ role dir, total role dir = bytes ⟨meter, role, dir⟩

/-- The NIC rows of a bucket and of an hour, the tap rows of a bucket, and the rows below an hourly or daily node row. -/
def inBucket (key : NodeKey) (row : PhysicalStat) : Bool := row.bucket = key.start ∧ row.node = key.node

def inHour (off : Int) (key : NodeKey) (row : PhysicalStat) : Bool :=
  localHourStart off row.time = key.start ∧ row.node = key.node

def tapsOf (key : NodeKey) (bridge : String) (tap : NodeStatKey) : Bool :=
  tap.bucket = key.start ∧ tap.node = key.node ∧ tap.bridge = bridge

def vmsOf (key : NodeKey) (bridge : String) (vm : VmKey) : Bool :=
  vm.start = key.start ∧ vm.node = key.node ∧ vm.bridge = bridge

def hoursOf (off : Int) (key hour : NodeKey) : Bool :=
  localDayStart off hour.start = key.start ∧ hour.node = key.node

/-- **What mirrors the node tables**: the raw rows from `horizon` on, the VM tables, and the hourly node rows. -/
structure Mirrored (off horizon : Int) (a : Archive) : Prop where
  physical5m : ∀ key : NodeKey, horizon ≤ key.start → (∃ row ∈ a.physicalStats, inBucket key row) →
    Holds (a.monitor.tables.byteColumns.node5m key) .physical (physicalSum a.physicalStats (inBucket key))
  vm5m : ∀ key : NodeKey, horizon ≤ key.start → (∃ tap ∈ a.nodeStats.keys, tap.bucket = key.start ∧ tap.node = key.node) →
    Holds (a.monitor.tables.byteColumns.node5m key) .vm fun role dir =>
      a.nodeStats.sumOf (tapsOf key role.bridge) fun row => row.deltas.bytes dir.swap
  physicalHourly : ∀ key : NodeKey, horizon ≤ bucketFor key.start → (∃ row ∈ a.physicalStats, inHour off key row) →
    Holds (a.monitor.tables.byteColumns.nodeHourly key) .physical (physicalSum a.physicalStats (inHour off key))
  vmHourly : ∀ key : NodeKey,
    (∃ vm ∈ a.monitor.tables.vmHourly.keys, vm.start = key.start ∧ vm.node = key.node) →
    Holds (a.monitor.tables.byteColumns.nodeHourly key) .vm fun role dir =>
      a.monitor.tables.vmHourly.sumOf (vmsOf key role.bridge) fun row => row.deltas.bytes dir.swap
  physicalDaily : ∀ key : NodeKey, (∃ hour ∈ a.monitor.tables.nodeHourly.keys, hoursOf off key hour) →
    Holds (a.monitor.tables.byteColumns.nodeDaily key) .physical fun role dir =>
      a.monitor.tables.nodeHourly.sumOf (hoursOf off key) fun row => row.bytes ⟨.physical, role, dir⟩
  vmDaily : ∀ key : NodeKey,
    (∃ vm ∈ a.monitor.tables.vmDaily.keys, vm.start = key.start ∧ vm.node = key.node) →
    Holds (a.monitor.tables.byteColumns.nodeDaily key) .vm fun role dir =>
      a.monitor.tables.vmDaily.sumOf (vmsOf key role.bridge) fun row => row.deltas.bytes dir.swap
  stamped : ∀ key row, a.nodeStats.get? key = some row → bucketFor row.lastPush = key.bucket

theorem nodeKeyIn_self (key key' : NodeKey) :
    nodeKeyIn key.node key.start (key.start + 1) key' = true ↔ key' = key := by
  obtain ⟨start, node⟩ := key
  obtain ⟨start', node'⟩ := key'
  rw [nodeKeyIn_mk, NodeKey.mk.injEq]
  refine and_congr_left fun _ => ?_
  dsimp only
  omega

section MirroredRun

variable {cfg : Config} {horizon : Int} {events : List ArchiveEvent}

end MirroredRun

end VirtInfra.Consumption
