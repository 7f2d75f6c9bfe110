import VirtInfra.Consumption.Ingest

/-!
# `Ledger` — what a run adds to the rows a reader consults

A measure of the tables keeps a ledger when every accepted sample adds its share to it and no delete that spares
the consulted rows changes it. `Ledger.run` is the one induction over runs; each table then gets its ledger
(`vmHourlyLedger`, `vmDailyLedger`, `node5mLedger`, `nodeHourlyLedger`, `nodeDailyLedger`), and the readers only
ever use those.
-/

namespace VirtInfra.Consumption

open Lib Python

/-! ## One sample -/

section Writers

variable (off : Int) (s : Sample) (t : RollupTables)

theorem writeSample_vmHourly :
    (writeSample off s t).vmHourly = t.vmHourly.mergeGroups hourlyKey aggVmHourly mergeVmHourly (s.stage off) := by
  unfold writeSample writeInterfaceCopyBatch rollupPhysicalConsumption
  by_cases hrows : s.stage off = [] <;> by_cases hphys : validPhysical s.physicalInterfaces = [] <;>
    simp [hrows, hphys, mergeNodeVmPreaggregates] <;> rfl

theorem writeSample_vmDaily :
    (writeSample off s t).vmDaily =
      t.vmDaily.mergeGroups dailyKey (fun _ group => aggVm group) mergeVm (s.stage off) := by
  unfold writeSample writeInterfaceCopyBatch rollupPhysicalConsumption
  by_cases hrows : s.stage off = [] <;> by_cases hphys : validPhysical s.physicalInterfaces = [] <;>
    simp [hrows, hphys, mergeNodeVmPreaggregates] <;> rfl

theorem writeSample_node5m :
    (writeSample off s t).node5m =
      (rollupPhysicalConsumption off s t).node5m.mergeGroups (fun row => ⟨row.bucket, row.node⟩)
        (fun _ group => aggNodeVm 300 group) (mergeNodeVm 300) (s.stage off) := by
  unfold writeSample writeInterfaceCopyBatch
  by_cases hrows : s.stage off = []
  · simp [hrows]
    rfl
  · simp [hrows, mergeNodeVmPreaggregates]

theorem writeSample_nodeHourly :
    (writeSample off s t).nodeHourly =
      mergeNodeVmRollup StageRow.hourStart 3600 (s.stage off) (rollupPhysicalConsumption off s t).nodeHourly := by
  unfold writeSample writeInterfaceCopyBatch
  by_cases hrows : s.stage off = []
  · simp [hrows, mergeNodeVmRollup]
    rfl
  · simp [hrows, mergeNodeVmPreaggregates, mergeNodeVmRollup]

theorem writeSample_nodeDaily :
    (writeSample off s t).nodeDaily =
      mergeNodeVmRollup StageRow.dayStart 86400 (s.stage off) (rollupPhysicalConsumption off s t).nodeDaily := by
  unfold writeSample writeInterfaceCopyBatch
  by_cases hrows : s.stage off = []
  · simp [hrows, mergeNodeVmRollup]
    rfl
  · simp [hrows, mergeNodeVmPreaggregates, mergeNodeVmRollup]

end Writers

/-- Every hourly row has complete slots. -/
def RollupTables.Packed (t : RollupTables) : Prop := t.vmHourly.All Consumption.Packed

theorem packed_empty : RollupTables.empty.Packed := KeyedTable.all_empty _

theorem RollupTables.Packed.writeSample {off : Int} {s : Sample} {t : RollupTables} (h : t.Packed) :
    (writeSample off s t).Packed := by
  unfold RollupTables.Packed
  rw [writeSample_vmHourly]
  exact KeyedTable.All.mergeGroups h (fun key group _ => packed_aggVmHourly key group)
    fun _ key group _ hold => hold.merge (packed_aggVmHourly key group)

theorem RollupTables.Packed.deleteOlder {table : RollupTable} {cutoff : Int} {t : RollupTables} (h : t.Packed) :
    (deleteOlder table cutoff t).Packed := by
  cases table with
  | vmHourly => exact KeyedTable.All.deleteWhere h _
  | vmDaily => exact h
  | node5m => exact h
  | nodeHourly => exact h
  | nodeDaily => exact h

/-- **What an accepted push does to the monitor**: it writes its sample, and a push that is not accepted
    writes nothing. -/
theorem ingest_tables (cfg : Config) (receivedNow : Int) (req : PushRequest) (m : Monitor) :
    (ingest cfg receivedNow req m).1.tables =
      match acceptedSample cfg receivedNow req m with
      | none => m.tables
      | some s => writeSample cfg.tzOffset s m.tables := by
  unfold ingest acceptedSample
  cases validatePush cfg receivedNow req with
  | error reply => rfl
  | ok s => by_cases h : m.hasReceipt s <;> simp [h]

theorem RollupTables.Packed.step {m : Monitor} (h : m.tables.Packed) (cfg : Config) (event : Event) :
    (step cfg m event).tables.Packed := by
  cases event with
  | push receivedNow req =>
      show (ingest cfg receivedNow req m).1.tables.Packed
      rw [ingest_tables]
      cases acceptedSample cfg receivedNow req m with
      | none => exact h
      | some s => exact h.writeSample
  | delete table cutoff => exact h.deleteOlder
  | deleteReceipts cutoff => exact h

/-! ## Runs -/

/-- **A measure that keeps a ledger** of the samples, as long as the consulted rows stay. -/
structure Ledger (off : Int) (consulted : RollupTable → Int → Prop) (measure : RollupTables → Nat)
    (share : Sample → Nat) : Prop where
  write : ∀ t s, t.Packed → measure (writeSample off s t) = measure t + share s
  delete : ∀ t table cutoff, (∀ start ∈ t.starts table, start < cutoff → ¬ consulted table start) →
    measure (deleteOlder table cutoff t) = measure t

/-- **The run lemma.** Over a run that keeps the consulted rows, the measure grows by exactly the shares of the
    accepted pushes. -/
theorem Ledger.run {cfg : Config} {consulted : RollupTable → Int → Prop} {measure : RollupTables → Nat}
    {share : Sample → Nat} (h : Ledger cfg.tzOffset consulted measure share) :
    ∀ (events : List Event) (m : Monitor), m.tables.Packed → Retained cfg consulted m events →
      measure (run cfg m events).tables = measure m.tables + ((history cfg m events).map share).sum := by
  intro events
  induction events with
  | nil => intro m _ _; simp [Consumption.run, history]
  | cons event rest ih =>
      intro m hpacked hretained
      have hnext := hpacked.step cfg event
      rw [show Consumption.run cfg m (event :: rest) = Consumption.run cfg (step cfg m event) rest from rfl]
      cases event with
      | push receivedNow req =>
          rw [ih _ hnext hretained, history, List.map_append, List.sum_append, ← add_assoc]
          congr 1
          show measure (ingest cfg receivedNow req m).1.tables = _
          rw [ingest_tables]
          cases acceptedSample cfg receivedNow req m with
          | none => simp
          | some s => simp [h.write _ _ hpacked]
      | delete table cutoff =>
          rw [ih _ hnext hretained.2, history]
          congr 1
          exact h.delete _ _ _ hretained.1
      | deleteReceipts cutoff => exact ih _ hnext hretained

/-! ## The VM tables -/

theorem Sample.stage_mem {off : Int} {s : Sample} {row : StageRow} (h : row ∈ s.stage off) :
    row.hourStart = localHourStart off (slotOf s.dataTime) ∧ row.dayStart = localDayStart off (slotOf s.dataTime) ∧
      row.bucket = bucketFor s.dataTime ∧ row.node = s.node :=
  ifaceRows_mem h

/-- A choice of VM traffic by node, VM and bridge. -/
abbrev Selector := String → String → String → Bool

/-- One VM of one node, on one bridge. -/
def Selector.vm (node vmUuid bridge : String) : Selector := fun n v b => n = node ∧ v = vmUuid ∧ b = bridge

/-- All VMs of one node, on one bridge. -/
def Selector.node (node bridge : String) : Selector := fun n _ b => n = node ∧ b = bridge

/-- The bytes a push reports for the selected VMs. -/
def vmBytes (off : Int) (who : Selector) (dir : Direction) (s : Sample) : Nat :=
  ((s.stage off).map fun row => if who row.node row.vmUuid row.bridge then row.deltas.bytes dir else 0).sum

/-- `WHERE start>=lo AND start<hi`, for the selected VMs. -/
def vmKeyIn (who : Selector) (lo hi : Int) (key : VmKey) : Bool :=
  lo ≤ key.start ∧ key.start < hi ∧ who key.node key.vmUuid key.bridge

/-- Retention that spares the consulted times leaves a sum over them alone. -/
theorem sumOf_deleteOlder {κ ρ : Type} (table : KeyedTable κ ρ) (start : κ → Int) {cutoff : Int} {p : κ → Bool}
    {f : ρ → Nat} {consulted : Int → Prop} (hp : ∀ key, p key → consulted (start key))
    (h : ∀ x ∈ table.rows.map (fun row => start row.1), x < cutoff → ¬ consulted x) :
    (table.deleteWhere fun key => start key < cutoff).sumOf p f = table.sumOf p f := by
  refine table.sumOf_deleteWhere _ _ _ fun row hrow hold => ?_
  have hnot := h (start row.1) (List.mem_map_of_mem hrow) (of_decide_eq_true hold)
  exact Bool.eq_false_iff.mpr fun hpk => hnot (hp row.1 hpk)

/-- A condition that all staged rows share comes out of their sum. -/
theorem sum_shares {rows : List StageRow} {c : Prop} [Decidable c] {q : StageRow → Prop} [DecidablePred q]
    {u w : StageRow → Nat} (h : ∀ row ∈ rows, u row = if c ∧ q row then w row else 0) :
    (rows.map u).sum = if c then (rows.map fun row => if q row then w row else 0).sum else 0 := by
  rw [List.map_congr_left h]
  by_cases hc : c <;> simp [hc]

/-- A group of one sample's stage sits in the slot of the sample. -/
theorem groupSlotNo_of_group {off : Int} {s : Sample} {key : VmKey} {group : List StageRow}
    (h : KeyedTable.GroupOf hourlyKey (s.stage off) key group) :
    key.start = localHourStart off (slotOf s.dataTime) ∧
      (groupSlotNo key.start group : Int) = (slotOf s.dataTime - localHourStart off (slotOf s.dataTime)) / 300 := by
  obtain ⟨hne, hmem⟩ := h
  obtain ⟨row, hrow⟩ := List.exists_mem_of_ne_nil _ hne
  have hstart : key.start = localHourStart off (slotOf s.dataTime) := by
    rw [← (hmem row hrow).2]
    exact (Sample.stage_mem (hmem row hrow).1).1
  have hbucket : maxOf StageRow.bucket group = bucketFor s.dataTime :=
    maxOf_const hne fun r hr => (Sample.stage_mem (hmem r hr).1).2.2.1
  refine ⟨hstart, ?_⟩
  have hlo := localHourStart_le off (slotOf s.dataTime)
  have hhi := lt_localHourStart_add off (slotOf s.dataTime)
  have hslot : bucketFor s.dataTime - 300 = slotOf s.dataTime := rfl
  unfold groupSlotNo
  rw [hbucket, hstart, hslot, Int.tdiv_eq_ediv_of_nonneg (by omega)]
  omega

/-- **One hour's packed slots**: an accepted push adds its bytes to the slots that hold its own. -/
theorem vmEdgeLedger (off : Int) (who : Selector) (dir : Direction) (first : Nat) {last : Nat}
    {hourStart : Int} {consulted : RollupTable → Int → Prop} (hlast : last ≤ 12)
    (hconsulted : consulted .vmHourly hourStart) :
    Ledger off consulted
      (fun t => t.vmHourly.sumOf (vmKeyIn who hourStart (hourStart + 1))
        fun row => slotSum row.slot5mVersion (row.slots dir) first last)
      (fun s =>
        if localHourStart off (slotOf s.dataTime) = hourStart ∧
            (first : Int) ≤ (slotOf s.dataTime - hourStart) / 300 ∧ (slotOf s.dataTime - hourStart) / 300 < last
        then vmBytes off who dir s else 0) where
  write t s ht := by
    rw [writeSample_vmHourly, KeyedTable.sumOf_mergeGroups _ _ _
      (fun row => if first ≤ (slotCoordinates off s.dataTime).slotNo ∧ (slotCoordinates off s.dataTime).slotNo < last
        then row.deltas.bytes dir else 0) ht
      (fun key group _ => packed_aggVmHourly key group)
      (fun _ key group _ hold => hold.merge (packed_aggVmHourly key group))]
    · congr 1
      refine sum_shares fun row hrow => ?_
      obtain ⟨hhour, -, -, -⟩ := Sample.stage_mem hrow
      rw [slotNo_eq]
      simp only [vmKeyIn, hourlyKey, hhour, decide_eq_true_eq, ← ite_and]
      refine if_congr ⟨fun ⟨⟨h₁, h₂, hkey⟩, h₃, h₄⟩ => ?_, fun ⟨⟨h₁, h₃, h₄⟩, hkey⟩ => ?_⟩ rfl rfl
      · have hhs : localHourStart off (slotOf s.dataTime) = hourStart := by omega
        exact ⟨⟨hhs, hhs ▸ h₃, hhs ▸ h₄⟩, hkey⟩
      · exact ⟨⟨by omega, by omega, hkey⟩, h₁ ▸ h₃, h₁ ▸ h₄⟩
    · intro key group hgroup
      obtain ⟨hstart, hslot⟩ := groupSlotNo_of_group hgroup
      rw [aggVmHourly_slots, slotNo_eq]
      show slotSum (some 2) _ first last = _
      rw [slotSum_slotArray hlast, Counters.sum_bytes, List.map_map, ← hslot]
      by_cases hin : first ≤ groupSlotNo key.start group ∧ groupSlotNo key.start group < last
      · rw [if_pos hin]
        exact congrArg List.sum (List.map_congr_left fun row _ => (if_pos (by omega)).symm)
      · rw [if_neg hin]
        exact (List.sum_eq_zero fun n hn => by
          obtain ⟨row, _, rfl⟩ := List.mem_map.mp hn
          exact if_neg (by omega)).symm
    · intro old key group _ hold
      rw [mergeVmHourly_slots hold.version, hold.version, (packed_aggVmHourly key group).version]
      exact slotSum_addSlots hlast
  delete t table cutoff h := by
    cases table with
    | vmHourly =>
        refine sumOf_deleteOlder t.vmHourly VmKey.start (fun key hkey => ?_) h
        have hkey := of_decide_eq_true hkey
        obtain rfl : key.start = hourStart := by omega
        exact hconsulted
    | vmDaily => rfl
    | node5m => rfl
    | nodeHourly => rfl
    | nodeDaily => rfl

/-- **Whole hours**: an accepted push adds its bytes to the hour of its slot. -/
theorem vmHourlyLedger (off : Int) (who : Selector) (dir : Direction) {lo hi : Int}
    {consulted : RollupTable → Int → Prop} (hconsulted : ∀ x, lo ≤ x → x < hi → consulted .vmHourly x) :
    Ledger off consulted
      (fun t => t.vmHourly.sumOf (vmKeyIn who lo hi) fun row => row.deltas.bytes dir)
      (fun s =>
        if lo ≤ localHourStart off (slotOf s.dataTime) ∧ localHourStart off (slotOf s.dataTime) < hi
        then vmBytes off who dir s else 0) where
  write t s ht := by
    rw [writeSample_vmHourly, KeyedTable.sumOf_mergeGroups _ _ _ (fun row => row.deltas.bytes dir) ht
      (fun key group _ => packed_aggVmHourly key group)
      (fun _ key group _ hold => hold.merge (packed_aggVmHourly key group))]
    · congr 1
      refine sum_shares fun row hrow => ?_
      obtain ⟨hhour, -, -, -⟩ := Sample.stage_mem hrow
      simp only [vmKeyIn, hourlyKey, hhour, decide_eq_true_eq, and_assoc]
    · intro key group _
      show (group.map StageRow.deltas).sum.bytes dir = _
      rw [Counters.sum_bytes, List.map_map]
      rfl
    · intro old key group _ _
      exact Counters.add_bytes _ _ _
  delete t table cutoff h := by
    cases table with
    | vmHourly =>
        refine sumOf_deleteOlder t.vmHourly VmKey.start (fun key hkey => ?_) h
        have hkey := of_decide_eq_true hkey
        exact hconsulted _ hkey.1 hkey.2.1
    | vmDaily => rfl
    | node5m => rfl
    | nodeHourly => rfl
    | nodeDaily => rfl

/-- **Whole days.** -/
theorem vmDailyLedger (off : Int) (who : Selector) (dir : Direction) {lo hi : Int}
    {consulted : RollupTable → Int → Prop} (hconsulted : ∀ x, lo ≤ x → x < hi → consulted .vmDaily x) :
    Ledger off consulted
      (fun t => t.vmDaily.sumOf (vmKeyIn who lo hi) fun row => row.deltas.bytes dir)
      (fun s =>
        if lo ≤ localDayStart off (slotOf s.dataTime) ∧ localDayStart off (slotOf s.dataTime) < hi
        then vmBytes off who dir s else 0) where
  write t s _ := by
    rw [writeSample_vmDaily, KeyedTable.sumOf_mergeGroups _ _ _ (fun row => row.deltas.bytes dir)
      (P := fun _ => True) (fun _ _ => trivial) (fun _ _ _ => trivial) (fun _ _ _ _ _ => trivial)]
    · congr 1
      refine sum_shares fun row hrow => ?_
      obtain ⟨-, hday, -, -⟩ := Sample.stage_mem hrow
      simp only [vmKeyIn, dailyKey, hday, decide_eq_true_eq, and_assoc]
    · intro key group _
      show (group.map StageRow.deltas).sum.bytes dir = _
      rw [Counters.sum_bytes, List.map_map]
      rfl
    · intro old key group _ _
      exact Counters.add_bytes _ _ _
  delete t table cutoff h := by
    cases table with
    | vmDaily =>
        refine sumOf_deleteOlder t.vmDaily VmKey.start (fun key hkey => ?_) h
        have hkey := of_decide_eq_true hkey
        exact hconsulted _ hkey.1 hkey.2.1
    | vmHourly => rfl
    | node5m => rfl
    | nodeHourly => rfl
    | nodeDaily => rfl

/-! ## The node tables -/

/-- The bytes a push reports for a column of its node. -/
def columnBytes (off : Int) (column : NodeColumn) (s : Sample) : Nat :=
  match column.meter with
  | .physical => physicalTotal s.physicalInterfaces column.role column.dir
  | .vm => ((s.stage off).map (vmShare column)).sum

/-- The time the hourly and daily writers of a column go by: the slot for the VM columns, `data_time` itself for the
    physical ones. -/
def rollupTime (meter : Meter) (s : Sample) : Int :=
  match meter with
  | .physical => s.dataTime
  | .vm => slotOf s.dataTime

/-- A push's share of a column of one node. -/
def nodeBytes (off : Int) (node : String) (column : NodeColumn) (s : Sample) : Nat :=
  if s.node = node then columnBytes off column s else 0

/-- `WHERE start>=lo AND start<hi`, for one node. -/
def nodeKeyIn (node : String) (lo hi : Int) (key : NodeKey) : Bool :=
  lo ≤ key.start ∧ key.start < hi ∧ key.node = node

theorem nodeKeyIn_mk (node : String) (lo hi start : Int) (n : String) :
    nodeKeyIn node lo hi ⟨start, n⟩ ↔ (lo ≤ start ∧ start < hi) ∧ n = node := by
  simp [nodeKeyIn, and_assoc]

theorem physicalTotal_of_invalid {items : List (Option PhysicalItem)} (h : validPhysical items = []) (role : Role)
    (dir : Direction) : physicalTotal items role dir = 0 := by
  simp [physicalTotal, h]

/-- What the physical writer and the VM writer add to a column, when each keys its rows by its own time. -/
theorem node_share {off : Int} {node : String} {column : NodeColumn} {s : Sample} {lo hi : Int}
    {time : StageRow → Int} (keyed : Meter → Int) (htime : ∀ row ∈ s.stage off, time row = keyed .vm) :
    (if nodeKeyIn node lo hi ⟨keyed .physical, s.node⟩ then
        match column.meter with
        | .physical => physicalTotal s.physicalInterfaces column.role column.dir
        | .vm => 0
      else 0) +
      ((s.stage off).map fun row => if nodeKeyIn node lo hi ⟨time row, row.node⟩ then
        match column.meter with
        | .vm => vmShare column row
        | .physical => 0
      else 0).sum =
    if lo ≤ keyed column.meter ∧ keyed column.meter < hi then nodeBytes off node column s else 0 := by
  obtain ⟨meter, role, dir⟩ := column
  simp only [nodeKeyIn_mk]
  cases meter with
  | physical => simp [nodeBytes, columnBytes, ite_and]
  | vm =>
      have hrows : (s.stage off).map (fun row =>
          if (lo ≤ time row ∧ time row < hi) ∧ row.node = node then vmShare ⟨.vm, role, dir⟩ row else 0) =
          (s.stage off).map fun row =>
            if (lo ≤ keyed .vm ∧ keyed .vm < hi) ∧ s.node = node then vmShare ⟨.vm, role, dir⟩ row else 0 := by
        refine List.map_congr_left fun row hrow => ?_
        rw [htime row hrow, (Sample.stage_mem hrow).2.2.2]
      by_cases hin : (lo ≤ keyed .vm ∧ keyed .vm < hi) ∧ s.node = node
      · simp [hrows, hin, nodeBytes, columnBytes]
      · simp only [hrows, if_neg hin]
        simp [nodeBytes, ← ite_and, hin]

/-- A group's VM share of a column. -/
theorem bytes_aggNodeVm (cap : Int) (group : List StageRow) (column : NodeColumn) :
    (aggNodeVm cap group).bytes column =
      (group.map fun row => match column.meter with | .vm => vmShare column row | .physical => 0).sum := by
  obtain ⟨meter, role, dir⟩ := column
  cases meter with
  | vm => rfl
  | physical => simp [aggNodeVm]

theorem bytes_mergeNodeVm_agg (cap : Int) (old : NodeConsumption) (group : List StageRow) (column : NodeColumn) :
    (mergeNodeVm cap old (aggNodeVm cap group)).bytes column =
      old.bytes column + (aggNodeVm cap group).bytes column := by
  obtain ⟨meter, role, dir⟩ := column
  cases meter <;> rfl

theorem bytes_mergePhysical_row (cap interval dataTime : Int) (items : List (Option PhysicalItem))
    (old : NodeConsumption) (column : NodeColumn) :
    (mergePhysical cap old (physicalRow cap interval dataTime items)).bytes column =
      old.bytes column + (physicalRow cap interval dataTime items).bytes column := by
  obtain ⟨meter, role, dir⟩ := column
  cases meter <;> rfl

/-- An accepted push adds its share to the 5-minute rows of its bucket. -/
theorem sumOf_node5m_writeSample (off : Int) (node : String) (column : NodeColumn) (lo hi : Int) (s : Sample)
    (t : RollupTables) :
    (writeSample off s t).node5m.sumOf (nodeKeyIn node lo hi) (fun row => row.bytes column) =
      t.node5m.sumOf (nodeKeyIn node lo hi) (fun row => row.bytes column) +
        if lo ≤ bucketFor s.dataTime ∧ bucketFor s.dataTime < hi then nodeBytes off node column s else 0 := by
  have hphysical :
      (rollupPhysicalConsumption off s t).node5m.sumOf (nodeKeyIn node lo hi) (fun row => row.bytes column) =
      t.node5m.sumOf (nodeKeyIn node lo hi) (fun row => row.bytes column) +
        if nodeKeyIn node lo hi ⟨bucketFor s.dataTime, s.node⟩ then
          match column.meter with
          | .physical => physicalTotal s.physicalInterfaces column.role column.dir
          | .vm => 0
        else 0 := by
    by_cases hvalid : validPhysical s.physicalInterfaces = []
    · have hzero := physicalTotal_of_invalid hvalid column.role column.dir
      cases hm : column.meter <;> simp [rollupPhysicalConsumption, hvalid, hzero]
    · simp only [rollupPhysicalConsumption, hvalid, if_false]
      rw [KeyedTable.sumOf_upsert _ _ _ _ _ _ fun old _ => bytes_mergePhysical_row _ _ _ _ old column]
      rfl
  rw [writeSample_node5m, KeyedTable.sumOf_mergeGroups _ _ _
    (fun row => match column.meter with | .vm => vmShare column row | .physical => 0)
    (P := fun _ => True) (fun _ _ => trivial) (fun _ _ _ => trivial) (fun _ _ _ _ _ => trivial)
    (fun _ group _ => bytes_aggNodeVm 300 group column)
    (fun old _ group _ _ => bytes_mergeNodeVm_agg 300 old group column), hphysical, add_assoc]
  congr 1
  exact node_share (fun _ => bucketFor s.dataTime) fun row hrow => (Sample.stage_mem hrow).2.2.1

/-- **5-minute rows** go by the bucket of `data_time`, for both meters. -/
theorem node5mLedger (off : Int) (node : String) (column : NodeColumn) {lo hi : Int}
    {consulted : RollupTable → Int → Prop} (hconsulted : ∀ x, lo ≤ x → x < hi → consulted .node5m x) :
    Ledger off consulted
      (fun t => t.node5m.sumOf (nodeKeyIn node lo hi) fun row => row.bytes column)
      (fun s =>
        if lo ≤ bucketFor s.dataTime ∧ bucketFor s.dataTime < hi then nodeBytes off node column s else 0) where
  write t s _ := sumOf_node5m_writeSample off node column lo hi s t
  delete t table cutoff h := by
    cases table with
    | node5m =>
        refine sumOf_deleteOlder t.node5m NodeKey.start (fun key hkey => ?_) h
        have hkey := of_decide_eq_true hkey
        exact hconsulted _ hkey.1 hkey.2.1
    | vmHourly => rfl
    | vmDaily => rfl
    | nodeHourly => rfl
    | nodeDaily => rfl

/-- The physical writer's step on an hourly or daily table. -/
theorem sumOf_upsertPhysicalRollup (start cap interval : Int) (s : Sample) (table : KeyedTable NodeKey NodeRollup)
    (p : NodeKey → Bool) (column : NodeColumn) :
    (upsertPhysicalRollup start cap interval s table).sumOf p (fun row => row.bytes column) =
      table.sumOf p (fun row => row.bytes column) +
        if p ⟨start, s.node⟩ then
          match column.meter with
          | .physical => physicalTotal s.physicalInterfaces column.role column.dir
          | .vm => 0
        else 0 := by
  unfold upsertPhysicalRollup
  rw [KeyedTable.sumOf_upsert _ _ _ _ _ _
    fun (old : NodeRollup) _ =>
      bytes_mergePhysical_row cap interval s.dataTime s.physicalInterfaces old.toNodeConsumption column]
  rfl

/-- The VM writer's step on an hourly or daily table. -/
theorem sumOf_mergeNodeVmRollup (time : StageRow → Int) (cap : Int) (rows : List StageRow)
    (table : KeyedTable NodeKey NodeRollup) (p : NodeKey → Bool) (column : NodeColumn) :
    (mergeNodeVmRollup time cap rows table).sumOf p (fun row => row.bytes column) =
      table.sumOf p (fun row => row.bytes column) +
        (rows.map fun row => if p ⟨time row, row.node⟩ then
          match column.meter with
          | .vm => vmShare column row
          | .physical => 0
        else 0).sum := by
  unfold mergeNodeVmRollup
  exact KeyedTable.sumOf_mergeGroups table p (fun row => row.bytes column)
    (fun row => match column.meter with | .vm => vmShare column row | .physical => 0)
    (P := fun _ => True) (fun _ _ => trivial) (fun _ _ _ => trivial) (fun _ _ _ _ _ => trivial)
    (fun _ group _ => bytes_aggNodeVm cap group column)
    (fun (old : NodeRollup) _ group _ _ => bytes_mergeNodeVm_agg cap old.toNodeConsumption group column)

/-- An accepted push adds its share to the hourly rows of the hour of `rollupTime`. -/
theorem sumOf_nodeHourly_writeSample (off : Int) (node : String) (column : NodeColumn) (lo hi : Int) (s : Sample)
    (t : RollupTables) :
    (writeSample off s t).nodeHourly.sumOf (nodeKeyIn node lo hi) (fun row => row.bytes column) =
      t.nodeHourly.sumOf (nodeKeyIn node lo hi) (fun row => row.bytes column) +
        if lo ≤ localHourStart off (rollupTime column.meter s) ∧ localHourStart off (rollupTime column.meter s) < hi then
          nodeBytes off node column s
        else 0 := by
  rw [writeSample_nodeHourly, sumOf_mergeNodeVmRollup,
    ← node_share (fun meter => localHourStart off (rollupTime meter s))
      fun row hrow => (Sample.stage_mem hrow).1, ← add_assoc]
  congr 1
  by_cases hvalid : validPhysical s.physicalInterfaces = []
  · have hzero := physicalTotal_of_invalid hvalid column.role column.dir
    cases hm : column.meter <;> simp [rollupPhysicalConsumption, hvalid, hzero]
  · simp only [rollupPhysicalConsumption, hvalid, if_false]
    exact sumOf_upsertPhysicalRollup _ _ _ _ _ _ _

/-- **Hourly rows** go by the hour of `rollupTime`. -/
theorem nodeHourlyLedger (off : Int) (node : String) (column : NodeColumn) {lo hi : Int}
    {consulted : RollupTable → Int → Prop} (hconsulted : ∀ x, lo ≤ x → x < hi → consulted .nodeHourly x) :
    Ledger off consulted
      (fun t => t.nodeHourly.sumOf (nodeKeyIn node lo hi) fun row => row.bytes column)
      (fun s =>
        if lo ≤ localHourStart off (rollupTime column.meter s) ∧ localHourStart off (rollupTime column.meter s) < hi
        then nodeBytes off node column s else 0) where
  write t s _ := sumOf_nodeHourly_writeSample off node column lo hi s t
  delete t table cutoff h := by
    cases table with
    | nodeHourly =>
        refine sumOf_deleteOlder t.nodeHourly NodeKey.start (fun key hkey => ?_) h
        have hkey := of_decide_eq_true hkey
        exact hconsulted _ hkey.1 hkey.2.1
    | vmHourly => rfl
    | vmDaily => rfl
    | node5m => rfl
    | nodeDaily => rfl

/-- An accepted push adds its share to the daily rows of the day of `rollupTime`. -/
theorem sumOf_nodeDaily_writeSample (off : Int) (node : String) (column : NodeColumn) (lo hi : Int) (s : Sample)
    (t : RollupTables) :
    (writeSample off s t).nodeDaily.sumOf (nodeKeyIn node lo hi) (fun row => row.bytes column) =
      t.nodeDaily.sumOf (nodeKeyIn node lo hi) (fun row => row.bytes column) +
        if lo ≤ localDayStart off (rollupTime column.meter s) ∧ localDayStart off (rollupTime column.meter s) < hi then
          nodeBytes off node column s
        else 0 := by
  rw [writeSample_nodeDaily, sumOf_mergeNodeVmRollup,
    ← node_share (fun meter => localDayStart off (rollupTime meter s))
      fun row hrow => (Sample.stage_mem hrow).2.1, ← add_assoc]
  congr 1
  by_cases hvalid : validPhysical s.physicalInterfaces = []
  · have hzero := physicalTotal_of_invalid hvalid column.role column.dir
    cases hm : column.meter <;> simp [rollupPhysicalConsumption, hvalid, hzero]
  · simp only [rollupPhysicalConsumption, hvalid, if_false]
    exact sumOf_upsertPhysicalRollup _ _ _ _ _ _ _

/-- **Daily rows** go by the day of `rollupTime`. -/
theorem nodeDailyLedger (off : Int) (node : String) (column : NodeColumn) {lo hi : Int}
    {consulted : RollupTable → Int → Prop} (hconsulted : ∀ x, lo ≤ x → x < hi → consulted .nodeDaily x) :
    Ledger off consulted
      (fun t => t.nodeDaily.sumOf (nodeKeyIn node lo hi) fun row => row.bytes column)
      (fun s =>
        if lo ≤ localDayStart off (rollupTime column.meter s) ∧ localDayStart off (rollupTime column.meter s) < hi
        then nodeBytes off node column s else 0) where
  write t s _ := sumOf_nodeDaily_writeSample off node column lo hi s t
  delete t table cutoff h := by
    cases table with
    | nodeDaily =>
        refine sumOf_deleteOlder t.nodeDaily NodeKey.start (fun key hkey => ?_) h
        have hkey := of_decide_eq_true hkey
        exact hconsulted _ hkey.1 hkey.2.1
    | vmHourly => rfl
    | vmDaily => rfl
    | node5m => rfl
    | nodeHourly => rfl

end VirtInfra.Consumption
