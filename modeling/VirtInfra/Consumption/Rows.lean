import VirtInfra.Consumption.Clock
import VirtInfra.Counters
import VirtInfra.Lib.KeyedTable

/-!
# `Rows` — staged interface rows and the five consumption tables

The COPY ingest stages one row per reported interface (`ifaceRows`) and merges the stage, grouped by key, into
`vm_consumption_hourly`, `vm_consumption_daily` and the three node tables. This file has the rows, the grouped
aggregates (`agg…`) and the `ON CONFLICT` updates (`merge…`). Byte counts are naturals: every delta passes
`max(0, safe_int(…))` before it is stored.
-/

namespace VirtInfra.Consumption

open Lib Python

/-- `PUBLIC_BRIDGE`. -/
def publicBridge : String := "br0"

/-- `PRIVATE_BRIDGE`. -/
def privateBridge : String := "br1"

/-! ## The stage table -/

/-- One dict of the payload's `interfaces`; `vmUuid`, `bridge` and `iface` are `str(item.get(…) or default)`. -/
structure IfaceItem where
  vmUuid : String := ""
  bridge : String := "-"
  iface : String := "-"
  intervalSeconds : Option Int := none
  rxDelta : Option Int := none
  txDelta : Option Int := none
  rxPacketsDelta : Option Int := none
  txPacketsDelta : Option Int := none
  rxDropDelta : Option Int := none
  txDropDelta : Option Int := none
  rxErrorDelta : Option Int := none
  txErrorDelta : Option Int := none

/-- A row of `pg_temp.vi5052_iface_stage`, the columns the consumption tables are built from. -/
structure StageRow where
  hourStart : Int
  dayStart : Int
  bucket : Int
  node : String
  bridge : String
  iface : String
  vmUuid : String
  lastPush : Int
  intervalSeconds : Int
  deltas : Counters
  deriving DecidableEq, Repr

/-- The row one dict stages; an item that names no VM stages none. -/
def stageRow (off : Int) (node : String) (dataTime bucket intervalSeconds : Int) (item : IfaceItem) :
    Option StageRow :=
  let coords := slotCoordinates off dataTime
  let vmUuid := strip item.vmUuid
  if vmUuid = "" ∨ vmUuid = "-" then none
  else some
    { hourStart := coords.hourStart, dayStart := coords.dayStart, bucket, node
      bridge := item.bridge, iface := item.iface, vmUuid, lastPush := dataTime
      intervalSeconds := clamp 1 86400 (safeInt item.intervalSeconds intervalSeconds)
      deltas :=
        { rx := counter item.rxDelta, tx := counter item.txDelta
          rxPackets := counter item.rxPacketsDelta, txPackets := counter item.txPacketsDelta
          rxDrop := counter item.rxDropDelta, txDrop := counter item.txDropDelta
          rxError := counter item.rxErrorDelta, txError := counter item.txErrorDelta } }

/-- `_v5052_iface_rows`; an element that is not a dict is `none`. -/
def ifaceRows (off : Int) (node : String) (dataTime bucket intervalSeconds : Int)
    (interfaces : List (Option IfaceItem)) : List StageRow :=
  interfaces.filterMap fun element => element.bind (stageRow off node dataTime bucket intervalSeconds)

/-- What every staged row of one push has in common. -/
theorem ifaceRows_mem {off dataTime bucket intervalSeconds : Int} {node : String}
    {interfaces : List (Option IfaceItem)} {row : StageRow}
    (h : row ∈ ifaceRows off node dataTime bucket intervalSeconds interfaces) :
    row.hourStart = localHourStart off (slotOf dataTime) ∧ row.dayStart = localDayStart off (slotOf dataTime) ∧
      row.bucket = bucket ∧ row.node = node := by
  obtain ⟨element, _, hbind⟩ := List.mem_filterMap.mp h
  obtain ⟨item, _, hrow⟩ := Option.bind_eq_some_iff.mp hbind
  unfold stageRow at hrow
  dsimp only at hrow
  split at hrow
  · simp at hrow
  · obtain rfl := Option.some.inj hrow
    exact ⟨rfl, rfl, rfl, rfl⟩

/-! ## SQL aggregates over a group -/

/-- `MAX(f)`. -/
def maxOf (f : StageRow → Int) (group : List StageRow) : Int := (group.map f).max?.getD 0

/-- `COUNT(DISTINCT f)`. -/
def countDistinct {β : Type} [DecidableEq β] (f : StageRow → β) (group : List StageRow) : Nat :=
  (group.map f).dedup.length

theorem maxOf_const {f : StageRow → Int} {group : List StageRow} {c : Int} (hne : group ≠ [])
    (h : ∀ row ∈ group, f row = c) : maxOf f group = c := by
  have hmap : group.map f = List.replicate group.length c :=
    List.eq_replicate_iff.mpr ⟨by simp, by simpa using h⟩
  have hlen : group.length ≠ 0 := by simpa using hne
  simp [maxOf, hmap, List.max?_replicate, hlen]

/-! ## `vm_consumption_hourly` and `vm_consumption_daily` -/

/-- The key of both VM tables: `hour_start` or `day_start`, node, VM and bridge. -/
structure VmKey where
  start : Int
  node : String
  vmUuid : String
  bridge : String
  deriving DecidableEq, Repr

/-- A row of `vm_consumption_daily`. -/
structure VmConsumption where
  deltas : Counters
  sampleCount : Nat
  lastPush : Int
  deriving DecidableEq, Repr

/-- A row of `vm_consumption_hourly`. A NULL slot array is `[]`, as an absent element reads NULL too. -/
structure VmConsumptionHourly extends VmConsumption where
  rx5mSlots : List Nat
  tx5mSlots : List Nat
  sample5mMask : Nat
  slot5mVersion : Option Nat
  deriving DecidableEq, Repr

/-- `COALESCE(slots[index + 1], 0)`. -/
def slotAt (slots : List Nat) (index : Nat) : Nat := slots.getD index 0

/-- `ARRAY[CASE WHEN slot_no=0 THEN bytes ELSE 0 END, …]`. -/
def slotArray (slotNo bytes : Nat) : List Nat :=
  (List.range 12).map fun index => if slotNo = index then bytes else 0

/-- `ARRAY[COALESCE(a[1],0)+COALESCE(b[1],0), …]`. -/
def addSlots (a b : List Nat) : List Nat := (List.range 12).map fun index => slotAt a index + slotAt b index

/-- The aggregates the hourly and the daily statement share. -/
def aggVm (group : List StageRow) : VmConsumption :=
  { deltas := (group.map StageRow.deltas).sum
    sampleCount := countDistinct StageRow.lastPush group
    lastPush := maxOf StageRow.lastPush group }

/-- `LEAST(11,GREATEST(0,((MAX(bucket)-300-hour_start)/300)::integer))`. -/
def groupSlotNo (hourStart : Int) (group : List StageRow) : Nat :=
  (min 11 (max 0 ((maxOf StageRow.bucket group - 300 - hourStart).tdiv 300))).toNat

def aggVmHourly (key : VmKey) (group : List StageRow) : VmConsumptionHourly :=
  let row := aggVm group
  let slotNo := groupSlotNo key.start group
  { row with
    rx5mSlots := slotArray slotNo row.deltas.rx
    tx5mSlots := slotArray slotNo row.deltas.tx
    sample5mMask := 1 <<< slotNo
    slot5mVersion := some 2 }

def mergeVm (old new : VmConsumption) : VmConsumption :=
  { deltas := old.deltas + new.deltas
    sampleCount := old.sampleCount + new.sampleCount
    lastPush := max old.lastPush new.lastPush }

/-- A row written before the slots existed (`slot_5m_version < 2`) takes the new row's slots as they are. -/
def mergeVmHourly (old new : VmConsumptionHourly) : VmConsumptionHourly :=
  let legacy := old.slot5mVersion.getD 1 < 2
  { mergeVm old.toVmConsumption new.toVmConsumption with
    rx5mSlots := if legacy then new.rx5mSlots else addSlots old.rx5mSlots new.rx5mSlots
    tx5mSlots := if legacy then new.tx5mSlots else addSlots old.tx5mSlots new.tx5mSlots
    sample5mMask := if legacy then new.sample5mMask else old.sample5mMask ||| new.sample5mMask
    slot5mVersion := some 2 }

/-- `_r2210_slot_sum_sql(column, first, last)`: the slots `first … last - 1` of a row that has slots. -/
def slotSum (version : Option Nat) (slots : List Nat) (first last : Nat) : Nat :=
  ((List.range' first (last - first)).map fun index =>
    if version.getD 1 ≥ 2 then slotAt slots index else 0).sum

def VmConsumptionHourly.slots (row : VmConsumptionHourly) : Direction → List Nat
  | .rx => row.rx5mSlots
  | .tx => row.tx5mSlots

/-- **A row whose slots account for all its bytes.** Every row the COPY ingest writes is one. -/
structure Packed (row : VmConsumptionHourly) : Prop where
  version : row.slot5mVersion = some 2
  slots : ∀ dir, slotSum (some 2) (row.slots dir) 0 12 = row.deltas.bytes dir

def hourlyKey (row : StageRow) : VmKey := ⟨row.hourStart, row.node, row.vmUuid, row.bridge⟩

def dailyKey (row : StageRow) : VmKey := ⟨row.dayStart, row.node, row.vmUuid, row.bridge⟩

/-! ### Slot sums -/

theorem slotAt_slotArray {slotNo bytes index : Nat} (h : index < 12) :
    slotAt (slotArray slotNo bytes) index = if slotNo = index then bytes else 0 := by
  simp [slotAt, slotArray, List.getD_eq_getElem?_getD, h]

theorem slotAt_addSlots {a b : List Nat} {index : Nat} (h : index < 12) :
    slotAt (addSlots a b) index = slotAt a index + slotAt b index := by
  simp [slotAt, addSlots, List.getD_eq_getElem?_getD, h]

theorem slotSum_addSlots {a b : List Nat} {first last : Nat} (hlast : last ≤ 12) :
    slotSum (some 2) (addSlots a b) first last = slotSum (some 2) a first last + slotSum (some 2) b first last := by
  unfold slotSum
  rw [← List.sum_map_add]
  refine congrArg List.sum (List.map_congr_left fun index hindex => ?_)
  have hlt : index < 12 := by have := List.mem_range'_1.mp hindex; omega
  simpa using slotAt_addSlots hlt

/-- The one position of a range that an index can hit. -/
theorem sum_range'_single (k bytes : Nat) :
    ∀ n a, ((List.range' a n).map fun index => if k = index then bytes else 0).sum =
      if a ≤ k ∧ k < a + n then bytes else 0
  | 0, a => by simp
  | n + 1, a => by
      rw [List.range'_succ, List.map_cons, List.sum_cons, sum_range'_single k bytes n (a + 1)]
      split_ifs <;> omega

theorem slotSum_slotArray {slotNo bytes first last : Nat} (hlast : last ≤ 12) :
    slotSum (some 2) (slotArray slotNo bytes) first last =
      if first ≤ slotNo ∧ slotNo < last then bytes else 0 := by
  have hmap : slotSum (some 2) (slotArray slotNo bytes) first last =
      ((List.range' first (last - first)).map fun index => if slotNo = index then bytes else 0).sum := by
    unfold slotSum
    refine congrArg List.sum (List.map_congr_left fun index hindex => ?_)
    have hlt : index < 12 := by have := List.mem_range'_1.mp hindex; omega
    simpa using slotAt_slotArray hlt
  rw [hmap, sum_range'_single]
  split_ifs <;> omega

theorem groupSlotNo_le (hourStart : Int) (group : List StageRow) : groupSlotNo hourStart group ≤ 11 := by
  unfold groupSlotNo; omega

theorem aggVmHourly_slots (key : VmKey) (group : List StageRow) (dir : Direction) :
    (aggVmHourly key group).slots dir =
      slotArray (groupSlotNo key.start group) ((group.map StageRow.deltas).sum.bytes dir) := by
  cases dir <;> rfl

theorem mergeVmHourly_slots {old new : VmConsumptionHourly} (h : old.slot5mVersion = some 2) (dir : Direction) :
    (mergeVmHourly old new).slots dir = addSlots (old.slots dir) (new.slots dir) := by
  cases dir <;> simp [VmConsumptionHourly.slots, mergeVmHourly, h]

theorem packed_aggVmHourly (key : VmKey) (group : List StageRow) : Packed (aggVmHourly key group) := by
  refine ⟨rfl, fun dir => ?_⟩
  have hle := groupSlotNo_le key.start group
  rw [aggVmHourly_slots, slotSum_slotArray le_rfl, if_pos (by omega)]
  rfl

/-- **Merging keeps the slots complete.** -/
theorem Packed.merge {old new : VmConsumptionHourly} (hold : Packed old) (hnew : Packed new) :
    Packed (mergeVmHourly old new) := by
  refine ⟨rfl, fun dir => ?_⟩
  rw [mergeVmHourly_slots hold.version, slotSum_addSlots le_rfl, hold.slots, hnew.slots, ← Counters.add_bytes]
  rfl

/-! ## `node_consumption_5m`, `node_consumption_hourly` and `node_consumption_daily` -/

inductive Role | pub | priv
  deriving DecidableEq, Repr

def Role.bridge : Role → String
  | pub => publicBridge
  | priv => privateBridge

/-- Whether a byte column counts a physical NIC or the taps of the node's VMs. -/
inductive Meter | physical | vm
  deriving DecidableEq, Repr

/-- **The eight byte columns of a node row**: `physical_public_rx_bytes`, …, `vm_private_tx_bytes`. -/
structure NodeColumn where
  meter : Meter
  role : Role
  dir : Direction
  deriving DecidableEq, Repr

/-- The key of the node tables: `bucket_start`, `hour_start` or `day_start`, and the node. -/
structure NodeKey where
  start : Int
  node : String
  deriving DecidableEq, Repr

/-- A row of `node_consumption_5m`. -/
structure NodeConsumption where
  bytes : NodeColumn → Nat
  physicalCoverageSeconds : Int := 0
  vmCoverageSeconds : Int := 0
  physicalSampleCount : Int := 0
  vmSampleCount : Int := 0
  vmCount : Int := 0
  lastPush : Int := 0

/-- A row of `node_consumption_hourly` or `node_consumption_daily`, with the two columns older than the split
    by meter. -/
structure NodeRollup extends NodeConsumption where
  coverageSeconds : Int := 0
  sampleCount : Int := 0

/-- A sum of coverage, cut at the length of the row's cell. -/
def addCovered (cap a b : Int) : Int := if a + b > cap then cap else a + b

/-- One staged row's share of a VM column: `CASE WHEN bridge=? THEN tx_delta ELSE 0 END` for an rx column, as
    the guest receives what the tap transmits. -/
def vmShare (column : NodeColumn) (row : StageRow) : Nat :=
  if row.bridge = column.role.bridge then row.deltas.bytes column.dir.swap else 0

/-- The `SELECT` of `_r21_merge_node_vm_preaggregates`, whose coverage is cut at `cap`. -/
def aggNodeVm (cap : Int) (group : List StageRow) : NodeConsumption :=
  { bytes := fun column => match column.meter with
      | .vm => (group.map (vmShare column)).sum
      | .physical => 0
    vmCoverageSeconds := min cap (maxOf StageRow.intervalSeconds group)
    vmSampleCount := countDistinct StageRow.lastPush group
    vmCount := countDistinct StageRow.vmUuid group
    lastPush := maxOf StageRow.lastPush group }

/-- Its `ON CONFLICT` update. -/
def mergeNodeVm (cap : Int) (old new : NodeConsumption) : NodeConsumption :=
  { old with
    bytes := fun column => match column.meter with
      | .vm => old.bytes column + new.bytes column
      | .physical => old.bytes column
    vmCoverageSeconds := addCovered cap old.vmCoverageSeconds new.vmCoverageSeconds
    vmSampleCount := old.vmSampleCount + new.vmSampleCount
    vmCount := max old.vmCount new.vmCount
    lastPush := max old.lastPush new.lastPush }

/-- One dict of the payload's `physical_interfaces`; `role` and `bridge` are `str(item.get(…) or "")`. -/
structure PhysicalItem where
  role : String := ""
  bridge : String := ""
  rxDelta : Option Int := none
  txDelta : Option Int := none
  rxPacketsDelta : Option Int := none
  txPacketsDelta : Option Int := none

/-- The role an item counts for: the reported one, else the one of its bridge. -/
def physicalRole (item : PhysicalItem) : Option Role :=
  let role := lower (strip item.role)
  let bridge := strip item.bridge
  if role = "" then
    if bridge = publicBridge then some .pub else if bridge = privateBridge then some .priv else none
  else if role = "public" then some .pub
  else if role = "private" then some .priv
  else none

def physicalDelta (item : PhysicalItem) : Direction → Nat
  | .rx => counter item.rxDelta
  | .tx => counter item.txDelta

def physicalPackets (item : PhysicalItem) : Direction → Nat
  | .rx => counter item.rxPacketsDelta
  | .tx => counter item.txPacketsDelta

/-- The items `_v5058r4_rollup_physical_consumption` adds up: `valid_rows` counts them. -/
def validPhysical (items : List (Option PhysicalItem)) : List (Role × PhysicalItem) :=
  items.filterMap fun element => do
    let item ← element
    let role ← physicalRole item
    return (role, item)

/-- `totals[role + "_" + dir]`. -/
def physicalTotal (items : List (Option PhysicalItem)) (role : Role) (dir : Direction) : Nat :=
  ((validPhysical items).map fun entry => if entry.1 = role then physicalDelta entry.2 dir else 0).sum

/-- The row `_v5058r4_rollup_physical_consumption` inserts. -/
def physicalRow (cap interval dataTime : Int) (items : List (Option PhysicalItem)) : NodeConsumption :=
  { bytes := fun column => match column.meter with
      | .physical => physicalTotal items column.role column.dir
      | .vm => 0
    physicalCoverageSeconds := min cap interval
    physicalSampleCount := 1
    lastPush := dataTime }

/-- Its `ON CONFLICT` update. -/
def mergePhysical (cap : Int) (old new : NodeConsumption) : NodeConsumption :=
  { old with
    bytes := fun column => match column.meter with
      | .physical => old.bytes column + new.bytes column
      | .vm => old.bytes column
    physicalCoverageSeconds := addCovered cap old.physicalCoverageSeconds new.physicalCoverageSeconds
    physicalSampleCount := old.physicalSampleCount + new.physicalSampleCount
    lastPush := max old.lastPush new.lastPush }

end VirtInfra.Consumption
