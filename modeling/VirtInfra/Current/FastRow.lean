import Mathlib.Data.Finset.Card
import VirtInfra.Lib.OnConflict
import VirtInfra.Current.Writers

/-!
# `FastRow` — the two writers of `vm_current_fast`

A push leaves one row for each of its VMs in `vm_current_fast`. `_v5050_current_writer` adds the row up in a loop over the
interfaces and another over `vms`, and upserts the rows in one batch. `_v5052_current_writer`, which replaced it, lets one
statement aggregate the rows that were copied into the stage tables.

The other tables of both writers are left out. Of the batched writer's upsert into `vm_iface_current` it is kept whether
it fails, for which the `last_seen` of the stored rows is enough.
-/

namespace VirtInfra.Current

open Lib Python Consumption

/-! ## The payload -/

/-- A dict of `interfaces`, with what the agent's sampler adds to the counters. -/
structure TapItem extends IfaceItem where
  rxMbpsPeak : Option ℚ := none
  txMbpsPeak : Option ℚ := none
  totalMbpsPeak : Option ℚ := none
  rxPpsPeak : Option ℚ := none
  txPpsPeak : Option ℚ := none
  totalPpsPeak : Option ℚ := none
  networkSampleCount : Option Int := none
  networkSampleExpected : Option Int := none
  networkSampleMaxGapSeconds : Option ℚ := none
  networkSampleQuality : Option String := none
  secondsOverPps : Option Int := none
  secondsOverRxPps : Option Int := none
  secondsOverTxPps : Option Int := none

/-- A dict of `vms`. A `cpu_normalized_percent` that is there and no number reads as 0. -/
structure PerfItem where
  vmUuid : String := ""
  intervalSeconds : Option Int := none
  vcpuCurrent : Option Int := none
  cpuNormalizedPercent : Option ℚ := none
  cpuPercent : Option ℚ := none
  cpuCorePercent : Option ℚ := none
  ramCurrentKib : Option Int := none
  ramRssKib : Option Int := none
  ramAvailableKib : Option Int := none
  ramUnusedKib : Option Int := none
  ramUsableKib : Option Int := none
  diskReadDelta : Option Int := none
  diskWriteDelta : Option Int := none
  diskReadReqsDelta : Option Int := none
  diskWriteReqsDelta : Option Int := none

/-- An accepted push. `synced` says of which VMs the agent counted the seconds under the policy's threshold
    (`_v4810_pps_sync_map`). -/
structure FastPush where
  node : String
  dataTime : Int
  intervalSeconds : Int
  interfaces : List (Option TapItem)
  vms : List (Option PerfItem)
  synced : String → Bool
  inventoryComplete : Bool
  interval_mem : 1 ≤ intervalSeconds ∧ intervalSeconds ≤ 3600

/-- The seconds of a VM that is out of sync are zeroed. -/
def TapItem.unsynced (item : TapItem) : TapItem :=
  { item with secondsOverPps := some 0, secondsOverRxPps := some 0, secondsOverTxPps := some 0 }

/-- `normalized_interfaces` of `_v5050_refresh_fast_current_state`. -/
def FastPush.normalized (push : FastPush) : List (Option TapItem) :=
  push.interfaces.map <| Option.map fun item => if push.synced (strip item.vmUuid) then item else item.unsynced

/-- The items that a loop over `interfaces` keeps, their VM stripped. -/
def namedTaps (items : List (Option TapItem)) : List TapItem :=
  items.filterMap fun element => element.bind fun item =>
    if strip item.vmUuid = "" ∨ strip item.vmUuid = "-" then none else some { item with vmUuid := strip item.vmUuid }

/-- The items that a loop over `vms` keeps. -/
def namedPerfs (items : List (Option PerfItem)) : List PerfItem :=
  items.filterMap fun element => element.bind fun item =>
    if strip item.vmUuid = "" ∨ strip item.vmUuid = "-" then none else some { item with vmUuid := strip item.vmUuid }

/-! ## The row -/

/-- The integer columns that add up over a VM's interfaces. -/
inductive IntColumn
  | publicRxBytes | publicTxBytes | privateRxBytes | privateTxBytes | rxBytes | txBytes | totalBytes | drops | errors
  deriving DecidableEq, Repr

/-- The rates that add up, and the peaks of one direction. -/
inductive RateColumn
  | publicMbps | privateMbps | rxMbps | txMbps | totalMbps
  | publicPps | privatePps | rxPps | txPps | totalPps
  | rxPeakMbps | txPeakMbps | rxPeakPps | txPeakPps
  deriving DecidableEq, Repr

/-- The peaks of both directions together. -/
inductive PeakColumn
  | publicPeakMbps | privatePeakMbps | totalPeakMbps | publicPeakPps | privatePeakPps | totalPeakPps
  deriving DecidableEq, Repr

inductive Quality | legacy | noData | good | degraded | poor
  deriving DecidableEq, Repr

/-- `clean_network_sample_quality`. -/
def cleanNetworkSampleQuality (value : Option String) : Quality :=
  let value := value.getD ""
  match upper (strip (if value = "" then "LEGACY" else value)) with
  | "GOOD" => .good
  | "DEGRADED" => .degraded
  | "POOR" => .poor
  | "NO_DATA" => .noData
  | _ => .legacy

/-- `network_sample_quality_rank`. -/
def networkSampleQualityRank : Quality → Nat
  | .legacy | .noData => 0
  | .good => 1
  | .degraded => 2
  | .poor => 3

/-- The columns from a VM's `vms` entry. -/
structure PerfColumns where
  cpuFullPercent : ℚ := 0
  cpuCorePercent : ℚ := 0
  vcpuCurrent : Nat := 0
  ramCurrentKib : Nat := 0
  ramRssKib : Nat := 0
  ramAvailableKib : Nat := 0
  ramUnusedKib : Nat := 0
  ramUsableKib : Nat := 0
  diskReadBps : ℚ := 0
  diskWriteBps : ℚ := 0
  diskReadIops : ℚ := 0
  diskWriteIops : ℚ := 0
  deriving DecidableEq

/-- **A row of `vm_current_fast`**, whose key is the node and the VM. -/
@[ext] structure FastRow where
  lastSeen : Int
  intervalSeconds : Int
  ifaceCount : Nat
  ints : IntColumn → Nat
  rates : RateColumn → ℚ
  peaks : PeakColumn → ℚ
  sampleCount : Nat
  sampleExpected : Nat
  sampleMaxGap : ℚ
  sampleQuality : Quality
  secondsOverRxPps : Nat
  secondsOverTxPps : Nat
  perf : PerfColumns

abbrev FastTable := KeyedTable (String × String) FastRow

/-! ## What both loops compute of an item -/

/-- The figures of an interface. -/
structure TapRow where
  vmUuid : String
  bridge : String
  iface : String
  intervalSeconds : Int
  rxDelta : Nat
  txDelta : Nat
  rxMbps : ℚ
  txMbps : ℚ
  rxPps : ℚ
  txPps : ℚ
  rxMbpsPeak : ℚ
  txMbpsPeak : ℚ
  rxPpsPeak : ℚ
  txPpsPeak : ℚ
  sampleCount : Nat
  sampleExpected : Nat
  sampleMaxGap : ℚ
  quality : Quality
  drops : Nat
  errors : Nat

/-- They depend on the seconds that the loop takes the item to cover. -/
def tapRow (sec : Int) (item : TapItem) : TapRow :=
  let rxMbps := mbps (counter item.rxDelta) sec
  let txMbps := mbps (counter item.txDelta) sec
  let rxPps : ℚ := counter item.rxPacketsDelta / sec
  let txPps : ℚ := counter item.txPacketsDelta / sec
  { vmUuid := item.vmUuid, bridge := item.bridge, iface := item.iface, intervalSeconds := sec
    rxDelta := counter item.rxDelta, txDelta := counter item.txDelta
    rxMbps, txMbps, rxPps, txPps
    rxMbpsPeak := max rxMbps (safeFloat item.rxMbpsPeak 0)
    txMbpsPeak := max txMbps (safeFloat item.txMbpsPeak 0)
    rxPpsPeak := max rxPps (safeFloat item.rxPpsPeak 0)
    txPpsPeak := max txPps (safeFloat item.txPpsPeak 0)
    sampleCount := counter item.networkSampleCount
    sampleExpected := counter item.networkSampleExpected
    sampleMaxGap := max 0 (safeFloat item.networkSampleMaxGapSeconds 0)
    quality := cleanNetworkSampleQuality item.networkSampleQuality
    drops := counter item.rxDropDelta + counter item.txDropDelta
    errors := counter item.rxErrorDelta + counter item.txErrorDelta }

/-- `_fast_cpu_values`: the full and the core percentage and the number of CPUs. -/
def fastCpuValues (item : PerfItem) : ℚ × ℚ × Nat :=
  let vcpu := counter item.vcpuCurrent
  let full : ℚ := match item.cpuNormalizedPercent with
    | some percent => max 0 (min 100 percent)
    | none =>
        let raw := max 0 (safeFloat item.cpuPercent 0)
        if raw > 100 then min 100 (raw / (max vcpu 1 : Nat)) else min 100 raw
  (full, max 0 (safeFloat item.cpuCorePercent (full * (max vcpu 1 : Nat))), vcpu)

def perfColumns (sec : Int) (item : PerfItem) : PerfColumns :=
  let (full, core, vcpu) := fastCpuValues item
  { cpuFullPercent := full, cpuCorePercent := core, vcpuCurrent := vcpu
    ramCurrentKib := counter item.ramCurrentKib
    ramRssKib := counter item.ramRssKib
    ramAvailableKib := counter item.ramAvailableKib
    ramUnusedKib := counter item.ramUnusedKib
    ramUsableKib := counter item.ramUsableKib
    diskReadBps := counter item.diskReadDelta / sec
    diskWriteBps := counter item.diskWriteDelta / sec
    diskReadIops := counter item.diskReadReqsDelta / sec
    diskWriteIops := counter item.diskWriteReqsDelta / sec }

/-- `(bridge, iface)`, by which both writers tell a VM's interfaces apart. -/
def TapRow.nic (row : TapRow) : String × String := (row.bridge, row.iface)

/-! ## The batched writer (`_v5050_current_writer`) -/

/-- The figures of the loop body beyond those of `TapRow`. -/
structure BatchRow extends TapRow where
  totalPeakMbps : ℚ
  totalPeakPps : ℚ
  overRx : Nat
  overTx : Nat

/-- The seconds over the threshold: an agent of version 8 sends them for both directions together. -/
def batchRow (abuseNetworkPps : ℚ) (intervalSeconds : Int) (item : TapItem) : BatchRow :=
  let row := tapRow (max 1 (safeInt item.intervalSeconds intervalSeconds)) item
  let overRx := counter item.secondsOverRxPps
  let overTx := counter item.secondsOverTxPps
  let combined := counter item.secondsOverPps
  { row with
    totalPeakMbps := max (row.rxMbps + row.txMbps) (safeFloat item.totalMbpsPeak (row.rxMbpsPeak + row.txMbpsPeak))
    totalPeakPps := max (row.rxPps + row.txPps) (safeFloat item.totalPpsPeak (row.rxPpsPeak + row.txPpsPeak))
    overRx := if (overRx = 0 ∧ overTx = 0) ∧ abuseNetworkPps ≤ max row.rxPps row.rxPpsPeak then combined else overRx
    overTx := if (overRx = 0 ∧ overTx = 0) ∧ abuseNetworkPps ≤ max row.txPps row.txPpsPeak then combined else overTx }

/-- `if bridge == PUBLIC_BRIDGE: … elif bridge == PRIVATE_BRIDGE: …`. -/
def BatchRow.onBridge {α : Type} [Zero α] (row : BatchRow) (role : Role) (x : α) : α :=
  if row.bridge = publicBridge then (if role = .pub then x else 0)
  else if row.bridge = privateBridge then (if role = .priv then x else 0)
  else 0

def BatchRow.int (row : BatchRow) : IntColumn → Nat
  | .publicRxBytes => row.onBridge .pub row.rxDelta
  | .publicTxBytes => row.onBridge .pub row.txDelta
  | .privateRxBytes => row.onBridge .priv row.rxDelta
  | .privateTxBytes => row.onBridge .priv row.txDelta
  | .rxBytes => row.rxDelta
  | .txBytes => row.txDelta
  | .totalBytes => row.rxDelta + row.txDelta
  | .drops => row.drops
  | .errors => row.errors

def BatchRow.rate (row : BatchRow) : RateColumn → ℚ
  | .publicMbps => row.onBridge .pub (row.rxMbps + row.txMbps)
  | .privateMbps => row.onBridge .priv (row.rxMbps + row.txMbps)
  | .rxMbps => row.rxMbps
  | .txMbps => row.txMbps
  | .totalMbps => row.rxMbps + row.txMbps
  | .publicPps => row.onBridge .pub (row.rxPps + row.txPps)
  | .privatePps => row.onBridge .priv (row.rxPps + row.txPps)
  | .rxPps => row.rxPps
  | .txPps => row.txPps
  | .totalPps => row.rxPps + row.txPps
  | .rxPeakMbps => row.rxMbpsPeak
  | .txPeakMbps => row.txMbpsPeak
  | .rxPeakPps => row.rxPpsPeak
  | .txPeakPps => row.txPpsPeak

def BatchRow.peak (row : BatchRow) : PeakColumn → ℚ
  | .publicPeakMbps => row.onBridge .pub row.totalPeakMbps
  | .privatePeakMbps => row.onBridge .priv row.totalPeakMbps
  | .totalPeakMbps => row.totalPeakMbps
  | .publicPeakPps => row.onBridge .pub row.totalPeakPps
  | .privatePeakPps => row.onBridge .priv row.totalPeakPps
  | .totalPeakPps => row.totalPeakPps

/-- A value of `by_vm`: the columns so far, the set of interfaces, and whether the keys `ram_unused_kib` and
    `ram_usable_kib`, which `_empty_fast_vm` leaves out, are there. -/
structure FastVm extends FastRow where
  ifaces : Finset (String × String)
  hasRamKeys : Bool

/-- `_empty_fast_vm`. -/
def emptyFastVm (push : FastPush) : FastVm :=
  { lastSeen := push.dataTime, intervalSeconds := push.intervalSeconds, ifaceCount := 0
    ints := 0, rates := 0, peaks := 0, sampleCount := 0, sampleExpected := 0, sampleMaxGap := 0
    sampleQuality := .legacy, secondsOverRxPps := 0, secondsOverTxPps := 0, perf := {}
    ifaces := ∅, hasRamKeys := false }

/-- The loop body over `interfaces`. -/
def FastVm.addRow (row : BatchRow) (rec : FastVm) : FastVm :=
  { rec with
    ifaces := insert row.nic rec.ifaces
    ints := rec.ints + row.int
    rates := rec.rates + row.rate
    peaks := rec.peaks + row.peak
    sampleCount := max rec.sampleCount row.sampleCount
    sampleExpected := max rec.sampleExpected row.sampleExpected
    sampleMaxGap := max rec.sampleMaxGap row.sampleMaxGap
    sampleQuality :=
      if networkSampleQualityRank row.quality > networkSampleQualityRank rec.sampleQuality then row.quality
      else rec.sampleQuality
    secondsOverRxPps := max rec.secondsOverRxPps row.overRx
    secondsOverTxPps := max rec.secondsOverTxPps row.overTx }

/-- The loop body over `vms`. -/
def FastVm.setPerf (intervalSeconds : Int) (item : PerfItem) (rec : FastVm) : FastVm :=
  { rec with
    perf := perfColumns (max 1 (safeInt item.intervalSeconds intervalSeconds)) item
    hasRamKeys := true }

/-- The keys of `current_row` after those of `_empty_fast_vm`, in the order in which they were set. -/
def FastVm.columns (rec : FastVm) : List String :=
  if rec.hasRamKeys then ["ram_unused_kib", "ram_usable_kib", "iface_count"]
  else ["iface_count", "ram_unused_kib", "ram_usable_kib"]

def FastVm.currentRow (rec : FastVm) : FastRow :=
  { rec.toFastRow with
    ifaceCount := rec.ifaces.card
    peaks := fun
      | .totalPeakMbps => max (rec.rates .totalMbps) (rec.peaks .totalPeakMbps)
      | .totalPeakPps => max (rec.rates .totalPps) (rec.peaks .totalPeakPps)
      | column => rec.peaks column }

namespace FastPush

variable (push : FastPush)

/-- `iface_rows`. -/
def batchRows (abuseNetworkPps : ℚ) : List BatchRow :=
  (namedTaps push.normalized).map (batchRow abuseNetworkPps push.intervalSeconds)

/-- `by_vm` after both loops. -/
def byVm (abuseNetworkPps : ℚ) : KeyedTable String FastVm :=
  (namedPerfs push.vms).foldl
    (fun table item => table.accumulate item.vmUuid (emptyFastVm push) (FastVm.setPerf push.intervalSeconds item))
    ((push.batchRows abuseNetworkPps).foldl
      (fun table row => table.accumulate row.vmUuid (emptyFastVm push) (FastVm.addRow row)) .empty)

/-- `DELETE FROM vm_current_fast WHERE node=? AND last_seen<?`, on a complete inventory. -/
def deleteOlder (table : FastTable) : FastTable :=
  if push.inventoryComplete then
    table.deleteRows fun key row => key.1 = push.node && row.lastSeen < push.dataTime
  else table

end FastPush

/-- What the name `_v5050_bulk_upsert_rows` is bound to: to the batched upsert of its own layer, or to
    `_v5052_copy_upsert_rows`, which the next layer puts in its place. -/
inductive UpsertHelper | bulk | copy
  deriving DecidableEq, Repr

/-- Only the second has a guard. -/
def UpsertHelper.conflict {ρ : Type} (stamp : ρ → Int) : UpsertHelper → OnConflict ρ
  | .bulk => .doUpdate (fun _ new => new) fun _ _ => true
  | .copy => .newest stamp

/-- The rows for `vm_current_fast`. -/
def FastPush.currentRows (push : FastPush) (abuseNetworkPps : ℚ) : List ((String × String) × FastRow) :=
  (push.byVm abuseNetworkPps).rows.map fun row => ((push.node, row.1), row.2.currentRow)

namespace FastPush

variable (push : FastPush)

/-- The interface stage, of the items as the agent sent them. -/
def stage : List TapRow :=
  (namedTaps push.interfaces).map fun item =>
    tapRow (clamp 1 86400 (safeInt item.intervalSeconds push.intervalSeconds)) item

/-- `current_interval_seconds` of the VM stage. -/
def currentSeconds (item : PerfItem) : Int :=
  clamp 1 3600 (safeInt item.intervalSeconds (clamp 1 3600 push.intervalSeconds))

/-- `sync_rows`: the longest time of one of the VM's interfaces over the threshold. -/
def syncSeconds (seconds : TapItem → Option Int) (vm : String) : Nat :=
  ((namedTaps push.normalized).filter fun item => item.vmUuid = vm).foldl
    (fun current item => max current (counter (seconds item))) 0

end FastPush

/-- `CASE WHEN i.bridge=? THEN x ELSE 0 END`. -/
def TapRow.onBridge {α : Type} [Zero α] (row : TapRow) (role : Role) (x : α) : α :=
  if row.bridge = role.bridge then x else 0

def TapRow.int (row : TapRow) : IntColumn → Nat
  | .publicRxBytes => row.onBridge .pub row.rxDelta
  | .publicTxBytes => row.onBridge .pub row.txDelta
  | .privateRxBytes => row.onBridge .priv row.rxDelta
  | .privateTxBytes => row.onBridge .priv row.txDelta
  | .rxBytes => row.rxDelta
  | .txBytes => row.txDelta
  | .totalBytes => row.rxDelta + row.txDelta
  | .drops => row.drops
  | .errors => row.errors

def TapRow.rate (row : TapRow) : RateColumn → ℚ
  | .publicMbps => row.onBridge .pub (row.rxMbps + row.txMbps)
  | .privateMbps => row.onBridge .priv (row.rxMbps + row.txMbps)
  | .rxMbps => row.rxMbps
  | .txMbps => row.txMbps
  | .totalMbps => row.rxMbps + row.txMbps
  | .publicPps => row.onBridge .pub (row.rxPps + row.txPps)
  | .privatePps => row.onBridge .priv (row.rxPps + row.txPps)
  | .rxPps => row.rxPps
  | .txPps => row.txPps
  | .totalPps => row.rxPps + row.txPps
  | .rxPeakMbps => row.rxMbpsPeak
  | .txPeakMbps => row.txMbpsPeak
  | .rxPeakPps => row.rxPpsPeak
  | .txPeakPps => row.txPpsPeak

/-- `GREATEST(i.rx_mbps+i.tx_mbps,i.rx_mbps_peak+i.tx_mbps_peak)`, and the same of the packets. -/
def TapRow.peak (row : TapRow) : PeakColumn → ℚ
  | .publicPeakMbps => row.onBridge .pub (max (row.rxMbps + row.txMbps) (row.rxMbpsPeak + row.txMbpsPeak))
  | .privatePeakMbps => row.onBridge .priv (max (row.rxMbps + row.txMbps) (row.rxMbpsPeak + row.txMbpsPeak))
  | .totalPeakMbps => max (row.rxMbps + row.txMbps) (row.rxMbpsPeak + row.txMbpsPeak)
  | .publicPeakPps => row.onBridge .pub (max (row.rxPps + row.txPps) (row.rxPpsPeak + row.txPpsPeak))
  | .privatePeakPps => row.onBridge .priv (max (row.rxPps + row.txPps) (row.rxPpsPeak + row.txPpsPeak))
  | .totalPeakPps => max (row.rxPps + row.txPps) (row.rxPpsPeak + row.txPpsPeak)

/-- `CASE MAX(i.quality_rank) WHEN 3 THEN 'POOR' …`. -/
def qualityOfRank : Nat → Quality
  | 3 => .poor
  | 2 => .degraded
  | 1 => .good
  | _ => .legacy

/-- `SUM(f)`, 0 over no rows. -/
def sumBy {α M : Type} [AddMonoid M] (f : α → M) (group : List α) : M := (group.map f).sum

/-- `COALESCE(MAX(f),default)`. -/
def maxBy {α M : Type} [Max M] (default : M) (f : α → M) (group : List α) : M := (group.map f).max?.getD default

namespace FastPush

variable (push : FastPush)

/-- The staged rows of a VM, and its last `vms` entry. -/
def group (vm : String) : List TapRow := push.stage.filter fun row => row.vmUuid = vm

def lastPerf (vm : String) : Option PerfItem := ((namedPerfs push.vms).filter fun item => item.vmUuid = vm).getLast?

/-- `COALESCE(p.current_interval_seconds,n.interval_seconds,?)`. -/
def fastInterval (vm : String) : Int :=
  match push.lastPerf vm with
  | some item => push.currentSeconds item
  | none => maxBy push.intervalSeconds TapRow.intervalSeconds (push.group vm)

/-- The row of a VM in `src`, the full outer join of `net` and `perf`. Every staged row has the push's time as its
    `last_push`, and every row of a VM the same `vi5052_sync_stage` row. -/
def fastRow (vm : String) : FastRow :=
  let group := push.group vm
  { lastSeen := push.dataTime
    intervalSeconds := push.fastInterval vm
    ifaceCount := (group.map TapRow.nic).dedup.length
    ints := fun column => sumBy (fun row => row.int column) group
    rates := fun column => sumBy (fun row => row.rate column) group
    peaks := fun
      | .totalPeakMbps => max (sumBy (fun row => row.rate .totalMbps) group) (sumBy (fun row => row.peak .totalPeakMbps) group)
      | .totalPeakPps => max (sumBy (fun row => row.rate .totalPps) group) (sumBy (fun row => row.peak .totalPeakPps) group)
      | column => sumBy (fun row => row.peak column) group
    sampleCount := maxBy 0 TapRow.sampleCount group
    sampleExpected := maxBy 0 TapRow.sampleExpected group
    sampleMaxGap := maxBy 0 TapRow.sampleMaxGap group
    sampleQuality := qualityOfRank (maxBy 0 (fun row => networkSampleQualityRank row.quality) group)
    secondsOverRxPps := maxBy 0 (fun row => push.syncSeconds TapItem.secondsOverRxPps row.vmUuid) group
    secondsOverTxPps := maxBy 0 (fun row => push.syncSeconds TapItem.secondsOverTxPps row.vmUuid) group
    perf := ((push.lastPerf vm).map fun item => perfColumns (push.currentSeconds item) item).getD {} }

/-- The VMs of either stage. -/
def vmUuids : List String :=
  (push.stage.map TapRow.vmUuid ++ (namedPerfs push.vms).map PerfItem.vmUuid).dedup

end FastPush

/-- **`_v5052_current_writer`.** -/
def v5052CurrentWriter (push : FastPush) (table : FastTable) : FastTable :=
  push.deleteOlder <|
    push.vmUuids.foldl
      (fun table vm => table.upsert (push.node, vm) (push.fastRow vm) (KeyedTable.guarded FastRow.lastSeen)) table

end VirtInfra.Current
