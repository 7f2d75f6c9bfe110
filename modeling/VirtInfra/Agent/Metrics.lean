import VirtInfra.Counters
import VirtInfra.Python.Prelude
import Mathlib.Algebra.Order.Round
import Mathlib.Data.Rat.Floor

/-!
# `Metrics` — what the agent measures

The agent keeps two kinds of network measurements. `collect_network` differences the interface counters against the
metric state it last committed; the differences become the deltas of a payload and the counters its `state_after`.
The sampler in between scans the same counters every few seconds and adds up, per interface, for how many seconds
the packet rate was at or over the warn threshold in force at that scan; such windows are carried over failed
deliveries and hydrate the rows of the payload.

Rates and elapsed times are rationals here; the sampler's floats are read as the numbers they stand for.
-/

namespace VirtInfra.Agent

open Python

/-! ## Counters and the metric state -/

/-- A node's name; `NODE_NAME` is stripped. -/
def NodeName := { name : String // strip name = name }
  deriving DecidableEq

/-- The keys of the metric state that hold interface counters: `"net:<vm>:<iface>"` and the key of older agents,
    `"<vm>:<iface>"`. No interface name has a colon, so the strings are as distinct as the keys. -/
inductive StateKey
  | net (vm iface : String)
  | legacy (vm iface : String)
  deriving DecidableEq, Repr

/-- The metric state as far as it concerns VM interfaces, with `_last_payload_time` (0 when absent). -/
structure MetricState where
  counters : StateKey → Option Counters
  lastPayloadTime : Int

def MetricState.empty : MetricState := ⟨fun _ => none, 0⟩

/-- `state[key] = counters`. -/
def MetricState.set (s : MetricState) (key : StateKey) (c : Counters) : MetricState :=
  { s with counters := fun k => if k = key then some c else s.counters k }

@[simp] theorem MetricState.set_counters (s : MetricState) (key k : StateKey) (c : Counters) :
    (s.set key c).counters k = if k = key then some c else s.counters k := rfl

/-- `delta_counter(new, old)`. -/
def deltaCounter (new old : Nat) : Nat := if new < old then 0 else new - old

/-- A line of `virsh domiflist`, with what `/sys/class/net` shows for the interface (`none` when it is gone). -/
structure Nic where
  vm : String
  iface : String
  bridge : String
  counters : Option Counters
  vm_stripped : strip vm = vm
  deriving DecidableEq, Repr

/-- A row of the payload before the sampler's window hydrates it. -/
structure NetRow where
  vmUuid : String
  iface : String
  bridge : String
  deltas : Counters
  vm_stripped : strip vmUuid = vmUuid
  deriving DecidableEq, Repr

/-- The row of an interface read as `c`; a counter without a saved value is its own baseline. -/
def netRow (nic : Nic) (old : Option Counters) (c : Counters) : NetRow :=
  { vmUuid := nic.vm, iface := nic.iface, bridge := nic.bridge
    deltas := Counters.zipWith deltaCounter c (old.getD c), vm_stripped := nic.vm_stripped }

/-- The loop `collect_network` and `collect_network_from_mapping` share, by how they look up the saved counters. -/
def collectWith (saved : MetricState → Nic → Option Counters) : List Nic → MetricState → List NetRow × MetricState
  | [], state => ([], state)
  | nic :: rest, state =>
      match nic.counters with
      | none => collectWith saved rest state
      | some c =>
          let (rows, after) := collectWith saved rest (state.set (.net nic.vm nic.iface) c)
          (netRow nic (saved state nic) c :: rows, after)

/-- The saved counters `collect_network` finds: the key of an older agent counts when there is no newer one. -/
def savedOrLegacy (state : MetricState) (nic : Nic) : Option Counters :=
  (state.counters (.net nic.vm nic.iface)).or (state.counters (.legacy nic.vm nic.iface))

/-- `collect_network`. -/
def collectNetwork : List Nic → MetricState → List NetRow × MetricState := collectWith savedOrLegacy

/-- `collect_network_from_mapping`, over the cached interface map. -/
def collectNetworkFromMapping : List Nic → MetricState → List NetRow × MetricState :=
  collectWith fun state nic => state.counters (.net nic.vm nic.iface)

/-- `prune_metric_state`: a complete inventory drops the counters of interfaces it did not read. -/
def pruneMetricState (state : MetricState) (active : List (String × String)) (inventoryComplete : Bool) : MetricState :=
  { state with
    counters := fun key => match key with
      | .net vm iface => if inventoryComplete && !active.contains (vm, iface) then none else state.counters key
      | .legacy _ _ => state.counters key }

/-! ## The sampler -/

/-- What one scan measured on one interface since the scan before. -/
structure Scan where
  elapsed : ℚ
  rxPackets : Nat
  txPackets : Nat
  deriving DecidableEq

def Scan.rxPps (scan : Scan) : ℚ := scan.rxPackets / scan.elapsed
def Scan.txPps (scan : Scan) : ℚ := scan.txPackets / scan.elapsed

/-- The rates the three timers watch: `max(rx_pps, tx_pps)`, `rx_pps` and `tx_pps`. -/
inductive Timer | pps | rxPps | txPps
  deriving DecidableEq, Repr

def Scan.rate (scan : Scan) : Timer → ℚ
  | .pps => max scan.rxPps scan.txPps
  | .rxPps => scan.rxPps
  | .txPps => scan.txPps

/-- The seconds a scan adds to a timer under threshold `warn`: `if rate >= PPS_WARN > 0: += elapsed`. -/
def overSeconds (warn : ℚ) (timer : Timer) (scan : Scan) : ℚ :=
  if scan.rate timer ≥ warn ∧ warn > 0 then scan.elapsed else 0

/-- The record of an interface in a window: `seconds_over_pps`, `seconds_over_rx_pps`, `seconds_over_tx_pps`.
    `scans` is a ghost: the scans that were added up, which the sampler does not keep. -/
structure Summary where
  seconds : Timer → ℚ
  scans : List Scan

def Summary.empty : Summary := ⟨fun _ => 0, []⟩

/-- One scan of an interface under the threshold in force; near-simultaneous scans are ignored. -/
def Summary.record (warn : ℚ) (summary : Summary) (scan : Scan) : Summary :=
  if scan.elapsed ≥ 1 then
    { seconds := fun timer => summary.seconds timer + overSeconds warn timer scan
      scans := summary.scans ++ [scan] }
  else summary

/-- The records of a window by interface; an absent one is empty. -/
abbrev NetWindow := String → Summary

def NetWindow.empty : NetWindow := fun _ => Summary.empty

/-- `merge_network_windows`, with `merge_iface_summary` on each interface. -/
def mergeNetworkWindows (left right : NetWindow) : NetWindow := fun iface =>
  { seconds := fun timer => (left iface).seconds timer + (right iface).seconds timer
    scans := (left iface).scans ++ (right iface).scans }

/-- One interface scanned. -/
def scanIface (warn : ℚ) (active : NetWindow) (entry : String × Scan) : NetWindow := fun iface =>
  if iface = entry.1 then (active iface).record warn entry.2 else active iface

/-- `NetworkSampler.sample`: scan the interfaces, then drop the records of stale ones. -/
def sampleWindow (warn : ℚ) (scans : List (String × Scan)) (stale : List String) (active : NetWindow) : NetWindow :=
  fun iface => if stale.contains iface then Summary.empty else (scans.foldl (scanIface warn) active) iface

/-- Python's `round(x)`, which rounds halves to even. -/
def pyRound (x : ℚ) : Int :=
  let f := ⌊x⌋
  if x - f < 1 / 2 then f else if x - f > 1 / 2 then f + 1 else if f % 2 = 0 then f else f + 1

/-- `round(x, 3)`. -/
def round3 (x : ℚ) : ℚ := pyRound (x * 1000) / 1000

/-- A row of the payload: the deltas, the threshold the agent reports, and the seconds over it. -/
structure PayloadRow extends NetRow where
  intervalSeconds : Int
  ppsWarnThreshold : ℚ
  seconds : Timer → Int
  /-- The scans the seconds were added up from (ghost). -/
  scans : List Scan

/-- `hydrate_network_rows` under the threshold in force. -/
def hydrateNetworkRows (warn : ℚ) (window : NetWindow) (intervalSeconds : Int) (rows : List NetRow) :
    List PayloadRow :=
  rows.map fun row =>
    { row with
      intervalSeconds := max 1 intervalSeconds
      ppsWarnThreshold := round3 warn
      seconds := fun timer => pyRound (max 0 ((window row.iface).seconds timer))
      scans := (window row.iface).scans }

/-! ## A collection -/

/-- `PUSH_SECONDS`. -/
def pushSeconds : Int := 300

/-- What the host shows during one collection. Under `heavyCollectionSkipped` the interfaces come from the cached map
    and the inventory is incomplete. -/
structure Reading where
  now : Int
  heavyCollectionSkipped : Bool
  inventoryComplete : Bool
  nics : List Nic

structure Payload where
  node : NodeName
  time : Int
  interval : Int
  interfaces : List PayloadRow
  inventoryComplete : Bool

/-- The network part of `collect_cycle_payload`: the rows and the metric state after them. -/
def collectRows (committed : MetricState) (reading : Reading) : List NetRow × MetricState :=
  if reading.heavyCollectionSkipped then collectNetworkFromMapping reading.nics committed
  else
    let (rows, state) := collectNetwork reading.nics committed
    (rows, pruneMetricState state (rows.map fun row => (row.vmUuid, row.iface)) reading.inventoryComplete)

/-- The seconds since the last payload; a first payload, or one after the clock went back, counts `PUSH_SECONDS`. -/
def payloadInterval (committed : MetricState) (now : Int) : Int :=
  if committed.lastPayloadTime > 0 ∧ now - committed.lastPayloadTime > 0 then now - committed.lastPayloadTime
  else pushSeconds

/-- **`collect_cycle_payload`**, from the committed state and the carried window. -/
def collectCyclePayload (node : NodeName) (warn : ℚ) (committed : MetricState) (window : NetWindow)
    (reading : Reading) : Payload × MetricState :=
  let (rows, state) := collectRows committed reading
  let interval := payloadInterval committed reading.now
  ({ node, time := reading.now, interval, interfaces := hydrateNetworkRows warn window interval rows
     inventoryComplete := reading.inventoryComplete && !reading.heavyCollectionSkipped },
    { state with lastPayloadTime := reading.now })

end VirtInfra.Agent
