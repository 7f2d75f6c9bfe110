import VirtInfra.Agent.Chain

/-!
# `Host` — one collection cycle, from what the host shows (`agent.py`)

A cycle asks `virsh` for the running VMs and for the interfaces of each, and reads the counter files of every interface and
of the uplinks of the bridges. Each of these can fail: `virsh list` makes the inventory incomplete, a failed `domiflist`
leaves the VM without rows, a missing directory skips the interface, and a file that cannot be read counts as zero.

`counters` and `passed` of a host are ghosts: the real values of the counters at the cycle, and what really went through the
interface so far.
-/

namespace VirtInfra.Agent

open Lib Python

/-! ## Counter files -/

/-- The files of `/sys/class/net/<iface>/statistics`, as `int()` reads them; `none` where reading or that raises. -/
structure CounterFiles where
  rxBytes : Option Nat
  txBytes : Option Nat
  rxPackets : Option Nat
  txPackets : Option Nat
  rxDropped : Option Nat
  txDropped : Option Nat
  rxErrors : Option Nat
  txErrors : Option Nat
  deriving DecidableEq, Repr

/-- `read_counter`. -/
def readCounter (file : Option Nat) : Nat := file.getD 0

/-- `collect_interface_counters`, of the directory if it exists. -/
def collectInterfaceCounters (statistics : Option CounterFiles) : Option Counters :=
  statistics.map fun files =>
    { rx := readCounter files.rxBytes, tx := readCounter files.txBytes
      rxPackets := readCounter files.rxPackets, txPackets := readCounter files.txPackets
      rxDrop := readCounter files.rxDropped, txDrop := readCounter files.txDropped
      rxError := readCounter files.rxErrors, txError := readCounter files.txErrors }

/-- The files of counters that can all be read. -/
def CounterFiles.of (c : Counters) : CounterFiles :=
  ⟨some c.rx, some c.tx, some c.rxPackets, some c.txPackets, some c.rxDrop, some c.txDrop, some c.rxError, some c.txError⟩

/-- A file that can be read has the value of its counter. -/
structure CounterFiles.Show (files : CounterFiles) (c : Counters) : Prop where
  rxBytes : ∀ n ∈ files.rxBytes, n = c.rx
  txBytes : ∀ n ∈ files.txBytes, n = c.tx
  rxPackets : ∀ n ∈ files.rxPackets, n = c.rxPackets
  txPackets : ∀ n ∈ files.txPackets, n = c.txPackets
  rxDropped : ∀ n ∈ files.rxDropped, n = c.rxDrop
  txDropped : ∀ n ∈ files.txDropped, n = c.txDrop
  rxErrors : ∀ n ∈ files.rxErrors, n = c.rxError
  txErrors : ∀ n ∈ files.txErrors, n = c.txError

theorem show_of (c : Counters) : (CounterFiles.of c).Show c := by
  constructor <;> simp [CounterFiles.of, eq_comm]

/-! ## The host -/

structure DomifLine where
  iface : String
  bridge : String
  mac : String
  deriving DecidableEq, Repr

/-- The loop of `parse_domiflist` over the words of each line; a command that failed gives no rows. -/
def parseDomiflist (out : Option (List (List String))) : List DomifLine :=
  (out.getD []).filterMap fun words =>
    match words with
    | iface :: _ :: bridge :: _ :: mac :: _ =>
        if iface = "Interface" ∨ iface.toList.head? = some '-' then none else some ⟨iface, bridge, mac⟩
    | _ => none

/-- A member of a bridge that counts as its uplink, with the bridge's role. -/
structure Uplink where
  role : String
  bridge : String
  iface : String
  deriving DecidableEq, Repr

/-- **What the host shows to one cycle.** -/
structure Host where
  now : Int
  heavyCollectionSkipped : Bool
  virshList : Option (List String)
  domiflist : String → Option (List (List String))
  uplinks : List Uplink
  statistics : String → Option CounterFiles
  counters : String → Counters
  passed : String → Counters
  shown : ∀ iface files, statistics iface = some files → files.Show (counters iface)

/-- `get_vm_names`, without the flag for a complete inventory. -/
def Host.vmNames (h : Host) : List String := ((h.virshList.getD []).map strip).filter (· ≠ "")

theorem Host.strip_of_mem_vmNames {h : Host} {vm : String} (hvm : vm ∈ h.vmNames) : strip vm = vm := by
  obtain ⟨hmem, -⟩ := List.mem_filter.mp hvm
  obtain ⟨line, -, rfl⟩ := List.mem_map.mp hmem
  exact strip_strip line

/-- The interfaces that `collect_network` goes through. -/
def Host.nics (h : Host) : List Nic :=
  h.vmNames.attach.flatMap fun vm =>
    (parseDomiflist (h.domiflist vm.1)).map fun line =>
      { vm := vm.1, iface := line.iface, bridge := line.bridge
        counters := collectInterfaceCounters (h.statistics line.iface)
        vm_stripped := Host.strip_of_mem_vmNames vm.2 }

/-- An entry of `iface_map`, without the MAC. -/
structure IfaceMeta where
  vm : String
  bridge : String
  deriving DecidableEq, Repr

abbrev IfaceMap := KeyedTable String IfaceMeta

/-- `build_iface_map`: the last row of an interface name counts. -/
def buildIfaceMap (rows : List NetRow) : IfaceMap :=
  rows.foldl (fun map row =>
    if strip row.iface = "" ∨ strip row.vmUuid = "" then map
    else map.upsert (strip row.iface) ⟨strip row.vmUuid, if row.bridge = "" then "-" else row.bridge⟩ fun _ new => new)
    .empty

/-- The interfaces that `collect_network_from_mapping` goes through, by name. -/
def Host.mappedNics (h : Host) (map : IfaceMap) : List Nic :=
  (map.rows.mergeSort fun a b => a.1 ≤ b.1).filterMap fun (iface, info) =>
    if strip info.vm = "" then none
    else
      some
        { vm := strip info.vm, iface, bridge := if info.bridge = "" then "-" else info.bridge
          counters := collectInterfaceCounters (h.statistics iface), vm_stripped := strip_strip info.vm }

/-- What the cycle reads of the VMs' interfaces. -/
def Host.reading (h : Host) (map : IfaceMap) : Reading where
  now := h.now
  heavyCollectionSkipped := h.heavyCollectionSkipped
  inventoryComplete := h.virshList.isSome
  nics := if h.heavyCollectionSkipped then h.mappedNics map else h.nics

/-! ## Uplinks -/

/-- A row of `physical_interfaces`, as far as it is about counters. -/
structure PhysicalRow where
  uplink : Uplink
  deltas : Counters
  counters : Counters
  deriving DecidableEq, Repr

/-- The part of the metric state under `"physnet:<role>:<bridge>:<iface>"`, which is never pruned. -/
abbrev PhysicalState := Uplink → Option Counters

/-- `collect_physical_network`. -/
def collectPhysicalNetwork (statistics : String → Option CounterFiles) :
    List Uplink → PhysicalState → List PhysicalRow × PhysicalState
  | [], state => ([], state)
  | uplink :: rest, state =>
      match collectInterfaceCounters (statistics uplink.iface) with
      | none => collectPhysicalNetwork statistics rest state
      | some c =>
          let old := (state uplink).getD c
          let (rows, after) := collectPhysicalNetwork statistics rest fun u => if u = uplink then some c else state u
          (⟨uplink, Counters.zipWith deltaCounter c old, c⟩ :: rows, after)

/-! ## The cycle -/

/-- What is kept from one cycle to the next: the metric state and the interface map of the runtime file. -/
structure Collector where
  state : MetricState
  physical : PhysicalState
  ifaceMap : IfaceMap

/-- A payload with the rows of the uplinks. -/
structure CyclePayload extends Payload where
  physicalInterfaces : List PhysicalRow

/-- **One cycle**: `collect_cycle_payload` with the window of the sampler. -/
def collectCycle (node : NodeName) (warn : ℚ) (collector : Collector) (window : NetWindow) (h : Host) :
    CyclePayload × Collector :=
  let (payload, state) := collectCyclePayload node warn collector.state window (h.reading collector.ifaceMap)
  let (physicalRows, physical) := collectPhysicalNetwork h.statistics h.uplinks collector.physical
  let newMap := buildIfaceMap payload.netRows
  let keepMap := h.heavyCollectionSkipped || (newMap.rows.isEmpty && !h.virshList.isSome)
  ({ payload with physicalInterfaces := physicalRows },
    { state, physical, ifaceMap := if keepMap then collector.ifaceMap else newMap })

/-- The cycles of a run, each with the window that the sampler hands over. -/
def collectRun (node : NodeName) (warn : ℚ) : Collector → List (NetWindow × Host) → List CyclePayload × Collector
  | collector, [] => ([], collector)
  | collector, (window, h) :: rest =>
      let (payload, next) := collectCycle node warn collector window h
      let (payloads, last) := collectRun node warn next rest
      (payload :: payloads, last)

/-- Every cycle of a run meets `P`, with what was kept from the cycle before it. -/
def EachCycle (node : NodeName) (warn : ℚ) (P : Collector → Host → Prop) : Collector → List (NetWindow × Host) → Prop
  | _, [] => True
  | collector, (window, h) :: rest =>
      P collector h ∧ EachCycle node warn P (collectCycle node warn collector window h).2 rest

theorem collectRun_append (node : NodeName) (warn : ℚ) (collector : Collector) (run rest : List (NetWindow × Host)) :
    collectRun node warn collector (run ++ rest) =
      ((collectRun node warn collector run).1 ++ (collectRun node warn (collectRun node warn collector run).2 rest).1,
        (collectRun node warn (collectRun node warn collector run).2 rest).2) := by
  induction run generalizing collector with
  | nil => rfl
  | cons cycle run ih => simp only [List.cons_append, collectRun, ih]

/-! ## What a cycle reads -/

variable {h : Host} {vm iface : String}

theorem Host.counters_of_mem_nics {nic : Nic} (hnic : nic ∈ h.nics) :
    nic.counters = collectInterfaceCounters (h.statistics nic.iface) := by
  obtain ⟨vm, -, hmem⟩ := List.mem_flatMap.mp hnic
  obtain ⟨line, -, rfl⟩ := List.mem_map.mp hmem
  rfl

theorem Host.counters_of_mem_mappedNics {map : IfaceMap} {nic : Nic} (hnic : nic ∈ h.mappedNics map) :
    nic.counters = collectInterfaceCounters (h.statistics nic.iface) := by
  obtain ⟨⟨iface, info⟩, -, hsome⟩ := List.mem_filterMap.mp hnic
  dsimp only at hsome
  split at hsome
  · cases hsome
  · obtain rfl := Option.some.inj hsome
    rfl

theorem Host.counters_of_mem_reading {map : IfaceMap} {nic : Nic} (hnic : nic ∈ (h.reading map).nics) :
    nic.counters = collectInterfaceCounters (h.statistics nic.iface) := by
  unfold Host.reading at hnic
  dsimp only at hnic
  split at hnic
  · exact Host.counters_of_mem_mappedNics hnic
  · exact Host.counters_of_mem_nics hnic

end VirtInfra.Agent
