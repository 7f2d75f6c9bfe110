import VirtInfra.Abuse.Mirror
import VirtInfra.Inventory.Fleet

/-!
# `Tables` — the current tables and their writers

A push writes one row per interface, VM, disk, mount and node into tables that hold only the present. Seven of them are
written by upserts guarded by `last_seen`; the other five, from the older part of the endpoint, take the columns of
whatever push comes last and only keep `last_seen` from going back. Complete inventories and the disk writer also delete
what the push did not refresh.

MAC addresses and IP lists stand as the endpoint has normalised them; the measures of the agent's sampler (peaks, sample
counts and quality) are left out.
-/

namespace VirtInfra.Current

open Lib Python Consumption Agent

/-! ## The payload -/

/-- One dict of a VM's `disks`, with the VM. -/
structure DiskItem where
  vmUuid : String
  target : String
  source : String := ""
  role : String := "unknown"
  mount : String := ""
  storageDevice : String := ""
  capacityBytes : Option Int := none
  allocationBytes : Option Int := none
  physicalBytes : Option Int := none
  intervalSeconds : Option Int := none
  readDelta : Option Int := none
  writeDelta : Option Int := none
  readReqsDelta : Option Int := none
  writeReqsDelta : Option Int := none

/-- One dict of `node_host`'s `storage_devices`. -/
structure StorageItem where
  mount : String
  device : String := ""
  block : String := ""
  raidLevel : String := ""
  fstype : String := ""
  size : Option Int := none
  used : Option Int := none
  avail : Option Int := none
  usePercent : ℚ := 0
  readBps : ℚ := 0
  writeBps : ℚ := 0
  readIops : ℚ := 0
  writeIops : ℚ := 0
  utilPercent : ℚ := 0

/-- One dict of `filesystems`. -/
structure FilesystemItem where
  mount : String
  device : String := "-"
  fstype : String := "-"
  size : Option Int := none
  used : Option Int := none
  avail : Option Int := none
  usePercent : ℚ := 0

/-- `node_host`. -/
structure HostItem where
  load1 : ℚ := 0
  load5 : ℚ := 0
  load15 : ℚ := 0
  cpuCount : Option Int := none
  cpuPercent : ℚ := 0
  memTotal : Option Int := none
  memAvailable : Option Int := none
  memUsed : Option Int := none
  swapTotal : Option Int := none
  swapUsed : Option Int := none
  diskReadDelta : Option Int := none
  diskWriteDelta : Option Int := none
  diskReadBps : ℚ := 0
  diskWriteBps : ℚ := 0
  uptimeSeconds : Option Int := none
  storageDevices : List StorageItem := []
  filesystems : List FilesystemItem := []

/-- One dict of `physical_interfaces`. -/
structure NicItem extends PhysicalItem where
  iface : String := "-"
  rxPacketsDelta : Option Int := none
  txPacketsDelta : Option Int := none
  rxDropDelta : Option Int := none
  txDropDelta : Option Int := none
  rxErrorDelta : Option Int := none
  txErrorDelta : Option Int := none
  mac : String := ""

/-- One dict of `bridge_addresses`. -/
structure BridgeItem where
  role : String := ""
  bridge : String := ""
  ipv4 : List String := []
  primaryIpv4 : String := ""
  operstate : String := ""
  carrier : Option Int := none
  mtu : Option Int := none
  mac : String := ""

/-- `agent_health`. -/
structure HealthItem where
  version : Option Int := none
  durationMs : Option Int := none
  apiPushMs : Option Int := none
  vmNames : Option Int := none
  errors : List String := []

/-- **The JSON body of `/push`.** -/
structure Payload where
  time : Option Int
  node : String
  interval : Option Int := none
  interfaces : List PayloadRow := []
  vms : Option (List (String × Abuse.VmPerf)) := none
  disks : List DiskItem := []
  host : Option HostItem := none
  nics : List NicItem := []
  bridges : List BridgeItem := []
  health : Option HealthItem := none
  vmInventory : List Inventory.SeenItem := []
  inventoryComplete : Bool := false

/-- The part the consumption tables are written from. -/
def Payload.request (p : Payload) : PushRequest :=
  { time := p.time, node := p.node, interval := p.interval
    interfaces := some (p.interfaces.map fun row => some row.item)
    physicalInterfaces := p.nics.map fun nic => some nic.toPhysicalItem }

/-- The part the VM tables and the abuse state are written from, once the push is validated. -/
def Payload.vmPush (p : Payload) (s : Sample) : Abuse.Push :=
  { node := s.node, time := s.dataTime, interfaces := p.interfaces, vms := p.vms
    inventoryComplete := p.inventoryComplete }

/-- The part the presence tables are written from. -/
def Payload.inventoryPush (p : Payload) (s : Sample) : Inventory.InventoryPush :=
  { node := s.node, time := s.dataTime
    interfaces := p.interfaces.map fun row => { vmUuid := row.vmUuid, iface := row.iface, bridge := row.bridge }
    vms := (p.vms.getD []).map Prod.fst, vmInventory := p.vmInventory, inventoryComplete := p.inventoryComplete }

/-! ## Rows -/

structure IfaceKey where
  node : String
  vmUuid : String
  bridge : String
  iface : String
  deriving DecidableEq, Repr

/-- A row of `vm_iface_current`. -/
structure IfaceCurrent where
  lastSeen : Int
  intervalSeconds : Int
  deltas : Counters
  rxMbps : ℚ
  txMbps : ℚ
  rxPps : ℚ
  txPps : ℚ
  secondsOverRxPps : Int
  secondsOverTxPps : Int

/-- The network columns of `vm_latest_metrics`. -/
structure NetLatest where
  iface : Option String := none
  bridge : Option String := none
  rxMbps : ℚ := 0
  txMbps : ℚ := 0
  rxPps : ℚ := 0
  txPps : ℚ := 0
  rxDropDelta : Nat := 0
  txDropDelta : Nat := 0
  rxErrorDelta : Nat := 0
  txErrorDelta : Nat := 0

/-- A row of `vm_latest_metrics`. Of the alert columns it is kept whether they say `MIGRATED_TO` a node. -/
structure LatestMetrics where
  lastSeen : Int
  intervalSeconds : Int
  net : NetLatest
  perf : Abuse.VmPerf
  migratedTo : Option String := none

/-- A row of `node_current_fast`. -/
structure NodeCurrent where
  lastSeen : Int
  intervalSeconds : Int
  vmCount : Nat
  load1 : ℚ
  load5 : ℚ
  load15 : ℚ
  cpuCount : Int
  cpuPercent : ℚ
  memTotal : Int
  memUsed : Int
  diskReadBps : ℚ
  diskWriteBps : ℚ
  uptimeSeconds : Int

structure DiskKey where
  node : String
  vmUuid : String
  target : String
  source : String
  deriving DecidableEq, Repr

/-- A row of `vm_disk_current`. -/
structure DiskCurrent where
  lastSeen : Int
  role : String
  mount : String
  storageDevice : String
  capacityBytes : Nat
  allocationBytes : Nat
  physicalBytes : Nat
  intervalSeconds : Int
  readBps : ℚ
  writeBps : ℚ
  readIops : ℚ
  writeIops : ℚ

/-- A row of `node_storage_current`. -/
structure StorageCurrent where
  lastSeen : Int
  device : String
  block : String
  raidLevel : String
  fstype : String
  size : Nat
  used : Nat
  avail : Nat
  usePercent : ℚ
  readBps : ℚ
  writeBps : ℚ
  readIops : ℚ
  writeIops : ℚ
  utilPercent : ℚ

/-- A row of `node_bridge_addresses_latest`. -/
structure BridgeLatest where
  lastSeen : Int
  bridge : String
  primaryIpv4 : String
  ipv4 : List String
  operstate : String
  carrier : Bool
  mtu : Nat
  mac : String
  deriving DecidableEq

/-- A row of `node_physical_net_latest`. -/
structure PhysicalLatest where
  lastSeen : Int
  intervalSeconds : Int
  bridge : String
  iface : String
  deltas : Counters
  rxMbps : ℚ
  txMbps : ℚ
  rxPps : ℚ
  txPps : ℚ
  alertFlags : List String
  mac : String

/-- A row of `node_host_latest`. -/
structure HostLatest where
  lastSeen : Int
  intervalSeconds : Int
  load1 : ℚ
  load5 : ℚ
  load15 : ℚ
  cpuCount : Nat
  cpuPercent : ℚ
  memTotal : Nat
  memAvailable : Nat
  memUsed : Nat
  swapTotal : Nat
  swapUsed : Nat
  diskReadDelta : Nat
  diskWriteDelta : Nat
  diskReadBps : ℚ
  diskWriteBps : ℚ
  uptimeSeconds : Nat
  alertFlags : List String

/-- A row of `node_filesystem_latest`. -/
structure FilesystemLatest where
  lastSeen : Int
  device : String
  fstype : String
  size : Nat
  used : Nat
  avail : Nat
  usePercent : ℚ

/-- A row of `agent_health_latest`. -/
structure HealthLatest where
  lastSeen : Int
  intervalSeconds : Int
  version : Nat
  durationMs : Nat
  apiPushMs : Nat
  vmNames : Nat
  errors : List String
  alertFlags : List String

/-- **The current tables**, besides `vm_current_fast` and `vm_abuse_state` of the abuse store. -/
structure Tables where
  iface : KeyedTable IfaceKey IfaceCurrent
  latest : KeyedTable (String × String) LatestMetrics
  node : KeyedTable String NodeCurrent
  disk : KeyedTable DiskKey DiskCurrent
  storage : KeyedTable (String × String) StorageCurrent
  bridge : KeyedTable (String × Role) BridgeLatest
  physical : KeyedTable (String × Role) PhysicalLatest
  host : KeyedTable String HostLatest
  filesystem : KeyedTable (String × String) FilesystemLatest
  health : KeyedTable String HealthLatest

def Tables.empty : Tables :=
  ⟨.empty, .empty, .empty, .empty, .empty, .empty, .empty, .empty, .empty, .empty⟩

end VirtInfra.Current
