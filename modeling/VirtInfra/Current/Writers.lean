import VirtInfra.Current.Tables
import VirtInfra.Lib.OnConflict

/-!
# `Writers` — what one push does to the current tables

The writers in the endpoint's order. A batch upsert is one SQL statement, which fails when it would touch a row twice;
the transaction of the push is then rolled back.
-/

namespace VirtInfra.Current

open Lib Python Consumption Agent

/-- Bytes per interval as megabits per second. -/
def mbps (bytes : Nat) (seconds : Int) : ℚ := bytes * 8 / seconds / 1000000

/-! ## Upserts without a guard (`push`) -/

/-- The upserts of `node_bridge_addresses_latest`. -/
def writeBridges (node : String) (time : Int) (items : List BridgeItem) (t : Tables) : Tables :=
  { t with
    bridge := items.foldl
      (fun table item =>
        match physicalRole { role := item.role, bridge := item.bridge } with
        | none => table
        | some role =>
            let bridge := strip item.bridge
            let primary := if item.primaryIpv4 = "" then item.ipv4.headD "" else item.primaryIpv4
            table.upsert (node, role)
              { lastSeen := time, bridge := if bridge = "" then role.bridge else bridge
                primaryIpv4 := clip 128 primary, ipv4 := item.ipv4, operstate := clip 32 item.operstate
                carrier := safeInt item.carrier 0 ≠ 0, mtu := counter item.mtu, mac := clip 64 item.mac }
              fun old new =>
                { new with lastSeen := max old.lastSeen new.lastSeen, mac := if new.mac = "" then old.mac else new.mac })
      t.bridge }

/-- The row of a physical interface. -/
def physicalLatestRow (time interval : Int) (role : Role) (item : NicItem) : PhysicalLatest :=
  let bridge := strip item.bridge
  let iface := strip item.iface
  let deltas : Counters :=
    { rx := counter item.rxDelta, tx := counter item.txDelta
      rxPackets := counter item.rxPacketsDelta, txPackets := counter item.txPacketsDelta
      rxDrop := counter item.rxDropDelta, txDrop := counter item.txDropDelta
      rxError := counter item.rxErrorDelta, txError := counter item.txErrorDelta }
  { lastSeen := time, intervalSeconds := interval
    bridge := if bridge = "" then role.bridge else bridge
    iface := if iface = "" then "-" else iface
    deltas
    rxMbps := mbps deltas.rx interval, txMbps := mbps deltas.tx interval
    rxPps := deltas.rxPackets / interval, txPps := deltas.txPackets / interval
    alertFlags := (if deltas.rxDrop ≠ 0 ∨ deltas.txDrop ≠ 0 then ["NIC_DROP"] else []) ++
      (if deltas.rxError ≠ 0 ∨ deltas.txError ≠ 0 then ["NIC_ERROR"] else [])
    mac := item.mac }

/-- The upserts of `node_physical_net_latest`. -/
def writePhysical (node : String) (time interval : Int) (items : List NicItem) (t : Tables) : Tables :=
  { t with
    physical := items.foldl
      (fun table item =>
        match physicalRole item.toPhysicalItem with
        | none => table
        | some role =>
            table.upsert (node, role) (physicalLatestRow time interval role item) fun old new =>
              { new with lastSeen := max old.lastSeen new.lastSeen, mac := if new.mac = "" then old.mac else new.mac })
      t.physical }

/-- `mem_used`, with its fallback to what is not available. -/
def memUsed (host : HostItem) : Nat :=
  let total := counter host.memTotal
  let used := counter host.memUsed
  if used = 0 ∧ total > 0 then total - counter host.memAvailable else used

/-- The row of `node_host_latest`. -/
def hostRow (time interval : Int) (host : HostItem) : HostLatest :=
  let cpuPercent := max 0 (min 100 host.cpuPercent)
  let memTotal := counter host.memTotal
  let memAvailable := counter host.memAvailable
  let swapTotal := counter host.swapTotal
  let swapUsed := counter host.swapUsed
  let diskRead := counter host.diskReadDelta
  let diskWrite := counter host.diskWriteDelta
  { lastSeen := time, intervalSeconds := interval
    load1 := host.load1, load5 := host.load5, load15 := host.load15
    cpuCount := counter host.cpuCount, cpuPercent
    memTotal, memAvailable, memUsed := memUsed host, swapTotal, swapUsed
    diskReadDelta := diskRead, diskWriteDelta := diskWrite
    diskReadBps := if host.diskReadBps = 0 then diskRead / interval else host.diskReadBps
    diskWriteBps := if host.diskWriteBps = 0 then diskWrite / interval else host.diskWriteBps
    uptimeSeconds := counter host.uptimeSeconds
    alertFlags :=
      (if cpuPercent ≥ 90 then ["HOST_CPU_CRITICAL"] else if cpuPercent ≥ 80 then ["HOST_CPU_HIGH"] else []) ++
      (if memTotal > 0 ∧ (memAvailable : ℚ) / memTotal < 1 / 10 then ["LOW_RAM"] else []) ++
      (if swapTotal > 0 ∧ (swapUsed : ℚ) / swapTotal > 1 / 2 then ["SWAP_HIGH"] else []) }

/-- The row of a filesystem. -/
def filesystemRow (time : Int) (item : FilesystemItem) : FilesystemLatest :=
  let size := counter item.size
  let used := counter item.used
  { lastSeen := time, device := clip 255 item.device, fstype := clip 64 item.fstype
    size, used, avail := counter item.avail
    usePercent := if item.usePercent = 0 then (if size > 0 then used / size * 100 else 0) else item.usePercent }

/-- The upserts of `node_host_latest` and `node_filesystem_latest`. -/
def writeHost (node : String) (time interval : Int) (host : HostItem) (t : Tables) : Tables :=
  { t with
    host := t.host.upsert node (hostRow time interval host) fun old new =>
      { new with lastSeen := max old.lastSeen new.lastSeen }
    filesystem := host.filesystems.foldl
      (fun table item =>
        let mount := strip item.mount
        if mount = "" then table else table.upsert (node, mount) (filesystemRow time item) fun _ new => new)
      t.filesystem }

/-- The upsert of `agent_health_latest`. -/
def writeHealth (node : String) (time interval : Int) (health : HealthItem) (t : Tables) : Tables :=
  let errors := (health.errors.take 20).map (clip 300)
  let durationMs := counter health.durationMs
  { t with
    health := t.health.upsert node
      { lastSeen := time, intervalSeconds := interval, version := counter health.version, durationMs
        apiPushMs := counter health.apiPushMs, vmNames := counter health.vmNames, errors
        alertFlags := (if errors ≠ [] then ["AGENT_ERROR"] else []) ++
          (if durationMs ≥ 120000 then ["AGENT_SLOW_CRITICAL"] else if durationMs ≥ 60000 then ["AGENT_SLOW"] else []) }
      fun old new => { new with lastSeen := max old.lastSeen new.lastSeen } }

/-! ## Upserts guarded by `last_seen` -/

/-- The interval of a staged row. -/
def stagedInterval (row : PayloadRow) : Int := clamp 1 86400 row.intervalSeconds

/-- The rows that name a VM. -/
def namedRows (interfaces : List PayloadRow) : List PayloadRow :=
  interfaces.filter fun row => row.vmUuid ≠ "" && row.vmUuid ≠ "-"

/-- `_v5052_merge_latest_metrics`: what the push has on a VM, network and performance apart. -/
structure LatestSource where
  lastSeen : Int
  intervalSeconds : Int
  net : Option NetLatest
  perf : Option Abuse.VmPerf

def netLatest (row : PayloadRow) : NetLatest :=
  let sec := stagedInterval row
  { iface := some row.iface, bridge := some row.bridge
    rxMbps := mbps row.deltas.rx sec, txMbps := mbps row.deltas.tx sec
    rxPps := row.deltas.rxPackets / sec, txPps := row.deltas.txPackets / sec
    rxDropDelta := row.deltas.rxDrop, txDropDelta := row.deltas.txDrop
    rxErrorDelta := row.deltas.rxError, txErrorDelta := row.deltas.txError }

def latestSource (p : Payload) (s : Sample) (vm : String) : LatestSource :=
  let row := (vmRows p.interfaces vm).getLast?
  let perf := (((p.vms.getD []).filter fun entry => entry.1 = vm).getLast?).map Prod.snd
  { lastSeen := s.dataTime
    intervalSeconds :=
      if perf.isSome then clamp 1 3600 s.intervalSeconds else (row.map stagedInterval).getD 300
    net := row.map netLatest, perf }

/-- `WHEN NOT MATCHED THEN INSERT`. -/
def LatestSource.row (src : LatestSource) : LatestMetrics :=
  { lastSeen := src.lastSeen, intervalSeconds := src.intervalSeconds, net := src.net.getD {}, perf := src.perf.getD {} }

/-- `WHEN MATCHED AND src.last_seen >= dst.last_seen THEN UPDATE`. -/
def LatestSource.merge (src : LatestSource) (dst : LatestMetrics) : LatestMetrics :=
  if src.lastSeen ≥ dst.lastSeen then
    { lastSeen := max dst.lastSeen src.lastSeen, intervalSeconds := src.intervalSeconds
      net := src.net.getD dst.net, perf := src.perf.getD dst.perf
      migratedTo := if src.net.isSome then none else dst.migratedTo }
  else dst

/-- `_v5052_merge_latest_metrics`. -/
def mergeLatestMetrics (p : Payload) (s : Sample) (t : Tables) : Tables :=
  { t with
    latest := ((p.vmPush s).vmUuids (p.vms.getD [])).foldl
      (fun table vm =>
        let src := latestSource p s vm
        table.upsert (s.node, vm) src.row fun old _ => src.merge old)
      t.latest }

/-! ## Migrated VMs -/

/-- The moves to `node` that `_create_or_update_location` has confirmed, as the keys that its update of
    `vm_latest_metrics` has: it changes the node of a location in no other case. -/
def confirmedMoves (node : String) (before after : Inventory.Tables) : List (String × String) :=
  before.location.rows.filterMap fun row =>
    if row.2.node ≠ node ∧ (after.location.get? row.1).any (fun new => new.node = node) then some (row.2.node, row.1)
    else none

/-- What two keys of `vm_latest_metrics` or of `vm_node_presence` are compared by. -/
local instance lawfulKey : LawfulBEq (String × String) := inferInstance

/-- What the confirmed moves, and then the purge of the presence rows of `purged`, do to `vm_latest_metrics`. -/
def migrateLatest (node : String) (moved purged : List (String × String)) (t : Tables) : Tables :=
  { t with
    latest := (t.latest.update fun key row => if key ∈ moved then { row with migratedTo := some node } else row).deleteWhere
      fun key => (key.2, key.1) ∈ purged }

/-! ## Disks and interfaces -/

/-- `_v5052_copy_upsert_rows`, on a table with `last_seen`. -/
def copyUpsertRows {κ ρ : Type} [DecidableEq κ] (stamp : ρ → Int) (rows : List (κ × ρ)) (t : KeyedTable κ ρ) :
    Option (KeyedTable κ ρ) :=
  ((OnConflict.newest stamp).insertSelect rows t).toOption

/-- The row of a disk; a disk without a VM or a target has none. -/
def diskRow (s : Sample) (item : DiskItem) : Option (DiskKey × DiskCurrent) :=
  let vmUuid := strip item.vmUuid
  let target := strip item.target
  let sec := max 1 (safeInt item.intervalSeconds s.intervalSeconds)
  if vmUuid = "" ∨ target = "" then none
  else some
    (⟨s.node, vmUuid, target, strip item.source⟩,
      { lastSeen := s.dataTime, role := clip 32 (lower (strip item.role)), mount := item.mount
        storageDevice := item.storageDevice
        capacityBytes := counter item.capacityBytes, allocationBytes := counter item.allocationBytes
        physicalBytes := counter item.physicalBytes, intervalSeconds := sec
        readBps := counter item.readDelta / sec, writeBps := counter item.writeDelta / sec
        readIops := counter item.readReqsDelta / sec, writeIops := counter item.writeReqsDelta / sec })

/-- The row of a storage device. -/
def storageRow (s : Sample) (item : StorageItem) : Option ((String × String) × StorageCurrent) :=
  let mount := strip item.mount
  if mount = "" then none
  else some
    ((s.node, mount),
      { lastSeen := s.dataTime, device := item.device, block := item.block, raidLevel := item.raidLevel
        fstype := item.fstype, size := counter item.size, used := counter item.used, avail := counter item.avail
        usePercent := max 0 item.usePercent, readBps := max 0 item.readBps, writeBps := max 0 item.writeBps
        readIops := max 0 item.readIops, writeIops := max 0 item.writeIops
        utilPercent := max 0 item.utilPercent })

/-- `_v5052_ingest_disk_io_current`. -/
def ingestDiskIoCurrent (p : Payload) (s : Sample) (t : Tables) : Option Tables := do
  let disk ← copyUpsertRows DiskCurrent.lastSeen (p.disks.filterMap (diskRow s)) t.disk
  let devices := (p.host.map HostItem.storageDevices).getD []
  let storage ← copyUpsertRows StorageCurrent.lastSeen (devices.filterMap (storageRow s)) t.storage
  return { t with
    disk := disk.deleteRows fun key row => key.node = s.node && row.lastSeen < s.dataTime
    storage := storage.deleteRows fun key row => key.1 = s.node && row.lastSeen < s.dataTime }

/-- The row of `vm_iface_current`; the seconds are those of the VM, once it is synchronised with the policy. -/
def ifaceRow (policy : PpsPolicy) (p : Payload) (s : Sample) (row : PayloadRow) : IfaceCurrent :=
  let sec := stagedInterval row
  { lastSeen := s.dataTime, intervalSeconds := sec, deltas := row.deltas
    rxMbps := mbps row.deltas.rx sec, txMbps := mbps row.deltas.tx sec
    rxPps := row.deltas.rxPackets / sec, txPps := row.deltas.txPackets / sec
    secondsOverRxPps := fedSeconds policy p.interfaces row.vmUuid .rxPps
    secondsOverTxPps := fedSeconds policy p.interfaces row.vmUuid .txPps }

def ifaceKey (s : Sample) (row : PayloadRow) : IfaceKey := ⟨s.node, row.vmUuid, row.bridge, row.iface⟩

/-- `DISTINCT ON (key) … ORDER BY key, ord DESC`: the last row of each key. -/
def pickedRows (s : Sample) (interfaces : List PayloadRow) : List PayloadRow :=
  let rows := namedRows interfaces
  (rows.map (ifaceKey s)).dedup.filterMap fun key => (rows.filter fun row => ifaceKey s row = key).getLast?

/-- `_v5052_current_writer` on `vm_iface_current`. -/
def writeIfaceCurrent (policy : PpsPolicy) (p : Payload) (s : Sample) (t : Tables) : Tables :=
  let written := (pickedRows s p.interfaces).foldl
    (fun table row => table.upsert (ifaceKey s row) (ifaceRow policy p s row) (KeyedTable.guarded IfaceCurrent.lastSeen))
    t.iface
  if p.inventoryComplete then
    { t with iface := written.deleteRows fun key row => key.node = s.node && row.lastSeen < s.dataTime }
  else { t with iface := written }

/-- `_v5052_current_writer` on `node_current_fast`. `vmCount` counts the rows of `vm_current_fast` with the push's
    time. -/
def writeNodeCurrent (vmCount : Nat) (p : Payload) (s : Sample) (t : Tables) : Tables :=
  let host := p.host.getD {}
  { t with
    node := t.node.upsert s.node
      { lastSeen := s.dataTime, intervalSeconds := max 1 s.intervalSeconds, vmCount
        load1 := host.load1, load5 := host.load5, load15 := host.load15
        cpuCount := safeInt host.cpuCount 0, cpuPercent := host.cpuPercent
        memTotal := counter host.memTotal, memUsed := memUsed host
        diskReadBps := host.diskReadBps, diskWriteBps := host.diskWriteBps
        uptimeSeconds := safeInt host.uptimeSeconds 0 }
      (KeyedTable.guarded NodeCurrent.lastSeen) }

/-! ## One push -/

/-- Everything a push writes to, as far as it is modelled. -/
structure Database where
  monitor : Monitor
  store : Abuse.Store
  presence : Inventory.Tables
  tables : Tables

/-- The presence tables after a push, and the keys of the rows that the purge of migrated VMs picks. -/
def writePresence (m : Inventory.Migration) (now : Int) (p : Payload) (s : Sample) (t : Inventory.Tables) :
    Option (Inventory.Tables × List (String × String)) := do
  let q := p.inventoryPush s
  let (t, _) ← Inventory.processNodeVmPresence m q.node q.seenVmLocations q.time q.inventoryComplete t
  let purged := Inventory.purgeable m now t
  return (t.purge now purged, purged)

/-- The writers that run on every accepted push. -/
def writeEndpoint (p : Payload) (s : Sample) (moved purged : List (String × String)) (t : Tables) : Tables :=
  let t := writePhysical s.node s.dataTime s.intervalSeconds p.nics
    (writeBridges s.node s.dataTime p.bridges t)
  let t := mergeLatestMetrics p s (migrateLatest s.node moved purged t)
  let t := p.host.elim t fun host => writeHost s.node s.dataTime s.intervalSeconds host t
  p.health.elim t fun health => writeHealth s.node s.dataTime s.intervalSeconds health t

/-- The writers that run when the push has VM metrics. `f` holds what the transaction read at its start. -/
def writeVmMetrics (f : Abuse.InFlight) (vms : List (String × Abuse.VmPerf)) (p : Payload) (s : Sample)
    (d : Database) : Option Database := do
  let t ← ingestDiskIoCurrent p s d.tables
  let t := writeIfaceCurrent f.policy.toPpsPolicy p s t
  let vmCount := (Abuse.evaluatedRows f (Abuse.currentWriter f vms d.store)).length
  return { d with tables := writeNodeCurrent vmCount p s t, store := Abuse.refreshFastCurrentState f vms d.store }

/-- **`push`**, as it commits; `none` when a statement fails and the transaction is rolled back. The clock is read once. -/
def push (m : Inventory.Migration) (cfg : Config) (receivedNow : Int) (p : Payload) (d : Database) : Option Database :=
  match acceptedSample cfg receivedNow p.request d.monitor with
  | none => some d
  | some s =>
      let f : Abuse.InFlight := { push := p.vmPush s, policy := d.store.policy, before := d.store.abuse }
      (writePresence m receivedNow p s d.presence).bind fun (presence, purged) =>
        let d := { d with
          monitor := (ingest cfg receivedNow p.request d.monitor).1
          presence
          tables := writeEndpoint p s (confirmedMoves s.node d.presence presence) purged d.tables }
        p.vms.elim (some d) fun vms => writeVmMetrics f vms p s d

/-- `auto_purge_migrated_vms`, as a page runs it. -/
def autoPurge (m : Inventory.Migration) (now : Int) (d : Database) : Database :=
  let purged := Inventory.purgeable m now d.presence
  { d with
    presence := d.presence.purge now purged
    tables := { d.tables with latest := d.tables.latest.deleteWhere fun key => (key.2, key.1) ∈ purged } }

end VirtInfra.Current
