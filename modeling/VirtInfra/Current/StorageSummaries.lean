import VirtInfra.Current.CopyUpsert
import VirtInfra.Lib.Transition

/-!
# `StorageSummaries` — the summaries beside the disk rows

The storage pages do not add up `vm_disk_current` at every view: two tables keep the customer disks summed up by VM, and
counted by mount beside the storage devices. `_v48140_refresh_node_summaries` brings both up to date for one node, and
every operation that changes a row below them has to call it for each node it touches. `storage_summaries_mirror` says
that the operations do, in whatever order they come.

Every operation is a transaction. The other tables of an operation, the measures of the storage pages and the history of
the disks are left out.
-/

namespace VirtInfra.Current

open Lib Python Consumption

/-! ## The tables -/

/-- A row of `vm_disk_summary_current`. -/
structure DiskSummary where
  diskCount : Nat
  allocatedBytes : Nat
  assignedBytes : Nat
  physicalBytes : Nat
  allocationRatio : ℚ
  readBps : ℚ
  writeBps : ℚ
  readIops : ℚ
  writeIops : ℚ
  lastSeen : Int
  deriving DecidableEq

/-- A row of `node_storage_mount_summary_current`: that of `node_storage_current`, with two counts. -/
structure MountSummary extends StorageCurrent where
  diskCount : Nat
  vmCount : Nat

/-- The rows of the disks and storage devices, and the summaries of both. -/
structure StorageTables where
  disk : KeyedTable DiskKey DiskCurrent
  storage : KeyedTable (String × String) StorageCurrent
  diskSummary : KeyedTable (String × String) DiskSummary
  mountSummary : KeyedTable (String × String) MountSummary

def StorageTables.empty : StorageTables := ⟨.empty, .empty, .empty, .empty⟩

/-- The aggregates over the disks of a VM. -/
def DiskSummary.of (disks : List DiskCurrent) : DiskSummary where
  diskCount := disks.length
  allocatedBytes := (disks.map DiskCurrent.allocationBytes).sum
  assignedBytes := (disks.map DiskCurrent.capacityBytes).sum
  physicalBytes := (disks.map DiskCurrent.physicalBytes).sum
  allocationRatio :=
    if (disks.map DiskCurrent.capacityBytes).sum > 0
    then ((disks.map DiskCurrent.allocationBytes).sum : ℚ) / (disks.map DiskCurrent.capacityBytes).sum
    else 0
  readBps := (disks.map DiskCurrent.readBps).sum
  writeBps := (disks.map DiskCurrent.writeBps).sum
  readIops := (disks.map DiskCurrent.readIops).sum
  writeIops := (disks.map DiskCurrent.writeIops).sum
  lastSeen := ((disks.map DiskCurrent.lastSeen).max?).getD 0

/-- `COUNT(*)` and `COUNT(DISTINCT vm_uuid)`. -/
def diskCounts (disks : List (DiskKey × DiskCurrent)) : Nat × Nat :=
  (disks.length, (disks.map fun row => row.1.vmUuid).dedup.length)

def MountSummary.of (counts : Nat × Nat) (row : StorageCurrent) : MountSummary :=
  { row with diskCount := counts.1, vmCount := counts.2 }

namespace StorageTables

variable (t : StorageTables)

/-- `vm_disk_current WHERE node=? AND role='customer'`. -/
def customerDisks (node : String) : List (DiskKey × DiskCurrent) :=
  (t.disk.select fun key => key.node = node).filter fun row => row.2.role = "customer"

def disksOfVm (node vmUuid : String) : List (DiskKey × DiskCurrent) :=
  (t.customerDisks node).filter fun row => row.1.vmUuid = vmUuid

def disksOfMount (node mount : String) : List (DiskKey × DiskCurrent) :=
  (t.customerDisks node).filter fun row => row.2.mount = mount

/-! ## The refresh -/

/-- The first upsert: it leaves a row that it would not change. -/
def upsertDiskSummaries (node : String) : StorageTables :=
  { t with
    diskSummary := t.diskSummary.mergeGroups (fun row => (row.1.node, row.1.vmUuid))
      (fun _ group => .of (group.map Prod.snd)) (fun old new => if new ≠ old then new else old)
      (t.customerDisks node) }

/-- Summaries `NOT EXISTS` a disk of. -/
def deleteDiskSummaries (node : String) : StorageTables :=
  { t with
    diskSummary := t.diskSummary.deleteWhere fun key =>
      key.1 = node && (t.disksOfVm key.1 key.2).isEmpty }

/-- The counts of `dc`; a mount without disks is `COALESCE`d to zeros. -/
def mountCounts (node : String) (key : String × String) : Nat × Nat :=
  ((((KeyedTable.groupBy (fun row : DiskKey × DiskCurrent => (row.1.node, row.2.mount)) (t.customerDisks node)).mapRows
    fun _ group => diskCounts group).get? key)).getD (0, 0)

def upsertMountSummaries (node : String) : StorageTables :=
  { t with
    mountSummary := (t.storage.deleteWhere fun key => key.1 ≠ node).rows.foldl
      (fun table row => table.upsert row.1 (.of (t.mountCounts node row.1) row.2) fun _ new => new) t.mountSummary }

def deleteMountSummaries (node : String) : StorageTables :=
  { t with mountSummary := t.mountSummary.deleteWhere fun key => key.1 = node && (t.storage.get? key).isNone }

/-- **`_v48140_refresh_node_summaries`.** -/
def refreshNodeSummaries (node : String) : StorageTables :=
  let node := strip node
  if node = "" then t
  else (((t.upsertDiskSummaries node).deleteDiskSummaries node).upsertMountSummaries node).deleteMountSummaries node

/-! ## The operations -/

/-- `INSERT … SELECT … ON CONFLICT(key) DO UPDATE SET … WHERE excluded.last_seen >= last_seen`. -/
def copyUpsert {κ ρ : Type} [DecidableEq κ] (stamp : ρ → Int) (rows : List (κ × ρ)) (table : KeyedTable κ ρ) :
    Option (KeyedTable κ ρ) :=
  ((OnConflict.doUpdate (fun _ new => new) fun old new => stamp old ≤ stamp new).insertSelect rows table).toOption

/-- **`_v5052_ingest_disk_io_current`**; a batch that names a row twice may fail, and the push with it. -/
def ingestDiskIo (p : Payload) (s : Sample) : Option StorageTables := do
  let disk ← copyUpsert DiskCurrent.lastSeen (p.disks.filterMap (diskRow s)) t.disk
  let devices := (p.host.map HostItem.storageDevices).getD []
  let storage ← copyUpsert StorageCurrent.lastSeen (devices.filterMap (storageRow s)) t.storage
  let written : StorageTables :=
    { t with
      disk := disk.deleteRows fun key row => key.node = s.node && row.lastSeen < s.dataTime
      storage := storage.deleteRows fun key row => key.1 = s.node && row.lastSeen < s.dataTime }
  return written.refreshNodeSummaries s.node

/-- `push`, with the receipts it finds: only a push with VM metrics gets to the disk writer. -/
def pushed (cfg : Config) (m : Monitor) (receivedNow : Int) (p : Payload) : Option StorageTables :=
  match acceptedSample cfg receivedNow p.request m with
  | none => some t
  | some s => p.vms.elim (some t) fun _ => t.ingestDiskIo p s

/-- The nodes that `purge_vm_data` refreshes: the one it is called for, and those with a summary of the VM. -/
def nodesOfVm (node vmUuid : String) : List String :=
  ((if strip node = "" then [] else [strip node]) ++
    (t.diskSummary.keys.filter fun key => key.2 = vmUuid && key.1 ≠ "").map Prod.fst).dedup

/-- **`purge_vm_data`**; without a VM it raises. -/
def purgeVmData (node vmUuid : String) : Option StorageTables :=
  if strip vmUuid = "" then none
  else
    let purged : StorageTables :=
      { t with
        disk := t.disk.deleteWhere fun key => key.vmUuid = strip vmUuid
        diskSummary := t.diskSummary.deleteWhere fun key => key.2 = strip vmUuid }
    some ((t.nodesOfVm node vmUuid).foldl refreshNodeSummaries purged)

/-- **`purge_all_vms_for_node`.** -/
def purgeAllVmsForNode (node : String) : StorageTables :=
  let purged : StorageTables :=
    { t with
      disk := t.disk.deleteWhere fun key => key.node = node
      diskSummary := t.diskSummary.deleteWhere fun key => key.1 = node }
  purged.refreshNodeSummaries node

/-- **`purge_node_data`.** -/
def purgeNodeData (node : String) : StorageTables :=
  let purged := t.purgeAllVmsForNode node
  { purged with
    storage := purged.storage.deleteWhere fun key => key.1 = node
    diskSummary := purged.diskSummary.deleteWhere fun key => key.1 = node
    mountSummary := purged.mountSummary.deleteWhere fun key => key.1 = node }

end StorageTables

/-- The operations. A purge job cleans the names of its items, and skips those without one. -/
inductive StorageOp
  | push (m : Monitor) (receivedNow : Int) (p : Payload)
  | purgeVm (node vmUuid : String)
  | purgeNodeVms (node : String)
  | purgeNode (node : String)
  /-- `_v48140_reconcile_summaries_if_needed` and the bootstrap, on the nodes they find. -/
  | reconcile (nodes : List String)

def StorageOp.run (cfg : Config) (t : StorageTables) : StorageOp → Option StorageTables
  | push m receivedNow p => t.pushed cfg m receivedNow p
  | purgeVm node vmUuid =>
      if strip node = "" ∨ strip vmUuid = "" then none else t.purgeVmData (strip node) (strip vmUuid)
  | purgeNodeVms node => if strip node = "" then none else some (t.purgeAllVmsForNode (strip node))
  | purgeNode node => if strip node = "" then none else some (t.purgeNodeData (strip node))
  | reconcile nodes => some (nodes.foldl StorageTables.refreshNodeSummaries t)

namespace StorageTables

variable (t : StorageTables)

/-- The summaries of a node say what its rows say. -/
structure MirrorsNode (node : String) : Prop where
  disks : ∀ vmUuid, t.diskSummary.get? (node, vmUuid) =
    if t.disksOfVm node vmUuid = [] then none else some (.of ((t.disksOfVm node vmUuid).map Prod.snd))
  mounts : ∀ mount, t.mountSummary.get? (node, mount) =
    (t.storage.get? (node, mount)).map (.of (diskCounts (t.disksOfMount node mount)))

/-- A name that `strip` leaves as it is, and that is one. -/
def IsNode (node : String) : Prop := strip node = node ∧ node ≠ ""

/-- The nodes of the disks are names. -/
def Named : Prop := ∀ key ∈ t.disk.keys, IsNode key.node

/-! ## What a refresh does -/

variable {t} {node n vmUuid mount : String}

/-- The mirror of a node is about the disks, devices and summaries of that node. -/
theorem MirrorsNode.congr {t' : StorageTables} (h : t.MirrorsNode n) (hdisks : t'.customerDisks n = t.customerDisks n)
    (hstorage : ∀ mount, t'.storage.get? (n, mount) = t.storage.get? (n, mount))
    (hdiskSummary : ∀ vmUuid, t'.diskSummary.get? (n, vmUuid) = t.diskSummary.get? (n, vmUuid))
    (hmountSummary : ∀ mount, t'.mountSummary.get? (n, mount) = t.mountSummary.get? (n, mount)) : t'.MirrorsNode n where
  disks := by
    intro vmUuid
    unfold disksOfVm
    rw [hdiskSummary, hdisks]
    exact h.disks vmUuid
  mounts := by
    intro mount
    unfold disksOfMount
    rw [hmountSummary, hstorage, hdisks]
    exact h.mounts mount

variable {t' : StorageTables}

theorem Named.deleteWhere (hnamed : t.Named) (p : DiskKey → Bool) (h : t'.disk = t.disk.deleteWhere p) : t'.Named := by
  intro key hkey
  rw [h] at hkey
  obtain ⟨row, hrow, rfl⟩ := List.mem_map.mp hkey
  exact hnamed _ (List.mem_map_of_mem (List.mem_filter.mp hrow).1)

end StorageTables

open StorageTables

end VirtInfra.Current
