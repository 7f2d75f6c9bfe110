import VirtInfra.Inventory.View
import VirtInfra.Lib.Transition
import Mathlib.Data.List.MinMax
import Mathlib.Data.Prod.Lex

/-!
# `Fleet` — pushes of many nodes, purges, and the location of each VM

The system the presence tables live in: pushes of any node in any order, each followed by the automatic purge of migrated
VMs as the endpoint does it, and the administrator's purges of a VM or of a node's VMs. Purging a node deletes the rows a
location may rest on, so a repair then picks another node from three tables (`repairVmLocationAfterPurge`).

The pushes are kept in a history, which no operation reads.
-/

namespace VirtInfra.Inventory

open Lib Python

/-! ## State -/

/-- The columns of `vm_latest_metrics` that the repair reads. -/
structure LatestRow where
  lastSeen : Int
  iface : Option String
  bridge : Option String
  deriving DecidableEq, Repr

/-- `latest` has the key (node, VM). -/
structure Fleet where
  tables : Tables
  latest : KeyedTable (String × String) LatestRow
  history : List InventoryPush

def Fleet.init : Fleet := ⟨Tables.empty, .empty, []⟩

/-- The node a VM is located on. -/
def Fleet.locatedOn (d : Fleet) (vm : String) : Option String := (d.tables.location.get? vm).map LocationRow.node

/-! ## A push -/

/-- The VMs `_v5052_merge_latest_metrics` has a row for, each with its last interface. -/
def InventoryPush.latestSources (p : InventoryPush) : List (String × Option SeenItem) :=
  let named := fun vm => vm ≠ "" ∧ vm ≠ "-"
  let vms := ((p.interfaces.map fun i => strip i.vmUuid) ++ p.vms.map strip).dedup.filter named
  vms.map fun vm => (vm, (p.interfaces.filter fun i => strip i.vmUuid = vm).getLast?)

/-- `_v5052_merge_latest_metrics`. -/
def mergeLatest (p : InventoryPush) (latest : KeyedTable (String × String) LatestRow) :
    KeyedTable (String × String) LatestRow :=
  p.latestSources.foldl
    (fun table source =>
      table.upsert (p.node, source.1) ⟨p.time, source.2.map SeenItem.iface, source.2.map SeenItem.bridge⟩ fun old new =>
        if new.lastSeen ≥ old.lastSeen then ⟨new.lastSeen, new.iface.or old.iface, new.bridge.or old.bridge⟩ else old)
    latest

/-- The rows `auto_purge_migrated_vms` selects, `LIMIT 500` and in no order. -/
def purgeable (m : Migration) (now : Int) (t : Tables) : List (String × String) :=
  let due := t.presence.rows.filter fun row =>
    row.2.status = .migrated && row.2.purgedAt = none && row.2.migratedAt.any fun at' => at' ≤ now - m.purgeSeconds
  ((due.map Prod.fst).mergeSort fun a b => decide (m.rowOrder now a ≤ m.rowOrder now b)).take 500

def InventoryRow.markPurged (now : Int) (r : InventoryRow) : InventoryRow :=
  if r.status = .hidden then r
  else { r with status := .purged, hiddenAt := r.hiddenAt.or (some now), deletedAt := r.deletedAt.or (some now) }

/-- The updates of `auto_purge_migrated_vms`. -/
def Tables.purge (now : Int) (rows : List (String × String)) (t : Tables) : Tables :=
  { t with
    presence := t.presence.update fun key r =>
      if key ∈ rows then
        { r with status := .purged, purgedAt := some now, alertFlags := .purgedAfterMigrationTo r.migratedTo }
      else r
    inventory := t.inventory.update fun key r => if (key.2, key.1) ∈ rows then r.markPurged now else r }

/-- `auto_purge_migrated_vms`. -/
def autoPurgeMigratedVms (m : Migration) (now : Int) (d : Fleet) : Fleet :=
  let rows := purgeable m now d.tables
  { d with tables := d.tables.purge now rows, latest := d.latest.deleteWhere fun key => (key.2, key.1) ∈ rows }

/-- What `/push` does here; `none` when the presence writer fails. -/
def Fleet.push (m : Migration) (now : Int) (p : InventoryPush) (d : Fleet) : Option Fleet := do
  let (tables, _) ← processNodeVmPresence m p.node p.seenVmLocations p.time p.inventoryComplete d.tables
  let d := autoPurgeMigratedVms m now { d with tables }
  return { d with latest := mergeLatest p d.latest, history := d.history ++ [p] }

/-! ## Purges by the administrator -/

/-- A row of the `UNION ALL` of `_repair_vm_location_after_purge`. -/
structure Candidate where
  node : String
  lastSeen : Int
  lastIface : Option String
  lastBridge : Option String
  sourcePriority : Nat
  deriving DecidableEq, Repr

/-- The nodes, other than the removed one, where the repair finds a VM. -/
def candidates (vm removed : String) (d : Fleet) : List Candidate :=
  ((d.tables.presence.rows.filter fun row => row.1.1 = vm && row.1.2 ≠ removed && row.2.status ≠ .purged).map
    fun row => ⟨row.1.2, row.2.lastSeen, some row.2.lastIface, some row.2.lastBridge, 0⟩) ++
  ((d.tables.inventory.rows.filter fun row =>
      row.1.2 = vm && row.1.1 ≠ removed && row.2.status ≠ .hidden && row.2.deletedAt = none).map
    fun row => ⟨row.1.1, row.2.lastSeen, some row.2.lastIface, some row.2.lastBridge, 1⟩) ++
  ((d.latest.rows.filter fun row => row.1.2 = vm && row.1.1 ≠ removed).map
    fun row => ⟨row.1.1, row.2.lastSeen, row.2.iface, row.2.bridge, 2⟩)

/-- `ORDER BY last_seen DESC, source_priority ASC`; `rank` is the order the database gives to equal rows. -/
def Candidate.order (rank : Candidate → Nat) (c : Candidate) : Int ×ₗ Nat ×ₗ Nat :=
  toLex (-c.lastSeen, toLex (c.sourcePriority, rank c))

/-! The order of the integers that can be computed with. -/

local instance candidateOrder : LinearOrder (Int ×ₗ Nat ×ₗ Nat) :=
  @Prod.Lex.instLinearOrder Int (Nat ×ₗ Nat) Int.instLinearOrder _

local instance candidatePreorder : Preorder (Int ×ₗ Nat ×ₗ Nat) := candidateOrder.toPartialOrder.toPreorder

/-- `… LIMIT 1`. -/
def remaining (rank : Candidate → Nat) (vm removed : String) (d : Fleet) : Option Candidate :=
  (candidates vm removed d).argmin (Candidate.order rank)

/-- `_repair_vm_location_after_purge`. -/
def repairVmLocationAfterPurge (rank : Candidate → Nat) (now : Int) (removed : String) (d : Fleet) (vm : String) : Fleet :=
  match d.tables.location.get? vm with
  | none => d
  | some row =>
      if row.node ≠ removed then
        if row.previousNode = some removed then
          { d with tables := { d.tables with
              location := d.tables.location.modify vm fun r => { r with previousNode := none } } }
        else d
      else
        match remaining rank vm removed d with
        | some c =>
            { d with tables := { d.tables with
                location := d.tables.location.modify vm fun r =>
                  { r with
                    node := c.node, previousNode := none, movedAt := none
                    lastSeen := if c.lastSeen = 0 then now else c.lastSeen
                    lastIface := orDash (c.lastIface.getD ""), lastBridge := orDash (c.lastBridge.getD "")
                    alertLevel := .ok, alertFlags := .none } } }
        | none =>
            { d with tables := { d.tables with location := d.tables.location.deleteWhere fun key => key = vm } }

/-- `_collect_node_vm_uuids`, from the tables of this model: the VMs the other tables add have nothing to repair. -/
def collectNodeVmUuids (node : String) (d : Fleet) : List String :=
  let located := d.tables.location.rows.filter fun row => row.2.node = node || row.2.previousNode = some node
  let moved := d.tables.events.filter fun e => e.oldNode = node || e.newNode = node
  let vms := ((d.tables.presence.rows.filter fun row => row.1.2 = node).map fun row => row.1.1) ++
    ((d.tables.inventory.rows.filter fun row => row.1.1 = node).map fun row => row.1.2) ++
    ((d.latest.rows.filter fun row => row.1.1 = node).map fun row => row.1.2) ++
    located.map Prod.fst ++ moved.map MigrationEvent.vmUuid
  ((vms.filter fun vm => strip vm ≠ "" && vm ≠ "-").map strip).dedup

/-- `purge_all_vms_for_node`, which `purge_node_data` begins with. -/
def purgeAllVmsForNode (rank : Candidate → Nat) (now : Int) (node : String) (d : Fleet) : Fleet :=
  let vmUuids := collectNodeVmUuids node d
  let d := { d with
    tables := { d.tables with
      presence := d.tables.presence.deleteWhere fun key => key.2 = node
      inventory := d.tables.inventory.deleteWhere fun key => key.1 = node
      events := d.tables.events.filter fun e => !(e.oldNode = node || e.newNode = node) }
    latest := d.latest.deleteWhere fun key => key.1 = node }
  vmUuids.foldl (repairVmLocationAfterPurge rank now node) d

/-- `purge_vm_data`: a UUID goes from every node. -/
def purgeVmData (vm : String) (d : Fleet) : Fleet :=
  { d with
    tables :=
      { presence := d.tables.presence.deleteWhere fun key => key.1 = vm
        inventory := d.tables.inventory.deleteWhere fun key => key.2 = vm
        location := d.tables.location.deleteWhere fun key => key = vm
        events := d.tables.events.filter fun e => e.vmUuid ≠ vm }
    latest := d.latest.deleteWhere fun key => key.2 = vm }

/-! ## Runs -/

/-- `editInventory` stands for hiding, restoring and expiring rows of `vm_inventory`, whatever these write. -/
inductive Label
  | push (now : Int) (p : InventoryPush)
  | autoPurge (now : Int)
  | purgeNodeVms (now : Int) (node : String) (rank : Candidate → Nat)
  | purgeVm (vm : String)
  | editInventory (f : String × String → InventoryRow → InventoryRow)

def step (m : Migration) (d : Fleet) : Label → Option Fleet
  | .push now p => d.push m now p
  | .autoPurge now => some (autoPurgeMigratedVms m now d)
  | .purgeNodeVms now node rank => some (purgeAllVmsForNode rank now node d)
  | .purgeVm vm => some (purgeVmData vm d)
  | .editInventory f => some { d with tables := { d.tables with inventory := d.tables.inventory.update f } }

def fleetSystem (m : Migration) : System Fleet Label where
  init d := d = Fleet.init
  step := step m

end VirtInfra.Inventory
