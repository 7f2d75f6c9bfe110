import VirtInfra.Lib.Lookup
import VirtInfra.Python.Prelude

/-!
# `Presence` — which node a VM lives on

Every push lists the VMs its node has. Three tables remember them: `vm_node_presence` and `vm_inventory` hold a row per
VM and node, `vm_location_latest` one row per VM, which names the node the VM is taken to live on. A VM that another
node reports is first marked `pending_migration` on both; it moves once its old node has missed it for long enough.

There are two writers. The first one goes through the VMs one by one (`processNodeVmPresencePerRow`); the one in use
stages them and works in sets, and hands only the VMs located elsewhere to the per-VM transition
(`processNodeVmPresence`).
-/

namespace VirtInfra.Inventory

open Lib Python

/-! ## Rows -/

/-- The `BW_VM_MIGRATION_*` settings, and the order in which the database gives the rows of `vm_node_presence` at a time,
    where a query names none. -/
structure Migration where
  confirmPushes : Int := 3
  confirmSeconds : Int := 900
  purgeSeconds : Int := 345600
  rowOrder : Int → String × String → Nat := fun _ _ => 0
  one_le_pushes : 1 ≤ confirmPushes := by decide
  bucket_le_seconds : 300 ≤ confirmSeconds := by decide
  hour_le_purge : 3600 ≤ purgeSeconds := by decide

/-- The settings of an installation that sets none of them. -/
def Migration.standard : Migration := {}

inductive PresenceStatus | active | missing | pendingMigration | migrated | purged
  deriving DecidableEq, Repr

/-- The VM is there, or may be. -/
def PresenceStatus.live (s : PresenceStatus) : Bool := s != .migrated && s != .purged

inductive InventoryStatus | active | missing | pendingMigration | migrated | purged | hidden | stale | deleted
  deriving DecidableEq, Repr

inductive AlertLevel | ok | pendingMigration | migrated
  deriving DecidableEq, Repr

/-- The second answer of `_old_node_missing_enough`: `old-node presence not confirmed missing`, `old node missing for …
    pushes`, `old node missing since …` and `waiting old node missing confirmation (…/… pushes)`. -/
inductive Reason
  | notConfirmed
  | missingFor (pushes : Int)
  | missingSince (time : Int)
  | waiting (pushes confirmPushes : Int)
  deriving DecidableEq, Repr

/-- `alert_flags`, by their first word. -/
inductive Flags
  | none
  | missing (count : Int)
  | pendingTo (node : String) (reason : Reason)
  | pendingFrom (node : String) (reason : Reason)
  | pendingMove (oldNode newNode : String) (reason : Reason)
  | migratedTo (node : String)
  | migratedFrom (node : String)
  | purgedAfterMigrationTo (node : Option String)
  deriving DecidableEq, Repr

/-- A row of `vm_node_presence`. -/
structure PresenceRow where
  firstSeen : Int
  lastSeen : Int
  lastPush : Int
  missingSince : Option Int
  missingCount : Int
  presentCount : Int
  status : PresenceStatus
  pendingNode : Option String
  migratedTo : Option String
  migratedAt : Option Int
  purgedAt : Option Int
  lastIface : String
  lastBridge : String
  alertFlags : Flags
  deriving DecidableEq, Repr

/-- A row of `vm_inventory`. -/
structure InventoryRow where
  firstSeen : Int
  lastSeen : Int
  lastIface : String
  lastBridge : String
  status : InventoryStatus
  hiddenAt : Option Int
  deletedAt : Option Int
  deriving DecidableEq, Repr

/-- A row of `vm_location_latest`. -/
structure LocationRow where
  node : String
  firstSeen : Int
  lastSeen : Int
  previousNode : Option String
  movedAt : Option Int
  moveCount : Int
  lastIface : String
  lastBridge : String
  alertLevel : AlertLevel
  alertFlags : Flags
  deriving DecidableEq, Repr

/-- A row of `vm_migration_events`, without its serial `id`. -/
structure MigrationEvent where
  time : Int
  vmUuid : String
  oldNode : String
  newNode : String
  oldLastSeen : Int
  newSeen : Int
  detail : Reason
  deriving DecidableEq, Repr

/-- Presence rows have the key (VM, node), inventory rows (node, VM). -/
structure Tables where
  presence : KeyedTable (String × String) PresenceRow
  inventory : KeyedTable (String × String) InventoryRow
  location : KeyedTable String LocationRow
  events : List MigrationEvent

def Tables.empty : Tables := ⟨.empty, .empty, .empty, []⟩

/-! ## What a push has seen -/

/-- Where a push has seen a VM. -/
structure Loc where
  iface : String := "-"
  bridge : String := "-"
  deriving DecidableEq, Repr

/-- `str(value or "-")`. -/
def orDash (s : String) : String := if s = "" then "-" else s

/-- An entry of the `interfaces` or `vm_inventory` of a payload; an inventory entry that is no dict has its UUID alone. -/
structure SeenItem where
  vmUuid : String
  iface : String := "-"
  bridge : String := "-"
  deriving DecidableEq, Repr

/-- A push as far as the inventory reads it, after the checks of the endpoint. -/
structure InventoryPush where
  node : String
  time : Int
  interfaces : List SeenItem := []
  vms : List String := []
  vmInventory : List SeenItem := []
  inventoryComplete : Bool := false
  deriving DecidableEq, Repr

/-- The first mention of a VM counts. -/
def addSeen (seen : List (String × Loc)) (vmUuid : String) (loc : Loc) : List (String × Loc) :=
  let vm := strip (orDash vmUuid)
  if vm = "" ∨ vm = "-" ∨ vm ∈ seen.map Prod.fst then seen else seen ++ [(vm, loc)]

/-- `seen_vm_locations`. -/
def InventoryPush.seenVmLocations (p : InventoryPush) : List (String × Loc) :=
  let seen := p.interfaces.foldl (fun seen i => addSeen seen i.vmUuid ⟨orDash i.iface, orDash i.bridge⟩) []
  let seen := p.vms.foldl (fun seen vm => addSeen seen vm {}) seen
  p.vmInventory.foldl (fun seen i => addSeen seen i.vmUuid ⟨orDash i.iface, orDash i.bridge⟩) seen

/-- One entry of `seen_vm_locations` as both writers read it; a blank UUID is skipped. -/
def named (entry : String × Loc) : Option (String × Loc) :=
  let vm := strip entry.1
  if vm = "" ∨ vm = "-" then none else some (vm, ⟨orDash entry.2.iface, orDash entry.2.bridge⟩)

/-! ## The writer per VM (layer 02) -/

/-- The row `_presence_upsert_seen` inserts. -/
def seenRow (seenTs : Int) (loc : Loc) : PresenceRow :=
  { firstSeen := seenTs, lastSeen := seenTs, lastPush := seenTs, missingSince := none, missingCount := 0
    presentCount := 1, status := .active, pendingNode := none, migratedTo := none, migratedAt := none
    purgedAt := none, lastIface := loc.iface, lastBridge := loc.bridge, alertFlags := .none }

/-- … and what it does to the row that is there. -/
def seenMerge (old new : PresenceRow) : PresenceRow :=
  { new with
    firstSeen := old.firstSeen, lastSeen := max old.lastSeen new.lastSeen, presentCount := old.presentCount + 1 }

def seenInventoryRow (seenTs : Int) (loc : Loc) : InventoryRow :=
  { firstSeen := seenTs, lastSeen := seenTs, lastIface := loc.iface, lastBridge := loc.bridge, status := .active
    hiddenAt := none, deletedAt := none }

/-- A hidden VM stays hidden. -/
def seenInventoryMerge (old new : InventoryRow) : InventoryRow :=
  let hidden := old.status = .hidden
  { firstSeen := old.firstSeen, lastSeen := max old.lastSeen new.lastSeen
    lastIface := new.lastIface, lastBridge := new.lastBridge
    status := if hidden then .hidden else .active
    hiddenAt := if hidden then old.hiddenAt else none
    deletedAt := if hidden then old.deletedAt else none }

/-- `_presence_upsert_seen`. -/
def presenceUpsertSeen (node : String) (seenTs : Int) (t : Tables) (item : String × Loc) : Tables :=
  { t with
    presence := t.presence.upsert (item.1, node) (seenRow seenTs item.2) seenMerge
    inventory := t.inventory.upsert (node, item.1) (seenInventoryRow seenTs item.2) seenInventoryMerge }

/-- `status IN ('active', 'pending_migration')`. -/
def PresenceStatus.expected (s : PresenceStatus) : Bool := s == .active || s == .pendingMigration

/-- A status that the writers give to rows the administrator has not hidden. -/
def InventoryRow.mark (status : InventoryStatus) (r : InventoryRow) : InventoryRow :=
  if r.status = .hidden then r else { r with status, hiddenAt := none, deletedAt := none }

def PresenceRow.markMissing (seenTs since : Int) (r : PresenceRow) : PresenceRow :=
  { r with
    status := .missing, missingSince := some since, missingCount := r.missingCount + 1, lastPush := seenTs
    alertFlags := .missing (r.missingCount + 1) }

/-- `int(missing_since or seen_ts)`. -/
def sinceOr (missingSince : Option Int) (seenTs : Int) : Int :=
  if missingSince.getD 0 = 0 then seenTs else missingSince.getD 0

/-- `_mark_missing_on_node`: the loop over the selected rows. -/
def markMissingOnNode (node : String) (seenSet : List String) (seenTs : Int) (t : Tables) : Tables :=
  (t.presence.rows.filter fun row => row.1.2 = node && row.2.status.expected).foldl
    (fun t row =>
      let vm := row.1.1
      if vm ∈ seenSet then t
      else
        { t with
          presence := t.presence.modify (vm, node) fun r =>
            { r with
              status := .missing, missingSince := some (sinceOr row.2.missingSince seenTs)
              missingCount := row.2.missingCount + 1, lastPush := seenTs
              alertFlags := .missing (row.2.missingCount + 1) }
          inventory := t.inventory.modify (node, vm) (InventoryRow.mark .missing) })
    t

/-- `_old_node_missing_enough`. -/
def oldNodeMissingEnough (m : Migration) (row : Option PresenceRow) (seenTs : Int) : Bool × Reason :=
  match row with
  | none => (false, .notConfirmed)
  | some r =>
      let gone := r.status = .missing ∨ r.status = .migrated ∨ r.status = .purged
      let since := r.missingSince.getD 0
      if gone ∧ r.missingCount ≥ m.confirmPushes then (true, .missingFor r.missingCount)
      else if gone ∧ since ≠ 0 ∧ seenTs - since ≥ m.confirmSeconds then (true, .missingSince since)
      else (false, .waiting r.missingCount m.confirmPushes)

/-- `INSERT INTO vm_migration_events … WHERE NOT EXISTS` the same move within a day. -/
def insertEvent (e : MigrationEvent) (events : List MigrationEvent) : List MigrationEvent :=
  if events.any fun old =>
      old.vmUuid = e.vmUuid && old.oldNode = e.oldNode && old.newNode = e.newNode && decide (old.time ≥ e.time - 86400)
  then events
  else events ++ [e]

/-- `_create_or_update_location`. -/
def createOrUpdateLocation (m : Migration) (node : String) (seenTs : Int) (t : Tables) (item : String × Loc) : Tables :=
  let (vm, loc) := item
  match t.location.get? vm with
  | none =>
      { t with
        location := t.location.upsert vm
          { node, firstSeen := seenTs, lastSeen := seenTs, previousNode := none, movedAt := none, moveCount := 0
            lastIface := loc.iface, lastBridge := loc.bridge, alertLevel := .ok, alertFlags := .none }
          fun old _ => old }
  | some old =>
      if old.node = node then
        { t with
          location := t.location.modify vm fun r =>
            { r with
              lastSeen := max r.lastSeen seenTs, lastIface := loc.iface, lastBridge := loc.bridge
              alertLevel := .ok, alertFlags := .none } }
      else
        let (confirmed, reason) := oldNodeMissingEnough m (t.presence.get? (vm, old.node)) seenTs
        if confirmed then
          { presence := t.presence.modify (vm, old.node) fun r =>
              { r with
                status := .migrated, migratedTo := some node, migratedAt := some seenTs, alertFlags := .migratedTo node }
            inventory := t.inventory.modify (old.node, vm) (InventoryRow.mark .migrated)
            location := t.location.modify vm fun r =>
              { r with
                node, previousNode := some old.node, movedAt := some seenTs, moveCount := old.moveCount + 1
                lastSeen := seenTs, lastIface := loc.iface, lastBridge := loc.bridge
                alertLevel := .migrated, alertFlags := .migratedFrom old.node }
            events := insertEvent
              { time := seenTs, vmUuid := vm, oldNode := old.node, newNode := node, oldLastSeen := old.lastSeen
                newSeen := seenTs, detail := reason }
              t.events }
        else
          { t with
            presence :=
              (t.presence.modify (vm, old.node) fun r =>
                { r with
                  status := .pendingMigration, pendingNode := some node, alertFlags := .pendingTo node reason }).modify
                (vm, node) fun r =>
                { r with
                  status := .pendingMigration, pendingNode := some old.node
                  alertFlags := .pendingFrom old.node reason }
            inventory :=
              (t.inventory.modify (old.node, vm) (InventoryRow.mark .pendingMigration)).modify (node, vm)
                (InventoryRow.mark .pendingMigration)
            location := t.location.modify vm fun r =>
              { r with
                lastSeen := max r.lastSeen seenTs, alertLevel := .pendingMigration
                alertFlags := .pendingMove old.node node reason } }

/-- `process_node_vm_presence` of layer 02, which returns nothing. `order` is the order in which its last loop walks the
    set. -/
def processNodeVmPresencePerRow (m : Migration) (node : String) (seen : List (String × Loc)) (order : List String)
    (seenTs : Int) (inventoryComplete : Bool) (t : Tables) : Tables × Option Nat :=
  let rows := seen.filterMap named
  let t := rows.foldl (presenceUpsertSeen node seenTs) t
  let t := if inventoryComplete then markMissingOnNode node (rows.map Prod.fst) seenTs t else t
  let locOf := fun vm => ((seen.find? fun entry => entry.1 = vm).map Prod.snd).getD {}
  let turns := order.map fun vm => (vm, (⟨orDash (locOf vm).iface, orDash (locOf vm).bridge⟩ : Loc))
  (turns.foldl (createOrUpdateLocation m node seenTs) t, none)

/-! ## The writer in sets (layer 37) -/

/-- The `UPDATE … RETURNING` of the missing rows and the update of their inventory rows. -/
def markMissing (node : String) (staged : List String) (seenTs : Int) (t : Tables) : Tables :=
  let missing := fun (key : String × String) (r : PresenceRow) =>
    key.2 = node && r.status.expected && decide (key.1 ∉ staged)
  { t with
    presence := t.presence.update fun key r =>
      if missing key r then r.markMissing seenTs (r.missingSince.getD seenTs) else r
    inventory := t.inventory.update fun key r =>
      if key.1 = node ∧ (t.presence.get? (key.2, node)).any (missing (key.2, node)) then r.mark .missing else r }

/-- `INSERT … SELECT … WHERE NOT EXISTS … ON CONFLICT DO NOTHING` on `vm_location_latest`. -/
def insertLocations (node : String) (seenTs : Int) (rows : List (String × Loc)) (t : Tables) : Tables :=
  { t with
    location := rows.foldl
      (fun table item => table.upsert item.1
        { node, firstSeen := seenTs, lastSeen := seenTs, previousNode := none, movedAt := none, moveCount := 0
          lastIface := item.2.iface, lastBridge := item.2.bridge, alertLevel := .ok, alertFlags := .none }
        fun old _ => old)
      t.location }

/-- `UPDATE vm_location_latest … FROM` the stage, for the VMs located on the node. -/
def refreshLocations (node : String) (seenTs : Int) (rows : List (String × Loc)) (t : Tables) : Tables :=
  { t with
    location := t.location.update fun vm r =>
      match rows.find? fun item => item.1 = vm with
      | some item =>
          if r.node = node then
            { r with
              lastSeen := max r.lastSeen seenTs, lastIface := item.2.iface, lastBridge := item.2.bridge
              alertLevel := .ok, alertFlags := .none }
          else r
      | none => r }

/-- `_v5052_process_node_vm_presence`, which returns the number of staged rows; the statements fail when two UUIDs are one
    once stripped. -/
def processNodeVmPresence (m : Migration) (node : String) (seen : List (String × Loc)) (seenTs : Int)
    (inventoryComplete : Bool) (t : Tables) : Option (Tables × Option Nat) :=
  let rows := seen.filterMap named
  if (rows.map Prod.fst).Nodup then
    let t := rows.foldl (presenceUpsertSeen node seenTs) t
    let t := if inventoryComplete then markMissing node (rows.map Prod.fst) seenTs t else t
    let moved := (rows.filter fun item => (t.location.get? item.1).any fun old => old.node ≠ node).mergeSort
      fun a b => decide (a.1 ≤ b.1)
    let t := refreshLocations node seenTs rows (insertLocations node seenTs rows t)
    some (moved.foldl (createOrUpdateLocation m node seenTs) t, some rows.length)
  else none

end VirtInfra.Inventory
