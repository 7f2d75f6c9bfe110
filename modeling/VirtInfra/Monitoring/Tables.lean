import VirtInfra.Consumption.NodeWindow
import VirtInfra.Inventory.Hidden
import VirtInfra.Lib.Erasure
import VirtInfra.Snapshot.Batches

/-!
# `Tables` — what the monitoring pages read, and the part of it that is hidden

Every metric, inventory, consumption and abuse table has a `node` column; `NodeRows` is what these tables hold on one node.
An administrator hides a Node Group by its `is_active` column. Its nodes keep their rows, and every page has to leave them
out. `Tables.erase` is the database without them.
-/

namespace VirtInfra.Monitoring

open Lib Python

/-! ## Settings -/

/-- `CACHE_BUCKET_SECONDS` and `NODE_AUTO_DELETE_SECONDS`. -/
def cacheBucketSeconds : Int := 300

def nodeAutoDeleteSeconds : Int := 7 * 86400

/-- `PERIODS`. -/
def periods : List (String × Int) :=
  [("5m", 300), ("10m", 600), ("15m", 900), ("30m", 1800), ("1h", 3600), ("2h", 7200), ("6h", 21600), ("12h", 43200),
    ("24h", 86400), ("2d", 172800), ("7d", 604800)]

/-- `PERIOD_ALIASES`. -/
def periodAliases : List (String × String) :=
  [("30d", "7d"), ("48h", "2d"), ("60d", "7d"), ("6mo", "7d"), ("1mo", "7d")]

def periodSeconds (period : String) : Int := (periods.lookup period).getD 3600

def cleanPeriod (period : String) : String :=
  let period := (periodAliases.lookup period).getD period
  if (periods.lookup period).isSome then period else "1h"

/-- `normalize_mac_address`. -/
def normalizeMacAddress (value : String) : String :=
  let compact := (lower (strip value)).toList.filter fun c => c ∈ "0123456789abcdef".toList
  if compact.length ≠ 12 then ""
  else
    String.intercalate ":" ((List.range 6).map fun i => String.ofList ((compact.drop (2 * i)).take 2))

/-! ## Rows -/

/-- A row of `node_groups`. -/
structure GroupRow where
  name : String
  description : String
  countryCode : String
  isActive : Bool
  isSystem : Bool

/-- A row of `node_current_fast`; here and below `columns` are the numbers that are only passed on. -/
structure FastNode where
  lastSeen : Int
  columns : String → ℚ

/-- A row of `node_bridge_addresses_latest`. -/
structure BridgeAddress where
  bridge : String
  role : String
  primaryIpv4 : String
  ipv4Json : String
  primaryIpv6 : String
  ipv6Json : String
  mac : String

/-- A row of `node_physical_net_latest`. -/
structure PhysicalNet where
  iface : String
  bridge : String
  role : String
  mac : String
  lastSeen : Int
  columns : String → ℚ

/-- A row of `vm_current_fast` or `vm_latest_metrics`. -/
structure VmMetrics where
  iface : String
  bridge : String
  lastSeen : Int
  columns : String → ℚ

/-- A row of `vm_iface_current`. -/
structure VmIface where
  vmUuid : String
  bridge : String
  iface : String
  mac : String
  lastSeen : Int
  columns : String → ℚ

/-- A row of `vm_nic_identity_lookup`. -/
structure VmNicIdentity where
  mac : String
  vmUuid : String
  bridge : String
  iface : String

/-- A row of `node_nic_identity_lookup`. -/
structure NodeNicIdentity where
  mac : String
  role : String

/-- A row of `vm_abuse_state`. -/
structure AbuseState where
  isAbuse : Bool
  lastSeen : Int
  policyRevision : Int
  engineVersion : String
  abuseFlags : String

/-- A row of `node_push_snapshots`. -/
structure PushSnapshot where
  bucket : Int
  retentionTier : String
  vmCount : Nat
  ifaceCount : Nat

/-- A row of `node_stats` or of `vm_perf_stats`. -/
structure VmStat where
  bucket : Int
  vmUuid : String
  bridge : String
  iface : String
  columns : String → ℚ

/-- A row of `node_physical_net_stats`. -/
structure PhysicalStat where
  bucket : Int
  iface : String
  bridge : String
  role : String
  columns : String → ℚ

/-- A row of `node_host_stats`. -/
structure HostStat where
  id : Nat
  bucket : Int
  time : Int
  columns : String → ℚ

/-- **What the tables hold on one node.** Rows of VMs stand under the VM's uuid. -/
structure NodeRows where
  inventory : Option Inventory.NodeRow := none
  currentFast : Option FastNode := none
  agentHealth : Option Int := none
  hostLatest : Option Int := none
  addresses : List BridgeAddress := []
  physicalLatest : List PhysicalNet := []
  nicIdentities : List NodeNicIdentity := []
  vmInventory : KeyedTable String Inventory.InventoryRow := .empty
  vmCurrentFast : KeyedTable String VmMetrics := .empty
  vmLatestMetrics : KeyedTable String VmMetrics := .empty
  vmIfaces : List VmIface := []
  vmNicIdentities : List VmNicIdentity := []
  vmPresence : KeyedTable String Inventory.PresenceRow := .empty
  vmAbuse : KeyedTable String AbuseState := .empty
  pushSnapshots : List PushSnapshot := []
  netStats : List VmStat := []
  perfStats : List VmStat := []
  physicalStats : List PhysicalStat := []
  hostStats : List HostStat := []
  consumption5m : KeyedTable Int Consumption.NodeConsumption := .empty
  consumptionHourly : KeyedTable Int Consumption.NodeRollup := .empty
  consumptionDaily : KeyedTable Int Consumption.NodeRollup := .empty
  consumptionSnapshot : KeyedTable (Snapshot.Key × String) Snapshot.SnapshotRow := .empty

/-- **The tables.** `vm_location_latest` has one row per VM, which names its node. -/
structure Tables where
  groups : KeyedTable Nat GroupRow := .empty
  members : KeyedTable String Nat := .empty
  nodes : KeyedTable String NodeRows := .empty
  locations : KeyedTable String Inventory.LocationRow := .empty
  batches : KeyedTable Snapshot.Key Snapshot.Batch := .empty

/-- The VMs that a search can find on a node. -/
def NodeRows.vmNames (d : NodeRows) : List String :=
  d.vmCurrentFast.keys ++ d.vmLatestMetrics.keys ++ d.vmInventory.keys ++ d.vmIfaces.map VmIface.vmUuid

/-- **Nodes and VMs have names**: a push strips the name of its node and is rejected without one, and its items that name
    no VM are skipped. -/
structure Tables.Named (t : Tables) : Prop where
  nodes : ∀ row ∈ t.nodes.rows, (strip row.1 = row.1 ∧ row.1 ≠ "") ∧ ∀ vm ∈ row.2.vmNames, vm ≠ ""
  locations : ∀ row ∈ t.locations.rows, (strip row.2.node = row.2.node ∧ row.2.node ≠ "") ∧ row.1 ≠ ""

structure Database extends Tables where
  named : toTables.Named

/-! ## What is hidden -/

/-- `COALESCE(status,'active')!='hidden' AND deleted_at IS NULL`. -/
def visible (status : Inventory.InventoryStatus) (deletedAt : Option Int) : Bool :=
  status != .hidden && deletedAt.isNone

def nodeVisible (row : Inventory.NodeRow) : Bool := visible row.status row.deletedAt

def vmVisible (row : Inventory.InventoryRow) : Bool := visible row.status row.deletedAt

namespace Tables

/-- The group of a node. -/
def groupOf (t : Tables) (node : String) : Option GroupRow := (t.members.get? node).bind t.groups.get?

/-- **The node's group has `is_active = 0`.** -/
def hiddenNode (t : Tables) (node : String) : Bool := (t.groupOf node).any fun g => !g.isActive

/-- A row on a node that is not hidden. -/
def shown (t : Tables) (node : String) : Bool := !t.hiddenNode node

/-- **The database without its hidden groups and the rows of their nodes.** -/
def erase (t : Tables) : Tables where
  groups := t.groups.deleteRows fun _ g => !g.isActive
  members := t.members.deleteWhere t.hiddenNode
  nodes := t.nodes.deleteWhere t.hiddenNode
  locations := t.locations.deleteRows fun _ row => t.hiddenNode row.node
  batches := t.batches

/-- The group, if it is active. -/
def activeGroup (t : Tables) (groupId : Nat) : Option GroupRow := (t.groups.get? groupId).filter GroupRow.isActive

/-- The node's group, if it is active. -/
def activeGroupOf (t : Tables) (node : String) : Option Nat :=
  (t.members.get? node).filter fun groupId => (t.activeGroup groupId).isSome

end Tables

variable {t : Tables} {node : String}

/-! ## Lemmas -/

namespace Tables

@[simp] theorem activeGroup_erase (groupId : Nat) : t.erase.activeGroup groupId = t.activeGroup groupId := by
  unfold activeGroup erase
  rw [KeyedTable.get?_deleteRows]
  cases t.groups.get? groupId with
  | none => rfl
  | some g => cases hactive : g.isActive <;> simp [Option.filter, hactive]

theorem hiddenNode_eq_true : t.hiddenNode node = true ↔
    ∃ groupId g, t.members.get? node = some groupId ∧ t.groups.get? groupId = some g ∧ g.isActive = false := by
  unfold hiddenNode groupOf
  rw [Option.any_eq_true]
  simp only [Option.bind_eq_some_iff, Bool.not_eq_true']
  constructor
  · rintro ⟨g, ⟨groupId, hmember, hget⟩, hinactive⟩
    exact ⟨groupId, g, hmember, hget, hinactive⟩
  · rintro ⟨groupId, g, hmember, hget, hinactive⟩
    exact ⟨g, ⟨groupId, hmember, hget⟩, hinactive⟩

/-- **No node of the erased database is hidden.** -/
@[simp] theorem hiddenNode_erase (node : String) : t.erase.hiddenNode node = false := by
  rw [Bool.eq_false_iff]
  intro h
  obtain ⟨groupId, g, -, hget, hinactive⟩ := hiddenNode_eq_true.mp h
  have hkept : (t.groups.deleteRows fun _ g => !g.isActive).get? groupId = some g := hget
  rw [KeyedTable.get?_deleteRows, Option.filter_eq_some_iff] at hkept
  simp [hinactive] at hkept

@[simp] theorem shown_erase (node : String) : t.erase.shown node = true := by simp [shown]

theorem erase_erase (t : Tables) : t.erase.erase = t.erase := by
  have hnodes : t.erase.hiddenNode = fun _ => false := funext hiddenNode_erase
  have hgroups : t.erase.groups.deleteRows (fun _ g => !g.isActive) = t.erase.groups := by
    refine KeyedTable.ext_rows (List.filter_eq_self.mpr fun row hrow => ?_)
    exact (List.mem_filter.mp hrow).2
  have hwhere : ∀ {ρ : Type} (table : KeyedTable String ρ), table.deleteWhere (fun _ => false) = table := by
    intro ρ table
    exact KeyedTable.ext_rows (List.filter_eq_self.mpr fun _ _ => rfl)
  have hlocations : t.erase.locations.deleteRows (fun _ _ => false) = t.erase.locations :=
    KeyedTable.ext_rows (List.filter_eq_self.mpr fun _ _ => rfl)
  unfold erase at *
  rw [hnodes, hgroups, hwhere, hwhere, hlocations]

/-- What is kept of the nodes, row by row. -/
theorem rows_nodes_erase : t.erase.nodes.rows = t.nodes.rows.filter fun row => t.shown row.1 := rfl

theorem get?_nodes_erase (h : t.hiddenNode node = false) : t.erase.nodes.get? node = t.nodes.get? node := by
  unfold erase
  rw [KeyedTable.get?_deleteWhere, h]
  rfl

theorem get?_members_erase (h : t.hiddenNode node = false) : t.erase.members.get? node = t.members.get? node := by
  unfold erase
  rw [KeyedTable.get?_deleteWhere, h]
  rfl

theorem get?_members_erase_of_hidden (h : t.hiddenNode node = true) : t.erase.members.get? node = none := by
  unfold erase
  rw [KeyedTable.get?_deleteWhere, h]
  rfl

theorem activeGroup_isSome {groupId : Nat} :
    (t.activeGroup groupId).isSome ↔ ∃ g, t.groups.get? groupId = some g ∧ g.isActive = true := by
  unfold activeGroup
  rw [Option.isSome_iff_exists]
  simp only [Option.filter_eq_some_iff]

/-- A node of an active group is not hidden. -/
theorem not_hiddenNode_of_member {groupId : Nat} (hmember : t.members.get? node = some groupId)
    (hactive : (t.activeGroup groupId).isSome) : t.hiddenNode node = false := by
  obtain ⟨g, hget, hisActive⟩ := activeGroup_isSome.mp hactive
  rw [Bool.eq_false_iff]
  intro h
  obtain ⟨groupId', g', hmember', hget', hinactive⟩ := hiddenNode_eq_true.mp h
  obtain rfl := Option.some.inj (hmember.symm.trans hmember')
  obtain rfl := Option.some.inj (hget.symm.trans hget')
  rw [hisActive] at hinactive
  cases hinactive

theorem not_hiddenNode_of_activeGroupOf {groupId : Nat} (h : t.activeGroupOf node = some groupId) :
    t.hiddenNode node = false := by
  obtain ⟨hmember, hactive⟩ := Option.filter_eq_some_iff.mp h
  exact not_hiddenNode_of_member hmember hactive

@[simp] theorem activeGroupOf_erase (node : String) : t.erase.activeGroupOf node = t.activeGroupOf node := by
  cases hhidden : t.hiddenNode node with
  | false =>
      unfold activeGroupOf
      rw [get?_members_erase hhidden]
      simp only [activeGroup_erase]
  | true =>
      have hnone : t.activeGroupOf node = none := by
        rw [Option.eq_none_iff_forall_ne_some]
        intro groupId h
        rw [not_hiddenNode_of_activeGroupOf h] at hhidden
        cases hhidden
      rw [hnone]
      unfold activeGroupOf
      rw [get?_members_erase_of_hidden hhidden]
      rfl

theorem Named.erase (h : t.Named) : t.erase.Named where
  nodes row hrow := h.nodes row (List.mem_filter.mp hrow).1
  locations row hrow := h.locations row (List.mem_filter.mp hrow).1

end Tables

/-- **The database without its hidden groups and the rows of their nodes.** -/
def Database.erase (db : Database) : Database := ⟨db.toTables.erase, db.named.erase⟩

theorem Database.erase_erase (db : Database) : db.erase.erase = db.erase := by
  unfold Database.erase
  congr 1
  exact Tables.erase_erase db.toTables

end VirtInfra.Monitoring
