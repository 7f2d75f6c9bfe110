import VirtInfra.Current.Writers
import VirtInfra.Inventory.Hidden
import VirtInfra.Lib.RowLocks

/-!
# `NodePurge` — what a purged node leaves behind

`purge_node_data` deletes "every database row belonging to one node". Each layer that added a table wrapped the function
once more, and the wrappers reach every table that pushes fill but one: the row of `node_current_fast` stays. Of a node
that has none, a purge leaves nothing, and of the other nodes it changes only locations that pointed to the purged one
(`purge_erases_iff`).

The tables that a repair of the locations reads are those of `Site`. Of the others only the node of each row matters here:
a push may write any rows of its own node.
-/

namespace VirtInfra.Inventory

open Lib Python

/-! ## The tables -/

/-- The other tables with a `node` column that pushes fill. -/
inductive NodeTable
  | usage | nodeStats | vmPerfStats | vmConsumptionHourly | vmConsumptionDaily | vmConsumptionSnapshotRows
  | vmIfaceCurrent | vmCurrentFast | vmAbuseState | vmAbuseEvents | vmAbuseIncidents
  | vmDiskCurrent | vmDiskSummaryCurrent | vmNicIdentityLookup | vmChart5m | vmRawDetail5m
  | nodeCurrentFast | nodeHostStats | nodeHostLatest | nodeFilesystemStats | nodeFilesystemLatest
  | nodePhysicalNetStats | nodePhysicalNetLatest | nodeStorageCurrent | nodeStorageMountSummaryCurrent
  | nodeBridgeAddressesLatest | agentHealthStats | agentHealthLatest | nodePushSnapshots | pushReceipts
  | nodeMissedEvents | nodeLogs | nodeNicIdentityLookup | nodeChart5m
  | nodeConsumption5m | nodeConsumptionHourly | nodeConsumptionDaily | nodeBandwidthConsumption2h
  | nodeGroupMembershipHistory
  deriving DecidableEq, Repr

/-- The database, as far as rows belong to nodes. `ρ` stands for the other columns of a row. -/
structure NodeStore (ρ : Type) where
  site : Site
  rows : NodeTable → List (String × ρ)
  /-- `node_group_memberships`, whose `node` references `node_inventory`. -/
  memberships : KeyedTable String Nat
  references : ∀ node, (memberships.get? node).isSome → (site.nodes.get? node).isSome

/-- What the purges compute of the columns that are left out. -/
structure Columns (ρ : Type) where
  /-- `vm_count=0, iface_count=0`. -/
  zeroCounts : ρ → ρ
  /-- `vm_public_rx_bytes=0, …, vm_count=0`. -/
  zeroVmColumns : ρ → ρ
  /-- The customer disks summed up by VM, and by mount beside the storage devices, merged into what is there. -/
  diskSummary : List ρ → List ρ → List ρ
  mountSummary : List ρ → List ρ → List ρ → List ρ

namespace NodeStore

variable {ρ : Type}

/-- A change of the tables of the site; `ON DELETE CASCADE` takes the memberships of nodes that are gone. -/
def withSite (site : Site) (s : NodeStore ρ) : NodeStore ρ where
  site := site
  rows := s.rows
  memberships := s.memberships.deleteWhere fun node => (site.nodes.get? node).isNone
  references := by
    intro node hnode
    rw [KeyedTable.get?_deleteWhere] at hnode
    cases hsite : site.nodes.get? node with
    | none => simp [hsite] at hnode
    | some r => rfl

/-- `DELETE FROM table WHERE node=?`, for each of the tables. -/
def deleteRows (tables : List NodeTable) (node : String) (s : NodeStore ρ) : NodeStore ρ :=
  { s with
    rows := fun table =>
      if table ∈ tables then (s.rows table).filter fun row => row.1 ≠ node else s.rows table }

/-- `UPDATE table SET … WHERE node=?`. -/
def updateRows (tables : List NodeTable) (node : String) (f : ρ → ρ) (s : NodeStore ρ) : NodeStore ρ :=
  { s with
    rows := fun table =>
      if table ∈ tables then (s.rows table).map fun row => if row.1 = node then (row.1, f row.2) else row
      else s.rows table }

def nodeRows (table : NodeTable) (node : String) (s : NodeStore ρ) : List ρ :=
  ((s.rows table).filter fun row => row.1 = node).map Prod.snd

/-- The rows of a node are written anew. -/
def replaceRows (table : NodeTable) (node : String) (new : List ρ) (s : NodeStore ρ) : NodeStore ρ :=
  { s with
    rows := fun t =>
      if t = table then ((s.rows t).filter fun row => row.1 ≠ node) ++ new.map fun columns => (node, columns)
      else s.rows t }

/-! ## The purges -/

section Purges

variable (c : Columns ρ) (rank : Candidate → Nat) (now : Int) (node : String) (s : NodeStore ρ)

/-- What `purge_all_vms_for_node` deletes beside the tables of the site. -/
def vmTables : List NodeTable :=
  [.vmIfaceCurrent, .vmCurrentFast, .vmAbuseState, .vmAbuseEvents, .vmAbuseIncidents, .usage, .nodeStats, .vmPerfStats,
    .vmConsumptionHourly, .vmConsumptionDaily, .vmConsumptionSnapshotRows, .vmDiskCurrent]

/-- `purge_all_vms_for_node` of layer 09. -/
def purgeAllVmsForNodeBase : NodeStore ρ :=
  ((s.deleteRows vmTables node).withSite { s.site with fleet := Inventory.purgeAllVmsForNode rank now node s.site.fleet })
    |>.updateRows [.nodePushSnapshots] node c.zeroCounts

/-- `_v48140_refresh_node_summaries`. -/
def refreshNodeSummaries : NodeStore ρ :=
  let disks := s.nodeRows .vmDiskCurrent node
  let s := s.replaceRows .vmDiskSummaryCurrent node (c.diskSummary disks (s.nodeRows .vmDiskSummaryCurrent node))
  s.replaceRows .nodeStorageMountSummaryCurrent node
    (c.mountSummary disks (s.nodeRows .nodeStorageCurrent node) (s.nodeRows .nodeStorageMountSummaryCurrent node))

/-- … of layer 32. -/
def purgeAllVmsForNodeV48140 : NodeStore ρ :=
  ((s.purgeAllVmsForNodeBase c rank now node).deleteRows [.vmDiskSummaryCurrent] node).refreshNodeSummaries c node

/-- … of layer 44, which is the one in force. -/
def purgeAllVmsForNode : NodeStore ρ :=
  (s.purgeAllVmsForNodeV48140 c rank now node).updateRows [.nodeConsumption5m, .nodeConsumptionHourly, .nodeConsumptionDaily]
    node c.zeroVmColumns

/-- What `purge_node_data` deletes after the VMs, beside `node_inventory`. -/
def nodeTables : List NodeTable :=
  [.nodeHostStats, .nodeHostLatest, .nodeFilesystemStats, .nodeFilesystemLatest, .nodePhysicalNetStats,
    .nodePhysicalNetLatest, .nodeStorageCurrent, .nodeBridgeAddressesLatest, .agentHealthStats, .agentHealthLatest,
    .nodePushSnapshots, .pushReceipts, .nodeMissedEvents, .nodeLogs]

/-- `purge_node_data` of layer 09, which calls the purge of the VMs that is in force. -/
def purgeNodeDataBase : NodeStore ρ :=
  let s := (s.purgeAllVmsForNode c rank now node).deleteRows nodeTables node
  s.withSite { s.site with nodes := s.site.nodes.deleteWhere fun key => key = node }

/-- … of layer 32. -/
def purgeNodeDataV48140 : NodeStore ρ :=
  (s.purgeNodeDataBase c rank now node).deleteRows [.vmDiskSummaryCurrent, .nodeStorageMountSummaryCurrent] node

/-- … of layer 34, its first wrapper. -/
def purgeNodeDataV5030 : NodeStore ρ :=
  (s.purgeNodeDataV48140 c rank now node).deleteRows [.nodeBandwidthConsumption2h] node

/-- … its second one. -/
def purgeNodeDataV5040 : NodeStore ρ :=
  (s.purgeNodeDataV5030 c rank now node).deleteRows [.vmChart5m, .vmRawDetail5m, .nodeChart5m] node

/-- … of layer 39. -/
def purgeNodeDataV5058 : NodeStore ρ :=
  (s.purgeNodeDataV5040 c rank now node).deleteRows [.vmNicIdentityLookup, .nodeNicIdentityLookup] node

/-- … of layer 40. -/
def purgeNodeDataV5058r4 : NodeStore ρ :=
  (s.purgeNodeDataV5058 c rank now node).deleteRows
    [.nodeGroupMembershipHistory, .nodeConsumptionHourly, .nodeConsumptionDaily] node

/-- **`purge_node_data`**, of layer 44. -/
def purgeNodeData : NodeStore ρ :=
  (s.purgeNodeDataV5058r4 c rank now node).deleteRows [.nodeConsumption5m] node

end Purges

end NodeStore

/-! ## Runs -/

/-- The rows a push writes are of its own node. -/
structure NodeWrites (ρ : Type) (node : String) where
  write : NodeTable → List (String × ρ) → List (String × ρ)
  others : ∀ table rows, ((write table rows).filter fun row => row.1 ≠ node) = rows.filter fun row => row.1 ≠ node

/-- What `Site.step` does to no row but those of the site, and deletes no node: expiry, hiding, and the purge of a VM or of
    migrated VMs there. -/
def SiteLabel.upkeep : SiteLabel → Bool
  | .push .. | .purgeNodeVms .. | .purgeNode .. => false
  | _ => true

/-- `group` is the group that the trigger on `node_inventory` picks for a new node. -/
inductive NodeLabel (ρ : Type)
  | push (now : Int) (p : InventoryPush) (group : Nat) (writes : NodeWrites ρ p.node)
  | upkeep (l : SiteLabel)
  | retention (keep : NodeTable → String × ρ → Bool)
  | assignNode (node : String) (group : Nat) (audit : ρ)
  | purgeNodeVms (now : Int) (node : String) (rank : Candidate → Nat)
  | purgeNode (now : Int) (node : String) (rank : Candidate → Nat)

namespace NodeStore

variable {ρ : Type}

/-- The upsert of a membership, of a node that is in `node_inventory`. -/
def assign (node : String) (group : Nat) (s : NodeStore ρ) : NodeStore ρ :=
  if h : (s.site.nodes.get? node).isSome then
    { s with
      memberships := s.memberships.put node group
      references := by
        intro other hother
        rw [KeyedTable.get?_put] at hother
        split at hother
        · next heq => exact heq ▸ h
        · exact s.references other hother }
  else s

def step (m : Migration) (e : Expiry) (c : Columns ρ) (s : NodeStore ρ) : NodeLabel ρ → Option (NodeStore ρ)
  | .push now p group writes =>
      (s.site.push m now p).map fun site =>
        let s' := { s.withSite site with rows := fun table => writes.write table (s.rows table) }
        if (s.site.nodes.get? p.node).isNone then s'.assign p.node group else s'
  | .upkeep l => if l.upkeep then (s.site.step m e l).map s.withSite else none
  | .retention keep => some { s with rows := fun table => (s.rows table).filter (keep table) }
  | .assignNode node group audit =>
      some { s.assign node group with
        rows := Function.update s.rows .nodeGroupMembershipHistory ((node, audit) :: s.rows .nodeGroupMembershipHistory) }
  | .purgeNodeVms now node rank => some (s.purgeAllVmsForNode c rank now node)
  | .purgeNode now node rank => some (s.purgeNodeData c rank now node)

def init : NodeStore ρ where
  site := ⟨Fleet.init, .empty⟩
  rows := fun _ => []
  memberships := .empty
  references := by simp

end NodeStore

def nodeSystem {ρ : Type} (m : Migration) (e : Expiry) (c : Columns ρ) : System (NodeStore ρ) (NodeLabel ρ) where
  init s := s = .init
  step := NodeStore.step m e c

/-! ## Rows of the other tables -/

namespace NodeStore

section Rows

variable {ρ : Type} {c : Columns ρ} {rank : Candidate → Nat} {now : Int} {node : String} {s : NodeStore ρ}
  {tables : List NodeTable} {table : NodeTable}

/-- The rows of a table that are not the node's. -/
def othersOf (node : String) (table : NodeTable) (s : NodeStore ρ) : List (String × ρ) :=
  (s.rows table).filter fun row => row.1 ≠ node

theorem othersOf_deleteRows : (s.deleteRows tables node).othersOf node table = s.othersOf node table := by
  unfold othersOf deleteRows
  dsimp only
  split
  · rw [List.filter_filter]
    simp
  · rfl

theorem othersOf_updateRows {f : ρ → ρ} : (s.updateRows tables node f).othersOf node table = s.othersOf node table := by
  unfold othersOf updateRows
  dsimp only
  split
  · induction s.rows table with
    | nil => rfl
    | cons row rest ih =>
        rw [List.map_cons, List.filter_cons, List.filter_cons, ih]
        by_cases hnode : row.1 = node <;> simp [hnode]
  · rfl

theorem othersOf_replaceRows {changed : NodeTable} {new : List ρ} :
    (s.replaceRows changed node new).othersOf node table = s.othersOf node table := by
  unfold othersOf replaceRows
  dsimp only
  split
  · rw [List.filter_append, List.filter_filter]
    simp [List.filter_map, Function.comp_def]
  · rfl

theorem othersOf_refreshNodeSummaries : (s.refreshNodeSummaries c node).othersOf node table = s.othersOf node table := by
  unfold refreshNodeSummaries
  dsimp only
  rw [othersOf_replaceRows, othersOf_replaceRows]

/-- **No purge touches a row of another node.** -/
theorem othersOf_purgeAllVmsForNode :
    (s.purgeAllVmsForNode c rank now node).othersOf node table = s.othersOf node table := by
  unfold purgeAllVmsForNode purgeAllVmsForNodeV48140
  rw [othersOf_updateRows, othersOf_refreshNodeSummaries, othersOf_deleteRows]
  unfold purgeAllVmsForNodeBase
  rw [othersOf_updateRows]
  exact othersOf_deleteRows

theorem othersOf_purgeNodeData : (s.purgeNodeData c rank now node).othersOf node table = s.othersOf node table := by
  unfold purgeNodeData purgeNodeDataV5058r4 purgeNodeDataV5058 purgeNodeDataV5040 purgeNodeDataV5030 purgeNodeDataV48140
  rw [othersOf_deleteRows, othersOf_deleteRows, othersOf_deleteRows, othersOf_deleteRows, othersOf_deleteRows,
    othersOf_deleteRows]
  show (deleteRows nodeTables node (s.purgeAllVmsForNode c rank now node)).othersOf node table = _
  rw [othersOf_deleteRows, othersOf_purgeAllVmsForNode]

/-- A table has no row of the node. -/
def Clear (node : String) (table : NodeTable) (s : NodeStore ρ) : Prop := ∀ row ∈ s.rows table, row.1 ≠ node

theorem clear_deleteRows (h : table ∈ tables ∨ s.Clear node table) : (s.deleteRows tables node).Clear node table := by
  intro row hrow
  unfold deleteRows at hrow
  dsimp only at hrow
  split at hrow
  · simpa using (List.mem_filter.mp hrow).2
  · next hkept => exact h.resolve_left hkept row hrow

theorem clear_updateRows {f : ρ → ρ} (h : s.Clear node table) : (s.updateRows tables node f).Clear node table := by
  intro row hrow
  unfold updateRows at hrow
  dsimp only at hrow
  split at hrow
  · obtain ⟨old, hold, rfl⟩ := List.mem_map.mp hrow
    rw [if_neg (h old hold)]
    exact h old hold
  · exact h row hrow

/-- The tables that the purge of the VMs clears stay clear through the refresh of the summaries. -/
theorem clear_refreshNodeSummaries (hdisk : table ≠ .vmDiskSummaryCurrent)
    (hmount : table ≠ .nodeStorageMountSummaryCurrent) (h : s.Clear node table) :
    (s.refreshNodeSummaries c node).Clear node table := by
  intro row hrow
  unfold refreshNodeSummaries replaceRows at hrow
  dsimp only at hrow
  rw [if_neg hmount, if_neg hdisk] at hrow
  exact h row hrow

theorem clear_purgeAllVmsForNode (h : table ∈ vmTables) : (s.purgeAllVmsForNode c rank now node).Clear node table := by
  have hdisk : table ≠ .vmDiskSummaryCurrent := by
    rintro rfl
    exact absurd h (by decide)
  have hmount : table ≠ .nodeStorageMountSummaryCurrent := by
    rintro rfl
    exact absurd h (by decide)
  unfold purgeAllVmsForNode purgeAllVmsForNodeV48140
  apply clear_updateRows
  apply clear_refreshNodeSummaries hdisk hmount
  apply clear_deleteRows
  right
  unfold purgeAllVmsForNodeBase
  apply clear_updateRows
  exact clear_deleteRows (.inl h)

/-- The tables of one of the statements of the chain. -/
theorem purged_tables (table : NodeTable) : table = .nodeCurrentFast ∨ table ∈ vmTables ∨ table ∈ nodeTables ∨
    table ∈ [.vmDiskSummaryCurrent, .nodeStorageMountSummaryCurrent] ∨ table ∈ [.nodeBandwidthConsumption2h] ∨
    table ∈ [.vmChart5m, .vmRawDetail5m, .nodeChart5m] ∨ table ∈ [.vmNicIdentityLookup, .nodeNicIdentityLookup] ∨
    table ∈ [.nodeGroupMembershipHistory, .nodeConsumptionHourly, .nodeConsumptionDaily] ∨
    table ∈ [.nodeConsumption5m] := by
  cases table <;> decide

/-- **The chain clears every table but one.** -/
theorem clear_purgeNodeData (h : table ≠ .nodeCurrentFast) : (s.purgeNodeData c rank now node).Clear node table := by
  have hbase : table ∈ nodeTables ∨ table ∈ vmTables → (s.purgeNodeDataBase c rank now node).Clear node table := by
    intro h
    show (deleteRows nodeTables node (s.purgeAllVmsForNode c rank now node)).Clear node table
    exact clear_deleteRows (h.imp_right clear_purgeAllVmsForNode)
  unfold purgeNodeData purgeNodeDataV5058r4 purgeNodeDataV5058 purgeNodeDataV5040 purgeNodeDataV5030 purgeNodeDataV48140
  obtain hfast | hvm | hnode | hsummary | h2h | hchart | hnic | hr4 | h5m := purged_tables table
  · exact absurd hfast h
  · have hclear := hbase (.inr hvm)
    iterate 6
      apply clear_deleteRows
      right
    exact hclear
  · have hclear := hbase (.inl hnode)
    iterate 6
      apply clear_deleteRows
      right
    exact hclear
  · iterate 5
      apply clear_deleteRows
      right
    exact clear_deleteRows (.inl hsummary)
  · iterate 4
      apply clear_deleteRows
      right
    exact clear_deleteRows (.inl h2h)
  · iterate 3
      apply clear_deleteRows
      right
    exact clear_deleteRows (.inl hchart)
  · iterate 2
      apply clear_deleteRows
      right
    exact clear_deleteRows (.inl hnic)
  · apply clear_deleteRows
    right
    exact clear_deleteRows (.inl hr4)
  · exact clear_deleteRows (.inl h5m)

/-- **The rows of `node_current_fast` stay.** -/
theorem rows_nodeCurrentFast : (s.purgeNodeData c rank now node).rows .nodeCurrentFast = s.rows .nodeCurrentFast := rfl

end Rows

end NodeStore

/-! ## Locations -/

section Locations

variable {rank : Candidate → Nat} {now : Int} {removed vm : String} {d : Fleet}

/-- A location points to a node. -/
def LocationRow.PointsTo (node : String) (row : LocationRow) : Prop := row.node = node ∨ row.previousNode = some node

/-- The repair's row of a VM. -/
def repairedLocation (rank : Candidate → Nat) (now : Int) (removed : String) (d : Fleet) (vm : String) (row : LocationRow) :
    Option LocationRow :=
  if row.node ≠ removed then
    some (if row.previousNode = some removed then { row with previousNode := none } else row)
  else (remaining rank vm removed d).map fun (c : Candidate) =>
    { row with
      node := c.node, previousNode := none, movedAt := none
      lastSeen := if c.lastSeen = 0 then now else c.lastSeen
      lastIface := orDash (c.lastIface.getD ""), lastBridge := orDash (c.lastBridge.getD "")
      alertLevel := .ok, alertFlags := .none }

theorem location_repair : (repairVmLocationAfterPurge rank now removed d vm).tables.location.get? vm =
    (d.tables.location.get? vm).bind (repairedLocation rank now removed d vm) := by
  unfold repairVmLocationAfterPurge repairedLocation
  cases hrow : d.tables.location.get? vm with
  | none => simp [hrow]
  | some row =>
      dsimp only [Option.bind_some]
      by_cases hnode : row.node = removed
      · rw [if_neg (not_not_intro hnode), if_neg (not_not_intro hnode)]
        cases hremaining : remaining rank vm removed d with
        | none => simp [KeyedTable.get?_deleteWhere]
        | some c => simp [hrow]
      · rw [if_pos hnode, if_pos hnode]
        split <;> simp [hrow]

theorem location_repair_other {vm' : String} (hne : vm' ≠ vm) :
    (repairVmLocationAfterPurge rank now removed d vm).tables.location.get? vm' = d.tables.location.get? vm' := by
  unfold repairVmLocationAfterPurge
  split
  · rfl
  · split
    · split
      · exact KeyedTable.get?_modify_of_ne _ _ hne
      · rfl
    · split
      · exact KeyedTable.get?_modify_of_ne _ _ hne
      · refine (KeyedTable.get?_deleteWhere _ _ _).trans ?_
        rw [if_neg (by simpa using hne)]

/-- The location of a VM, and what a repair reads. -/
def Fleet.locationView (vm : String) (d : Fleet) :
    Option LocationRow × KeyedTable (String × String) PresenceRow × KeyedTable (String × String) InventoryRow ×
      KeyedTable (String × String) LatestRow :=
  (d.tables.location.get? vm, d.tables.presence, d.tables.inventory, d.latest)

theorem perKey_repairLocation (rank : Candidate → Nat) (now : Int) (removed : String) :
    PerKey id Fleet.locationView (repairVmLocationAfterPurge rank now removed) where
  other vm vm' d hne := by
    obtain ⟨hpresence, hinventory, hlatest⟩ := repair_frame rank now removed d vm
    unfold Fleet.locationView
    rw [location_repair_other (show vm' ≠ vm from hne), hpresence, hinventory, hlatest]
  own vm d d' heq := by
    obtain ⟨hpresence, hinventory, hlatest⟩ := repair_frame rank now removed d vm
    obtain ⟨hpresence', hinventory', hlatest'⟩ := repair_frame rank now removed d' vm
    unfold Fleet.locationView at heq ⊢
    simp only [id_eq, Prod.mk.injEq] at heq ⊢
    obtain ⟨hlocated, hp, hi, hl⟩ := heq
    have hremaining : remaining rank vm removed d = remaining rank vm removed d' := by
      unfold remaining candidates
      rw [hp, hi, hl]
    have hrepaired : repairedLocation rank now removed d vm = repairedLocation rank now removed d' vm := by
      funext row
      unfold repairedLocation
      rw [hremaining]
    rw [location_repair, location_repair, hlocated, hrepaired, hpresence, hinventory, hlatest, hpresence', hinventory',
      hlatest']
    exact ⟨rfl, hp, hi, hl⟩

/-- **A repaired row does not point to the removed node.** -/
theorem not_pointsTo_repaired {row row' : LocationRow} (h : repairedLocation rank now removed d vm row = some row') :
    ¬ row'.PointsTo removed := by
  unfold repairedLocation at h
  unfold LocationRow.PointsTo
  split at h
  · next hnode =>
      obtain rfl := Option.some.inj h
      split
      · simp [hnode]
      · next hprevious => simp [hnode, hprevious]
  · obtain ⟨c, hc, rfl⟩ := Option.map_eq_some_iff.mp h
    have hne : c.node ≠ removed := mem_candidates_ne (List.argmin_mem hc)
    simp [hne]

/-- **A row that does not point to it stays.** -/
theorem repaired_of_not_pointsTo {row : LocationRow} (h : ¬ row.PointsTo removed) :
    repairedLocation rank now removed d vm row = some row := by
  obtain ⟨hnode, hprevious⟩ := not_or.mp h
  unfold repairedLocation
  rw [if_pos hnode, if_neg hprevious]

/-- Locations are of VMs with a name, stripped. -/
def Tables.Named (t : Tables) : Prop :=
  ∀ vm row, t.location.get? vm = some row → strip vm = vm ∧ vm ≠ "" ∧ vm ≠ "-"

theorem mem_collect_of_pointsTo (hd : d.tables.Named) {row : LocationRow} (hrow : d.tables.location.get? vm = some row)
    (h : row.PointsTo removed) : vm ∈ collectNodeVmUuids removed d := by
  obtain ⟨hstrip, hblank, hdash⟩ := hd vm row hrow
  have hmem : vm ∈ (d.tables.location.rows.filter fun row =>
      row.2.node = removed || row.2.previousNode = some removed).map Prod.fst := by
    refine List.mem_map.mpr ⟨(vm, row), List.mem_filter.mpr ⟨KeyedTable.mem_rows_of_get? hrow, ?_⟩, rfl⟩
    unfold LocationRow.PointsTo at h
    simpa using h
  unfold collectNodeVmUuids
  refine List.mem_dedup.mpr (List.mem_map.mpr ⟨vm, List.mem_filter.mpr ⟨?_, by simp [hstrip, hblank, hdash]⟩, hstrip⟩)
  exact List.mem_append_left _ (List.mem_append_right _ hmem)

/-- **The locations after a purge.** -/
theorem location_purge (hd : d.tables.Named) (rank : Candidate → Nat) (now : Int) (removed vm : String) :
    (purgeAllVmsForNode rank now removed d).tables.location.get? vm =
      (d.tables.location.get? vm).bind (repairedLocation rank now removed d vm) := by
  have hremaining : remaining rank vm removed (purgedFleet removed d) = remaining rank vm removed d := by
    unfold remaining
    rw [candidates_purgedFleet]
  have hrepaired : repairedLocation rank now removed (purgedFleet removed d) vm =
      repairedLocation rank now removed d vm := by
    funext row
    unfold repairedLocation
    rw [hremaining]
  have hperKey := perKey_repairLocation rank now removed
  change ((collectNodeVmUuids removed d).foldl (repairVmLocationAfterPurge rank now removed)
    (purgedFleet removed d)).tables.location.get? vm = _
  by_cases hmem : vm ∈ collectNodeVmUuids removed d
  · have hnodup : ((collectNodeVmUuids removed d).map id).Nodup := by
      rw [List.map_id]
      exact List.nodup_dedup _
    have hown := congrArg Prod.fst (hperKey.foldl_own (s := purgedFleet removed d) hnodup hmem)
    refine hown.trans ?_
    show (repairVmLocationAfterPurge rank now removed (purgedFleet removed d) vm).tables.location.get? vm = _
    rw [location_repair, hrepaired]
    rfl
  · have hother := congrArg Prod.fst (hperKey.foldl_other (s := purgedFleet removed d) (j := vm) fun other hother heq =>
      hmem (heq ▸ hother))
    refine hother.trans ?_
    show d.tables.location.get? vm = _
    cases hrow : d.tables.location.get? vm with
    | none => rfl
    | some row =>
        symm
        exact repaired_of_not_pointsTo fun hpoints => hmem (mem_collect_of_pointsTo hd hrow hpoints)

theorem events_repair : (repairVmLocationAfterPurge rank now removed d vm).tables.events = d.tables.events := by
  unfold repairVmLocationAfterPurge
  split
  · rfl
  · split
    · split <;> rfl
    · split <;> rfl

/-- The tables that a purge of a node only deletes from. -/
theorem purge_frame (rank : Candidate → Nat) (now : Int) (removed : String) (d : Fleet) :
    (purgeAllVmsForNode rank now removed d).tables.presence = (purgedFleet removed d).tables.presence ∧
    (purgeAllVmsForNode rank now removed d).tables.inventory = (purgedFleet removed d).tables.inventory ∧
    (purgeAllVmsForNode rank now removed d).latest = (purgedFleet removed d).latest ∧
    (purgeAllVmsForNode rank now removed d).tables.events = (purgedFleet removed d).tables.events := by
  refine List.foldlRecOn
    (motive := fun d' : Fleet => d'.tables.presence = (purgedFleet removed d).tables.presence ∧
      d'.tables.inventory = (purgedFleet removed d).tables.inventory ∧ d'.latest = (purgedFleet removed d).latest ∧
      d'.tables.events = (purgedFleet removed d).tables.events) _ _ ⟨rfl, rfl, rfl, rfl⟩ ?_
  intro d' hd' vm _
  obtain ⟨hpresence, hinventory, hlatest⟩ := repair_frame rank now removed d' vm
  rw [hpresence, hinventory, hlatest, events_repair]
  exact hd'

end Locations

/-! ## Every location has a name -/

section Named

variable {m : Migration} {e : Expiry} {t : Tables} {d : Fleet} {p : InventoryPush} {site site' : Site}

theorem Tables.Named.process {tables : Tables} {n : Option Nat} (ht : t.Named)
    (h : processNodeVmPresence m p.node p.seenVmLocations p.time p.inventoryComplete t = some (tables, n)) :
    tables.Named := by
  intro vm row hrow
  by_cases hreports : p.reports vm = true
  · obtain ⟨item, hitem, rfl⟩ := reports_iff.mp hreports
    obtain ⟨entry, -, hentry⟩ := List.mem_filterMap.mp hitem
    exact named_eq_some hentry
  · have hview := view_process_unseen h fun item hitem heq => hreports (reports_iff.mpr ⟨item, hitem, heq.symm⟩)
    have hlocation : tables.location.get? vm = t.location.get? vm := by
      refine (congrArg VmView.location hview).trans ?_
      split <;> rfl
    rw [hlocation] at hrow
    exact ht vm row hrow

theorem Tables.Named.purge (hd : d.tables.Named) (rank : Candidate → Nat) (now : Int) (removed : String) :
    (purgeAllVmsForNode rank now removed d).tables.Named := by
  intro vm row' hrow'
  rw [location_purge hd] at hrow'
  obtain ⟨row, hrow, -⟩ := Option.bind_eq_some_iff.mp hrow'
  exact hd vm row hrow

/-- The steps of the site that are no purge of a node. -/
theorem Tables.Named.site_step {l : SiteLabel} (hd : site.fleet.tables.Named) (hl : l.upkeep = true ∨ ∃ now p, l = .push now p)
    (hstep : site.step m e l = some site') : site'.fleet.tables.Named := by
  cases l with
  | push now p =>
      obtain ⟨fleet, hpush, rfl⟩ := Option.map_eq_some_iff.mp hstep
      obtain ⟨tables, n, hprocess, htables, -⟩ := push_eq_some hpush
      have hwritten := hd.process hprocess
      show fleet.tables.Named
      rw [htables]
      exact hwritten
  | hide items =>
      obtain rfl := Option.some.inj hstep
      refine List.foldlRecOn (motive := fun s : Site => s.fleet.tables.Named) _ _ hd ?_
      rintro s hs ⟨now, item⟩ -
      cases item with
      | node node => exact hs
      | vm node vmUuid => exact hs
  | restore items =>
      obtain rfl := Option.some.inj hstep
      refine List.foldlRecOn (motive := fun s : Site => s.fleet.tables.Named) _ _ hd ?_
      intro s hs item _
      cases item with
      | node node => exact hs
      | vm node vmUuid => exact hs
  | purgeVm vmUuid =>
      obtain rfl := Option.some.inj hstep
      intro vm row hrow
      exact hd vm row (KeyedTable.get?_deleteWhere_eq_some.mp hrow).2
  | purgeNodeVms now node rank => simp [SiteLabel.upkeep] at hl
  | purgeNode now node rank => simp [SiteLabel.upkeep] at hl
  | _ =>
      obtain rfl := Option.some.inj hstep
      exact hd

theorem NodeStore.site_assign {ρ : Type} (node : String) (group : Nat) (s : NodeStore ρ) :
    (s.assign node group).site = s.site := by
  unfold NodeStore.assign
  split <;> rfl

theorem named_of_reachable {ρ : Type} {c : Columns ρ} {s : NodeStore ρ} (h : (nodeSystem m e c).Reachable System.AnyStep s) :
    s.site.fleet.tables.Named := by
  refine h.invariant (I := fun s : NodeStore ρ => s.site.fleet.tables.Named) ?_ ?_
  · rintro s rfl vm row hrow
    exact absurd hrow (by simp [NodeStore.init, Fleet.init, Tables.empty])
  · intro s l s' _ hs _ hstep
    cases l with
    | push now p group writes =>
        obtain ⟨site, hsite, rfl⟩ := Option.map_eq_some_iff.mp hstep
        have hnext : site.fleet.tables.Named := hs.site_step (m := m) (e := e) (.inr ⟨now, p, rfl⟩) hsite
        by_cases hnew : (s.site.nodes.get? p.node).isNone
        · rw [if_pos hnew, NodeStore.site_assign]
          exact hnext
        · rw [if_neg hnew]
          exact hnext
    | upkeep l =>
        unfold nodeSystem NodeStore.step at hstep
        dsimp only at hstep
        split at hstep
        · next hupkeep =>
            obtain ⟨site, hsite, rfl⟩ := Option.map_eq_some_iff.mp hstep
            exact hs.site_step (.inl hupkeep) hsite
        · cases hstep
    | retention keep =>
        obtain rfl := Option.some.inj hstep
        exact hs
    | assignNode node group audit =>
        obtain rfl := Option.some.inj hstep
        show (s.assign node group).site.fleet.tables.Named
        rw [NodeStore.site_assign]
        exact hs
    | purgeNodeVms now node rank =>
        obtain rfl := Option.some.inj hstep
        exact hs.purge rank now node
    | purgeNode now node rank =>
        obtain rfl := Option.some.inj hstep
        exact hs.purge rank now node

end Named

/-! ## The row that is left -/

/-- **Every push with VMs leaves a row of its node in `node_current_fast`.** -/
theorem isSome_node_writeVmMetrics {f : Abuse.InFlight} {vms : List (String × Abuse.VmPerf)} {p : Current.Payload}
    {s : Consumption.Sample} {d d' : Current.Database} (h : Current.writeVmMetrics f vms p s d = some d') :
    (d'.tables.node.get? s.node).isSome := by
  unfold Current.writeVmMetrics at h
  obtain ⟨t, -, ht⟩ := Option.bind_eq_some_iff.mp h
  obtain rfl := Option.some.inj ht
  unfold Current.writeNodeCurrent
  dsimp only
  rw [KeyedTable.get?_upsert_self]
  rfl

/-! ## A purge of a node -/

/-- **Nothing is left of the node.** -/
structure Erased {ρ : Type} (node : String) (s : NodeStore ρ) : Prop where
  rows : ∀ table, s.Clear node table
  memberships : s.memberships.get? node = none
  nodes : s.site.nodes.get? node = none
  inventory : ∀ vm, s.site.vms.get? (node, vm) = none
  presence : ∀ vm, s.site.fleet.tables.presence.get? (vm, node) = none
  latest : ∀ vm, s.site.fleet.latest.get? (node, vm) = none
  location : ∀ vm row, s.site.fleet.tables.location.get? vm = some row → ¬ row.PointsTo node
  events : ∀ event ∈ s.site.fleet.tables.events, event.oldNode ≠ node ∧ event.newNode ≠ node

/-- **Of the other nodes nothing changes**, but for locations that pointed to the node and events that name it. -/
structure OthersKept {ρ : Type} (node : String) (s s' : NodeStore ρ) : Prop where
  rows : ∀ table, s'.othersOf node table = s.othersOf node table
  memberships : ∀ other, other ≠ node → s'.memberships.get? other = s.memberships.get? other
  nodes : ∀ other, other ≠ node → s'.site.nodes.get? other = s.site.nodes.get? other
  inventory : ∀ other vm, other ≠ node → s'.site.vms.get? (other, vm) = s.site.vms.get? (other, vm)
  presence : ∀ other vm, other ≠ node →
    s'.site.fleet.tables.presence.get? (vm, other) = s.site.fleet.tables.presence.get? (vm, other)
  latest : ∀ other vm, other ≠ node → s'.site.fleet.latest.get? (other, vm) = s.site.fleet.latest.get? (other, vm)
  location : ∀ vm, (∀ row, s.site.fleet.tables.location.get? vm = some row → ¬ row.PointsTo node) →
    s'.site.fleet.tables.location.get? vm = s.site.fleet.tables.location.get? vm
  events : s'.site.fleet.tables.events =
    s.site.fleet.tables.events.filter fun event => !(event.oldNode = node || event.newNode = node)

section Purged

variable {ρ : Type} {m : Migration} {e : Expiry} {c : Columns ρ} {rank : Candidate → Nat} {now : Int} {node : String}
  {s : NodeStore ρ}

/-- Two cascades: the first takes nothing, and the second the membership of the node. -/
theorem membership_purgeNodeData (other : String) : (s.purgeNodeData c rank now node).memberships.get? other =
    if other = node then none else s.memberships.get? other := by
  show ((s.memberships.deleteWhere fun key => (s.site.nodes.get? key).isNone).deleteWhere fun key =>
    ((s.site.nodes.deleteWhere fun key => key = node).get? key).isNone).get? other = _
  rw [KeyedTable.get?_deleteWhere, KeyedTable.get?_deleteWhere, KeyedTable.get?_deleteWhere]
  by_cases hother : other = node
  · simp [hother]
  · cases hmembership : s.memberships.get? other with
    | none => simp [hother]
    | some group =>
        have hnode := s.references other (by simp [hmembership])
        simp [hother, Option.isSome_iff_ne_none.mp hnode]

/-- **All of the node is gone but its rows of `node_current_fast`.** -/
theorem erased_purgeNodeData (hnamed : s.site.fleet.tables.Named) (hfast : s.Clear node .nodeCurrentFast) :
    Erased node (s.purgeNodeData c rank now node) := by
  obtain ⟨hpresence, hinventory, hlatest, hevents⟩ := purge_frame rank now node s.site.fleet
  constructor
  case rows =>
    intro table
    by_cases htable : table = .nodeCurrentFast
    · subst htable
      exact hfast
    · exact NodeStore.clear_purgeNodeData htable
  case memberships =>
    rw [membership_purgeNodeData, if_pos rfl]
  case nodes =>
    refine (KeyedTable.get?_deleteWhere _ _ _).trans ?_
    simp
  case inventory =>
    intro vm
    refine (congrArg (fun t => t.get? (node, vm)) hinventory).trans ?_
    simp [purgedFleet, KeyedTable.get?_deleteWhere]
  case presence =>
    intro vm
    refine (congrArg (fun t => t.get? (vm, node)) hpresence).trans ?_
    simp [purgedFleet, KeyedTable.get?_deleteWhere]
  case latest =>
    intro vm
    refine (congrArg (fun t => t.get? (node, vm)) hlatest).trans ?_
    simp [purgedFleet, KeyedTable.get?_deleteWhere]
  case location =>
    intro vm row hrow
    have hrow := (location_purge hnamed rank now node vm).symm.trans hrow
    obtain ⟨old, -, hrepaired⟩ := Option.bind_eq_some_iff.mp hrow
    exact not_pointsTo_repaired hrepaired
  case events =>
    intro event hevent
    have hevent : event ∈ (purgedFleet node s.site.fleet).tables.events := hevents ▸ hevent
    simpa [purgedFleet] using (List.mem_filter.mp hevent).2

/-- **The frame of a purge.** -/
theorem othersKept_purgeNodeData (hnamed : s.site.fleet.tables.Named) :
    OthersKept node s (s.purgeNodeData c rank now node) := by
  obtain ⟨hpresence, hinventory, hlatest, hevents⟩ := purge_frame rank now node s.site.fleet
  constructor
  case rows =>
    intro table
    exact NodeStore.othersOf_purgeNodeData
  case memberships =>
    intro other hother
    rw [membership_purgeNodeData, if_neg hother]
  case nodes =>
    intro other hother
    refine (KeyedTable.get?_deleteWhere s.site.nodes _ _).trans ?_
    simp [hother]
  case inventory =>
    intro other vm hother
    refine (congrArg (fun t => t.get? (other, vm)) hinventory).trans ?_
    simp [purgedFleet, KeyedTable.get?_deleteWhere, hother, Site.vms]
  case presence =>
    intro other vm hother
    refine (congrArg (fun t => t.get? (vm, other)) hpresence).trans ?_
    simp [purgedFleet, KeyedTable.get?_deleteWhere, hother]
  case latest =>
    intro other vm hother
    refine (congrArg (fun t => t.get? (other, vm)) hlatest).trans ?_
    simp [purgedFleet, KeyedTable.get?_deleteWhere, hother]
  case location =>
    intro vm hpoints
    refine (location_purge hnamed rank now node vm).trans ?_
    cases hrow : s.site.fleet.tables.location.get? vm with
    | none => rfl
    | some row => exact repaired_of_not_pointsTo (hpoints row hrow)
  case events => exact hevents

/-- **A purge erases a node exactly when `node_current_fast` has no row of it**, and it keeps what is not the node's. -/
theorem purge_erases_iff (m : Migration) (e : Expiry) (c : Columns ρ)
    (hs : (nodeSystem m e c).Reachable System.AnyStep s) (rank : Candidate → Nat) (now : Int) (node : String) :
    (Erased node (s.purgeNodeData c rank now node) ↔ ∀ row ∈ s.rows .nodeCurrentFast, row.1 ≠ node) ∧
    OthersKept node s (s.purgeNodeData c rank now node) := by
  have hnamed := named_of_reachable hs
  refine ⟨⟨?_, ?_⟩, othersKept_purgeNodeData hnamed⟩
  · intro herased
    exact herased.rows .nodeCurrentFast
  · intro hfast
    exact erased_purgeNodeData hnamed hfast

/-- A push with a VM, as far as the current rows go. -/
def currentWrites (node : String) : NodeWrites Unit node where
  write table rows :=
    if table ∈ [.nodeCurrentFast, .vmCurrentFast] then (rows.filter fun row => row.1 ≠ node) ++ [(node, ())] else rows
  others table rows := by
    split
    · simp [List.filter_append, List.filter_filter]
    · rfl

def purgedColumns : Columns Unit := ⟨id, id, fun _ old => old, fun _ _ old => old⟩

/-- `node1` and `node2` report a VM each. -/
def purgeSteps : List (NodeLabel Unit) :=
  [.push 1200 { node := "node1", time := 1200, vms := ["vm1"], inventoryComplete := true } 1 (currentWrites "node1"),
   .push 1200 { node := "node2", time := 1200, vms := ["vm2"], inventoryComplete := true } 1 (currentWrites "node2")]

def purgeStore : Option (NodeStore Unit) :=
  (nodeSystem .standard {} purgedColumns).exec System.AnyStep NodeStore.init purgeSteps

theorem purge_erases_two_nodes : ∃ s, purgeStore = some s ∧
    (Erased "node1" (s.purgeNodeData purgedColumns (fun _ => 0) 1500 "node1") ↔
      ∀ row ∈ s.rows .nodeCurrentFast, row.1 ≠ "node1") ∧
    OthersKept "node1" s (s.purgeNodeData purgedColumns (fun _ => 0) 1500 "node1") := by
  obtain ⟨s, hs⟩ := Option.isSome_iff_exists.mp (show purgeStore.isSome by decide +kernel)
  exact ⟨s, hs, purge_erases_iff {} {} purgedColumns (System.Reachable.exec (.init rfl) hs) (fun _ => 0) 1500 "node1"⟩

/-- After the purge of `node1` its row of `node_current_fast` is still there. -/
theorem purged_node_keeps_row : ∃ s, (nodeSystem {} {} purgedColumns).Reachable System.AnyStep s ∧
    ("node1", ()) ∈ (s.purgeNodeData purgedColumns (fun _ => 0) 1500 "node1").rows .nodeCurrentFast ∧
    ¬ Erased "node1" (s.purgeNodeData purgedColumns (fun _ => 0) 1500 "node1") := by
  obtain ⟨s, hs⟩ := Option.isSome_iff_exists.mp (show purgeStore.isSome by decide +kernel)
  have hrows : purgeStore.all (fun s => decide (("node1", ()) ∈ s.rows .nodeCurrentFast)) = true := by
    decide +kernel
  rw [hs] at hrows
  have hrow : ("node1", ()) ∈ s.rows .nodeCurrentFast := of_decide_eq_true hrows
  refine ⟨s, System.Reachable.exec (.init rfl) hs, hrow, ?_⟩
  intro herased
  exact herased.rows .nodeCurrentFast _ hrow rfl

end Purged

end VirtInfra.Inventory
