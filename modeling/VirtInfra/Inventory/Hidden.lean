import VirtInfra.Inventory.Liveness

/-!
# `Hidden` — what an administrator has hidden

The administrator hides and restores rows of `node_inventory` and `vm_inventory`. Everything else that writes the status of
a row goes around the hidden ones: the upserts of a push, the marks of the presence writer, the purge of migrated VMs and
the expiry of rows that were not seen for long.
-/

namespace VirtInfra.Inventory

open Lib Python

/-! ## The tables -/

/-- A row of `node_inventory`. -/
structure NodeRow where
  firstSeen : Int
  lastPush : Int
  status : InventoryStatus
  hiddenAt : Option Int
  deletedAt : Option Int
  deriving DecidableEq, Repr

structure Site where
  fleet : Fleet
  nodes : KeyedTable String NodeRow

/-- A row that an administrator can hide. -/
inductive Item
  | node (node : String)
  | vm (node vmUuid : String)
  deriving DecidableEq, Repr

/-- The columns that say whether a row is shown. -/
structure Visibility where
  status : InventoryStatus
  hiddenAt : Option Int
  deletedAt : Option Int
  deriving DecidableEq, Repr

def NodeRow.visibility (r : NodeRow) : Visibility := ⟨r.status, r.hiddenAt, r.deletedAt⟩

def InventoryRow.visibility (r : InventoryRow) : Visibility := ⟨r.status, r.hiddenAt, r.deletedAt⟩

def Site.vms (s : Site) : KeyedTable (String × String) InventoryRow := s.fleet.tables.inventory

def Site.setVms (s : Site) (vms : KeyedTable (String × String) InventoryRow) : Site :=
  { s with fleet := { s.fleet with tables := { s.fleet.tables with inventory := vms } } }

@[simp] theorem Site.vms_setVms (s : Site) (vms : KeyedTable (String × String) InventoryRow) : (s.setVms vms).vms = vms :=
  rfl

@[simp] theorem Site.nodes_setVms (s : Site) (vms : KeyedTable (String × String) InventoryRow) :
    (s.setVms vms).nodes = s.nodes := rfl

def Site.visibility (s : Site) : Item → Option Visibility
  | .node node => (s.nodes.get? node).map NodeRow.visibility
  | .vm node vmUuid => (s.vms.get? (node, vmUuid)).map InventoryRow.visibility

/-! ## Pushes -/

/-- The row that a push inserts, and what it does to the one that is there. -/
def pushedNode (p : InventoryPush) : NodeRow := ⟨p.time, p.time, .active, none, none⟩

def mergeNode (old new : NodeRow) : NodeRow where
  firstSeen := old.firstSeen
  lastPush := max old.lastPush new.lastPush
  status := if old.status = .hidden then .hidden else .active
  hiddenAt := if old.status = .hidden then old.hiddenAt else none
  deletedAt := none

def Site.push (m : Migration) (now : Int) (p : InventoryPush) (s : Site) : Option Site :=
  (s.fleet.push m now p).map fun fleet => { fleet, nodes := s.nodes.upsert p.node (pushedNode p) mergeNode }

/-! ## Expiry -/

/-- `VM_STALE_SECONDS`, `VM_AUTO_DELETE_SECONDS` and `NODE_AUTO_DELETE_SECONDS`. -/
structure Expiry where
  vmStaleSeconds : Int := 259200
  vmAutoDeleteSeconds : Int := 1296000
  nodeAutoDeleteSeconds : Int := 604800

/-- `SELECT … WHERE cond ORDER BY le FOR UPDATE SKIP LOCKED LIMIT limit`: the keys of the first rows that no other
    transaction has locked. -/
def selectForUpdate {κ ρ : Type} [DecidableEq κ] (t : KeyedTable κ ρ) (cond : ρ → Bool) (le : κ × ρ → κ × ρ → Bool)
    (locked : κ → Bool) (limit : Nat) : List κ :=
  (((t.rows.filter fun row => cond row.2 && !locked row.1).mergeSort le).take limit).map Prod.fst

theorem of_mem_selectForUpdate {κ ρ : Type} [DecidableEq κ] {t : KeyedTable κ ρ} {cond : ρ → Bool}
    {le : κ × ρ → κ × ρ → Bool} {locked : κ → Bool} {limit : Nat} {k : κ} {r : ρ}
    (h : k ∈ selectForUpdate t cond le locked limit) (hr : t.get? k = some r) : cond r = true := by
  obtain ⟨row, hrow, rfl⟩ := List.mem_map.mp h
  have hmem := List.mem_mergeSort.mp (List.mem_of_mem_take hrow)
  obtain ⟨hrows, hcond⟩ := List.mem_filter.mp hmem
  rw [KeyedTable.get?_of_mem_rows (k := row.1) (r := row.2) hrows] at hr
  obtain rfl := Option.some.inj hr
  exact (Bool.and_eq_true _ _ ▸ hcond).1

/-- `ORDER BY last_seen, node, vm_uuid`. -/
def byLastSeen (a b : (String × String) × InventoryRow) : Bool :=
  decide (a.2.lastSeen < b.2.lastSeen ∨
    a.2.lastSeen = b.2.lastSeen ∧ (a.1.1 < b.1.1 ∨ a.1.1 = b.1.1 ∧ a.1.2 ≤ b.1.2))

/-- `ORDER BY last_push, node`. -/
def byLastPush (a b : String × NodeRow) : Bool :=
  decide (a.2.lastPush < b.2.lastPush ∨ a.2.lastPush = b.2.lastPush ∧ a.1 ≤ b.1)

section Batches

variable (e : Expiry) (ts : Int) (limit : Nat)

local instance lawfulKey : LawfulBEq (String × String) := inferInstance

/-- The first batch statement of `run_inventory_cleanup_batches`. -/
def vmStaleBatch (locked : String × String → Bool) (s : Site) : Site :=
  let targets := selectForUpdate s.vms
    (fun r => r.status = .active && r.deletedAt = none && decide (r.lastSeen < ts - e.vmStaleSeconds) &&
      decide (r.lastSeen ≥ ts - e.vmAutoDeleteSeconds)) byLastSeen locked limit
  s.setVms (s.vms.update fun key r =>
    if key ∈ targets then { r with status := .stale, hiddenAt := r.hiddenAt.or (some ts) } else r)

/-- The second one. -/
def vmDeletedBatch (locked : String × String → Bool) (s : Site) : Site :=
  let targets := selectForUpdate s.vms
    (fun r => decide (r.status ∈ [.active, .stale, .missing]) && r.status ≠ .hidden && r.deletedAt = none &&
      decide (r.lastSeen < ts - e.vmAutoDeleteSeconds)) byLastSeen locked limit
  s.setVms (s.vms.update fun key r =>
    if key ∈ targets then { r with status := .deleted, deletedAt := r.deletedAt.or (some ts) } else r)

/-- The third one. -/
def nodeDeletedBatch (locked : String → Bool) (s : Site) : Site :=
  let targets := selectForUpdate s.nodes
    (fun r => decide (r.status ∈ [.active, .stale, .missing]) && r.status ≠ .hidden && r.deletedAt = none &&
      decide (r.lastPush < ts - e.nodeAutoDeleteSeconds)) byLastPush locked limit
  { s with
    nodes := s.nodes.update fun key r =>
      if key ∈ targets then { r with status := .deleted, deletedAt := r.deletedAt.or (some ts) } else r }

end Batches

/-! ## The administrator -/

/-- `SET status='hidden', hidden_at=COALESCE(hidden_at, now), deleted_at=NULL` on one row. -/
def hideItem (s : Site) (item : Int × Item) : Site :=
  match item with
  | (now, .node node) =>
      { s with
        nodes := s.nodes.modify node fun r =>
          { r with status := .hidden, hiddenAt := r.hiddenAt.or (some now), deletedAt := none } }
  | (now, .vm node vmUuid) =>
      s.setVms (s.vms.modify (node, vmUuid) fun r =>
        { r with status := .hidden, hiddenAt := r.hiddenAt.or (some now), deletedAt := none })

/-- `admin_delete_node`, `admin_delete_vm`, `admin_bulk_nodes` and `admin_bulk_vms`, hiding. -/
def hide (items : List (Int × Item)) (s : Site) : Site := items.foldl hideItem s

/-- `SET status='active', hidden_at=NULL, deleted_at=NULL` on one row. -/
def restoreItem (s : Site) (item : Item) : Site :=
  match item with
  | .node node =>
      { s with nodes := s.nodes.modify node fun r => { r with status := .active, hiddenAt := none, deletedAt := none } }
  | .vm node vmUuid =>
      s.setVms (s.vms.modify (node, vmUuid) fun r => { r with status := .active, hiddenAt := none, deletedAt := none })

/-- `admin_restore_node`, `admin_restore_vm` and the bulk actions, restoring. -/
def restore (items : List Item) (s : Site) : Site := items.foldl restoreItem s

/-- `purge_node_data`. -/
def purgeNodeData (rank : Candidate → Nat) (now : Int) (node : String) (s : Site) : Site where
  fleet := purgeAllVmsForNode rank now node s.fleet
  nodes := s.nodes.deleteWhere fun key => key = node

/-! ## Runs -/

/-- `run_retention` and `delete_history_older_than` write neither table, nor those of the fleet. -/
inductive SiteLabel
  | push (now : Int) (p : InventoryPush)
  | autoPurge (now : Int)
  | vmStale (ts : Int) (limit : Nat) (locked : String × String → Bool)
  | vmDeleted (ts : Int) (limit : Nat) (locked : String × String → Bool)
  | nodeDeleted (ts : Int) (limit : Nat) (locked : String → Bool)
  | retention
  | hide (items : List (Int × Item))
  | restore (items : List Item)
  | purgeVm (vmUuid : String)
  | purgeNodeVms (now : Int) (node : String) (rank : Candidate → Nat)
  | purgeNode (now : Int) (node : String) (rank : Candidate → Nat)

def Site.step (m : Migration) (e : Expiry) (s : Site) : SiteLabel → Option Site
  | .push now p => s.push m now p
  | .autoPurge now => some { s with fleet := autoPurgeMigratedVms m now s.fleet }
  | .vmStale ts limit locked => some (vmStaleBatch e ts limit locked s)
  | .vmDeleted ts limit locked => some (vmDeletedBatch e ts limit locked s)
  | .nodeDeleted ts limit locked => some (nodeDeletedBatch e ts limit locked s)
  | .retention => some s
  | .hide items => some (Inventory.hide items s)
  | .restore items => some (Inventory.restore items s)
  | .purgeVm vmUuid => some { s with fleet := purgeVmData vmUuid s.fleet }
  | .purgeNodeVms now node rank => some { s with fleet := purgeAllVmsForNode rank now node s.fleet }
  | .purgeNode now node rank => some (purgeNodeData rank now node s)

/-- The runs from a given state on. -/
def siteFrom (m : Migration) (e : Expiry) (start : Site) : System Site SiteLabel where
  init s := s = start
  step := Site.step m e

/-- **An administrator restores or purges the item.** A purge of a VM takes its rows on every node. -/
def SiteLabel.Releases (item : Item) : SiteLabel → Prop
  | .restore items => item ∈ items
  | .purgeVm vmUuid => ∃ node, item = .vm node vmUuid
  | .purgeNodeVms _ node _ => ∃ vmUuid, item = .vm node vmUuid
  | .purgeNode _ node _ => item = .node node ∨ ∃ vmUuid, item = .vm node vmUuid
  | _ => False

/-! ## The writers go around hidden rows -/

section Writers

variable {m : Migration} {node : String} {seenTs now : Int} {t : Tables} {key : String × String} {r : InventoryRow}

theorem InventoryRow.mark_hidden (h : r.status = .hidden) (status : InventoryStatus) : r.mark status = r := if_pos h

theorem get?_modify_mark {table : KeyedTable (String × String) InventoryRow} (hr : table.get? key = some r)
    (h : r.status = .hidden) (key' : String × String) (status : InventoryStatus) :
    (table.modify key' (InventoryRow.mark status)).get? key = some r := by
  rw [KeyedTable.get?_modify, hr, Option.map_some]
  split
  · rw [InventoryRow.mark_hidden h]
  · rfl

/-- The transition. -/
theorem hidden_createOrUpdateLocation {item : String × Loc} (hr : t.inventory.get? key = some r) (h : r.status = .hidden) :
    (createOrUpdateLocation m node seenTs t item).inventory.get? key = some r := by
  obtain ⟨vm, loc⟩ := item
  unfold createOrUpdateLocation
  dsimp only
  split
  · exact hr
  · split
    · exact hr
    · split
      · exact get?_modify_mark hr h _ _
      · exact get?_modify_mark (get?_modify_mark hr h _ _) h _ _

/-- The upsert of a VM that is there. -/
theorem hidden_presenceUpsertSeen (node : String) (seenTs : Int) (item : String × Loc) (hr : t.inventory.get? key = some r) (h : r.status = .hidden) :
    ∃ r', (presenceUpsertSeen node seenTs t item).inventory.get? key = some r' ∧ r'.visibility = r.visibility := by
  show ∃ r', (t.inventory.upsert (node, item.1) _ _).get? key = some r' ∧ _
  by_cases hkey : key = (node, item.1)
  · subst hkey
    rw [KeyedTable.get?_upsert_self, hr]
    exact ⟨_, rfl, by simp [seenInventoryMerge, InventoryRow.visibility, h]⟩
  · rw [KeyedTable.get?_upsert_of_ne _ _ _ hkey]
    exact ⟨r, hr, rfl⟩

theorem hidden_markMissing (hr : t.inventory.get? key = some r) (h : r.status = .hidden) (staged : List String) :
    (markMissing node staged seenTs t).inventory.get? key = some r := by
  show (t.inventory.update _).get? key = some r
  rw [KeyedTable.get?_update, hr, Option.map_some]
  split
  · rw [InventoryRow.mark_hidden h]
  · rfl

/-- **The presence writer.** -/
theorem hidden_process {seen : List (String × Loc)} {complete : Bool} {t' : Tables} {n : Option Nat} {vm : String}
    (hprocess : processNodeVmPresence m node seen seenTs complete t = some (t', n)) {node' : String}
    (hr : t.inventory.get? (node', vm) = some r) (h : r.status = .hidden) :
    ∃ r', t'.inventory.get? (node', vm) = some r' ∧ r'.visibility = r.visibility := by
  by_cases hseen : ∃ item ∈ seen.filterMap named, vm = item.1
  · obtain ⟨item, hitem, rfl⟩ := hseen
    have hview : t'.inventory.get? (node', item.1) = _ :=
      congrFun (congrArg VmView.inventory (view_process_seen hprocess hitem)) node'
    obtain ⟨r', hr', hsame⟩ := hidden_presenceUpsertSeen node seenTs item hr h
    have hstatus : r'.status = .hidden := (congrArg Visibility.status hsame).trans h
    rw [hview]
    exact ⟨r', hidden_createOrUpdateLocation hr' hstatus, hsame⟩
  · have hunseen : ∀ item ∈ seen.filterMap named, vm ≠ item.1 := fun item hitem heq => hseen ⟨item, hitem, heq⟩
    have hview : t'.inventory.get? (node', vm) = (if complete = true then markMissing node [] seenTs t else t).inventory.get?
        (node', vm) := congrFun (congrArg VmView.inventory (view_process_unseen hprocess hunseen)) node'
    rw [hview]
    split
    · exact ⟨r, hidden_markMissing hr h [], rfl⟩
    · exact ⟨r, hr, rfl⟩

theorem hidden_autoPurge {d : Fleet} (hr : d.tables.inventory.get? key = some r) (h : r.status = .hidden) :
    (autoPurgeMigratedVms m now d).tables.inventory.get? key = some r := by
  show (d.tables.inventory.update _).get? key = some r
  rw [KeyedTable.get?_update, hr, Option.map_some]
  split
  · rw [InventoryRow.markPurged, if_pos h]
  · rfl

theorem hidden_push {p : InventoryPush} {d d' : Fleet} (hpush : d.push m now p = some d')
    (hr : d.tables.inventory.get? key = some r) (h : r.status = .hidden) :
    ∃ r', d'.tables.inventory.get? key = some r' ∧ r'.visibility = r.visibility := by
  obtain ⟨tables, n, hprocess, htables, -⟩ := push_eq_some hpush
  obtain ⟨r', hr', hsame⟩ := hidden_process hprocess hr h
  have hstatus : r'.status = .hidden := (congrArg Visibility.status hsame).trans h
  rw [htables]
  exact ⟨r', hidden_autoPurge (d := { d with tables }) hr' hstatus, hsame⟩

end Writers

/-! ## One step -/

section Step

variable {m : Migration} {e : Expiry} {s s' : Site} {l : SiteLabel} {v : Visibility}

theorem visibility_eq_some_vm {node vmUuid : String} : s.visibility (.vm node vmUuid) = some v ↔
    ∃ r, s.vms.get? (node, vmUuid) = some r ∧ r.visibility = v := Option.map_eq_some_iff

theorem visibility_eq_some_node {node : String} : s.visibility (.node node) = some v ↔
    ∃ r, s.nodes.get? node = some r ∧ r.visibility = v := Option.map_eq_some_iff

/-- A restore of other rows. -/
theorem visibility_restoreItem {item other : Item} (hne : item ≠ other) :
    (restoreItem s other).visibility item = s.visibility item := by
  cases other with
  | node node =>
      cases item with
      | vm node' vmUuid => rfl
      | node node' =>
          show ((s.nodes.modify node _).get? node').map _ = _
          rw [KeyedTable.get?_modify_of_ne _ _ fun heq => hne (by rw [heq])]
          rfl
  | vm node vmUuid =>
      cases item with
      | node node' => rfl
      | vm node' vmUuid' =>
          unfold restoreItem Site.visibility
          dsimp only
          rw [Site.vms_setVms, KeyedTable.get?_modify_of_ne]
          rintro ⟨rfl, rfl⟩
          exact hne rfl

theorem visibility_restore {item : Item} (items : List Item) (hnot : item ∉ items) :
    (restore items s).visibility item = s.visibility item := by
  unfold restore
  induction items generalizing s with
  | nil => rfl
  | cons other rest ih =>
      rw [List.foldl_cons, ih fun hmem => hnot (List.mem_cons_of_mem _ hmem)]
      exact visibility_restoreItem fun heq => hnot (heq ▸ List.mem_cons_self)

/-- What a hiding leaves of a row that has the columns `v`. -/
def Visibility.hide (now : Int) (v : Visibility) : Visibility := ⟨.hidden, v.hiddenAt.or (some now), none⟩

/-- An update of one node's row, seen through the columns. -/
theorem visibility_modifyNode {f : NodeRow → NodeRow} {g : Visibility → Visibility}
    (hf : ∀ r, (f r).visibility = g r.visibility) (node : String) (item : Item) :
    ({ s with nodes := s.nodes.modify node f } : Site).visibility item =
      (s.visibility item).map fun v => if item = .node node then g v else v := by
  cases item with
  | vm node' vmUuid => simp [Site.visibility, Site.vms, Function.comp_def]
  | node node' =>
      show ((s.nodes.modify node _).get? node').map _ = ((s.nodes.get? node').map _).map _
      rw [KeyedTable.get?_modify, Option.map_map, Option.map_map]
      congr 1
      funext r
      by_cases hkey : node' = node <;> simp [hkey, hf]

/-- The item is a VM of a selection. -/
def Item.vmIn (p : String × String → Bool) : Item → Bool
  | .node _ => false
  | .vm host vmUuid => p (host, vmUuid)

/-- An update of the rows of some VMs. -/
theorem visibility_updateVms {f : InventoryRow → InventoryRow} {g : Visibility → Visibility} {p : String × String → Bool}
    (hf : ∀ r, (f r).visibility = g r.visibility) (item : Item) :
    (s.setVms (s.vms.update fun key r => if p key then f r else r)).visibility item =
      (s.visibility item).map fun v => if item.vmIn p then g v else v := by
  cases item with
  | node node => simp [Site.visibility, Site.setVms, Item.vmIn, Function.comp_def]
  | vm node vmUuid =>
      unfold Site.visibility
      dsimp only
      rw [Site.vms_setVms, KeyedTable.get?_update, Option.map_map, Option.map_map]
      congr 1
      funext r
      by_cases hkey : p (node, vmUuid) = true <;> simp [hkey, hf, Item.vmIn]

theorem visibility_modifyVm {f : InventoryRow → InventoryRow} {g : Visibility → Visibility}
    (hf : ∀ r, (f r).visibility = g r.visibility) (node vmUuid : String) (item : Item) :
    (s.setVms (s.vms.modify (node, vmUuid) f)).visibility item =
      (s.visibility item).map fun v => if item = .vm node vmUuid then g v else v := by
  have hmodify : s.vms.modify (node, vmUuid) f =
      s.vms.update fun key r => if decide (key = (node, vmUuid)) then f r else r := by simp [KeyedTable.modify]
  rw [hmodify, visibility_updateVms hf]
  cases item <;> simp [Item.vmIn]

theorem visibility_hideItem (item : Item) (other : Int × Item) : (hideItem s other).visibility item =
    (s.visibility item).map fun v => if item = other.2 then v.hide other.1 else v := by
  obtain ⟨now, other⟩ := other
  cases other with
  | node node => exact visibility_modifyNode (g := Visibility.hide now) (fun _ => rfl) node item
  | vm node vmUuid => exact visibility_modifyVm (g := Visibility.hide now) (fun _ => rfl) node vmUuid item

/-- Hiding a hidden row again changes nothing. -/
theorem visibility_hide_of_hidden {item : Item} {hiddenAt : Int} (items : List (Int × Item))
    (h : s.visibility item = some ⟨.hidden, some hiddenAt, none⟩) :
    (hide items s).visibility item = some ⟨.hidden, some hiddenAt, none⟩ := by
  unfold hide
  induction items generalizing s with
  | nil => exact h
  | cons other rest ih =>
      rw [List.foldl_cons]
      apply ih
      rw [visibility_hideItem, h, Option.map_some]
      split <;> rfl

/-- **A hiding hides.** -/
theorem visibility_hide {item : Item} {now : Int} {items : List (Int × Item)} (hmem : (now, item) ∈ items)
    (hrow : (s.visibility item).isSome) :
    ∃ hiddenAt, (hide items s).visibility item = some ⟨.hidden, some hiddenAt, none⟩ := by
  induction items generalizing s with
  | nil => cases hmem
  | cons other rest ih =>
      rcases List.mem_cons.mp hmem with rfl | hrest
      · obtain ⟨v, hv⟩ := Option.isSome_iff_exists.mp hrow
        have hhidden : (hideItem s (now, item)).visibility item = some (v.hide now) := by
          rw [visibility_hideItem, hv, Option.map_some, if_pos rfl]
        obtain ⟨hiddenAt, hsome⟩ : ∃ hiddenAt, v.hiddenAt.or (some now) = some hiddenAt := by
          cases v.hiddenAt with
          | none => exact ⟨now, rfl⟩
          | some old => exact ⟨old, rfl⟩
        refine ⟨hiddenAt, visibility_hide_of_hidden rest ?_⟩
        rw [hhidden, Visibility.hide, hsome]
      · refine ih hrest ?_
        rw [visibility_hideItem, Option.isSome_map]
        exact hrow

/-- A purge of another node's VMs. -/
theorem get?_purgeAllVmsForNode {rank : Candidate → Nat} {now : Int} {node : String} {d : Fleet} {key : String × String}
    {r : InventoryRow} (hr : d.tables.inventory.get? key = some r) (hne : key.1 ≠ node) :
    (purgeAllVmsForNode rank now node d).tables.inventory.get? key = some r := by
  have hrepair : ∀ (vms : List String) (d : Fleet),
      (vms.foldl (repairVmLocationAfterPurge rank now node) d).tables.inventory = d.tables.inventory := by
    intro vms
    induction vms with
    | nil => intro d; rfl
    | cons vm rest ih =>
        intro d
        rw [List.foldl_cons, ih]
        exact (repair_frame rank now node d vm).2.1
  unfold purgeAllVmsForNode
  rw [hrepair]
  exact KeyedTable.get?_deleteWhere_eq_some.mpr ⟨decide_eq_false hne, hr⟩

/-- A batch statement does not select a hidden row. -/
theorem not_mem_selectForUpdate {κ ρ : Type} [DecidableEq κ] {t : KeyedTable κ ρ} {cond : ρ → Bool}
    {le : κ × ρ → κ × ρ → Bool} {locked : κ → Bool} {limit : Nat} {k : κ} {r : ρ} (hr : t.get? k = some r)
    (hcond : cond r = false) : k ∉ selectForUpdate t cond le locked limit := by
  intro hmem
  rw [of_mem_selectForUpdate hmem hr] at hcond
  cases hcond

/-- What it does not select, it leaves alone. -/
theorem get?_update_of_not_mem {κ ρ : Type} [DecidableEq κ] {t : KeyedTable κ ρ} {targets : List κ}
    [∀ k, Decidable (k ∈ targets)] {k : κ} {r : ρ} (f : ρ → ρ) (hr : t.get? k = some r) (hnot : k ∉ targets) :
    (t.update fun key r => if key ∈ targets then f r else r).get? k = some r := by
  rw [KeyedTable.get?_update, hr, Option.map_some, if_neg hnot]

/-- The step is a purge. -/
def SiteLabel.purges : SiteLabel → Bool
  | .purgeVm _ | .purgeNodeVms _ _ _ | .purgeNode _ _ _ => true
  | _ => false

/-- **A purge of something else leaves a row as it is**, hidden or not. -/
theorem visibility_purge {item : Item} (hpurges : l.purges = true) (h : s.visibility item = some v)
    (hnot : ¬ l.Releases item) (hstep : s.step m e l = some s') : s'.visibility item = some v := by
  cases l with
  | purgeVm vmUuid =>
      obtain rfl := Option.some.inj hstep
      cases item with
      | node node => exact h
      | vm node vmUuid' =>
          obtain ⟨r, hr, hv⟩ := visibility_eq_some_vm.mp h
          refine visibility_eq_some_vm.mpr ⟨r, ?_, hv⟩
          show (s.vms.deleteWhere fun key => key.2 = vmUuid).get? (node, vmUuid') = some r
          exact KeyedTable.get?_deleteWhere_eq_some.mpr ⟨decide_eq_false fun heq => hnot ⟨node, by rw [← heq]⟩, hr⟩
  | purgeNodeVms now node rank =>
      obtain rfl := Option.some.inj hstep
      cases item with
      | node node' => exact h
      | vm node' vmUuid =>
          obtain ⟨r, hr, hv⟩ := visibility_eq_some_vm.mp h
          refine visibility_eq_some_vm.mpr ⟨r, get?_purgeAllVmsForNode hr ?_, hv⟩
          exact fun (heq : node' = node) => hnot ⟨vmUuid, by rw [heq]⟩
  | purgeNode now node rank =>
      obtain rfl := Option.some.inj hstep
      cases item with
      | node node' =>
          obtain ⟨r, hr, hv⟩ := visibility_eq_some_node.mp h
          refine visibility_eq_some_node.mpr ⟨r, ?_, hv⟩
          show (s.nodes.deleteWhere fun key => key = node).get? node' = some r
          exact KeyedTable.get?_deleteWhere_eq_some.mpr ⟨decide_eq_false fun heq => hnot (.inl (by rw [heq])), hr⟩
      | vm node' vmUuid =>
          obtain ⟨r, hr, hv⟩ := visibility_eq_some_vm.mp h
          refine visibility_eq_some_vm.mpr ⟨r, get?_purgeAllVmsForNode hr ?_, hv⟩
          exact fun (heq : node' = node) => hnot (.inr ⟨vmUuid, by rw [heq]⟩)
  | push | autoPurge | vmStale | vmDeleted | nodeDeleted | retention | hide | restore => cases hpurges

/-- **One step on a hidden VM**, unless it is restored, purged or hidden again. -/
theorem hidden_vm_step {node vmUuid : String} {r : InventoryRow} (hr : s.vms.get? (node, vmUuid) = some r)
    (h : r.status = .hidden) (hnot : ¬ l.Releases (.vm node vmUuid)) (hhide : ∀ items, l ≠ .hide items)
    (hstep : s.step m e l = some s') : ∃ r', s'.vms.get? (node, vmUuid) = some r' ∧ r'.visibility = r.visibility := by
  cases l with
  | push now p =>
      obtain ⟨fleet, hpush, rfl⟩ := Option.map_eq_some_iff.mp hstep
      exact hidden_push hpush hr h
  | autoPurge now =>
      obtain rfl := Option.some.inj hstep
      exact ⟨r, hidden_autoPurge hr h, rfl⟩
  | vmStale ts limit locked =>
      obtain rfl := Option.some.inj hstep
      refine ⟨r, ?_, rfl⟩
      rw [vmStaleBatch, Site.vms_setVms]
      refine get?_update_of_not_mem (fun r => { r with status := .stale, hiddenAt := r.hiddenAt.or (some ts) }) hr
        (not_mem_selectForUpdate hr ?_)
      simp [h]
  | vmDeleted ts limit locked =>
      obtain rfl := Option.some.inj hstep
      refine ⟨r, ?_, rfl⟩
      rw [vmDeletedBatch, Site.vms_setVms]
      refine get?_update_of_not_mem (fun r => { r with status := .deleted, deletedAt := r.deletedAt.or (some ts) }) hr
        (not_mem_selectForUpdate hr ?_)
      simp [h]
  | nodeDeleted ts limit locked =>
      obtain rfl := Option.some.inj hstep
      exact ⟨r, hr, rfl⟩
  | retention =>
      obtain rfl := Option.some.inj hstep
      exact ⟨r, hr, rfl⟩
  | hide items => exact absurd rfl (hhide items)
  | restore items =>
      obtain rfl := Option.some.inj hstep
      have hsame := visibility_restore (s := s) items hnot
      exact visibility_eq_some_vm.mp (hsame.trans (visibility_eq_some_vm.mpr ⟨r, hr, rfl⟩))
  | purgeVm | purgeNodeVms | purgeNode =>
      exact visibility_eq_some_vm.mp (visibility_purge rfl (visibility_eq_some_vm.mpr ⟨r, hr, rfl⟩) hnot hstep)

/-- **One step on a hidden node.** A push clears the time of its deletion. -/
theorem hidden_node_step {node : String} {r : NodeRow} (hr : s.nodes.get? node = some r) (h : r.status = .hidden)
    (hnot : ¬ l.Releases (.node node)) (hhide : ∀ items, l ≠ .hide items) (hstep : s.step m e l = some s') :
    ∃ r', s'.nodes.get? node = some r' ∧ r'.status = .hidden ∧ r'.hiddenAt = r.hiddenAt ∧
      (r'.deletedAt = r.deletedAt ∨ r'.deletedAt = none) := by
  cases l with
  | push now p =>
      obtain ⟨fleet, hpush, rfl⟩ := Option.map_eq_some_iff.mp hstep
      show ∃ r', (s.nodes.upsert p.node _ _).get? node = some r' ∧ _
      by_cases hkey : node = p.node
      · subst hkey
        rw [KeyedTable.get?_upsert_self, hr]
        exact ⟨_, rfl, by simp [mergeNode, h]⟩
      · rw [KeyedTable.get?_upsert_of_ne _ _ _ hkey]
        exact ⟨r, hr, h, rfl, .inl rfl⟩
  | nodeDeleted ts limit locked =>
      obtain rfl := Option.some.inj hstep
      refine ⟨r, ?_, h, rfl, .inl rfl⟩
      refine get?_update_of_not_mem (fun r => { r with status := .deleted, deletedAt := r.deletedAt.or (some ts) }) hr
        (not_mem_selectForUpdate hr ?_)
      simp [h]
  | hide items => exact absurd rfl (hhide items)
  | restore items =>
      obtain rfl := Option.some.inj hstep
      have hsame := visibility_restore (s := s) items hnot
      obtain ⟨r', hr', hv⟩ := visibility_eq_some_node.mp (hsame.trans (visibility_eq_some_node.mpr ⟨r, hr, rfl⟩))
      obtain ⟨hstatus, hat, hdeleted⟩ := Visibility.mk.inj hv
      exact ⟨r', hr', hstatus.trans h, hat, .inl hdeleted⟩
  | purgeVm | purgeNodeVms | purgeNode =>
      have hsame := visibility_purge rfl (visibility_eq_some_node.mpr ⟨r, hr, rfl⟩) hnot hstep
      obtain ⟨r', hr', hv⟩ := visibility_eq_some_node.mp hsame
      obtain ⟨hstatus, hat, hdeleted⟩ := Visibility.mk.inj hv
      exact ⟨r', hr', hstatus.trans h, hat, .inl hdeleted⟩
  | autoPurge | vmStale | vmDeleted | retention =>
      obtain rfl := Option.some.inj hstep
      exact ⟨r, hr, h, rfl, .inl rfl⟩

/-- Both, on the columns alone. -/
theorem hidden_row_step {item : Item} {hiddenAt deletedAt : Option Int}
    (h : s.visibility item = some ⟨.hidden, hiddenAt, deletedAt⟩) (hnot : ¬ l.Releases item)
    (hhide : ∀ items, l ≠ .hide items) (hstep : s.step m e l = some s') :
    ∃ deletedAt', s'.visibility item = some ⟨.hidden, hiddenAt, deletedAt'⟩ ∧
      (deletedAt' = deletedAt ∨ deletedAt' = none) := by
  cases item with
  | vm node vmUuid =>
      obtain ⟨r, hr, hv⟩ := visibility_eq_some_vm.mp h
      obtain ⟨r', hr', hsame⟩ := hidden_vm_step hr (congrArg Visibility.status hv) hnot hhide hstep
      exact ⟨deletedAt, visibility_eq_some_vm.mpr ⟨r', hr', hsame.trans hv⟩, .inl rfl⟩
  | node node =>
      obtain ⟨r, hr, hv⟩ := visibility_eq_some_node.mp h
      obtain ⟨hstatus, rfl, rfl⟩ := Visibility.mk.inj hv
      obtain ⟨r', hr', hstatus', hat, hdeleted⟩ := hidden_node_step hr hstatus hnot hhide hstep
      refine ⟨r'.deletedAt, visibility_eq_some_node.mpr ⟨r', hr', ?_⟩, hdeleted⟩
      rw [NodeRow.visibility, hstatus', hat]

/-- **One step leaves a hidden row as it is**, unless it is restored or purged. -/
theorem hidden_step {item : Item} {hiddenAt : Int} (h : s.visibility item = some ⟨.hidden, some hiddenAt, none⟩)
    (hnot : ¬ l.Releases item) (hstep : s.step m e l = some s') :
    s'.visibility item = some ⟨.hidden, some hiddenAt, none⟩ := by
  by_cases hhide : ∃ items, l = .hide items
  · obtain ⟨items, rfl⟩ := hhide
    obtain rfl := Option.some.inj hstep
    exact visibility_hide_of_hidden items h
  · obtain ⟨deletedAt, hrow, hdeleted⟩ := hidden_row_step h hnot (fun items heq => hhide ⟨items, heq⟩) hstep
    rw [hrow, (or_self _).mp hdeleted]

/-- **What an administrator has hidden stays hidden**, with its time and no deletion, until it is restored or purged. -/
theorem hidden_until_released (m : Migration) (e : Expiry) {s : Site} {now : Int} {item : Item} {items : List (Int × Item)}
    (hmem : (now, item) ∈ items) (hrow : (s.visibility item).isSome) :
    ∃ hiddenAt, ∀ s', (siteFrom m e (hide items s)).Reachable (fun _ l => ¬ l.Releases item) s' →
      s'.visibility item = some ⟨.hidden, some hiddenAt, none⟩ := by
  obtain ⟨hiddenAt, hhidden⟩ := visibility_hide hmem hrow
  refine ⟨hiddenAt, fun s' h => ?_⟩
  refine h.invariant (I := fun s => s.visibility item = some ⟨.hidden, some hiddenAt, none⟩) ?_ ?_
  · rintro s rfl
    exact hhidden
  · intro s l s' _ hs hnot hstep
    exact hidden_step hs hnot hstep

/-- A VM that `node1` has reported. -/
def Site.sample : Site where
  fleet :=
    { Fleet.init with
      tables := { Tables.empty with
        inventory := KeyedTable.empty.upsert ("node1", "vm1") (seenInventoryRow 72000 {}) fun old _ => old } }
  nodes := .empty

theorem hidden_until_released_vm : ∃ hiddenAt, ∀ s',
    (siteFrom {} {} (hide [(72300, .vm "node1" "vm1")] Site.sample)).Reachable
      (fun _ l => ¬ l.Releases (.vm "node1" "vm1")) s' →
    s'.visibility (.vm "node1" "vm1") = some ⟨.hidden, some hiddenAt, none⟩ :=
  hidden_until_released {} {} (List.mem_singleton.mpr rfl) (by decide)

end Step

end VirtInfra.Inventory
