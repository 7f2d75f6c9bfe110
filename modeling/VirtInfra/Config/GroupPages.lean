import VirtInfra.Config.Nuclear

/-!
# `GroupPages` — the Node Group pages and the trigger of the inventory (`node_groups.py`, `016_configuration_backup_nuclear.sql`)

A page that edits a group reads the row on one connection, checks what it read, and writes on another one: what it writes
is a `GroupChange`, and what it checked may have changed in between. A node gets its membership from the trigger on
`node_inventory`, and from the repairs of the pages where it has none.

The rows of `node_group_membership_history` and of the account log are left out.
-/

namespace VirtInfra.Config

open Lib Python

variable [CaseFold]

/-! ## The forms -/

/-- The fields of the forms that create and edit a group. -/
structure GroupForm where
  name : String
  description : String
  countryCode : String

/-- What passed the checks of such a form. -/
structure GroupEdit where
  name : String
  description : String
  countryCode : String
  named : strip name = name ∧ name ≠ ""
  free : fold name ≠ "ungrouped"

omit [CaseFold] in
/-- `_clean_country_code`: two letters whose flag is on disk. -/
def cleanCountryCode (flags : String → Bool) (value : String) : String :=
  let code := lower (strip value)
  if code.length = 2 ∧ (code.toList.all fun c => 'a' ≤ c && c ≤ 'z') ∧ flags code then code else ""

/-- `not name or len(name) > 80 or name.lower() == SYSTEM_GROUP_NAME.lower()` refuses a form. -/
def GroupForm.checked (flags : String → Bool) (form : GroupForm) : Option GroupEdit :=
  if h : strip form.name ≠ "" ∧ ¬ (strip form.name).length > 80 ∧ fold (strip form.name) ≠ "ungrouped" then
    some
      { name := strip form.name, description := clip 500 (strip form.description)
        countryCode := cleanCountryCode flags form.countryCode
        named := ⟨strip_strip _, h.1⟩, free := h.2.2 }
  else none

/-- The row that the form creates. -/
def GroupEdit.row (edit : GroupEdit) (now : ℕ+) : Group where
  name := edit.name
  description := edit.description
  countryCode := edit.countryCode
  isActive := true
  isSystem := false
  createdAt := now
  updatedAt := now
  named := edit.named
  reserved := by simpa using edit.free

/-- `UPDATE node_groups SET name=?,description=?,country_code=?,updated_at=?`, on a row that is no system group. -/
def GroupEdit.onto (edit : GroupEdit) (now : ℕ+) (old : Group) : Group :=
  { edit.row now with isActive := old.isActive, createdAt := old.createdAt, hiddenAt := old.hiddenAt }

inductive GroupAction
  | hide
  | restore
  | delete
  deriving DecidableEq

omit [CaseFold] in
/-- `action not in {"hide", "restore", "delete"}` refuses a form. -/
def groupAction (value : String) : Option GroupAction :=
  let action := lower (strip value)
  if action = "hide" then some .hide
  else if action = "restore" then some .restore
  else if action = "delete" then some .delete
  else none

/-! ## The pages -/

namespace NodeGroups

/-- `group_row`. -/
def groupRow (n : NodeGroups) (groupId : Int) : Option Group :=
  if groupId ≤ 0 then none else n.groups.get? groupId.toNat

/-- `admin_node_groups_create`; the id is drawn even where the name is taken. -/
def createGroup (n : NodeGroups) (edit : GroupEdit) (now : ℕ+) : NodeGroups :=
  n.setGroups (n.groups.insert (edit.row now)).1 fun i hi => by
    unfold SerialTable.insert
    split
    · rw [SerialTable.get?_add]
      split
      · rfl
      · exact hi
    · exact hi

end NodeGroups

/-- What a page writes once its checks have passed. -/
inductive GroupChange
  | edit (groupId : Nat) (edit : GroupEdit)
  | act (groupId : Nat) (action : GroupAction)

def GroupChange.groupId : GroupChange → Nat
  | .edit groupId _ => groupId
  | .act groupId _ => groupId

/-- The requests that edit a group. -/
inductive GroupRequest
  | update (groupId : Int) (form : GroupForm)
  | action (groupId : Int) (action : String)

/-- **The checks of `admin_node_groups_update` and `admin_node_groups_action`**, on the row that `group_row` read. -/
def checkedGroupChange (flags : String → Bool) (n : NodeGroups) : GroupRequest → Option GroupChange
  | .update groupId form =>
      match n.groupRow groupId with
      | none => none
      | some row => if row.isSystem then none else (form.checked flags).map (.edit groupId.toNat)
  | .action groupId action =>
      match n.groupRow groupId with
      | none => none
      | some row => if row.isSystem then none else (groupAction action).map (.act groupId.toNat)

/-- `SET is_active=…,hidden_at=…,updated_at=…`. -/
def Group.setActive (active : Bool) (now : ℕ+) (group : Group) : Group :=
  { group with isActive := active, hiddenAt := if active then none else some now, updatedAt := now }

theorem Group.key_setActive (active : Bool) (now : ℕ+) (group : Group) : (group.setActive active now).key = group.key :=
  rfl

namespace NodeGroups

/-- The `UPDATE` of one group by its id; `none` where it would give the system group another name. -/
def editGroup (n : NodeGroups) (groupId : Nat) (edit : GroupEdit) (now : ℕ+) : Option NodeGroups :=
  match n.groups.get? groupId with
  | none => some n
  | some old =>
      if old.isSystem then none
      else
        match h : n.groups.replace groupId (edit.onto now old) with
        -- `uq_node_groups_name_ci` refuses a name that another group has.
        | none => some n
        | some groups => some (n.setGroups groups fun _ hi => SerialTable.isSome_get?_replace h hi)

def setActive (n : NodeGroups) (groupId : Nat) (active : Bool) (now : ℕ+) : NodeGroups :=
  n.setGroups (n.groups.modify groupId (Group.setActive active now) (Group.key_setActive active now)) fun i hi => by
    rw [SerialTable.get?_modify, Option.isSome_map]
    exact hi

/-- `SELECT COUNT(*) FROM node_group_memberships WHERE group_id=?`. -/
def memberCount (n : NodeGroups) (groupId : Nat) : Nat :=
  (n.members.rows.filter fun row => row.2.groupId = groupId).length

/-- The transaction of `admin_node_groups_action`: it reads the row again, but not whether it is the system group's. -/
def actOnGroup (n : NodeGroups) (groupId : Nat) (action : GroupAction) (now : ℕ+) : NodeGroups :=
  match n.groups.get? groupId with
  | none => n
  | some _ =>
      match action with
      | .delete => if n.memberCount groupId ≠ 0 then n else (n.deleteGroups fun i _ => i = groupId).getD n
      | .hide => n.setActive groupId false now
      | .restore => n.setActive groupId true now

end NodeGroups

/-- **The write of a page.** -/
def GroupChange.apply (change : GroupChange) (now : ℕ+) (n : NodeGroups) : Option NodeGroups :=
  match change with
  | .edit groupId row => n.editGroup groupId row now
  | .act groupId action => some (n.actOnGroup groupId action now)

/-! ## The membership of nodes -/

/-- What `assign_nodes` counts. -/
structure AssignCounts where
  changed : Nat := 0
  assigned : Nat := 0
  moved : Nat := 0
  removed : Nat := 0
  deriving DecidableEq

namespace NodeGroups

/-- The group that a node is in: the join of its membership with `node_groups`. -/
def groupOf (n : NodeGroups) (node : String) : Option Nat := (n.members.get? node).map fun m => m.groupId

/-- One node of `assign_nodes`. -/
def assignNode (groupId systemId : Nat) (m : GroupMembership) (state : NodeGroups × AssignCounts) (node : String) :
    Option (NodeGroups × AssignCounts) :=
  let (n, counts) := state
  if node ∉ n.inventory then some state
  else
    let old := n.groupOf node
    if old = some groupId then some state
    else
      (n.putMember node m).map fun n =>
        (n,
          if groupId = systemId then { counts with changed := counts.changed + 1, removed := counts.removed + 1 }
          else if old = none ∨ old = some systemId then
            { counts with changed := counts.changed + 1, assigned := counts.assigned + 1 }
          else { counts with changed := counts.changed + 1, moved := counts.moved + 1 })

/-- `list(dict.fromkeys(…))` of the stripped names that are not blank. -/
def cleanNodes (nodes : List String) : List String := ((nodes.map strip).filter fun node => node ≠ "").eraseDups

/-- **`assign_nodes`**; `none` where it raises: there is no such group, or it is hidden. -/
def assignNodes (n : NodeGroups) (nodes : List String) (groupId : Nat) (actor : String) (now : ℕ+) :
    Option (NodeGroups × AssignCounts) :=
  match n.groups.get? groupId with
  | none => none
  | some target =>
      if !target.isActive then none
      else
        let (n, systemId) := n.ensureSystemGroup now
        (cleanNodes nodes).foldlM (assignNode groupId systemId ⟨groupId, now, clip 128 actor⟩) (n, {})

/-- `INSERT … SELECT … WHERE EXISTS … ON CONFLICT(node) DO NOTHING`, for one node. -/
def addMember (m : GroupMembership) (n : NodeGroups) (node : String) : Option NodeGroups :=
  if node ∈ n.inventory ∧ n.members.get? node = none then n.putMember node m else some n

/-- **The repairs** of `ensure_node_membership`, `group_for_node`, the node page and the schema: nodes without a membership
go to the system group. -/
def ensureMemberships (n : NodeGroups) (nodes : List String) (actor : String) (now : ℕ+) : Option NodeGroups :=
  let (n, systemId) := n.ensureSystemGroup now
  nodes.foldlM (addMember ⟨systemId, now, actor⟩) n

/-! ## The inventory -/

/-- The group of a pending restore, if there is one of that name. -/
def pendingTarget (n : NodeGroups) (node : String) : Option Nat :=
  (n.pending.get? node).bind fun pending =>
    ((n.groups.find? (fold pending.groupName)).filter fun row => !row.2.isSystem).map Prod.fst

/-- A row of `node_inventory`. -/
def addNode (n : NodeGroups) (node : String) (h : strip node = node ∧ node ≠ "") : NodeGroups :=
  { n with
    inventory := insert node n.inventory
    named := fun other hother => by
      rcases Finset.mem_insert.mp hother with rfl | hother
      · exact h
      · exact n.named other hother
    memberNode := fun other m hm => Finset.mem_insert_of_mem (n.memberNode other m hm) }

/-- `target_group_id`: the pending group, or else the system group. -/
def targetGroupId (n : NodeGroups) (node : String) (now : ℕ+) : NodeGroups × Nat :=
  match n.pendingTarget node with
  | some groupId => (n, groupId)
  | none => n.ensureSystemGroup now

/-- `assigned_by` of the membership that the trigger writes. -/
def triggerActor (n : NodeGroups) (node : String) : String :=
  if (n.pending.get? node).isNone then "trigger" else "configuration-restore"

/-- **`virtinfra_assign_ungrouped_membership`**, after the row of `node` is inserted. -/
def assignUngrouped (n : NodeGroups) (node : String) (now : ℕ+) : Option NodeGroups :=
  ((n.targetGroupId node now).1.putMember node ⟨(n.targetGroupId node now).2, now, n.triggerActor node⟩).map fun n =>
    { n with pending := n.pending.deleteWhere fun other => other = node }

/-- `INSERT INTO node_inventory … ON CONFLICT(node)`, of a push and of the rebuild of the inventory. -/
def insertNode (n : NodeGroups) (node : String) (now : ℕ+) : Option NodeGroups :=
  if node ∈ n.inventory then some n
  else if h : strip node = node ∧ node ≠ "" then (n.addNode node h).assignUngrouped node now
  else some n

/-- `DELETE FROM node_inventory WHERE node=?`, the last statement of a purge; the membership goes with it. -/
def deleteNode (n : NodeGroups) (node : String) : NodeGroups :=
  { n with
    inventory := n.inventory.erase node
    members := n.members.deleteWhere fun other => other = node
    named := fun other hother => n.named other (Finset.mem_of_mem_erase hother)
    memberNode := fun other m hm => by
      obtain ⟨hne, hm⟩ := KeyedTable.get?_deleteWhere_eq_some.mp hm
      exact Finset.mem_erase.mpr ⟨by simpa using hne, n.memberNode other m hm⟩
    memberGroup := fun other m hm => n.memberGroup other m (KeyedTable.get?_deleteWhere_eq_some.mp hm).2 }

end NodeGroups

end VirtInfra.Config
