import VirtInfra.Lib.SerialTable
import VirtInfra.Python.Prelude
import Mathlib.Data.Finset.Basic
import Mathlib.Data.PNat.Defs

/-!
# `Tables` — what administrators manage (`001_bootstrap.sql`, `011_node_groups.sql`, `016_configuration_backup_nuclear.sql`)

Dashboard users, API keys, settings and Node Groups. The constraints of the schema are fields: keys, unique columns, the
foreign keys of a membership, and the partial index that allows one system group. What every writer of a row checks is
a field of the row. Times are seconds since 1970, which are positive.
-/

namespace VirtInfra.Config

open Lib Python

/-! ## Users -/

inductive Role
  | viewer
  | admin
  | superAdmin
  deriving DecidableEq

/-- The column `role`. -/
def Role.text : Role → String
  | .viewer => "viewer"
  | .admin => "admin"
  | .superAdmin => "super_admin"

/-- `_requested_role`; `clean_role` reads every other text as a viewer's. -/
def requestedRole (value : String) : Option Role :=
  let role := lower (strip value)
  if role = "viewer" then some .viewer
  else if role = "admin" then some .admin
  else if role = "super_admin" then some .superAdmin
  else none

@[simp] theorem requestedRole_text (role : Role) : requestedRole role.text = some role := by cases role <;> decide

/-- A row of `dashboard_users`. -/
structure User where
  username : String
  passwordHash : String
  role : Role
  isActive : Bool
  createdAt : ℕ+
  updatedAt : ℕ+
  lastLogin : Option ℕ+ := none
  named : strip username = username ∧ username ≠ ""
  hashed : passwordHash ≠ ""

abbrev Users := SerialTable User.username

/-- `role='super_admin' AND is_active=1`. -/
def User.enabledSuperAdmin (user : User) : Bool := user.role = .superAdmin && user.isActive

/-! ## API keys and settings -/

/-- A row of `api_keys`. -/
structure ApiKey where
  keyId : String
  name : String
  secretHash : String
  scopesJson : String
  allowedIpsJson : String
  isActive : Bool
  createdAt : ℕ+
  createdBy : String
  expiresAt : Option ℕ+
  lastUsedAt : Option ℕ+ := none
  lastUsedIp : String := ""
  useCount : Nat := 0
  revokedAt : Option ℕ+
  revokedBy : String
  rotatedFromKeyId : String
  note : String
  named : strip keyId = keyId ∧ keyId ≠ ""
  hashed : secretHash ≠ ""

abbrev ApiKeys := SerialTable ApiKey.keyId

/-- A row of `admin_settings`, whose key is `key`. -/
structure Setting where
  value : String
  updatedAt : ℕ+

/-! ## Node Groups -/

/-- `LOWER(name)` and `name.lower()`, which agree. -/
class CaseFold where
  fold : String → String
  fold_ungrouped : fold "Ungrouped" = "ungrouped"

export CaseFold (fold)

variable [CaseFold]

/-- A row of `node_groups`. Only the system group has the reserved name. -/
structure Group where
  name : String
  description : String
  countryCode : String
  isActive : Bool
  isSystem : Bool
  createdAt : ℕ+
  updatedAt : ℕ+
  hiddenAt : Option ℕ+ := none
  named : strip name = name ∧ name ≠ ""
  reserved : isSystem = true ↔ fold name = "ungrouped"

/-- The column of `uq_node_groups_name_ci`. -/
def Group.key (group : Group) : String := fold group.name

abbrev Groups := SerialTable Group.key

/-- The group that the schema, the trigger and the maintenance insert. -/
def systemGroup (now : ℕ+) : Group where
  name := "Ungrouped"
  description := "Default group for nodes without an explicit assignment"
  countryCode := ""
  isActive := true
  isSystem := true
  createdAt := now
  updatedAt := now
  named := by decide
  reserved := by simp [CaseFold.fold_ungrouped]

/-- A row of `node_group_memberships`, whose key is `node`. -/
structure GroupMembership where
  groupId : Nat
  assignedAt : ℕ+
  assignedBy : String

/-- A row of `pending_node_group_restore`, whose key is `node`. -/
structure PendingRestore where
  groupName : String
  restoredAt : ℕ+
  restoredBy : String

/-- **The tables of the Node Groups.** The inventory is the names of its nodes, as `push` strips them. -/
structure NodeGroups where
  inventory : Finset String
  groups : Groups
  members : KeyedTable String GroupMembership
  pending : KeyedTable String PendingRestore
  named : ∀ node ∈ inventory, strip node = node ∧ node ≠ ""
  memberNode : ∀ node m, members.get? node = some m → node ∈ inventory
  memberGroup : ∀ node m, members.get? node = some m → (groups.get? m.groupId).isSome

/-- Two system groups have one name. -/
theorem system_unique {groups : Groups} {i j : Nat} {g h : Group} (hi : groups.get? i = some g)
    (hj : groups.get? j = some h) (hg : g.isSystem = true) (hh : h.isSystem = true) : i = j :=
  groups.unique i j g h hi hj ((g.reserved.mp hg).trans (h.reserved.mp hh).symm)

/-- `SELECT id FROM node_groups WHERE is_system=1 ORDER BY id LIMIT 1`; there is one at most. -/
def systemGroupId? (groups : Groups) : Option Nat := (groups.find? "ungrouped").map Prod.fst

theorem systemGroupId?_eq_some {groups : Groups} {i : Nat} :
    systemGroupId? groups = some i ↔ ∃ g, groups.get? i = some g ∧ g.isSystem = true := by
  unfold systemGroupId?
  rw [Option.map_eq_some_iff]
  constructor
  · rintro ⟨⟨j, g⟩, hfind, rfl⟩
    obtain ⟨hget, hkey⟩ := SerialTable.find?_eq_some.mp hfind
    exact ⟨g, hget, g.reserved.mpr hkey⟩
  · rintro ⟨g, hget, hsystem⟩
    exact ⟨(i, g), SerialTable.find?_eq_some.mpr ⟨hget, g.reserved.mp hsystem⟩, rfl⟩

theorem systemGroupId?_eq_none {groups : Groups} {now : ℕ+} (h : systemGroupId? groups = none) :
    groups.find? (systemGroup now).key = none := by
  have hkey : (systemGroup now).key = "ungrouped" := CaseFold.fold_ungrouped
  rw [hkey]
  exact Option.map_eq_none_iff.mp h

/-! ## The statements on them -/

namespace NodeGroups

/-- Groups under ids that stay. -/
def setGroups (n : NodeGroups) (groups : Groups) (h : ∀ i, (n.groups.get? i).isSome → (groups.get? i).isSome) :
    NodeGroups :=
  { n with groups, memberGroup := fun node m hm => h _ (n.memberGroup node m hm) }

/-- `DELETE FROM node_groups WHERE p`; a group with members is not deleted (`ON DELETE RESTRICT`). -/
def deleteGroups (n : NodeGroups) (p : Nat → Group → Bool) : Option NodeGroups :=
  if h : ∀ row ∈ n.members.rows, ((n.groups.deleteRows p).get? row.2.groupId).isSome then
    some
      { n with
        groups := n.groups.deleteRows p
        memberGroup := fun node m hm => h (node, m) (KeyedTable.mem_rows_of_get? hm) }
  else none

/-- `INSERT INTO node_group_memberships … ON CONFLICT(node) DO UPDATE`, under both foreign keys. -/
def putMember (n : NodeGroups) (node : String) (m : GroupMembership) : Option NodeGroups :=
  if h : node ∈ n.inventory ∧ (n.groups.get? m.groupId).isSome then
    some
      { n with
        members := n.members.put node m
        memberNode := fun node' m' hm => by
          rw [KeyedTable.get?_put] at hm
          split at hm
          · next heq => exact heq ▸ h.1
          · exact n.memberNode node' m' hm
        memberGroup := fun node' m' hm => by
          rw [KeyedTable.get?_put] at hm
          split at hm
          · obtain rfl := Option.some.inj hm
            exact h.2
          · exact n.memberGroup node' m' hm }
  else none

/-- `UPDATE node_group_memberships SET group_id=…`, for all nodes. -/
def assignAll (n : NodeGroups) (m : GroupMembership) : Option NodeGroups :=
  if h : (n.groups.get? m.groupId).isSome then
    some
      { n with
        members := n.members.update fun _ _ => m
        memberNode := fun node m' hm => by
          rw [KeyedTable.get?_update] at hm
          obtain ⟨old, hold, -⟩ := Option.map_eq_some_iff.mp hm
          exact n.memberNode node old hold
        memberGroup := fun node m' hm => by
          rw [KeyedTable.get?_update] at hm
          obtain ⟨old, -, rfl⟩ := Option.map_eq_some_iff.mp hm
          exact h }
  else none

/-- A deletion that goes through deletes the groups and nothing else. -/
theorem deleteGroups_eq_some {n n' : NodeGroups} {p : Nat → Group → Bool} (h : n.deleteGroups p = some n') :
    n'.groups = n.groups.deleteRows p ∧ n'.inventory = n.inventory ∧ n'.members = n.members ∧ n'.pending = n.pending := by
  unfold deleteGroups at h
  split at h
  · obtain rfl := Option.some.inj h
    exact ⟨rfl, rfl, rfl, rfl⟩
  · cases h

theorem deleteGroups_isSome {n : NodeGroups} {p : Nat → Group → Bool}
    (h : ∀ node m, n.members.get? node = some m → ((n.groups.deleteRows p).get? m.groupId).isSome) :
    (n.deleteGroups p).isSome := by
  unfold deleteGroups
  rw [dif_pos]
  · rfl
  · exact fun row hrow => h row.1 row.2 (KeyedTable.get?_of_mem_rows hrow)

theorem putMember_eq_some {n n' : NodeGroups} {node : String} {m : GroupMembership} (h : n.putMember node m = some n') :
    n'.members = n.members.put node m ∧ n'.inventory = n.inventory ∧ n'.groups = n.groups ∧ n'.pending = n.pending := by
  unfold putMember at h
  split at h
  · obtain rfl := Option.some.inj h
    exact ⟨rfl, rfl, rfl, rfl⟩
  · cases h

theorem putMember_isSome {n : NodeGroups} {node : String} {m : GroupMembership} :
    (n.putMember node m).isSome ↔ node ∈ n.inventory ∧ (n.groups.get? m.groupId).isSome := by
  unfold putMember
  split
  · next h => simpa using h
  · next h => simpa using h

theorem assignAll_eq_some {n n' : NodeGroups} {m : GroupMembership} (h : n.assignAll m = some n') :
    n'.members = n.members.update (fun _ _ => m) ∧ n'.inventory = n.inventory ∧ n'.groups = n.groups ∧
      n'.pending = n.pending := by
  unfold assignAll at h
  split at h
  · obtain rfl := Option.some.inj h
    exact ⟨rfl, rfl, rfl, rfl⟩
  · cases h

theorem assignAll_isSome {n : NodeGroups} {m : GroupMembership} :
    (n.assignAll m).isSome ↔ (n.groups.get? m.groupId).isSome := by
  unfold assignAll
  split
  · next h => simpa using h
  · next h => simpa using h

/-- The id of the system group, which is inserted when there is none. -/
def ensureSystemGroup (n : NodeGroups) (now : ℕ+) : NodeGroups × Nat :=
  match h : systemGroupId? n.groups with
  | some i => (n, i)
  | none =>
      (n.setGroups (n.groups.add (systemGroup now) (systemGroupId?_eq_none h)) fun i hi => by
        rw [SerialTable.get?_add]
        split
        · rfl
        · exact hi, n.groups.next)

theorem ensureSystemGroup_spec (n : NodeGroups) (now : ℕ+) :
    (∃ g, (n.ensureSystemGroup now).1.groups.get? (n.ensureSystemGroup now).2 = some g ∧ g.isSystem = true) ∧
      (n.ensureSystemGroup now).1.inventory = n.inventory ∧ (n.ensureSystemGroup now).1.members = n.members ∧
      (n.ensureSystemGroup now).1.pending = n.pending := by
  unfold ensureSystemGroup
  split
  · next i h => exact ⟨systemGroupId?_eq_some.mp h, rfl, rfl, rfl⟩
  · next h =>
      refine ⟨⟨systemGroup now, ?_, rfl⟩, rfl, rfl, rfl⟩
      show (n.groups.add (systemGroup now) (systemGroupId?_eq_none h)).get? n.groups.next = some (systemGroup now)
      rw [SerialTable.get?_add, if_pos rfl]

end NodeGroups

/-- **The configuration tables.** -/
structure Database where
  users : Users
  apiKeys : ApiKeys
  settings : KeyedTable String Setting
  nodes : NodeGroups

end VirtInfra.Config
