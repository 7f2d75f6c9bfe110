import VirtInfra.Config.Tables

/-!
# `Backup` — configuration backups and their restore (`configuration_backup.py`)

An export reads five sections; a restore replaces the selected ones in one transaction, which rolls back when a statement
fails. It normalises what it reads. Users and groups come back under new ids, so the mapping goes by the names of the
groups; nodes that the inventory does not have are left to the trigger of their first push.

`json`, `zipfile` and the checksums give back the payload that was written. The order of the exported rows is left out.
-/

namespace VirtInfra.Config

open Lib Python

variable [CaseFold]

/-- `SAFE_SETTING_KEYS`. -/
def safeSettingKeys : List String :=
  ["simple_theme_settings_v3", "simple_theme_settings_v4", "bw_queue_auto_refresh",
    "abuse_network_enabled", "abuse_network_pps", "abuse_network_required_seconds", "abuse_network_mbps_enabled",
    "abuse_network_avg_mbps", "abuse_network_mbps_required_seconds",
    "abuse_cpu_enabled", "abuse_cpu_full_percent", "abuse_cpu_required_seconds",
    "abuse_ram_enabled", "abuse_ram_rss_percent", "abuse_ram_guest_used_percent", "abuse_ram_low_usable_percent",
    "abuse_ram_required_seconds",
    "abuse_disk_enabled", "abuse_disk_read_bps", "abuse_disk_write_bps", "abuse_disk_bps", "abuse_disk_iops",
    "abuse_disk_required_seconds"]

/-! ## The export -/

structure BackupUser where
  username : String
  passwordHash : String
  role : String
  isActive : Bool
  createdAt : Nat
  updatedAt : Nat

structure BackupKey where
  keyId : String
  name : String
  secretHash : String
  scopesJson : String
  allowedIpsJson : String
  isActive : Bool
  createdAt : Nat
  createdBy : String
  expiresAt : Option ℕ+
  revokedAt : Option ℕ+
  revokedBy : String
  rotatedFromKeyId : String
  note : String

structure BackupSetting where
  key : String
  value : String
  updatedAt : Nat

structure BackupGroup where
  name : String
  description : String
  countryCode : String
  isActive : Bool
  hiddenAt : Option ℕ+

structure BackupMapping where
  node : String
  groupName : String

/-- The payload of a backup. -/
structure Configuration where
  users : List BackupUser
  apiKeys : List BackupKey
  settings : List BackupSetting
  groups : List BackupGroup
  nodeGroupMapping : List BackupMapping

def User.backup (user : User) : BackupUser :=
  { username := user.username, passwordHash := user.passwordHash, role := user.role.text, isActive := user.isActive
    createdAt := user.createdAt, updatedAt := user.updatedAt }

def ApiKey.backup (key : ApiKey) : BackupKey :=
  { keyId := key.keyId, name := key.name, secretHash := key.secretHash, scopesJson := key.scopesJson
    allowedIpsJson := key.allowedIpsJson, isActive := key.isActive, createdAt := key.createdAt
    createdBy := key.createdBy, expiresAt := key.expiresAt, revokedAt := key.revokedAt, revokedBy := key.revokedBy
    rotatedFromKeyId := key.rotatedFromKeyId, note := key.note }

def Group.backup (group : Group) : BackupGroup :=
  { name := group.name, description := group.description, countryCode := group.countryCode
    isActive := group.isActive, hiddenAt := group.hiddenAt }

/-- The group of a node, unless it is the system group. -/
def NodeGroups.assignedGroup (n : NodeGroups) (node : String) : Option Group :=
  ((n.members.get? node).bind fun m => n.groups.get? m.groupId).filter fun g => !g.isSystem

/-- The nodes with a group, under its name. -/
def NodeGroups.mapping (n : NodeGroups) : List BackupMapping :=
  n.members.rows.filterMap fun row => (n.assignedGroup row.1).map fun g => { node := row.1, groupName := g.name }

/-- `_export_configuration`. -/
def exportConfiguration (db : Database) : Configuration where
  users := db.users.rows.rows.map fun row => row.2.backup
  apiKeys := db.apiKeys.rows.rows.map fun row => row.2.backup
  settings := (db.settings.rows.filter fun row => row.1 ∈ safeSettingKeys).map fun row =>
    { key := row.1, value := row.2.value, updatedAt := row.2.updatedAt }
  groups := (db.nodes.groups.rows.rows.filter fun row => !row.2.isSystem).map fun row => row.2.backup
  nodeGroupMapping := db.nodes.mapping

/-! ## The sections -/

inductive BackupSection
  | users
  | apiKeys
  | settings
  | groups
  | nodeGroupMapping
  deriving DecidableEq

def BackupSection.text : BackupSection → String
  | .users => "users"
  | .apiKeys => "api_keys"
  | .settings => "settings"
  | .groups => "groups"
  | .nodeGroupMapping => "node_group_mapping"

/-- `VALID_SECTIONS`. -/
def validSections : List BackupSection := [.users, .apiKeys, .settings, .groups, .nodeGroupMapping]

/-- `_clean_sections`; nothing named selects all. -/
def cleanSections (sections : List String) : Option (List BackupSection) :=
  let values := sections.map fun item => lower (strip item)
  let selected := if sections = [] then validSections else validSections.filter fun item => item.text ∈ values
  if selected = [] then none else some selected

/-! ## The restore -/

/-- `int(item.get("created_at", now) or now)`. -/
def orNow (value : Nat) (now : ℕ+) : ℕ+ := if h : 0 < value then ⟨value, h⟩ else now

omit [CaseFold] in
@[simp] theorem orNow_coe (value now : ℕ+) : orNow value now = value := dif_pos value.pos

/-- The row of an item, if it is restored: the acting account is never overwritten. -/
def BackupUser.row? (item : BackupUser) (actorUsername : String) (now : ℕ+) : Option User :=
  if h : strip item.username ≠ "" ∧ strip item.username ≠ actorUsername ∧ item.passwordHash ≠ "" then
    (requestedRole item.role).map fun role =>
      { username := strip item.username, passwordHash := item.passwordHash, role, isActive := item.isActive
        createdAt := orNow item.createdAt now, updatedAt := now
        named := ⟨strip_strip _, h.1⟩, hashed := h.2.2 }
  else none

/-- `DO UPDATE SET password_hash=…, role=…, is_active=…, updated_at=…, last_login=NULL`. -/
def User.overwrite (new old : User) : User :=
  { old with
    passwordHash := new.passwordHash, role := new.role, isActive := new.isActive, updatedAt := new.updatedAt
    lastLogin := none, hashed := new.hashed }

omit [CaseFold] in
theorem User.username_overwrite (new old : User) : (new.overwrite old).username = old.username := rfl

def restoreUser (actorUsername : String) (now : ℕ+) (users : Users) (item : BackupUser) : Users :=
  match item.row? actorUsername now with
  | none => users
  | some row => (users.upsert row row.overwrite row.username_overwrite).1

def restoreUsers (actorUserId : Nat) (actorUsername : String) (now : ℕ+) (items : List BackupUser) (users : Users) :
    Users :=
  items.foldl (restoreUser actorUsername now) (users.deleteRows fun id _ => id ≠ actorUserId)

def BackupKey.row? (item : BackupKey) (now : ℕ+) : Option ApiKey :=
  if h : strip item.keyId ≠ "" ∧ item.secretHash ≠ "" then
    some
      { keyId := strip item.keyId, name := item.name, secretHash := item.secretHash, scopesJson := item.scopesJson
        allowedIpsJson := item.allowedIpsJson, isActive := item.isActive, createdAt := orNow item.createdAt now
        createdBy := item.createdBy, expiresAt := item.expiresAt, revokedAt := item.revokedAt
        revokedBy := item.revokedBy, rotatedFromKeyId := item.rotatedFromKeyId, note := item.note
        named := ⟨strip_strip _, h.1⟩, hashed := h.2 }
  else none

/-- An insert that fails when the id of the key is taken. -/
def restoreApiKey (now : ℕ+) (keys : ApiKeys) (item : BackupKey) : Option ApiKeys :=
  match item.row? now with
  | none => some keys
  | some row => (keys.insert row).2.map fun _ => (keys.insert row).1

def restoreApiKeys (now : ℕ+) (items : List BackupKey) : Option ApiKeys := items.foldlM (restoreApiKey now) .empty

def restoreSetting (now : ℕ+) (settings : KeyedTable String Setting) (item : BackupSetting) :
    KeyedTable String Setting :=
  if item.key ∈ safeSettingKeys then settings.put item.key ⟨item.value, now⟩ else settings

def restoreSettings (now : ℕ+) (items : List BackupSetting) (settings : KeyedTable String Setting) :
    KeyedTable String Setting :=
  items.foldl (restoreSetting now) (settings.deleteWhere fun key => key ∈ safeSettingKeys)

def BackupGroup.row? (item : BackupGroup) (now : ℕ+) : Option Group :=
  if h : strip item.name ≠ "" ∧ fold (strip item.name) ≠ "ungrouped" then
    some
      { name := strip item.name, description := item.description, countryCode := upper (clip 2 item.countryCode)
        isActive := item.isActive, isSystem := false, createdAt := now, updatedAt := now, hiddenAt := item.hiddenAt
        named := ⟨strip_strip _, h.1⟩, reserved := by simpa using h.2 }
  else none

/-- `DO UPDATE SET description=…, country_code=…, is_active=…, updated_at=…, hidden_at=…`. -/
def Group.overwrite (new old : Group) : Group :=
  { old with
    description := new.description, countryCode := new.countryCode, isActive := new.isActive
    updatedAt := new.updatedAt, hiddenAt := new.hiddenAt }

theorem Group.key_overwrite (new old : Group) : (new.overwrite old).key = old.key := rfl

/-- The loop over `groups`, which collects `group_ids`. -/
def restoreGroup (now : ℕ+) (state : NodeGroups × KeyedTable String Nat) (item : BackupGroup) :
    NodeGroups × KeyedTable String Nat :=
  match item.row? now with
  | none => state
  | some row =>
      let result := state.1.groups.upsert row row.overwrite row.key_overwrite
      (state.1.setGroups result.1 fun _ h => SerialTable.isSome_get?_upsert _ _ _ _ h, state.2.put row.key result.2)

/-- The section `groups`: every node goes to the system group, and the groups come back under new ids. -/
def restoreGroups (actorUsername : String) (now : ℕ+) (items : List BackupGroup) (n : NodeGroups) :
    Option (NodeGroups × KeyedTable String Nat) := do
  let (n, systemId) := n.ensureSystemGroup now
  let n ← n.assignAll ⟨systemId, now, actorUsername⟩
  let n ← n.deleteGroups fun _ g => !g.isSystem
  return items.foldl (restoreGroup now) (n, .empty)

/-- `group_ids` when the section is not selected. -/
def groupIds (groups : Groups) : KeyedTable String Nat :=
  (groups.rows.rows.filter fun row => !row.2.isSystem).foldl (fun ids row => ids.put row.2.key row.1) .empty

/-- The loop over `node_group_mapping`: a node of the inventory is moved, another one is written down. -/
def restoreMapping (actorUsername : String) (now : ℕ+) (ids : KeyedTable String Nat) (n : NodeGroups)
    (item : BackupMapping) : Option NodeGroups :=
  let node := strip item.node
  let groupName := strip item.groupName
  match ids.get? (fold groupName) with
  | none => some n
  | some groupId =>
      if node = "" then some n
      else if node ∈ n.inventory then n.putMember node ⟨groupId, now, actorUsername⟩
      else some { n with pending := n.pending.put node ⟨groupName, now, actorUsername⟩ }

/-- `TRUNCATE TABLE pending_node_group_restore`. -/
def NodeGroups.truncatePending (n : NodeGroups) : NodeGroups := { n with pending := .empty }

/-- The sections `groups` and `node_group_mapping`. -/
def restoreNodeGroups (actorUsername : String) (now : ℕ+) (sections : List BackupSection) (payload : Configuration)
    (n : NodeGroups) : Option NodeGroups := do
  let (n, ids) ←
    if .groups ∈ sections then restoreGroups actorUsername now payload.groups n else some (n, groupIds n.groups)
  if .nodeGroupMapping ∈ sections then
    payload.nodeGroupMapping.foldlM (restoreMapping actorUsername now ids) n.truncatePending
  else return n

/-- `_validate_actor`. -/
def validActor (users : Users) (actorUserId : Nat) (actorUsername : String) : Bool :=
  (users.get? actorUserId).any fun user => user.username = actorUsername && user.enabledSuperAdmin

/-- Who restores what, when, and the random key that replaces `app_secret_key`. -/
structure RestoreRequest where
  actorUserId : Nat
  actorUsername : String
  sections : List String
  now : ℕ+
  secret : String

/-- **`restore_configuration_backup`**; `none` when it raises and its transaction is rolled back. -/
def restoreConfigurationBackup (r : RestoreRequest) (payload : Configuration) (db : Database) : Option Database := do
  let selected ← cleanSections r.sections
  guard (validActor db.users r.actorUserId r.actorUsername)
  let apiKeys ← if .apiKeys ∈ selected then restoreApiKeys r.now payload.apiKeys else some db.apiKeys
  let nodes ← restoreNodeGroups r.actorUsername r.now selected payload db.nodes
  let users :=
    if .users ∈ selected then restoreUsers r.actorUserId r.actorUsername r.now payload.users db.users else db.users
  let settings := if .settings ∈ selected then restoreSettings r.now payload.settings db.settings else db.settings
  return {
    users, apiKeys, nodes
    settings := if .users ∈ selected then settings.put "app_secret_key" ⟨r.secret, r.now⟩ else settings }

/-- **What a restore that goes through does.** -/
theorem restoreConfigurationBackup_eq_some {r : RestoreRequest} {payload : Configuration} {db db' : Database} :
    restoreConfigurationBackup r payload db = some db' ↔
      ∃ selected apiKeys nodes, cleanSections r.sections = some selected ∧
        validActor db.users r.actorUserId r.actorUsername = true ∧
        (if .apiKeys ∈ selected then restoreApiKeys r.now payload.apiKeys else some db.apiKeys) = some apiKeys ∧
        restoreNodeGroups r.actorUsername r.now selected payload db.nodes = some nodes ∧
        db' =
          { users :=
              if .users ∈ selected then restoreUsers r.actorUserId r.actorUsername r.now payload.users db.users
              else db.users
            apiKeys, nodes
            settings :=
              if .users ∈ selected then
                (if .settings ∈ selected then restoreSettings r.now payload.settings db.settings else db.settings).put
                  "app_secret_key" ⟨r.secret, r.now⟩
              else
                if .settings ∈ selected then restoreSettings r.now payload.settings db.settings else db.settings } := by
  unfold restoreConfigurationBackup
  simp only [Option.bind_eq_bind, Option.bind_eq_some_iff, Option.guard_eq_some', Option.pure_def, exists_and_left,
    exists_const, eq_comm (a := db')]
  refine exists_congr fun selected => and_congr_right fun _ => and_congr_right fun _ => ?_
  by_cases hkeys : .apiKeys ∈ selected
  · simp only [if_pos hkeys, Option.bind_eq_some_iff, Option.some.injEq]
  · simp only [if_neg hkeys, Option.bind_some, Option.bind_eq_some_iff, Option.some.injEq, exists_eq_left']

end VirtInfra.Config
