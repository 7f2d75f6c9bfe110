import VirtInfra.Config.Tables

/-!
# `Accounts` — the dashboard accounts (`01_auth_permissions.py`, `node_groups.py`)

What the web application reads of `dashboard_users` and writes to it, one definition for each transaction, and the two
settings that hold the name and the password hash of the first administrator. `werkzeug.security` and `hmac` are
parameters; a salt is an argument of what it salts.
-/

namespace VirtInfra.Admin

open Lib Python Config

/-- **`werkzeug.security` and `hmac`.** -/
class Security where
  generatePasswordHash : (salt password : String) → String
  checkPasswordHash : (pwhash password : String) → Bool
  /-- `hmac.new(key, payload, hashlib.sha256).hexdigest()` -/
  hexdigest : (key payload : String) → String
  generatePasswordHash_ne : ∀ salt password, generatePasswordHash salt password ≠ ""
  check_generate : ∀ salt password given, checkPasswordHash (generatePasswordHash salt password) given = true ↔
    given = password
  hexdigest_ne : ∀ key payload, hexdigest key payload ≠ ""
  /-- Equal stamps under one key are stamps of one input. -/
  hexdigest_inj : ∀ key payload payload', hexdigest key payload = hexdigest key payload' → payload = payload'

export Security (generatePasswordHash checkPasswordHash hexdigest)

/-- The assumptions can be met: a hash that keeps the password behind its length, and a stamp that keeps its input. -/
@[reducible] def plainSecurity : Security where
  generatePasswordHash salt password := toString password.length ++ "$" ++ password ++ salt
  checkPasswordHash pwhash password := (toString password.length ++ "$" ++ password).toList.isPrefixOf pwhash.toList
  hexdigest key payload := key ++ "$" ++ payload
  generatePasswordHash_ne salt password h := by
    have hlist := congrArg String.toList h
    simp at hlist
  check_generate salt password given := by
    have hdigits : ∀ n : Nat, '$' ∉ Nat.toDigits 10 n := by
      intro n hmem
      have hdigit := Nat.isDigit_of_mem_toDigits (b := 10) (n := n) (by omega) (by omega) hmem
      revert hdigit
      decide
    have hid : ∀ n : Nat, (toString n).toList = Nat.toDigits 10 n := fun n => Nat.toList_repr
    rw [List.isPrefixOf_iff_prefix]
    constructor
    · rintro ⟨rest, hrest⟩
      simp only [String.toList_append, hid, List.append_assoc] at hrest
      obtain ⟨hlength, htail⟩ := append_cons_inj_of_prefix (hdigits _) (hdigits _) hrest
      have hlen := congrArg (fun l => Nat.ofDigitChars 10 l 0) hlength
      simp only [Nat.ofDigitChars_ten_toDigits] at hlen
      exact String.toList_inj.mp (List.append_inj_left htail (by rwa [String.length_toList, String.length_toList]))
    · rintro rfl
      simp only [String.toList_append]
      exact List.prefix_append _ salt.toList
  hexdigest_ne key payload h := by
    have hlist := congrArg String.toList h
    simp at hlist
  hexdigest_inj key payload payload' h := by
    have hlist := congrArg String.toList h
    simp only [String.toList_append, List.append_assoc, List.append_cancel_left_eq] at hlist
    exact String.toList_inj.mp hlist

/-! ## Reads -/

section Reads

variable (users : Users)

/-- `get_dashboard_user`. -/
def getDashboardUser (username : String) : Option (Nat × User) :=
  if strip username = "" then none else users.find? (strip username)

/-- `get_dashboard_user_by_id`. -/
def getDashboardUserById (userId : Nat) : Option (Nat × User) := (users.get? userId).map fun user => (userId, user)

/-- `dashboard_user_count`. -/
def dashboardUserCount : Nat := users.rows.rows.length

/-- `active_super_admin_count`. -/
def activeSuperAdminCount (excludeUserId : Option Nat) : Nat :=
  users.rows.rows.countP fun row => row.2.enabledSuperAdmin && decide (some row.1 ≠ excludeUserId)

/-- `emergency_admin_needed`. -/
def emergencyAdminNeeded : Bool := activeSuperAdminCount users none = 0

/-- `is_last_enabled_admin`. -/
def isLastEnabledAdmin (userId : Nat) : Bool :=
  match users.get? userId with
  | none => false
  | some user => user.enabledSuperAdmin && activeSuperAdminCount users (some userId) = 0

end Reads

/-! ## Writes -/

section Writes

variable (users : Users) (userId : Nat) (now : ℕ+)

/-- `set_dashboard_user_status`. -/
def setDashboardUserStatus (isActive : Bool) : Users :=
  users.modify userId (fun user => { user with isActive, updatedAt := now }) fun _ => rfl

/-- `delete_dashboard_user`. -/
def deleteDashboardUser : Users := users.deleteRows fun id _ => id = userId

/-- `_set_dashboard_user_role`. -/
def setDashboardUserRole (role : Role) : Users :=
  users.modify userId (fun user => { user with role, updatedAt := now }) fun _ => rfl

/-- `update_dashboard_user_login`. -/
def updateDashboardUserLogin : Users :=
  users.modify userId (fun user => { user with lastLogin := now, updatedAt := now }) fun _ => rfl

variable [Security]

/-- `reset_dashboard_user_password`. -/
def resetDashboardUserPassword (salt password : String) (role : Option Role) : Users :=
  users.modify userId
    (fun user =>
      { user with
        passwordHash := generatePasswordHash salt password
        role := role.getD user.role
        updatedAt := now
        hashed := Security.generatePasswordHash_ne salt password })
    fun _ => rfl

/-- A new enabled account. -/
def newUser (username salt password : String) (role : Role) (h : strip username = username ∧ username ≠ "") : User where
  username := username
  passwordHash := generatePasswordHash salt password
  role := role
  isActive := true
  createdAt := now
  updatedAt := now
  named := h
  hashed := Security.generatePasswordHash_ne salt password

@[simp] theorem username_newUser (username salt password : String) (role : Role) (h : strip username = username ∧ username ≠ "") :
    (newUser now username salt password role h).username = username := rfl

end Writes

/-- `_insert_dashboard_user`: an existing account is never overwritten. -/
def insertDashboardUser (users : Users) (row : User) : Users × Bool := ((users.insert row).1, (users.insert row).2.isSome)

/-- `DO UPDATE SET password_hash=…, role=…, is_active=…, updated_at=…`. -/
def replaceCredentials (row old : User) : User :=
  { old with
    passwordHash := row.passwordHash, role := row.role, isActive := row.isActive, updatedAt := row.updatedAt
    hashed := row.hashed }

theorem username_replaceCredentials (row old : User) : (replaceCredentials row old).username = old.username := rfl

/-- `upsert_dashboard_user`. -/
def upsertDashboardUser (users : Users) (row : User) : Users :=
  (users.upsert row (replaceCredentials row) (username_replaceCredentials row)).1

/-! ## The first administrator -/

/-- `BW_ADMIN_USERNAME` and `BW_ADMIN_PASSWORD_HASH`. -/
structure Environment where
  adminUsername : String
  adminPasswordHash : String

section Settings

variable (settings : KeyedTable String Setting)

/-- `get_admin_setting`. -/
def getAdminSetting (key default : String) : String := ((settings.get? key).map Setting.value).getD default

/-- `set_admin_setting`. -/
def setAdminSetting (key value : String) (now : ℕ+) : KeyedTable String Setting := settings.put key ⟨value, now⟩

variable (env : Environment)

/-- `get_admin_username`. -/
def getAdminUsername : String :=
  getAdminSetting settings "admin_username" (if env.adminUsername = "" then "admin" else env.adminUsername)

/-- `get_admin_password_hash`: the setting wins. -/
def getAdminPasswordHash : String := getAdminSetting settings "admin_password_hash" env.adminPasswordHash

/-- `admin_is_configured`. -/
def adminIsConfigured : Bool := getAdminPasswordHash settings env ≠ ""

/-- `bootstrap_dashboard_admin_from_settings`. A name with blanks around it is no name of an account. -/
def bootstrapDashboardAdmin (now : ℕ+) (users : Users) : Users :=
  if dashboardUserCount users > 0 then users
  else
    let username := getAdminUsername settings env
    let passwordHash := getAdminPasswordHash settings env
    if h : (strip username = username ∧ username ≠ "") ∧ passwordHash ≠ "" then
      (users.insert
        { username, passwordHash, role := .superAdmin, isActive := true, createdAt := now, updatedAt := now
          named := h.1, hashed := h.2 }).1
    else users

end Settings

/-! ## What the counts say -/

theorem dashboardUserCount_pos {users : Users} : 0 < dashboardUserCount users ↔ ∃ id user, users.get? id = some user := by
  unfold dashboardUserCount
  rw [List.length_pos_iff_exists_mem]
  constructor
  · rintro ⟨⟨id, user⟩, hrow⟩
    exact ⟨id, user, KeyedTable.get?_of_mem_rows hrow⟩
  · rintro ⟨id, user, hget⟩
    exact ⟨(id, user), KeyedTable.mem_rows_of_get? hget⟩

theorem activeSuperAdminCount_pos {users : Users} {excludeUserId : Option Nat} :
    0 < activeSuperAdminCount users excludeUserId ↔
      ∃ id user, users.get? id = some user ∧ user.enabledSuperAdmin = true ∧ some id ≠ excludeUserId := by
  unfold activeSuperAdminCount
  rw [List.countP_pos_iff]
  constructor
  · rintro ⟨⟨id, user⟩, hrow, hok⟩
    simp only [Bool.and_eq_true, decide_eq_true_eq] at hok
    exact ⟨id, user, KeyedTable.get?_of_mem_rows hrow, hok.1, hok.2⟩
  · rintro ⟨id, user, hget, henabled, hne⟩
    exact ⟨(id, user), KeyedTable.mem_rows_of_get? hget, by simp [henabled, hne]⟩

theorem emergencyAdminNeeded_eq_false {users : Users} :
    emergencyAdminNeeded users = false ↔ ∃ id user, users.get? id = some user ∧ user.enabledSuperAdmin = true := by
  unfold emergencyAdminNeeded
  rw [decide_eq_false_iff_not]
  change activeSuperAdminCount users none ≠ 0 ↔ _
  rw [← Nat.pos_iff_ne_zero, activeSuperAdminCount_pos]
  simp

/-- With an account there is nothing to bootstrap. -/
theorem bootstrapDashboardAdmin_of_pos {users : Users} (h : 0 < dashboardUserCount users)
    (settings : KeyedTable String Setting) (env : Environment) (now : ℕ+) :
    bootstrapDashboardAdmin settings env now users = users := if_pos h

/-- The account of a name is found by it. -/
theorem getDashboardUser_username {users : Users} {id : Nat} {user : User} (h : users.get? id = some user) :
    getDashboardUser users user.username = some (id, user) := by
  unfold getDashboardUser
  rw [user.named.1, if_neg user.named.2]
  exact SerialTable.find?_eq_some.mpr ⟨h, rfl⟩

theorem getDashboardUser_eq_some {users : Users} {username : String} {id : Nat} {user : User}
    (h : getDashboardUser users username = some (id, user)) :
    users.get? id = some user ∧ user.username = strip username := by
  unfold getDashboardUser at h
  split at h
  · cases h
  · exact SerialTable.find?_eq_some.mp h

theorem getDashboardUserById_eq_some {users : Users} {userId id : Nat} {user : User} :
    getDashboardUserById users userId = some (id, user) ↔ id = userId ∧ users.get? id = some user := by
  unfold getDashboardUserById
  rw [Option.map_eq_some_iff]
  constructor
  · rintro ⟨user', hget, heq⟩
    obtain ⟨rfl, rfl⟩ := Prod.mk.inj heq
    exact ⟨rfl, hget⟩
  · rintro ⟨rfl, hget⟩
    exact ⟨user, hget, rfl⟩

end VirtInfra.Admin
