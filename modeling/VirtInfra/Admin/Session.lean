import VirtInfra.Admin.Accounts

/-!
# `Session` — who a session is, and what it may see (`node_groups.py`)

A session is a cookie that the application has signed; the browser may keep it and send it again whenever it likes. It is
accepted while it carries the stamp of the account row that its user id, or else its name, leads to. The application
runs with the key of the settings: it is restarted whenever the key changes.
-/

namespace VirtInfra.Admin

open Lib Python Config

/-- The tables that the pages of the accounts use. -/
structure Accounts where
  users : Users
  settings : KeyedTable String Setting

/-- `app.secret_key`. -/
def Accounts.secretKey (a : Accounts) : String := getAdminSetting a.settings "app_secret_key" ""

/-- What a session holds. -/
structure Session where
  dashboardAuthenticated : Bool := false
  adminAuthenticated : Bool := false
  dashboardUserId : Option Nat := none
  dashboardUsername : String := ""
  adminUsername : String := ""
  dashboardRole : Option Role := none
  dashboardAuthStamp : String := ""
  csrfToken : Option String := none

/-! ## The stamp -/

/-- The input of the stamp: its fields between unit separators. -/
def authPayload (row : Nat × User) : String :=
  toString row.1 ++ "\x1f" ++ row.2.username ++ "\x1f" ++ row.2.passwordHash ++ "\x1f" ++ row.2.role.text ++ "\x1f" ++
    if row.2.isActive then "1" else "0"

/-- `_user_auth_stamp`. -/
def userAuthStamp [Security] (secretKey : String) (row : Nat × User) : String := hexdigest secretKey (authPayload row)

theorem text_injective {role role' : Role} (h : role.text = role'.text) : role = role' := by
  have hsome := requestedRole_text role
  rw [h, requestedRole_text] at hsome
  exact (Option.some.inj hsome).symm

theorem separator_notMem_text (role : Role) : '\x1f' ∉ role.text.toList := by cases role <;> decide

theorem separator_notMem_digits (id : Nat) : '\x1f' ∉ Nat.toDigits 10 id := by
  intro hmem
  have hdigit := Nat.isDigit_of_mem_toDigits (b := 10) (n := id) (by omega) (by omega) hmem
  revert hdigit
  decide

/-- The fields of the stamp's input, with the last two split off. -/
theorem toList_authPayload (id : Nat) (u : User) :
    (authPayload (id, u)).toList =
      ((Nat.toDigits 10 id ++ '\x1f' :: (u.username.toList ++ '\x1f' :: u.passwordHash.toList)) ++
        '\x1f' :: u.role.text.toList) ++ '\x1f' :: [if u.isActive then '1' else '0'] := by
  unfold authPayload
  have hid : (toString id).toList = Nat.toDigits 10 id := Nat.toList_repr
  have hactive : (if u.isActive then "1" else "0" : String).toList = [if u.isActive then '1' else '0'] := by
    split <;> rfl
  have hsep : ("\x1f" : String).toList = ['\x1f'] := rfl
  simp only [String.toList_append, hid, hactive, hsep, List.append_assoc, List.nil_append, List.cons_append]

/-- **The stamp's input determines the id, the role and the state of the account**, and of one name also the hash. -/
theorem authPayload_inj {row row' : Nat × User} (h : authPayload row = authPayload row') :
    row.1 = row'.1 ∧ row.2.role = row'.2.role ∧ row.2.isActive = row'.2.isActive ∧
      (row.2.username = row'.2.username → row.2.passwordHash = row'.2.passwordHash) := by
  obtain ⟨id, u⟩ := row
  obtain ⟨id', u'⟩ := row'
  have hlist := congrArg String.toList h
  rw [toList_authPayload, toList_authPayload] at hlist
  -- The last two fields have no separator, so they are read off from the end.
  obtain ⟨hlist, hactive⟩ := append_cons_inj_of_suffix (by split <;> decide) (by split <;> decide) hlist
  obtain ⟨hlist, hrole⟩ := append_cons_inj_of_suffix (separator_notMem_text _) (separator_notMem_text _) hlist
  obtain ⟨hid, hrest⟩ := append_cons_inj_of_prefix (separator_notMem_digits _) (separator_notMem_digits _) hlist
  refine ⟨?_, text_injective (String.toList_inj.mp hrole), ?_, fun hname => ?_⟩
  · have hdigits := congrArg (fun l => Nat.ofDigitChars 10 l 0) hid
    simpa only [Nat.ofDigitChars_ten_toDigits] using hdigits
  · revert hactive
    cases u.isActive <;> cases u'.isActive <;> decide
  · dsimp only at hname
    rw [hname] at hrest
    exact String.toList_inj.mp (List.cons.inj (List.append_cancel_left hrest)).2

/-! ## The account of a session -/

section Account

variable (a : Accounts) (s : Session)

/-- `dashboard_username`. -/
def Session.username : String := if s.dashboardUsername ≠ "" then s.dashboardUsername else s.adminUsername

/-- `current_dashboard_user`: the row of the user id, and else the row of the name. -/
def currentDashboardUser : Option (Nat × User) :=
  match s.dashboardUserId.bind (getDashboardUserById a.users) with
  | some row => some row
  | none => getDashboardUser a.users s.username

/-- `current_role`, which goes by the name. -/
def currentRole : Role :=
  let username := if s.adminUsername ≠ "" then s.adminUsername else s.dashboardUsername
  match getDashboardUser a.users username with
  | some row => row.2.role
  | none => s.dashboardRole.getD .viewer

/-- `is_super_admin`. -/
def isSuperAdmin : Bool := currentRole a s = .superAdmin

variable [Security]

/-- **`dashboard_allowed`.** -/
def dashboardAllowed : Bool :=
  (s.dashboardAuthenticated || s.adminAuthenticated) &&
    (currentDashboardUser a s).any fun row =>
      row.2.isActive && decide (s.dashboardAuthStamp ≠ "" ∧ s.dashboardAuthStamp = userAuthStamp a.secretKey row)

/-- `admin_allowed`. -/
def adminAllowed : Bool :=
  dashboardAllowed a s &&
    (currentDashboardUser a s).any fun row => row.2.isActive && decide (row.2.role = .admin ∨ row.2.role = .superAdmin)

/-- The row that an accepted session leads to. -/
theorem dashboardAllowed_eq_true {a : Accounts} {s : Session} (h : dashboardAllowed a s = true) :
    ∃ row, currentDashboardUser a s = some row ∧ row.2.isActive = true ∧
      s.dashboardAuthStamp = userAuthStamp a.secretKey row := by
  unfold dashboardAllowed at h
  rw [Bool.and_eq_true, Option.any_eq_true] at h
  obtain ⟨-, row, hrow, hok⟩ := h
  rw [Bool.and_eq_true, decide_eq_true_eq] at hok
  exact ⟨row, hrow, hok.1, hok.2.2⟩

end Account

/-! ## The gate of the administration pages -/

/-- What a page answers; a form comes back with its error. -/
inductive Reply
  | page (error : String)
  | redirect (endpoint : String)
  | text (status : Nat) (message : String)
  deriving DecidableEq

/-- What the gate reads of a request. -/
structure Request where
  post : Bool
  endpoint : String
  csrfToken : Option String

/-- `ADMIN_ALLOWED_ENDPOINTS`. -/
def adminAllowedEndpoints : List String :=
  ["admin_page", "admin_abuse_page", "reset_all_abuse_data_v48129", "admin_abuse_settings",
    "clear_vm_abuse_data_v48128", "manage_vm_abuse_data_v48129", "clear_abuse_events",
    "admin_delete_vm", "admin_restore_vm", "admin_delete_node", "admin_restore_node",
    "admin_purge_node_vms", "admin_bulk_nodes", "admin_bulk_vms",
    "admin_database_maintenance", "admin_cancel_maintenance_v5057",
    "admin_change_password", "admin_logout", "admin_users_page", "admin_create_user", "admin_user_action",
    "admin_theme_manager", "admin_logs_page", "admin_system_health_page",
    "admin_api_system_health", "admin_bandwidth_consumption_action",
    "admin_node_groups_create", "admin_node_groups_update",
    "admin_node_groups_action", "admin_node_groups_assign", "admin_node_groups_bulk"]

section Gate

variable (env : Environment) (now : ℕ+)

/-- `bootstrap_dashboard_admin_from_settings`, on both tables. -/
def Accounts.bootstrap (a : Accounts) : Accounts :=
  { a with users := bootstrapDashboardAdmin a.settings env now a.users }

theorem Accounts.bootstrap_of_get? {a : Accounts} {id : Nat} {user : User} (h : a.users.get? id = some user) :
    a.bootstrap env now = a := by
  have hpos : 0 < dashboardUserCount a.users := dashboardUserCount_pos.mpr ⟨id, user, h⟩
  unfold Accounts.bootstrap
  rw [bootstrapDashboardAdmin_of_pos hpos]

variable [Security]

/-- What `require_admin` answers after its bootstrap; `none` lets the request in. -/
def adminDenial (a : Accounts) (s : Session) (r : Request) : Option Reply :=
  if emergencyAdminNeeded a.users then
    some (.text 403 "Forbidden: no enabled Super Admin exists. Recover the account from the server console.\n")
  else if !adminIsConfigured a.settings env then
    if dashboardUserCount a.users = 0 ∧ !r.post then some (.redirect "admin_setup") else some (.text 403 "Forbidden\n")
  else if !adminAllowed a s then
    if dashboardAllowed a s || r.post then some (.text 403 "Forbidden\n") else some (.redirect "admin_login")
  else if currentRole a s = .admin ∧ r.endpoint ∉ adminAllowedEndpoints then some (.text 403 "Forbidden\n")
  else if r.post ∧ r.csrfToken ≠ s.csrfToken then some (.text 403 "CSRF check failed\n")
  else none

/-- **`require_admin`.** -/
def requireAdmin (a : Accounts) (s : Session) (r : Request) : Accounts × Option Reply :=
  (a.bootstrap env now, adminDenial env (a.bootstrap env now) s r)

/-- **Who is let in**: the session of an enabled administrator, while a Super Admin is enabled and a password is set. -/
theorem adminDenial_eq_none {a : Accounts} {s : Session} {r : Request} :
    adminDenial env a s r = none ↔
      emergencyAdminNeeded a.users = false ∧ adminIsConfigured a.settings env = true ∧ adminAllowed a s = true ∧
        (currentRole a s = .admin → r.endpoint ∈ adminAllowedEndpoints) ∧
        (r.post = true → r.csrfToken = s.csrfToken) := by
  unfold adminDenial
  by_cases hemergency : emergencyAdminNeeded a.users = true
  · rw [if_pos hemergency]
    simp [hemergency]
  rw [if_neg hemergency]
  by_cases hconfigured : adminIsConfigured a.settings env = true
  swap
  · rw [if_pos (by simpa using hconfigured)]
    split <;> simp [hconfigured]
  rw [if_neg (by simpa using hconfigured)]
  by_cases hallowed : adminAllowed a s = true
  swap
  · rw [if_pos (by simpa using hallowed)]
    split <;> simp [hallowed]
  rw [if_neg (by simpa using hallowed)]
  by_cases hendpoint : currentRole a s = .admin ∧ r.endpoint ∉ adminAllowedEndpoints
  · rw [if_pos hendpoint]
    simp [hendpoint]
  rw [if_neg hendpoint]
  by_cases hcsrf : r.post = true ∧ r.csrfToken ≠ s.csrfToken
  · rw [if_pos hcsrf]
    simp [hcsrf]
  rw [if_neg hcsrf]
  simpa [hemergency, hconfigured, hallowed] using ⟨not_and_not_right.mp hendpoint, not_and_not_right.mp hcsrf⟩

end Gate

end VirtInfra.Admin
