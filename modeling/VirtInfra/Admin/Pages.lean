import VirtInfra.Admin.Session

/-!
# `Pages` — login, setup and the user pages (`node_groups.py`)

Each page is a function of the two tables, the session that came with the request and the form; it answers with the
tables, the reply and the session that it opens, if any. A login page sent without a form has no credentials. Salts and
CSRF tokens are arguments. Account logs are left out.
-/

namespace VirtInfra.Admin

open Lib Python Config

variable [Security] (env : Environment) (now : ℕ+)

/-- What a page leaves and answers. -/
structure Answer where
  accounts : Accounts
  reply : Reply
  session : Option Session := none

/-- The form of a login page. -/
structure Credentials where
  username : String
  password : String

/-! ## Signing in -/

/-- `_set_session_auth_stamp`. -/
def setSessionAuthStamp (a : Accounts) (row : Option (Nat × User)) (s : Session) : Session :=
  match row.or (currentDashboardUser a s) with
  | some row => { s with dashboardAuthStamp := userAuthStamp a.secretKey row }
  | none => { s with dashboardAuthStamp := "" }

/-- What a login does once the password is right. -/
def signIn (a : Accounts) (row : Nat × User) (admin : Bool) (csrfToken : String) : Answer :=
  let a := { a with users := updateDashboardUserLogin a.users row.1 now }
  let s : Session :=
    { dashboardAuthenticated := true, dashboardUserId := row.1, dashboardUsername := row.2.username
      dashboardRole := row.2.role, adminAuthenticated := admin, adminUsername := if admin then row.2.username else ""
      csrfToken := csrfToken }
  ⟨a, .redirect "next", some (setSessionAuthStamp a (getDashboardUser a.users row.2.username) s)⟩

/-- `dashboard_login`. -/
def dashboardLogin (a : Accounts) (s : Session) (form : Option Credentials) (csrfToken : String) : Answer :=
  if dashboardAllowed a s then ⟨a, .redirect "next", none⟩
  else
    let a := a.bootstrap env now
    if !adminIsConfigured a.settings env ∧ dashboardUserCount a.users = 0 then ⟨a, .redirect "admin_setup", none⟩
    else
      match form with
      | none => ⟨a, .page "", none⟩
      | some form =>
          match getDashboardUser a.users form.username with
          | none => ⟨a, .page "Invalid username or password.", none⟩
          | some row =>
              if !row.2.isActive then ⟨a, .page "This user is disabled.", none⟩
              else if !checkPasswordHash row.2.passwordHash form.password then
                ⟨a, .page "Invalid username or password.", none⟩
              else signIn now a row (row.2.role = .admin ∨ row.2.role = .superAdmin) csrfToken

/-- The first administrator's name and password, where no account has the name; the account comes back. -/
def legacyAdmin (a : Accounts) (form : Credentials) (salt : String) : Option Users :=
  let username := strip form.username
  let legacyHash := getAdminPasswordHash a.settings env
  if h : username = getAdminUsername a.settings env ∧ legacyHash ≠ "" ∧
      checkPasswordHash legacyHash form.password = true ∧ username ≠ "" then
    some (upsertDashboardUser a.users
      (newUser now username salt form.password .superAdmin ⟨strip_strip _, h.2.2.2⟩))
  else none

/-- **`admin_login`.** -/
def adminLogin (a : Accounts) (s : Session) (form : Option Credentials) (salt csrfToken : String) : Answer :=
  let a := a.bootstrap env now
  if emergencyAdminNeeded a.users then
    ⟨a, .text 403 "Forbidden: no enabled Super Admin exists. Recover the account from the server console.\n", none⟩
  else if adminAllowed a s then ⟨a, .redirect "next", none⟩
  else
    match form with
    | none => ⟨a, .page "", none⟩
    | some form =>
        match getDashboardUser a.users form.username with
        | some row =>
            if ¬(row.2.role = .admin ∨ row.2.role = .superAdmin) ∨ !row.2.isActive then
              ⟨a, .page "This user is disabled or does not have an administrator role.", none⟩
            else if !checkPasswordHash row.2.passwordHash form.password then
              ⟨a, .page "Invalid username or password.", none⟩
            else signIn now a row true csrfToken
        | none =>
            match legacyAdmin env now a form salt with
            | none => ⟨a, .page "Invalid username or password.", none⟩
            | some users =>
                match getDashboardUser users form.username with
                | some row => signIn now { a with users } row true csrfToken
                | none => ⟨{ a with users }, .page "Invalid username or password.", none⟩

/-! ## Setup -/

structure SetupForm where
  username : String
  password : String
  confirm : String

/-- The name that the setup form asks for, or the default one. -/
def setupUsername (username : String) : String :=
  let username := strip (if username = "" then "admin" else username)
  if username = "" then "admin" else username

omit [Security] in
theorem setupUsername_named (username : String) :
    strip (setupUsername username) = setupUsername username ∧ setupUsername username ≠ "" := by
  unfold setupUsername
  have hstrip := strip_strip (if username = "" then "admin" else username)
  dsimp only
  generalize strip (if username = "" then "admin" else username) = name at hstrip ⊢
  split
  · decide
  · next hne => exact ⟨hstrip, hne⟩

/-- `set_admin_credentials`, which writes to both tables. -/
def setAdminCredentials (a : Accounts) (username password salt salt' : String)
    (h : strip username = username ∧ username ≠ "") : Accounts where
  users := upsertDashboardUser a.users (newUser now username salt' password .superAdmin h)
  settings := setAdminSetting (setAdminSetting a.settings "admin_username" username now) "admin_password_hash"
    (generatePasswordHash salt password) now

/-- **`admin_setup`**, which creates the first account. -/
def adminSetup (a : Accounts) (s : Session) (form : Option SetupForm) (salt salt' csrfToken : String) : Answer :=
  let a := a.bootstrap env now
  if dashboardUserCount a.users > 0 then
    if adminAllowed a s then ⟨a, .redirect "admin_page", none⟩
    else
      ⟨a, .text 403 ("Forbidden: initial setup is disabled after the first user is created. " ++
        "Recover a missing Super Admin from the server console.\n"), none⟩
  else
    match form with
    | none => ⟨a, .page "", none⟩
    | some form =>
        let username := setupUsername form.username
        if username.length < 3 then ⟨a, .page "Username must be at least 3 characters.", none⟩
        else if form.password.length < 10 then ⟨a, .page "Password must be at least 10 characters.", none⟩
        else if form.password ≠ form.confirm then ⟨a, .page "Password confirmation does not match.", none⟩
        else
          let a := setAdminCredentials now a username form.password salt salt' (setupUsername_named _)
          match getDashboardUser a.users username with
          | some row => { signIn now a row true csrfToken with reply := .redirect "admin_page" }
          | none => ⟨a, .redirect "admin_page", none⟩

end VirtInfra.Admin
