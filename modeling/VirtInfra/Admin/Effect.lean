import VirtInfra.Admin.UserPages

/-!
# `Effect` — what a page can do to the accounts

Every page first creates the account of the settings when there is none (`Accounts.bootstrap`); what it then does is one
of a few effects, with what it has checked. Each invariant of the runs is a case analysis on them.
-/

namespace VirtInfra.Admin

open Lib Python Config

inductive PageKind
  | login
  | setup
  | users
  | password
  | other
  deriving DecidableEq

variable [Security] (env : Environment) (now : ℕ+)

/-- **What a page does** to the tables `a`, with a request of session `s`: the tables that it leaves and the session that
it opens. -/
inductive Effect (a : Accounts) (s : Session) : PageKind → Accounts → Option Session → Prop
  | stay (kind : PageKind) : Effect a s kind a none
  /-- A login with the password of an enabled account; as an administrator only if it is one. -/
  | signIn (form : Credentials) (row : Nat × User) (admin : Bool) (csrfToken : String)
      (found : getDashboardUser a.users form.username = some row) (active : row.2.isActive = true)
      (password : checkPasswordHash row.2.passwordHash form.password = true)
      (role : admin = true → row.2.role = .admin ∨ row.2.role = .superAdmin) :
      Effect a s .login (signIn now a row admin csrfToken).accounts (signIn now a row admin csrfToken).session
  /-- A login as the first administrator, whose account is gone. -/
  | legacy (form : Credentials) (salt csrfToken : String) (users : Users) (row : Nat × User)
      (missing : getDashboardUser a.users form.username = none) (converted : legacyAdmin env now a form salt = some users)
      (found : getDashboardUser users form.username = some row) :
      Effect a s .login (signIn now { a with users } row true csrfToken).accounts
        (signIn now { a with users } row true csrfToken).session
  | setup (username password salt salt' csrfToken : String) (h : strip username = username ∧ username ≠ "")
      (row : Nat × User) (empty : dashboardUserCount a.users = 0)
      (found : getDashboardUser (setAdminCredentials now a username password salt salt' h).users username = some row) :
      Effect a s .setup (signIn now (setAdminCredentials now a username password salt salt' h) row true csrfToken).accounts
        (signIn now (setAdminCredentials now a username password salt salt' h) row true csrfToken).session
  | create (r : Request) (form : CreateUserForm) (salt : String) (row : User) (allowed : adminDenial env a s r = none)
      (checked : checkedUser now a s form salt = .ok row) :
      Effect a s .users { a with users := (insertDashboardUser a.users row).1 } none
  | change (r : Request) (form : UserActionForm) (salt : String) (userId : Nat) (change : UserChange)
      (allowed : adminDenial env a s r = none) (checked : checkedChange a s form salt = .ok (userId, change)) :
      Effect a s .users { a with users := change.apply now a.users userId } none
  | ownPassword (r : Request) (salt newPassword : String) (userId : Nat) (user : User)
      (allowed : adminDenial env a s r = none) (own : currentDashboardUser a s = some (userId, user)) (a' : Accounts)
      (written : a' = { a with
        users := resetDashboardUserPassword a.users userId now salt newPassword (some user.role) }) :
      Effect a s .password a' (some (setSessionAuthStamp a' (getDashboardUserById a'.users userId) s))

variable {env now}

omit [Security] in
/-- The row of a name that was just written. -/
theorem getDashboardUser_upsert (users : Users) (row : User) :
    ∃ found, getDashboardUser (upsertDashboardUser users row) row.username = some found ∧
      found.2.passwordHash = row.passwordHash ∧ found.2.role = row.role ∧ found.2.isActive = row.isActive := by
  have hfind := SerialTable.find?_upsert_self users row (replaceCredentials row) (username_replaceCredentials row)
  unfold getDashboardUser upsertDashboardUser
  rw [row.named.1, if_neg row.named.2, hfind]
  refine ⟨_, rfl, ?_⟩
  cases users.named row.username with
  | none => exact ⟨rfl, rfl, rfl⟩
  | some old => exact ⟨rfl, rfl, rfl⟩

omit [Security] in
theorem getDashboardUser_strip (users : Users) (username : String) :
    getDashboardUser users (strip username) = getDashboardUser users username := by
  unfold getDashboardUser
  rw [strip_strip]

omit [Security] in
theorem currentDashboardUser_eq_some {a : Accounts} {s : Session} {row : Nat × User}
    (h : currentDashboardUser a s = some row) : a.users.get? row.1 = some row.2 := by
  unfold currentDashboardUser at h
  split at h
  · next found hfound =>
      obtain rfl := Option.some.inj h
      obtain ⟨id, -, hid⟩ := Option.bind_eq_some_iff.mp hfound
      exact (getDashboardUserById_eq_some.mp hid).2
  · exact (getDashboardUser_eq_some h).1

/-- Where a session is accepted, there is an account. -/
theorem bootstrap_of_allowed {a : Accounts} {s : Session} (h : dashboardAllowed a s = true) : a.bootstrap env now = a := by
  obtain ⟨row, hrow, -⟩ := dashboardAllowed_eq_true h
  exact Accounts.bootstrap_of_get? env now (currentDashboardUser_eq_some hrow)

/-! ## The pages -/

variable (a : Accounts) (s : Session)

theorem effect_dashboardLogin (form : Option Credentials) (csrfToken : String) :
    Effect env now (a.bootstrap env now) s .login (dashboardLogin env now a s form csrfToken).accounts
      (dashboardLogin env now a s form csrfToken).session := by
  unfold dashboardLogin
  split
  · next hallowed =>
      rw [bootstrap_of_allowed hallowed]
      exact .stay _
  · dsimp only
    split
    · exact .stay _
    · cases form with
      | none => exact .stay _
      | some form =>
          dsimp only
          split
          · exact .stay _
          · next row hrow =>
              split
              · exact .stay _
              · next hactive =>
                  split
                  · exact .stay _
                  · next hpassword =>
                      exact .signIn form row _ csrfToken hrow (by simpa using hactive) (by simpa using hpassword) (by simp)

theorem effect_adminLogin (form : Option Credentials) (salt csrfToken : String) :
    Effect env now (a.bootstrap env now) s .login (adminLogin env now a s form salt csrfToken).accounts
      (adminLogin env now a s form salt csrfToken).session := by
  unfold adminLogin
  dsimp only
  split
  · exact .stay _
  · split
    · exact .stay _
    · cases form with
      | none => exact .stay _
      | some form =>
          dsimp only
          split
          · next row hrow =>
              split
              · exact .stay _
              · next hrole =>
                  split
                  · exact .stay _
                  · next hpassword =>
                      rw [not_or, not_not] at hrole
                      exact .signIn form row true csrfToken hrow (by simpa using hrole.2) (by simpa using hpassword)
                        fun _ => hrole.1
          · next hmissing =>
              split
              · exact .stay _
              · next users hconverted =>
                  split
                  · next row hfound => exact .legacy form salt csrfToken users row hmissing hconverted hfound
                  · next hlost =>
                      -- The account that was just written is found.
                      exfalso
                      unfold legacyAdmin at hconverted
                      dsimp only at hconverted
                      split at hconverted
                      · next hlegacy =>
                          obtain rfl := Option.some.inj hconverted
                          obtain ⟨found, hfound, -⟩ := getDashboardUser_upsert (a.bootstrap env now).users
                            (newUser now (strip form.username) salt form.password .superAdmin
                              ⟨strip_strip _, hlegacy.2.2.2⟩)
                          rw [← getDashboardUser_strip] at hlost
                          cases hlost.symm.trans hfound
                      · cases hconverted

theorem effect_adminSetup (form : Option SetupForm) (salt salt' csrfToken : String) :
    Effect env now (a.bootstrap env now) s .setup (adminSetup env now a s form salt salt' csrfToken).accounts
      (adminSetup env now a s form salt salt' csrfToken).session := by
  unfold adminSetup
  dsimp only
  split
  · split <;> exact .stay _
  · next hempty =>
      cases form with
      | none => exact .stay _
      | some form =>
          dsimp only
          split
          · exact .stay _
          · split
            · exact .stay _
            · split
              · exact .stay _
              · split
                · next row hfound =>
                    exact .setup _ form.password salt salt' csrfToken (setupUsername_named _) row
                      (Nat.eq_zero_of_not_pos hempty) hfound
                · next hlost =>
                    exfalso
                    obtain ⟨found, hfound, -⟩ := getDashboardUser_upsert (a.bootstrap env now).users
                      (newUser now (setupUsername form.username) salt' form.password .superAdmin (setupUsername_named _))
                    unfold setAdminCredentials at hlost
                    rw [username_newUser, hlost] at hfound
                    cases hfound

theorem effect_adminCreateUser (csrfToken : Option String) (form : CreateUserForm) (salt : String) :
    Effect env now (a.bootstrap env now) s .users (adminCreateUser env now a s csrfToken form salt).accounts
      (adminCreateUser env now a s csrfToken form salt).session := by
  unfold adminCreateUser requireAdmin
  cases hdenial : adminDenial env (a.bootstrap env now) s ⟨true, "admin_create_user", csrfToken⟩ with
  | some reply => exact .stay _
  | none =>
      dsimp only
      cases hchecked : checkedUser now (a.bootstrap env now) s form salt with
      | error reply => exact .stay _
      | ok row =>
          dsimp only
          split <;> exact .create _ form salt row hdenial hchecked

theorem effect_adminUserAction (csrfToken : Option String) (form : UserActionForm) (salt : String) :
    Effect env now (a.bootstrap env now) s .users (adminUserAction env now a s csrfToken form salt).accounts
      (adminUserAction env now a s csrfToken form salt).session := by
  unfold adminUserAction requireAdmin
  cases hdenial : adminDenial env (a.bootstrap env now) s ⟨true, "admin_user_action", csrfToken⟩ with
  | some reply => exact .stay _
  | none =>
      dsimp only
      cases hchecked : checkedChange (a.bootstrap env now) s form salt with
      | error reply => exact .stay _
      | ok target => exact .change _ form salt target.1 target.2 hdenial hchecked

theorem effect_adminChangePassword (csrfToken : Option String) (form : ChangePasswordForm) (salt : String) :
    Effect env now (a.bootstrap env now) s .password (adminChangePassword env now a s csrfToken form salt).accounts
      (adminChangePassword env now a s csrfToken form salt).session := by
  unfold adminChangePassword requireAdmin
  cases hdenial : adminDenial env (a.bootstrap env now) s ⟨true, "admin_change_password", csrfToken⟩ with
  | some reply => exact .stay _
  | none =>
      dsimp only
      cases hown : currentDashboardUser (a.bootstrap env now) s with
      | none => exact .stay _
      | some row =>
          dsimp only
          split
          · exact .stay _
          · split
            · exact .stay _
            · split
              · exact .stay _
              · exact .ownPassword _ salt form.newPassword row.1 row.2 hdenial hown _ rfl

end VirtInfra.Admin
