import VirtInfra.Admin.Pages

/-!
# `UserPages` — the management of accounts (`node_groups.py`)

`admin_create_user`, `admin_user_action` and `admin_change_password`. The checks of an action on another account are one
definition, `checkedChange`, and what a passed check writes is `UserChange.apply`: between the two the application holds
no lock.
-/

namespace VirtInfra.Admin

open Lib Python Config

/-! ## Changes of an account -/

/-- What `admin_user_action` does to an account. -/
inductive UserChange
  | disable
  | enable
  | delete
  | resetPassword (salt password : String)
  | changeRole (role : Role)

/-- The write of an action. -/
def UserChange.apply [Security] (change : UserChange) (now : ℕ+) (users : Users) (userId : Nat) : Users :=
  match change with
  | .disable => setDashboardUserStatus users userId now false
  | .enable => setDashboardUserStatus users userId now true
  | .delete => deleteDashboardUser users userId
  | .resetPassword salt password => resetDashboardUserPassword users userId now salt password none
  | .changeRole role => setDashboardUserRole users userId now role

/-- The form of `admin_user_action`. -/
structure UserActionForm where
  userId : Int
  action : String
  newPassword : String
  role : String

section Checks

variable (a : Accounts) (s : Session)

/-- `_can_manage_user`. -/
def canManageUser (targetRole : Role) : Bool := isSuperAdmin a s || decide (targetRole ≠ .superAdmin)

/-- `current_dashboard_user_id`. -/
def currentDashboardUserId : Nat := ((currentDashboardUser a s).map Prod.fst).getD 0

def ownAccountBlock : String :=
  "Safety block: use the Password page for your own password; " ++
    "your own role, status and account cannot be changed here.\n"

def lastAdminBlock : String :=
  "Safety block: you cannot disable or delete the last enabled Super Admin. Create another Super Admin first.\n"

def downgradeBlock : String :=
  "Safety block: you cannot downgrade the last enabled Super Admin. Create another Super Admin first.\n"

/-- The account of the form, if the actor may act on it. -/
def checkedTarget (form : UserActionForm) (action : String) : Except Reply (Nat × User) :=
  if form.userId ≤ 0 then .error (.text 400 "Missing user_id\n")
  else
    match getDashboardUserById a.users form.userId.toNat with
    | none => .error (.text 404 "User not found\n")
    | some (userId, user) =>
        if !canManageUser a s user.role then .error (.text 404 "User not found\n")
        else if userId = currentDashboardUserId a s ∧ action ∈ ["disable", "delete", "reset_password", "change_role"] then
          .error (.text 400 ownAccountBlock)
        else if action ∈ ["disable", "delete"] ∧ isLastEnabledAdmin a.users userId then
          .error (.text 400 lastAdminBlock)
        else .ok (userId, user)

/-- The change of the form. -/
def checkedAction (form : UserActionForm) (action salt : String) (userId : Nat) (user : User) : Except Reply UserChange :=
  if action = "disable" then .ok .disable
  else if action = "enable" then .ok .enable
  else if action = "delete" then .ok .delete
  else if action = "reset_password" then
    if form.newPassword.length < 10 then .error (.text 400 "New password must be at least 10 characters\n")
    else .ok (.resetPassword salt form.newPassword)
  else if action = "change_role" then
    match requestedRole form.role with
    | none => .error (.text 400 "Invalid role\n")
    | some role =>
        if role = .superAdmin ∧ !isSuperAdmin a s then .error (.text 403 "Forbidden role assignment\n")
        else if user.role = .superAdmin ∧ role ≠ .superAdmin ∧ user.isActive ∧
            activeSuperAdminCount a.users (some userId) = 0 then
          .error (.text 400 downgradeBlock)
        else .ok (.changeRole role)
  else .error (.text 400 "Invalid action\n")

/-- What `admin_user_action` checks before it writes. -/
def checkedChange (form : UserActionForm) (salt : String) : Except Reply (Nat × UserChange) := do
  let action := lower (strip form.action)
  let (userId, user) ← checkedTarget a s form action
  let change ← checkedAction a s form action salt userId user
  return (userId, change)

theorem checkedTarget_eq_ok {a : Accounts} {s : Session} {form : UserActionForm} {action : String} {userId : Nat}
    {user : User} (h : checkedTarget a s form action = .ok (userId, user)) :
    a.users.get? userId = some user ∧ canManageUser a s user.role = true ∧
      (userId = currentDashboardUserId a s → action ∉ ["disable", "delete", "reset_password", "change_role"]) := by
  unfold checkedTarget at h
  split at h
  · cases h
  · split at h
    · cases h
    · next id user' hget =>
        obtain ⟨rfl, hget⟩ := getDashboardUserById_eq_some.mp hget
        by_cases hmanage : canManageUser a s user'.role = true
        swap
        · rw [if_pos (by simpa using hmanage)] at h
          cases h
        rw [if_neg (by simpa using hmanage)] at h
        split at h
        · cases h
        · next hself =>
            split at h
            · cases h
            · obtain ⟨rfl, rfl⟩ := Prod.mk.inj (Except.ok.inj h)
              exact ⟨hget, hmanage, fun hid haction => hself ⟨hid, haction⟩⟩

theorem checkedAction_eq_ok {a : Accounts} {s : Session} {form : UserActionForm} {action salt : String} {userId : Nat}
    {user : User} {change : UserChange} (h : checkedAction a s form action salt userId user = .ok change) :
    (change = .enable ∨ action ∈ ["disable", "delete", "reset_password", "change_role"]) ∧
      (change = .changeRole .superAdmin → isSuperAdmin a s = true) := by
  unfold checkedAction at h
  by_cases hdisable : action = "disable"
  · rw [if_pos hdisable] at h
    obtain rfl := Except.ok.inj h
    simp [hdisable]
  rw [if_neg hdisable] at h
  by_cases henable : action = "enable"
  · rw [if_pos henable] at h
    obtain rfl := Except.ok.inj h
    simp
  rw [if_neg henable] at h
  by_cases hdelete : action = "delete"
  · rw [if_pos hdelete] at h
    obtain rfl := Except.ok.inj h
    simp [hdelete]
  rw [if_neg hdelete] at h
  by_cases hreset : action = "reset_password"
  · rw [if_pos hreset] at h
    split at h
    · cases h
    · obtain rfl := Except.ok.inj h
      simp [hreset]
  rw [if_neg hreset] at h
  by_cases hrole : action = "change_role"
  swap
  · rw [if_neg hrole] at h
    cases h
  rw [if_pos hrole] at h
  split at h
  · cases h
  · next role _ =>
      split at h
      · cases h
      · next hforbidden =>
          split at h
          · cases h
          · obtain rfl := Except.ok.inj h
            refine ⟨.inr (by simp [hrole]), fun heq => ?_⟩
            obtain rfl := UserChange.changeRole.inj heq
            by_contra hsuper
            exact hforbidden ⟨rfl, by simpa using hsuper⟩

/-- **What a passed check says**: the target is there, only a Super Admin touches or makes one, and on the own account
there is nothing but an enabling. -/
theorem checkedChange_eq_ok {a : Accounts} {s : Session} {form : UserActionForm} {salt : String} {userId : Nat}
    {change : UserChange} (h : checkedChange a s form salt = .ok (userId, change)) :
    ∃ user, a.users.get? userId = some user ∧ canManageUser a s user.role = true ∧
      (userId = currentDashboardUserId a s → change = .enable) ∧
      (change = .changeRole .superAdmin → isSuperAdmin a s = true) := by
  unfold checkedChange at h
  dsimp only at h
  cases htarget : checkedTarget a s form (lower (strip form.action)) with
  | error reply => rw [htarget] at h; cases h
  | ok target =>
      obtain ⟨id, user⟩ := target
      rw [htarget] at h
      cases haction : checkedAction a s form (lower (strip form.action)) salt id user with
      | error reply =>
          have herror : (Except.error reply : Except Reply (Nat × UserChange)) = .ok (userId, change) := by
            simpa only [bind, Except.bind, haction] using h
          cases herror
      | ok change' =>
          have hok : (Except.ok (id, change') : Except Reply (Nat × UserChange)) = .ok (userId, change) := by
            simpa only [bind, Except.bind, haction, pure, Except.pure] using h
          obtain ⟨rfl, rfl⟩ := Prod.mk.inj (Except.ok.inj hok)
          obtain ⟨hget, hmanage, hself⟩ := checkedTarget_eq_ok htarget
          obtain ⟨hlisted, hsuper⟩ := checkedAction_eq_ok haction
          exact ⟨user, hget, hmanage, fun hid => hlisted.resolve_right (hself hid), hsuper⟩

end Checks

/-! ## The pages -/

section Pages

variable [Security] (env : Environment) (now : ℕ+)

/-- **`admin_user_action`.** -/
def adminUserAction (a : Accounts) (s : Session) (csrfToken : Option String) (form : UserActionForm) (salt : String) :
    Answer :=
  match requireAdmin env now a s ⟨true, "admin_user_action", csrfToken⟩ with
  | (a, some denial) => ⟨a, denial, none⟩
  | (a, none) =>
      match checkedChange a s form salt with
      | .error reply => ⟨a, reply, none⟩
      | .ok (userId, change) =>
          ⟨{ a with users := change.apply now a.users userId }, .redirect "admin_users_page", none⟩

/-- The form of `admin_create_user`. -/
structure CreateUserForm where
  username : String
  password : String
  role : String

/-- The account of the form, once it is checked. -/
def checkedUser (a : Accounts) (s : Session) (form : CreateUserForm) (salt : String) : Except Reply User :=
  let username := strip form.username
  match requestedRole form.role with
  | none => .error (.text 400 "Invalid role\n")
  | some role =>
      if role = .superAdmin ∧ !isSuperAdmin a s then .error (.text 403 "Forbidden role assignment\n")
      else if h : username = "" ∨ username.length < 3 ∨ username.length > 128 then
        .error (.text 400 "Username must be between 3 and 128 characters\n")
      else if username.toList.any fun ch => ch.toNat < 32 then
        .error (.text 400 "Username contains invalid control characters\n")
      else if form.password.length < 10 then .error (.text 400 "Password must be at least 10 characters\n")
      else .ok (newUser now username salt form.password role ⟨strip_strip _, fun hblank => h (.inl hblank)⟩)

/-- **`admin_create_user`.** -/
def adminCreateUser (a : Accounts) (s : Session) (csrfToken : Option String) (form : CreateUserForm) (salt : String) :
    Answer :=
  match requireAdmin env now a s ⟨true, "admin_create_user", csrfToken⟩ with
  | (a, some denial) => ⟨a, denial, none⟩
  | (a, none) =>
      match checkedUser now a s form salt with
      | .error reply => ⟨a, reply, none⟩
      | .ok row =>
          let a' := { a with users := (insertDashboardUser a.users row).1 }
          if (insertDashboardUser a.users row).2 then ⟨a', .redirect "admin_users_page", none⟩
          else ⟨a', .text 409 "Username already exists\n", none⟩

/-- The form of `admin_change_password`. -/
structure ChangePasswordForm where
  currentPassword : String
  newPassword : String
  confirmPassword : String

/-- **`admin_change_password`**, sent with its form. -/
def adminChangePassword (a : Accounts) (s : Session) (csrfToken : Option String) (form : ChangePasswordForm)
    (salt : String) : Answer :=
  match requireAdmin env now a s ⟨true, "admin_change_password", csrfToken⟩ with
  | (a, some denial) => ⟨a, denial, none⟩
  | (a, none) =>
      match currentDashboardUser a s with
      | none => ⟨a, .text 403 "Forbidden\n", none⟩
      | some (userId, user) =>
          if !checkPasswordHash user.passwordHash form.currentPassword then
            ⟨a, .page "Current password is incorrect.", none⟩
          else if form.newPassword.length < 10 then ⟨a, .page "New password must be at least 10 characters.", none⟩
          else if form.newPassword ≠ form.confirmPassword then ⟨a, .page "Password confirmation does not match.", none⟩
          else
            let a := { a with
              users := resetDashboardUserPassword a.users userId now salt form.newPassword (some user.role) }
            ⟨a, .page "", some (setSessionAuthStamp a (getDashboardUserById a.users userId) s)⟩

end Pages

end VirtInfra.Admin
