import VirtInfra.Admin.Effect
import VirtInfra.Config.Nuclear
import VirtInfra.Lib.Transition

/-!
# `Run` — every run of the account pages, the restores and the resets

A state is the configuration tables and the cookies that were ever issued, each with a flag that no code reads: whether
the account of the cookie had its password or role changed, was disabled or deleted since. A request carries one of the
cookies, or none; a signature under another key than the present one is no session. The maintenance worker stops the
application around a restore or a reset, so these are one step each, with the role migration of the next start.
-/

namespace VirtInfra.Admin

open Lib Python Config

variable [CaseFold] [Security]

/-- A signed session that was sent to a browser. -/
structure Cookie where
  key : String
  session : Session
  revoked : Bool

structure State where
  db : Database
  issued : List Cookie

/-- The tables of the account pages. -/
def State.accounts (st : State) : Accounts := ⟨st.db.users, st.db.settings⟩

/-- The session that a request carries. -/
def State.session (st : State) (cookie : Option Nat) : Session :=
  match cookie.bind fun i => st.issued[i]? with
  | some c => if c.key = st.accounts.secretKey then c.session else {}
  | none => {}

/-- **What takes the rights of an account away**: another password or role, a disabling, a deletion. -/
def revokes (before after : Option User) : Bool :=
  match before, after with
  | none, _ => false
  | some _, none => true
  | some u, some u' => decide (u'.passwordHash ≠ u.passwordHash ∨ u'.role ≠ u.role) || u.isActive && !u'.isActive

/-- The cookies after a write to the accounts. -/
def markRevoked (before after : Users) (issued : List Cookie) : List Cookie :=
  issued.map fun c =>
    { c with
      revoked := c.revoked || c.session.dashboardUserId.any fun id => revokes (before.get? id) (after.get? id) }

/-- The state after a page. -/
def State.answer (st : State) (accounts : Accounts) (session : Option Session) : State where
  db := { st.db with users := accounts.users, settings := accounts.settings }
  issued :=
    (session.map fun session => ⟨accounts.secretKey, session, false⟩).toList ++
      markRevoked st.db.users accounts.users st.issued

/-- The part of `ensure_schema` that touches accounts: once, every administrator becomes a Super Admin. -/
def migrateRoles (now : ℕ+) (db : Database) : Database :=
  if (db.settings.get? "node_groups_role_migration_v1").isSome then db
  else
    { db with
      users := db.users.update (fun _ user => if user.role = .admin then { user with role := .superAdmin, updatedAt := now } else user)
        fun _ user => by split <;> rfl
      settings := db.settings.put "node_groups_role_migration_v1" ⟨"completed", now⟩ }

/-- The state after the maintenance worker changed the tables and started the application again. -/
def State.restart (st : State) (now : ℕ+) (db : Database) : State where
  db := migrateRoles now db
  issued := markRevoked st.db.users (migrateRoles now db).users st.issued

/-- **What happens in a run.** -/
inductive Action
  | signInDashboard (cookie : Option Nat) (form : Option Credentials) (csrfToken : String)
  | signInAdmin (cookie : Option Nat) (form : Option Credentials) (salt csrfToken : String)
  | setUp (cookie : Option Nat) (form : Option SetupForm) (salt salt' csrfToken : String)
  | createUser (cookie : Option Nat) (csrfToken : Option String) (form : CreateUserForm) (salt : String)
  | userAction (cookie : Option Nat) (csrfToken : Option String) (form : UserActionForm) (salt : String)
  | changePassword (cookie : Option Nat) (csrfToken : Option String) (form : ChangePasswordForm) (salt : String)
  /-- Any other administration page. -/
  | adminPage (cookie : Option Nat) (r : Request)
  | restore (r : RestoreRequest) (payload : Configuration)
  | nuclearReset (r : ResetRequest)

variable (env : Environment)

/-- What a page answers to a request of session `s`. -/
def Action.answer (now : ℕ+) (a : Accounts) (s : Session) : Action → Answer
  | .signInDashboard _ form csrfToken => dashboardLogin env now a s form csrfToken
  | .signInAdmin _ form salt csrfToken => adminLogin env now a s form salt csrfToken
  | .setUp _ form salt salt' csrfToken => adminSetup env now a s form salt salt' csrfToken
  | .createUser _ csrfToken form salt => adminCreateUser env now a s csrfToken form salt
  | .userAction _ csrfToken form salt => adminUserAction env now a s csrfToken form salt
  | .changePassword _ csrfToken form salt => adminChangePassword env now a s csrfToken form salt
  | .adminPage _ r => ⟨(requireAdmin env now a s r).1, (requireAdmin env now a s r).2.getD (.page ""), none⟩
  | .restore _ _ | .nuclearReset _ => ⟨a, .page "", none⟩

/-- The cookie that comes with a request. -/
def Action.cookie : Action → Option Nat
  | .signInDashboard cookie _ _ | .signInAdmin cookie _ _ _ | .setUp cookie _ _ _ _ | .createUser cookie _ _ _
  | .userAction cookie _ _ _ | .changePassword cookie _ _ _ | .adminPage cookie _ => cookie
  | .restore _ _ | .nuclearReset _ => none

/-- **One step of a run.** -/
def State.step (st : State) (now : ℕ+) : Action → State
  | .restore r payload => (restoreConfigurationBackup r payload st.db).elim st fun db => st.restart now db
  | .nuclearReset r => (resetAppData r st.db).elim st fun db => st.restart now db
  | action =>
      let answer := action.answer env now st.accounts (st.session action.cookie)
      st.answer answer.accounts answer.session

/-- **A fresh installation**: no account and no session. -/
structure Fresh (st : State) : Prop where
  users : ∀ id, st.db.users.get? id = none
  issued : st.issued = []
  migrated : (st.db.settings.get? "node_groups_role_migration_v1").isSome

/-- **The administration**, from its installation on. -/
def administration : System State (ℕ+ × Action) where
  init := Fresh
  step st l := some (st.step env l.1 l.2)

/-! ## What a step does -/

def Action.kind : Action → PageKind
  | .signInDashboard _ _ _ | .signInAdmin _ _ _ _ => .login
  | .setUp _ _ _ _ _ => .setup
  | .createUser _ _ _ _ | .userAction _ _ _ _ => .users
  | .changePassword _ _ _ _ => .password
  | .adminPage _ _ | .restore _ _ | .nuclearReset _ => .other

/-- **Every step** is a page, a restore, a reset, or one of these that failed. -/
inductive Happens (st : State) (now : ℕ+) : Action → State → Prop
  | page (action : Action) (accounts : Accounts) (session : Option Session)
      (effect : Effect env now (st.accounts.bootstrap env now) (st.session action.cookie) action.kind accounts session) :
      Happens st now action (st.answer accounts session)
  | restored (r : RestoreRequest) (payload : Configuration) (db : Database)
      (done : restoreConfigurationBackup r payload st.db = some db) :
      Happens st now (.restore r payload) (st.restart now db)
  | reset (r : ResetRequest) (db : Database) (done : resetAppData r st.db = some db) :
      Happens st now (.nuclearReset r) (st.restart now db)
  | failed (action : Action) : Happens st now action st

theorem happens (st : State) (now : ℕ+) (action : Action) : Happens env st now action (st.step env now action) := by
  cases action with
  | signInDashboard cookie form csrfToken => exact .page _ _ _ (effect_dashboardLogin _ _ form csrfToken)
  | signInAdmin cookie form salt csrfToken => exact .page _ _ _ (effect_adminLogin _ _ form salt csrfToken)
  | setUp cookie form salt salt' csrfToken => exact .page _ _ _ (effect_adminSetup _ _ form salt salt' csrfToken)
  | createUser cookie csrfToken form salt => exact .page _ _ _ (effect_adminCreateUser _ _ csrfToken form salt)
  | userAction cookie csrfToken form salt => exact .page _ _ _ (effect_adminUserAction _ _ csrfToken form salt)
  | changePassword cookie csrfToken form salt => exact .page _ _ _ (effect_adminChangePassword _ _ csrfToken form salt)
  | adminPage cookie r => exact .page _ _ _ (.stay _)
  | restore r payload =>
      show Happens env st now _ ((restoreConfigurationBackup r payload st.db).elim st fun db => st.restart now db)
      cases hdone : restoreConfigurationBackup r payload st.db with
      | none => exact .failed _
      | some db => exact .restored r payload db hdone
  | nuclearReset r =>
      show Happens env st now _ ((resetAppData r st.db).elim st fun db => st.restart now db)
      cases hdone : resetAppData r st.db with
      | none => exact .failed _
      | some db => exact .reset r db hdone

end VirtInfra.Admin
