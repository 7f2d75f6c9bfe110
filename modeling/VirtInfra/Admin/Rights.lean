import VirtInfra.Admin.Cookies
import VirtInfra.Config.Sections

/-!
# `Rights` — who can come to new rights, and by what

Row by row, what a step leaves of the rights of the accounts: a login changes no account's rights, a user action changes
those of its target, a restore keeps the row of its actor and gives every other account a new id, a reset keeps one row.
The key of the sessions and the mark of the role migration stand in settings that no page writes.
-/

namespace VirtInfra.Admin

open Lib Python Config

variable [Security]

omit [Security] in
theorem SameRights.enabledSuperAdmin {u v : User} (h : SameRights u v) : u.enabledSuperAdmin = v.enabledSuperAdmin := by
  unfold User.enabledSuperAdmin
  rw [h.role, h.isActive]

/-- **The stamp says no more than the name and the rights.** -/
theorem userAuthStamp_congr {u v : User} (h : SameRights u v) (hname : u.username = v.username) (key : String) (id : Nat) :
    userAuthStamp key (id, u) = userAuthStamp key (id, v) := by
  unfold userAuthStamp authPayload
  rw [hname, h.passwordHash, h.role, h.isActive]

/-! ## User actions -/

/-- The row that an action on its account leaves. -/
def UserChange.row (now : ℕ+) (user : User) : UserChange → Option User
  | .disable => some { user with isActive := false, updatedAt := now }
  | .enable => some { user with isActive := true, updatedAt := now }
  | .delete => none
  | .resetPassword salt password =>
      some
        { user with
          passwordHash := generatePasswordHash salt password
          updatedAt := now
          hashed := Security.generatePasswordHash_ne salt password }
  | .changeRole role => some { user with role, updatedAt := now }

/-- **An action changes its target and nothing else.** -/
theorem get?_apply (change : UserChange) (now : ℕ+) (users : Users) (userId id : Nat) :
    (change.apply now users userId).get? id =
      if id = userId then (users.get? id).bind fun user => change.row now user else users.get? id := by
  have hmodify : ∀ (f : User → User) (hf : ∀ u, (f u).username = u.username),
      (users.modify userId f hf).get? id = if id = userId then (users.get? id).bind fun u => some (f u) else users.get? id := by
    intro f hf
    rw [SerialTable.get?_modify]
    by_cases hid : id = userId
    · simp only [if_pos hid, Option.map_eq_bind, Function.comp_def]
    · simp only [if_neg hid, Option.map_id']
  cases change with
  | disable => exact hmodify _ (by intro u; rfl)
  | enable => exact hmodify _ (by intro u; rfl)
  | delete =>
      show (users.deleteRows fun id _ => decide (id = userId)).get? id = _
      rw [SerialTable.get?_deleteRows]
      by_cases hid : id = userId <;> cases users.get? id <;> simp [hid, UserChange.row, Option.filter]
  | resetPassword salt password => exact hmodify _ (by intro u; rfl)
  | changeRole role => exact hmodify _ (by intro u; rfl)

/-- The own password is changed as another account's is. -/
theorem resetDashboardUserPassword_own {users : Users} {userId : Nat} {user : User} (h : users.get? userId = some user)
    (now : ℕ+) (salt password : String) (id : Nat) :
    (resetDashboardUserPassword users userId now salt password (some user.role)).get? id =
      ((UserChange.resetPassword salt password).apply now users userId).get? id := by
  show _ = (resetDashboardUserPassword users userId now salt password none).get? id
  unfold resetDashboardUserPassword
  rw [SerialTable.get?_modify, SerialTable.get?_modify]
  by_cases hid : id = userId
  · subst hid
    rw [h]
    rfl
  · simp only [if_neg hid]

/-! ## Logins -/

section Logins

variable {env : Environment} {now : ℕ+} {a a' : Accounts} {s : Session} {kind : PageKind} {opened : Option Session}

/-- A login changes no account's rights. -/
theorem sameRights_signIn {row : Nat × User} {admin : Bool} {csrfToken : String} {id : Nat} {u' : User}
    (h : (signIn now a row admin csrfToken).accounts.users.get? id = some u') :
    ∃ u, a.users.get? id = some u ∧ SameRights u' u := by
  change (updateDashboardUserLogin a.users row.1 now).get? id = some u' at h
  unfold updateDashboardUserLogin at h
  rw [SerialTable.get?_modify] at h
  obtain ⟨u, hu, rfl⟩ := Option.map_eq_some_iff.mp h
  refine ⟨u, hu, ?_⟩
  split <;> exact ⟨rfl, rfl, rfl⟩

/-- **When the first administrator's password counts**: for its name, where the settings or the environment have a hash. -/
theorem legacyAdmin_eq_some {form : Credentials} {salt : String} {users : Users}
    (h : legacyAdmin env now a form salt = some users) :
    strip form.username = getAdminUsername a.settings env ∧ getAdminPasswordHash a.settings env ≠ "" ∧
      checkPasswordHash (getAdminPasswordHash a.settings env) form.password = true ∧
      ∃ hnamed, users = upsertDashboardUser a.users
        (newUser now (strip form.username) salt form.password .superAdmin hnamed) := by
  unfold legacyAdmin at h
  dsimp only at h
  split at h
  · next hlegacy => exact ⟨hlegacy.1, hlegacy.2.1, hlegacy.2.2.1, _, (Option.some.inj h).symm⟩
  · cases h

omit [Security] in
/-- A new account, under a new id. -/
theorem get?_upsert_of_missing {users : Users} {row : User} {id : Nat} {u' : User}
    (hget : (upsertDashboardUser users row).get? id = some u') (h : users.find? row.username = none) :
    users.get? id = some u' ∨ id = users.next ∧ u' = row := by
  unfold upsertDashboardUser at hget
  rw [SerialTable.upsert_of_none h, SerialTable.get?_add] at hget
  split at hget
  · next hid => exact .inr ⟨hid, (Option.some.inj hget).symm⟩
  · exact .inl hget

/-- **No page writes a setting but the setup**, which writes two of them. -/
theorem Effect.settings (h : Effect env now a s kind a' opened) {key : String}
    (hkey : key ∉ ["admin_username", "admin_password_hash"]) : a'.settings.get? key = a.settings.get? key := by
  cases h with
  | setup username password salt salt' csrfToken hnamed =>
      simp only [List.mem_cons, List.not_mem_nil, or_false, not_or] at hkey
      show ((KeyedTable.put a.settings "admin_username" _).put "admin_password_hash" _).get? key = _
      rw [KeyedTable.get?_put, if_neg hkey.2, KeyedTable.get?_put, if_neg hkey.1]
  | ownPassword r salt newPassword userId user allowed own a' written =>
      subst written
      rfl
  | stay => rfl
  | signIn => rfl
  | legacy => rfl
  | create => rfl
  | change => rfl

end Logins

/-! ## Restores and resets -/

section Restores

omit [Security]

variable [CaseFold]

/-- The settings that no backup holds. -/
theorem get?_settings_restore {r : RestoreRequest} {payload : Configuration} {db db' : Database} {key : String}
    (h : restoreConfigurationBackup r payload db = some db') (hsafe : key ∉ safeSettingKeys) (hkey : key ≠ "app_secret_key") :
    db'.settings.get? key = db.settings.get? key := by
  obtain ⟨selected, apiKeys, nodes, -, -, -, -, rfl⟩ := restoreConfigurationBackup_eq_some.mp h
  have hkept : (if .settings ∈ selected then restoreSettings r.now payload.settings db.settings else db.settings).get?
      key = db.settings.get? key := by
    split
    · exact get?_restoreSettings hsafe _ _ _
    · rfl
  dsimp only
  split
  · rw [KeyedTable.get?_put, if_neg hkey]
    exact hkept
  · exact hkept

/-- The key of the sessions is as it was, or the new one. -/
theorem secretKey_restore {r : RestoreRequest} {payload : Configuration} {db db' : Database}
    (h : restoreConfigurationBackup r payload db = some db') :
    getAdminSetting db'.settings "app_secret_key" "" = getAdminSetting db.settings "app_secret_key" "" ∨
      getAdminSetting db'.settings "app_secret_key" "" = r.secret := by
  obtain ⟨selected, apiKeys, nodes, -, -, -, -, rfl⟩ := restoreConfigurationBackup_eq_some.mp h
  unfold getAdminSetting
  dsimp only
  split
  · rw [KeyedTable.get?_put, if_pos rfl]
    exact .inr rfl
  · left
    split
    · rw [get?_restoreSettings (by decide)]
    · rfl

/-- **A restore keeps the row of its actor**; every other account comes back under a new id, or stays as it is. -/
theorem get?_users_restore {r : RestoreRequest} {payload : Configuration} {db db' : Database}
    (h : restoreConfigurationBackup r payload db = some db') {id : Nat} {u' : User} (hget : db'.users.get? id = some u') :
    db.users.get? id = some u' ∨ db.users.next ≤ id := by
  obtain ⟨selected, apiKeys, nodes, -, hactor, -, -, rfl⟩ := restoreConfigurationBackup_eq_some.mp h
  dsimp only at hget
  split at hget
  swap
  · exact .inl hget
  obtain ⟨actor, hactor, hok⟩ := (Option.any_eq_true _ _).mp hactor
  simp only [Bool.and_eq_true, decide_eq_true_eq] at hok
  by_cases hid : id = r.actorUserId
  · -- The restore goes around the row of the actor.
    subst hid
    rw [← hok.1, get?_restoreUsers r.now hactor] at hget
    exact .inl (hactor.trans hget)
  · rcases (continues_foldl_restoreUser r.actorUsername r.now payload.users _).row id u' hget with ⟨u, hu, -⟩ | hnew
    · rw [SerialTable.get?_deleteRows] at hu
      simp [hid] at hu
    · exact .inr hnew

/-- The mark of the role migration. -/
def Migrated (db : Database) : Prop := (db.settings.get? "node_groups_role_migration_v1").isSome

theorem migrateRoles_of_migrated {now : ℕ+} {db : Database} (h : Migrated db) : migrateRoles now db = db := if_pos h

theorem migrated_migrateRoles (now : ℕ+) (db : Database) : Migrated (migrateRoles now db) := by
  unfold migrateRoles
  split
  · next h => exact h
  · show ((KeyedTable.put db.settings _ _).get? _).isSome
    rw [KeyedTable.get?_put, if_pos rfl]
    rfl

theorem get?_migrateRoles {now : ℕ+} {db : Database} {id : Nat} {u' : User}
    (h : (migrateRoles now db).users.get? id = some u') : ∃ u, db.users.get? id = some u ∧ (u' = u ∨ u.role = .admin) := by
  unfold migrateRoles at h
  split at h
  · exact ⟨u', h, .inl rfl⟩
  · dsimp only at h
    rw [SerialTable.get?_update] at h
    obtain ⟨u, hu, rfl⟩ := Option.map_eq_some_iff.mp h
    refine ⟨u, hu, ?_⟩
    split
    · next hadmin => exact .inr hadmin
    · exact .inl rfl

/-- **What a reset leaves of the accounts**: one row, which the migration does not touch. -/
theorem get?_users_reset {r : ResetRequest} {now : ℕ+} {db db' : Database} (h : resetAppData r db = some db') {id : Nat}
    {u' : User} (hget : (migrateRoles now db').users.get? id = some u') : db.users.get? id = some u' := by
  obtain ⟨hactor, husers, -⟩ := resetAppData_eq_some h
  obtain ⟨actor, hactor, hok⟩ := (Option.any_eq_true _ _).mp hactor
  have honly : ∀ u, db'.users.get? id = some u → db.users.get? id = some u ∧ u = actor := by
    intro u hu
    rw [husers, SerialTable.get?_deleteRows, Option.filter_eq_some_iff] at hu
    obtain rfl : id = r.actorUserId := by simpa using hu.2
    exact ⟨hu.1, Option.some.inj (hu.1.symm.trans hactor)⟩
  obtain ⟨u, hu, hrow⟩ := get?_migrateRoles hget
  obtain ⟨hold, rfl⟩ := honly u hu
  rcases hrow with rfl | hadmin
  · exact hold
  · simp [User.enabledSuperAdmin, hadmin] at hok

end Restores

/-! ## Runs -/

section Runs

variable [CaseFold] {env : Environment} {now : ℕ+} {st st' : State} {action : Action}

/-- Once done, the role migration is not done again. -/
theorem migrated_step (h : Migrated st.db) (hstep : Happens env st now action st') : Migrated st'.db := by
  cases hstep with
  | page action accounts session effect =>
      have hkept : accounts.settings.get? "node_groups_role_migration_v1" =
          st.db.settings.get? "node_groups_role_migration_v1" := effect.settings (by decide)
      show (accounts.settings.get? _).isSome
      rw [hkept]
      exact h
  | restored => exact migrated_migrateRoles _ _
  | reset => exact migrated_migrateRoles _ _
  | failed => exact h

theorem secretKey_page {accounts : Accounts} {s : Session} {session : Option Session} {kind : PageKind}
    (effect : Effect env now (st.accounts.bootstrap env now) s kind accounts session) :
    accounts.secretKey = st.accounts.secretKey := by
  unfold Accounts.secretKey getAdminSetting
  rw [effect.settings (by decide)]
  rfl

end Runs

end VirtInfra.Admin
