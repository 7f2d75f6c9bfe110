import VirtInfra.Admin.LockOut
import VirtInfra.Admin.Rights

/-!
# `Revocation` — whether a revoked session stays revoked

The stamp of a session is a function of the present row of its account: a session that lost its rights has them again as
soon as the account has its old row again. Passwords do not come back, as every hash has a salt of its own, and accounts
neither, as ids are not given twice; but an enabling takes back a disabling, and one change of the role another.
-/

namespace VirtInfra.Admin

open Lib Python Config

variable [CaseFold] [Security]

/-- A revoked session, signed with the present key, was stamped for the row. -/
def State.StampedBefore (st : State) (row : Nat × User) : Prop :=
  ∃ c ∈ st.issued, c.revoked = true ∧ c.key = st.accounts.secretKey ∧
    c.session.dashboardAuthStamp = userAuthStamp st.accounts.secretKey row

/-- No session was ever stamped for the row. -/
def State.NeverStamped (st : State) (row : Nat × User) : Prop :=
  ∀ c ∈ st.issued, c.session.dashboardAuthStamp ≠ userAuthStamp c.key row

/-- The rows that an action may leave: none that a revoked session has the stamp of. A new password hash is new. -/
def UserChange.LeavesNewRow (st : State) (now : ℕ+) (userId : Nat) (user : User) (change : UserChange) : Prop :=
  ∀ row ∈ change.row now user,
    match change with
    | .resetPassword _ _ => st.NeverStamped (userId, row)
    | _ => ¬ st.StampedBefore (userId, row)

/-- **No enabling and no role change gives an account back the row that a revoked session was stamped for.** New salts
and keys are new. -/
def KeepsRevoked (env : Environment) (now : ℕ+) (st : State) : Action → Prop
  | .userAction cookie csrfToken form salt =>
      ∀ a userId change user,
        requireAdmin env now st.accounts (st.session cookie) ⟨true, "admin_user_action", csrfToken⟩ = (a, none) →
        checkedChange a (st.session cookie) form salt = .ok (userId, change) → a.users.get? userId = some user →
        change.LeavesNewRow st now userId user
  | .changePassword cookie csrfToken form salt =>
      ∀ a userId user,
        requireAdmin env now st.accounts (st.session cookie) ⟨true, "admin_change_password", csrfToken⟩ = (a, none) →
        currentDashboardUser a (st.session cookie) = some (userId, user) →
        (UserChange.resetPassword salt form.newPassword).LeavesNewRow st now userId user
  | .restore r _ => ∀ c ∈ st.issued, c.key ≠ r.secret
  | .nuclearReset r => ∀ c ∈ st.issued, c.key ≠ r.secret
  | _ => True

/-- **Revoked sessions are not accepted.** -/
def RevokedStayRevoked (st : State) : Prop :=
  ∀ i c, st.issued[i]? = some c → dashboardAllowed st.accounts (st.session (some i)) = true → c.revoked = false

/-- No account has a row that a revoked session was stamped for. -/
def RevokedGone (st : State) : Prop := ∀ row : Nat × User, st.db.users.get? row.1 = some row.2 → ¬ st.StampedBefore row

theorem revokedStayRevoked_of_gone {st : State} (h : RevokedGone st) : RevokedStayRevoked st := by
  intro i c hc hallowed
  have hsession : st.session (some i) = if c.key = st.accounts.secretKey then c.session else {} := by
    unfold State.session
    rw [Option.bind_some, hc]
  by_cases hkey : c.key = st.accounts.secretKey
  · rw [hsession, if_pos hkey] at hallowed
    obtain ⟨row, hrow, -, hstamp⟩ := dashboardAllowed_eq_true hallowed
    by_contra hrevoked
    exact h row (currentDashboardUser_eq_some hrow)
      ⟨c, List.mem_of_getElem? hc, by simpa using hrevoked, hkey, hstamp⟩
  · rw [hsession, if_neg hkey, dashboardAllowed_empty] at hallowed
    cases hallowed

/-! ## One step -/

section Steps

variable {env : Environment} {now : ℕ+} {st st' : State} {action : Action}

/-- **What a step may leave of a row**: the rights that its account has, or a row that no revoked session was stamped
for, or a new account. -/
def LeavesRow (st : State) (id : Nat) (row : User) : Prop :=
  st.db.users.next ≤ id ∨ (∃ u, st.db.users.get? id = some u ∧ SameRights row u) ∨ ¬ st.StampedBefore (id, row)

/-- **The step lemma**: after rows of these kinds a revoked session finds no row of its stamp. -/
theorem revokedGone_of_leavesRow (hknown : AllKnown st) (hgone : RevokedGone st)
    (hnext : SerialTable.Continues st.db.users st'.db.users)
    (hissued : ∀ c ∈ st'.issued, c.revoked = true → c ∈ markRevoked st.db.users st'.db.users st.issued)
    (hkey : ∀ c ∈ st.issued, c.key = st'.accounts.secretKey → st'.accounts.secretKey = st.accounts.secretKey)
    (hrow : ∀ id row, st'.db.users.get? id = some row → LeavesRow st id row) : RevokedGone st' := by
  rintro ⟨id, row⟩ hget ⟨c', hc', hrevoked, hsigned, hstamp⟩
  obtain ⟨c, hc, rfl⟩ := List.mem_map.mp (hissued c' hc' hrevoked)
  dsimp only at hget hrevoked hsigned hstamp
  have hsame := hkey c hc hsigned
  rw [hsame] at hsigned hstamp
  obtain ⟨id', row', hopened, hcurrent⟩ := hknown c hc
  -- The session was stamped for a row of this account with the same rights.
  have hstamps : userAuthStamp st.accounts.secretKey (id', row') = userAuthStamp st.accounts.secretKey (id, row) := by
    rw [← hstamp, hopened.stamp, hsigned]
  obtain ⟨hid, hrole, hactive, hhash⟩ := authPayload_inj (Security.hexdigest_inj _ _ _ hstamps)
  dsimp only at hid hrole hactive hhash
  subst hid
  have hname := (hopened.mono hnext).kept row hget
  have hrights : SameRights row row' := ⟨(hhash hname.symm).symm, hrole.symm, hactive.symm⟩
  by_cases hbefore : c.revoked = true
  · rcases hrow id' row hget with hnew | ⟨u, hu, hkept⟩ | hnever
    · exact absurd hopened.drawn (by omega)
    · -- The account has had the row already.
      refine hgone (id', u) hu ⟨c, hc, hbefore, hsigned, hstamp.trans ?_⟩
      exact userAuthStamp_congr hkept (hname.trans (hopened.kept u hu).symm) _ _
    · exact hnever ⟨c, hc, hbefore, hsigned, hstamp⟩
  · -- A session that this step revokes was stamped for the row before it.
    obtain ⟨u, hu, hkept⟩ := hcurrent (by simpa using hbefore)
    have hnow : revokes (some u) (some row) = false := by
      unfold revokes
      simp [hrights.passwordHash, hrights.role, hrights.isActive, hkept.passwordHash, hkept.role, hkept.isActive]
    rw [hopened.userId, Option.any_some, hu, hget, hnow, Bool.or_false] at hrevoked
    exact hbefore hrevoked

/-- A page that gives no one rights which a revoked session was stamped for. -/
theorem revokedGone_page (hknown : AllKnown st) (hgone : RevokedGone st) {kind : PageKind} {accounts : Accounts}
    {session : Option Session}
    (effect : Effect env now (st.accounts.bootstrap env now) (st.session action.cookie) kind accounts session)
    (hrow : ∀ id row, accounts.users.get? id = some row → LeavesRow st id row) :
    RevokedGone (st.answer accounts session) := by
  refine revokedGone_of_leavesRow hknown hgone ((continues_bootstrap env now st.accounts).trans effect.continues) ?_
    (fun c _ _ => secretKey_page effect) hrow
  intro c hc hrevoked
  rcases List.mem_append.mp hc with hnew | hold
  · -- The session that the page opens is not revoked.
    cases session with
    | none => cases hnew
    | some session =>
        obtain rfl := List.mem_singleton.mp hnew
        cases hrevoked
  · exact hold

theorem leavesRow_bootstrap {id : Nat} {row : User} (h : (st.accounts.bootstrap env now).users.get? id = some row) :
    LeavesRow st id row := by
  by_cases hsome : ∃ id' u, st.accounts.users.get? id' = some u
  · obtain ⟨id', u, hu⟩ := hsome
    rw [Accounts.bootstrap_of_get? env now hu] at h
    exact .inr (.inl ⟨row, h, rfl, rfl, rfl⟩)
  · -- The first account is a new one.
    rcases (continues_bootstrap env now st.accounts).row id row h with ⟨u, hu, -⟩ | hnew
    · exact absurd ⟨id, u, hu⟩ hsome
    · exact .inl hnew

/-- A login or the setup. -/
theorem leavesRow_login {kind : PageKind} {accounts : Accounts} {session : Option Session} {s : Session}
    (hkind : kind = .login ∨ kind = .setup ∨ kind = .other)
    (effect : Effect env now (st.accounts.bootstrap env now) s kind accounts session) {id : Nat} {row : User}
    (h : accounts.users.get? id = some row) : LeavesRow st id row := by
  by_cases hsome : ∃ id' u, st.accounts.users.get? id' = some u
  swap
  · -- Without an account before, every account is new.
    rcases ((continues_bootstrap env now st.accounts).trans effect.continues).row id row h with ⟨u, hu, -⟩ | hnew
    · exact absurd ⟨id, u, hu⟩ hsome
    · exact .inl hnew
  obtain ⟨id', u', hu'⟩ := hsome
  rw [Accounts.bootstrap_of_get? env now hu'] at effect
  cases effect with
  | stay => exact .inr (.inl ⟨row, h, rfl, rfl, rfl⟩)
  | signIn form found admin csrfToken =>
      obtain ⟨u, hu, hsame⟩ := sameRights_signIn h
      exact .inr (.inl ⟨u, hu, hsame⟩)
  | legacy form salt csrfToken users found missing converted =>
      obtain ⟨u, hu, hsame⟩ := sameRights_signIn h
      obtain ⟨-, -, -, hnamed, rfl⟩ := legacyAdmin_eq_some converted
      have hfree : st.accounts.users.find? (strip form.username) = none := by
        unfold getDashboardUser at missing
        rw [if_neg hnamed.2] at missing
        exact missing
      rcases get?_upsert_of_missing hu hfree with hold | ⟨hid, -⟩
      · exact .inr (.inl ⟨u, hold, hsame⟩)
      · exact .inl hid.ge
  | setup username password salt salt' csrfToken hnamed found empty =>
      have hpos : 0 < dashboardUserCount st.accounts.users := dashboardUserCount_pos.mpr ⟨id', u', hu'⟩
      omega
  | create => simp at hkind
  | change => simp at hkind
  | ownPassword => simp at hkind

theorem leavesRow_createUser {cookie : Option Nat} {csrfToken : Option String} {form : CreateUserForm} {salt : String}
    {id : Nat} {row : User}
    (h : (adminCreateUser env now st.accounts (st.session cookie) csrfToken form salt).accounts.users.get? id = some row) :
    LeavesRow st id row := by
  have hinsert : ∀ new, (insertDashboardUser (st.accounts.bootstrap env now).users new).1.get? id = some row →
      LeavesRow st id row := by
    intro new hget
    unfold insertDashboardUser SerialTable.insert at hget
    split at hget
    · dsimp only at hget
      rw [SerialTable.get?_add] at hget
      split at hget
      · next hid => exact .inl ((continues_bootstrap env now st.accounts).next.trans hid.ge)
      · exact leavesRow_bootstrap hget
    · exact leavesRow_bootstrap hget
  unfold adminCreateUser requireAdmin at h
  split at h
  · next heq =>
      obtain ⟨rfl, -⟩ := Prod.mk.inj heq
      exact leavesRow_bootstrap h
  · next heq =>
      obtain ⟨rfl, -⟩ := Prod.mk.inj heq
      split at h
      · exact leavesRow_bootstrap h
      · dsimp only at h
        split at h <;> exact hinsert _ h

/-- The row that a checked action leaves, and the others. -/
theorem leavesRow_apply {a : Accounts} (ha : a = st.accounts.bootstrap env now) {change : UserChange} {userId : Nat}
    (hok : ∀ user, a.users.get? userId = some user → change.LeavesNewRow st now userId user) {id : Nat} {row : User}
    (h : (change.apply now a.users userId).get? id = some row) : LeavesRow st id row := by
  subst ha
  rw [get?_apply] at h
  split at h
  · next hid =>
      subst hid
      obtain ⟨user, huser, hrow⟩ := Option.bind_eq_some_iff.mp h
      have hnew := hok user huser row hrow
      refine .inr (.inr ?_)
      cases change with
      | resetPassword salt password =>
          rintro ⟨c, hc, -, hkey, hstamp⟩
          rw [← hkey] at hstamp
          exact hnew c hc hstamp
      | disable => exact hnew
      | enable => exact hnew
      | delete => exact hnew
      | changeRole role => exact hnew
  · exact leavesRow_bootstrap h

theorem leavesRow_userAction {cookie : Option Nat} {csrfToken : Option String} {form : UserActionForm} {salt : String}
    (hok : KeepsRevoked env now st (.userAction cookie csrfToken form salt)) {id : Nat} {row : User}
    (h : (adminUserAction env now st.accounts (st.session cookie) csrfToken form salt).accounts.users.get? id = some row) :
    LeavesRow st id row := by
  unfold adminUserAction at h
  split at h
  · next heq =>
      obtain ⟨rfl, -⟩ := Prod.mk.inj heq
      exact leavesRow_bootstrap h
  · next a heq =>
      have ha : a = st.accounts.bootstrap env now := (Prod.mk.inj heq).1.symm
      split at h
      · subst ha
        exact leavesRow_bootstrap h
      · next userId change hchecked =>
          exact leavesRow_apply ha (fun user huser => hok a userId change user heq hchecked huser) h

theorem leavesRow_changePassword {cookie : Option Nat} {csrfToken : Option String} {form : ChangePasswordForm}
    {salt : String} (hok : KeepsRevoked env now st (.changePassword cookie csrfToken form salt)) {id : Nat} {row : User}
    (h : (adminChangePassword env now st.accounts (st.session cookie) csrfToken form salt).accounts.users.get? id =
      some row) : LeavesRow st id row := by
  unfold adminChangePassword at h
  split at h
  · next heq =>
      obtain ⟨rfl, -⟩ := Prod.mk.inj heq
      exact leavesRow_bootstrap h
  · next a heq =>
      have ha : a = st.accounts.bootstrap env now := (Prod.mk.inj heq).1.symm
      have hstay : a.users.get? id = some row → LeavesRow st id row := by
        intro hget
        subst ha
        exact leavesRow_bootstrap hget
      split at h
      · exact hstay h
      · next userId user hown =>
          split at h
          · exact hstay h
          · split at h
            · exact hstay h
            · split at h
              · exact hstay h
              · have hget := currentDashboardUser_eq_some hown
                dsimp only at h
                rw [resetDashboardUserPassword_own hget] at h
                refine leavesRow_apply ha (fun user' huser' => ?_) h
                obtain rfl := Option.some.inj (hget.symm.trans huser')
                exact hok a userId user heq hown

omit [Security] in
theorem secretKey_restart {db : Database} : (st.restart now db).accounts.secretKey =
    getAdminSetting db.settings "app_secret_key" "" := by
  show getAdminSetting (migrateRoles now db).settings "app_secret_key" "" = _
  unfold migrateRoles getAdminSetting
  split
  · rfl
  · dsimp only
    rw [KeyedTable.get?_put, if_neg (by decide)]

theorem revokedGone_restored (hknown : AllKnown st) (hmigrated : Migrated st.db) (hgone : RevokedGone st)
    {r : RestoreRequest} {payload : Configuration} (hok : ∀ c ∈ st.issued, c.key ≠ r.secret) {db : Database}
    (hdone : restoreConfigurationBackup r payload st.db = some db) : RevokedGone (st.restart now db) := by
  have hmark : Migrated db := by
    unfold Migrated
    rw [get?_settings_restore hdone (by decide) (by decide)]
    exact hmigrated
  have hnext := (continues_restore hdone).trans (continues_migrateRoles now db)
  refine revokedGone_of_leavesRow hknown hgone hnext (fun c hc _ => hc) ?_ ?_
  · -- The key is as it was, or it is the new one, which no session was signed with.
    intro c hc hsigned
    rw [secretKey_restart] at hsigned ⊢
    rcases secretKey_restore hdone with hsame | hnew
    · exact hsame
    · exact absurd (hsigned.trans hnew) (hok c hc)
  · intro id row hget
    change (migrateRoles now db).users.get? id = some row at hget
    rw [migrateRoles_of_migrated hmark] at hget
    rcases get?_users_restore hdone hget with hold | hnew
    · exact .inr (.inl ⟨row, hold, rfl, rfl, rfl⟩)
    · exact .inl hnew

theorem revokedGone_reset (hknown : AllKnown st) (hgone : RevokedGone st) {r : ResetRequest}
    (hok : ∀ c ∈ st.issued, c.key ≠ r.secret) {db : Database} (hdone : resetAppData r st.db = some db) :
    RevokedGone (st.restart now db) := by
  obtain ⟨-, husers, hsettings⟩ := resetAppData_eq_some hdone
  have hdeleted : SerialTable.Continues st.db.users db.users := by
    rw [husers]
    exact .deleteRows _ _
  refine revokedGone_of_leavesRow hknown hgone (hdeleted.trans (continues_migrateRoles now db)) (fun c hc _ => hc) ?_ ?_
  · intro c hc hsigned
    have hkey : getAdminSetting db.settings "app_secret_key" "" = r.secret := by
      rw [hsettings]
      rfl
    rw [secretKey_restart, hkey] at hsigned
    exact absurd hsigned (hok c hc)
  · intro id row hget
    exact .inr (.inl ⟨row, get?_users_reset hdone hget, rfl, rfl, rfl⟩)

/-- **One step** brings no revoked session back. -/
theorem revokedGone_step (hknown : AllKnown st) (hmigrated : Migrated st.db) (hgone : RevokedGone st)
    (hok : KeepsRevoked env now st action) : RevokedGone (st.step env now action) := by
  have hpage : ∀ (kind : PageKind) (answer : Answer),
      Effect env now (st.accounts.bootstrap env now) (st.session action.cookie) kind answer.accounts answer.session →
      (∀ id row, answer.accounts.users.get? id = some row → LeavesRow st id row) →
      RevokedGone (st.answer answer.accounts answer.session) :=
    fun kind answer heffect => revokedGone_page hknown hgone heffect
  cases action with
  | signInDashboard cookie form csrfToken =>
      have heffect := @effect_dashboardLogin _ env now st.accounts (st.session cookie) form csrfToken
      exact hpage _ _ heffect fun id row h => leavesRow_login (.inl rfl) heffect h
  | signInAdmin cookie form salt csrfToken =>
      have heffect := @effect_adminLogin _ env now st.accounts (st.session cookie) form salt csrfToken
      exact hpage _ _ heffect fun id row h => leavesRow_login (.inl rfl) heffect h
  | setUp cookie form salt salt' csrfToken =>
      have heffect := @effect_adminSetup _ env now st.accounts (st.session cookie) form salt salt' csrfToken
      exact hpage _ _ heffect fun id row h => leavesRow_login (.inr (.inl rfl)) heffect h
  | createUser cookie csrfToken form salt =>
      refine hpage .users (adminCreateUser env now st.accounts (st.session cookie) csrfToken form salt) ?_ ?_
      · exact effect_adminCreateUser _ _ csrfToken form salt
      · intro id row h
        exact leavesRow_createUser h
  | userAction cookie csrfToken form salt =>
      exact hpage _ _ (effect_adminUserAction _ _ csrfToken form salt) fun id row h => leavesRow_userAction hok h
  | changePassword cookie csrfToken form salt =>
      exact hpage _ _ (effect_adminChangePassword _ _ csrfToken form salt) fun id row h => leavesRow_changePassword hok h
  | adminPage cookie r =>
      exact hpage .other (Action.answer env now st.accounts (st.session cookie) (.adminPage cookie r)) (.stay _)
        fun id row h => leavesRow_bootstrap h
  | restore r payload =>
      show RevokedGone ((restoreConfigurationBackup r payload st.db).elim st fun db => st.restart now db)
      cases hdone : restoreConfigurationBackup r payload st.db with
      | none => exact hgone
      | some db => exact revokedGone_restored hknown hmigrated hgone hok hdone
  | nuclearReset r =>
      show RevokedGone ((resetAppData r st.db).elim st fun db => st.restart now db)
      cases hdone : resetAppData r st.db with
      | none => exact hgone
      | some db => exact revokedGone_reset hknown hgone hok hdone

/-- **While no enabling and no role change brings an old row back, revoked sessions stay revoked.** -/
theorem revoked_sessions_stay_revoked {st : State}
    (h : (administration env).Reachable (fun st l => KeepsRevoked env l.1 st l.2) st) : RevokedStayRevoked st := by
  suffices hinv : AllKnown st ∧ Migrated st.db ∧ RevokedGone st from revokedStayRevoked_of_gone hinv.2.2
  refine h.invariant (I := fun st => AllKnown st ∧ Migrated st.db ∧ RevokedGone st) ?_ ?_
  · intro st hfresh
    refine ⟨fun c hc => ?_, hfresh.migrated, ?_⟩
    · rw [hfresh.issued] at hc
      cases hc
    · intro row hget
      exact absurd ((hfresh.users row.1).symm.trans hget) (by simp)
  · intro st l st' _ hinv hok hstep
    obtain rfl := Option.some.inj hstep
    obtain ⟨hknown, hmigrated, hgone⟩ := hinv
    have hhappens := happens env st l.1 l.2
    exact ⟨allKnown_step hknown hhappens, migrated_step hmigrated hhappens, revokedGone_step hknown hmigrated hgone hok⟩

end Steps

end VirtInfra.Admin

namespace VirtInfra.Admin

open Lib Python Config

/-! ## A disabled account that is enabled again -/

section Sample

attribute [local instance] asciiFold plainSecurity

def sampleCreate : Action := .createUser (some 0) (some "token") ⟨"noc", "battery staple", "viewer"⟩ "salt"

def sampleSignIn : Action := .signInDashboard none (some ⟨"noc", "battery staple"⟩) "token'"

/-- A viewer has signed in; the administrator's session is the older one. -/
def sampleViewer (env : Environment) : State := ((sampleReady env).step env (instant 3) sampleCreate).step env (instant 4) sampleSignIn

def sampleAction (action : String) : Action := .userAction (some 1) (some "token") ⟨2, action, "", ""⟩ "salt"

def sampleDisabled (env : Environment) : State := (sampleViewer env).step env (instant 5) (sampleAction "disable")

/-- The viewer is enabled again. -/
def sampleEnabled (env : Environment) : State := (sampleDisabled env).step env (instant 6) (sampleAction "enable")

theorem reachable_sampleDisabled (env : Environment) {ok : State → ℕ+ × Action → Prop}
    (hok : ∀ st l, l = (instant 2, sampleSetUp) ∨ l = (instant 3, sampleCreate) ∨ l = (instant 4, sampleSignIn) → ok st l)
    (hdisable : ok (sampleViewer env) (instant 5, sampleAction "disable")) :
    (administration env).Reachable ok (sampleDisabled env) := by
  have hready : (administration env).Reachable ok (sampleReady env) :=
    .step (l := (instant 2, sampleSetUp)) (.init fresh_sampleInstallation) (hok _ _ (by simp)) rfl
  have hcreated : (administration env).Reachable ok ((sampleReady env).step env (instant 3) sampleCreate) :=
    .step (l := (instant 3, sampleCreate)) hready (hok _ _ (by simp)) rfl
  have hviewer : (administration env).Reachable ok (sampleViewer env) :=
    .step (l := (instant 4, sampleSignIn)) hcreated (hok _ _ (by simp)) rfl
  exact .step (l := (instant 5, sampleAction "disable")) hviewer hdisable rfl

/-- The disabling meets the condition: no session is revoked before it. -/
theorem keepsRevoked_sampleDisable :
    KeepsRevoked ⟨"admin", ""⟩ 5 (sampleViewer ⟨"admin", ""⟩) (sampleAction "disable") := by
  intro a userId change user hrequest hchecked _ row _
  have ha : a = (sampleViewer ⟨"admin", ""⟩).accounts.bootstrap ⟨"admin", ""⟩ 5 := (Prod.mk.inj hrequest).1.symm
  subst ha
  have hdisable : checkedChange ((sampleViewer ⟨"admin", ""⟩).accounts.bootstrap ⟨"admin", ""⟩ 5)
      ((sampleViewer ⟨"admin", ""⟩).session (some 1)) ⟨2, "disable", "", ""⟩ "salt" = .ok (2, .disable) := rfl
  obtain ⟨-, rfl⟩ := Prod.mk.inj (Except.ok.inj (hdisable.symm.trans hchecked))
  rintro ⟨c, hc, hrevoked, -⟩
  have hnone : ∀ c ∈ (sampleViewer ⟨"admin", ""⟩).issued, c.revoked = false := by decide
  rw [hnone c hc] at hrevoked
  cases hrevoked

theorem disabled_session_stays_revoked : RevokedStayRevoked (sampleDisabled ⟨"admin", ""⟩) := by
  refine revoked_sessions_stay_revoked (reachable_sampleDisabled _ ?_ keepsRevoked_sampleDisable)
  rintro st l (rfl | rfl | rfl) <;> trivial

/-- **The viewer's old session is accepted again.** -/
theorem disabled_session_accepted_again :
    ¬ ∀ st, (administration ⟨"admin", ""⟩).Reachable System.AnyStep st → RevokedStayRevoked st := by
  intro hall
  have hreachable : (administration ⟨"admin", ""⟩).Reachable System.AnyStep (sampleEnabled ⟨"admin", ""⟩) :=
    .step (l := (instant 6, sampleAction "enable"))
      (reachable_sampleDisabled _ (fun _ _ _ => trivial) trivial) trivial rfl
  have hallowed : dashboardAllowed (sampleEnabled ⟨"admin", ""⟩).accounts
      ((sampleEnabled ⟨"admin", ""⟩).session (some 0)) = true := by decide
  have hcookie : ∃ c, (sampleEnabled ⟨"admin", ""⟩).issued[0]? = some c ∧ c.revoked = true :=
    ⟨_, rfl, by decide⟩
  obtain ⟨c, hc, hrevoked⟩ := hcookie
  have hkept := hall _ hreachable 0 c hc hallowed
  rw [hrevoked] at hkept
  cases hkept

end Sample

end VirtInfra.Admin
