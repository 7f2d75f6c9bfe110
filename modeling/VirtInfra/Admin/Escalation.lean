import VirtInfra.Admin.LockOut
import VirtInfra.Admin.Rights

/-!
# `Escalation` — where Super Admin rights come from

An account becomes an enabled Super Admin by its creation, an enabling, a change of its role or a restore, and each of
these asks for a Super Admin. The login of the administration pages is the exception: it falls back to the name and the
password hash of the first administrator, which no change of the accounts removes from the settings.
-/

namespace VirtInfra.Admin

open Lib Python Config

variable [CaseFold] [Security]

def HasAccount (users : Users) : Prop := ∃ id user, users.get? id = some user

/-- The form of a login. -/
def Action.credentials : Action → Option Credentials
  | .signInDashboard _ form _ | .signInAdmin _ form _ _ => form
  | _ => none

/-- **An enabled Super Admin does it**: a creation, a user action or a restore. -/
def BySuperAdmin (st : State) : Action → Prop
  | .createUser cookie _ _ _ | .userAction cookie _ _ _ =>
      dashboardAllowed st.accounts (st.session cookie) = true ∧
        ∃ actor, currentDashboardUser st.accounts (st.session cookie) = some actor ∧ actor.2.enabledSuperAdmin = true
  | .restore r _ => validActor st.db.users r.actorUserId r.actorUsername = true
  | _ => False

/-- **Rights come from accounts and from Super Admins**: a step makes a Super Admin only if a Super Admin does it, and a
login opens a session only of an enabled account with that password, as an administrator only if the account is one. -/
structure RightsGranted (env : Environment) (st : State) (now : ℕ+) (action : Action) : Prop where
  promoted : ∀ id row, (st.step env now action).db.users.get? id = some row → row.enabledSuperAdmin = true →
    (∃ u, st.db.users.get? id = some u ∧ u.enabledSuperAdmin = true) ∨ BySuperAdmin st action
  signedIn : ∀ form s, action.credentials = some form →
    (action.answer env now st.accounts (st.session action.cookie)).session = some s →
    ∃ row, getDashboardUser st.db.users form.username = some row ∧ row.2.isActive = true ∧
      checkPasswordHash row.2.passwordHash form.password = true ∧
      (adminAllowed (st.step env now action).accounts s = true → row.2.role = .admin ∨ row.2.role = .superAdmin)

/-- **No one signs in with the first administrator's name and password when no account has the name.** -/
def NoFallback (env : Environment) (st : State) : Action → Prop
  | .signInAdmin cookie (some form) _ _ =>
      ¬(emergencyAdminNeeded st.db.users = false ∧ adminAllowed st.accounts (st.session cookie) = false ∧
        getDashboardUser st.db.users form.username = none ∧
        strip form.username = getAdminUsername st.db.settings env ∧ strip form.username ≠ "" ∧
        getAdminPasswordHash st.db.settings env ≠ "" ∧
        checkPasswordHash (getAdminPasswordHash st.db.settings env) form.password = true)
  | _ => True

/-! ## Logins -/

section Logins

variable {env : Environment} {now : ℕ+} {a : Accounts} {s : Session} {form : Option Credentials}

/-- **A login that uses an account**, or does nothing. -/
inductive SignsIn (now : ℕ+) (a : Accounts) (form : Option Credentials) : Accounts → Option Session → Prop
  | stay : SignsIn now a form a none
  | account (given : Credentials) (row : Nat × User) (admin : Bool) (csrfToken : String) (sent : form = some given)
      (found : getDashboardUser a.users given.username = some row) (active : row.2.isActive = true)
      (password : checkPasswordHash row.2.passwordHash given.password = true) :
      SignsIn now a form (signIn now a row admin csrfToken).accounts (signIn now a row admin csrfToken).session

omit [CaseFold] in
theorem signsIn_dashboardLogin (ha : a.bootstrap env now = a) (csrfToken : String) :
    SignsIn now a form (dashboardLogin env now a s form csrfToken).accounts
      (dashboardLogin env now a s form csrfToken).session := by
  unfold dashboardLogin
  split
  · exact .stay
  · rw [ha]
    dsimp only
    split
    · exact .stay
    · cases form with
      | none => exact .stay
      | some given =>
          dsimp only
          split
          · exact .stay
          · next row hrow =>
              split
              · exact .stay
              · next hactive =>
                  split
                  · exact .stay
                  · next hpassword =>
                      exact .account given row _ csrfToken rfl hrow (by simpa using hactive) (by simpa using hpassword)

theorem signsIn_adminLogin {st : State} {cookie : Option Nat} (ha : st.accounts.bootstrap env now = st.accounts)
    {salt csrfToken : String} (hok : NoFallback env st (.signInAdmin cookie form salt csrfToken)) :
    SignsIn now st.accounts form (adminLogin env now st.accounts (st.session cookie) form salt csrfToken).accounts
      (adminLogin env now st.accounts (st.session cookie) form salt csrfToken).session := by
  unfold adminLogin
  rw [ha]
  dsimp only
  split
  · exact .stay
  · next hemergency =>
      split
      · exact .stay
      · next hallowed =>
          cases form with
          | none => exact .stay
          | some given =>
              dsimp only
              split
              · next row hrow =>
                  split
                  · exact .stay
                  · next hrole =>
                      split
                      · exact .stay
                      · next hpassword =>
                          rw [not_or, not_not] at hrole
                          exact .account given row true csrfToken rfl hrow (by simpa using hrole.2)
                            (by simpa using hpassword)
              · next hmissing =>
                  split
                  · exact .stay
                  · next users hconverted =>
                      -- The fallback is what the condition leaves out.
                      obtain ⟨hname, hhash, hpassword, hnamed, -⟩ := legacyAdmin_eq_some hconverted
                      exact absurd ⟨eq_false_of_ne_true hemergency, eq_false_of_ne_true hallowed, hmissing, hname, hnamed.2, hhash,
                        hpassword⟩ hok

end Logins

/-! ## One step -/

section Steps

variable {env : Environment} {now : ℕ+} {st st' : State} {action : Action}

omit [Security] in
theorem bootstrap_of_hasAccount (h : HasAccount st.db.users) : st.accounts.bootstrap env now = st.accounts := by
  obtain ⟨id, user, hget⟩ := h
  exact Accounts.bootstrap_of_get? (a := st.accounts) env now hget

omit [CaseFold] in
/-- A login leaves every account as it was. -/
theorem SignsIn.promotes_no_one {a a' : Accounts} {form : Option Credentials} {opened : Option Session}
    (h : SignsIn now a form a' opened) {id : Nat} {row : User} (hget : a'.users.get? id = some row) :
    ∃ u, a.users.get? id = some u ∧ SameRights row u := by
  cases h with
  | stay => exact ⟨row, hget, rfl, rfl, rfl⟩
  | account => exact sameRights_signIn hget

omit [CaseFold] in
/-- The session that a login opens is its account's. -/
theorem SignsIn.opens {a a' : Accounts} {form : Option Credentials} {s : Session} (h : SignsIn now a form a' (some s))
    {given : Credentials} (hsent : form = some given) (hkey : a'.secretKey = a.secretKey) :
    ∃ row, getDashboardUser a.users given.username = some row ∧ row.2.isActive = true ∧
      checkPasswordHash row.2.passwordHash given.password = true ∧
      (adminAllowed a' s = true → row.2.role = .admin ∨ row.2.role = .superAdmin) := by
  generalize hopened : some s = opened at h
  cases h with
  | stay => cases hopened
  | account given' row admin csrfToken sent found active password =>
      obtain rfl := Option.some.inj (hsent.symm.trans sent)
      refine ⟨row, found, active, password, fun hadmin => ?_⟩
      obtain ⟨s', row', hsession, hknown, -, hsame⟩ := opened_signIn (getDashboardUser_eq_some found).1 active
      obtain rfl := Option.some.inj (hopened.trans hsession)
      rw [← hkey] at hknown
      unfold adminAllowed at hadmin
      rw [Bool.and_eq_true] at hadmin
      obtain ⟨u, hcurrent, -, -, -, hrights, -⟩ := hknown.accepted hadmin.1
      rw [hcurrent, Option.any_some, Bool.and_eq_true, decide_eq_true_eq] at hadmin
      rw [← hsame.role, ← hrights.role]
      exact hadmin.2.2

/-- **Whom the code takes for a Super Admin is one.** -/
theorem superAdmin_of_isSuperAdmin (hknown : AllKnown st) {cookie : Option Nat}
    (hallowed : dashboardAllowed st.accounts (st.session cookie) = true)
    (h : isSuperAdmin st.accounts (st.session cookie) = true) :
    dashboardAllowed st.accounts (st.session cookie) = true ∧
      ∃ actor, currentDashboardUser st.accounts (st.session cookie) = some actor ∧ actor.2.enabledSuperAdmin = true := by
  obtain ⟨id, row, hopened⟩ := hknown.opened (a := st.accounts) (.refl _) rfl hallowed
  obtain ⟨u, hcurrent, -, hactive, -, -, hrole⟩ := hopened.accepted hallowed
  refine ⟨hallowed, (id, u), hcurrent, ?_⟩
  unfold isSuperAdmin at h
  rw [decide_eq_true_eq, hrole] at h
  unfold User.enabledSuperAdmin
  rw [h, hactive]
  rfl

omit [CaseFold] in
/-- What the checks of a user action say of a new Super Admin. -/
theorem superAdmin_of_change {a : Accounts} {s : Session} {user row : User} {change : UserChange}
    (hrow : change.row now user = some row) (hsuper : row.enabledSuperAdmin = true)
    (hmanage : canManageUser a s user.role = true) (hpromote : change = .changeRole .superAdmin → isSuperAdmin a s = true) :
    user.enabledSuperAdmin = true ∨ isSuperAdmin a s = true := by
  cases change with
  | disable =>
      obtain rfl := Option.some.inj hrow
      simp [User.enabledSuperAdmin] at hsuper
  | enable =>
      obtain rfl := Option.some.inj hrow
      right
      have hrole : user.role = .superAdmin := by simpa [User.enabledSuperAdmin] using hsuper
      simpa [canManageUser, hrole] using hmanage
  | delete => cases hrow
  | resetPassword salt password =>
      obtain rfl := Option.some.inj hrow
      exact .inl hsuper
  | changeRole role =>
      obtain rfl := Option.some.inj hrow
      have hrole : role = .superAdmin ∧ user.isActive = true := by simpa [User.enabledSuperAdmin] using hsuper
      exact .inr (hpromote (by rw [hrole.1]))

omit [CaseFold] in
/-- The new account of a form is a Super Admin's only if a Super Admin makes it. -/
theorem isSuperAdmin_of_checkedUser {a : Accounts} {s : Session} {form : CreateUserForm} {salt : String} {row : User}
    (h : checkedUser now a s form salt = .ok row) (hsuper : row.enabledSuperAdmin = true) : isSuperAdmin a s = true := by
  unfold checkedUser at h
  dsimp only at h
  split at h
  · cases h
  · next role _ =>
      by_cases hforbidden : role = .superAdmin ∧ (!isSuperAdmin a s) = true
      · rw [if_pos hforbidden] at h
        cases h
      rw [if_neg hforbidden] at h
      split at h
      · cases h
      · split at h
        · cases h
        · split at h
          · cases h
          · obtain rfl := Except.ok.inj h
            have hrole : role = .superAdmin :=
              (of_decide_eq_true (Bool.and_eq_true _ _ ▸ hsuper).1 : role = .superAdmin)
            by_contra hnot
            exact hforbidden ⟨hrole, by simpa using hnot⟩

/-- What a page of the users or the own password promotes. -/
theorem Effect.promotes {kind : PageKind} {accounts : Accounts} {session : Option Session} {s : Session}
    (effect : Effect env now st.accounts s kind accounts session) (hkind : kind = .users ∨ kind = .password ∨ kind = .other)
    {id : Nat} {row : User} (hget : accounts.users.get? id = some row) (hsuper : row.enabledSuperAdmin = true) :
    (∃ u, st.db.users.get? id = some u ∧ u.enabledSuperAdmin = true) ∨
      kind = .users ∧ dashboardAllowed st.accounts s = true ∧ isSuperAdmin st.accounts s = true := by
  cases effect with
  | stay => exact .inl ⟨row, hget, hsuper⟩
  | signIn => simp at hkind
  | legacy => simp at hkind
  | setup => simp at hkind
  | create r form salt new allowed checked =>
      unfold insertDashboardUser SerialTable.insert at hget
      split at hget
      · dsimp only at hget
        rw [SerialTable.get?_add] at hget
        split at hget
        · obtain rfl := Option.some.inj hget
          exact .inr ⟨rfl, allowed_of_adminDenial allowed, isSuperAdmin_of_checkedUser checked hsuper⟩
        · exact .inl ⟨row, hget, hsuper⟩
      · exact .inl ⟨row, hget, hsuper⟩
  | change r form salt userId change allowed checked =>
      obtain ⟨user, huser, hmanage, -, hpromote⟩ := checkedChange_eq_ok checked
      dsimp only at hget
      rw [get?_apply] at hget
      split at hget
      · next hid =>
          subst hid
          rw [huser, Option.bind_some] at hget
          rcases superAdmin_of_change hget hsuper hmanage hpromote with hold | hactor
          · exact .inl ⟨user, huser, hold⟩
          · exact .inr ⟨rfl, allowed_of_adminDenial allowed, hactor⟩
      · exact .inl ⟨row, hget, hsuper⟩
  | ownPassword r salt newPassword userId user allowed own a' written =>
      subst written
      have huser := currentDashboardUser_eq_some own
      dsimp only at hget
      rw [resetDashboardUserPassword_own huser, get?_apply] at hget
      split at hget
      · next hid =>
          subst hid
          obtain ⟨old, hold, hrow⟩ := Option.bind_eq_some_iff.mp hget
          obtain rfl := Option.some.inj hrow
          exact .inl ⟨old, hold, hsuper⟩
      · exact .inl ⟨row, hget, hsuper⟩

/-- Once there is an account, the setup does nothing. -/
theorem Effect.setup_promotes_no_one {accounts : Accounts} {session : Option Session} {s : Session}
    (effect : Effect env now st.accounts s .setup accounts session) (hsetup : HasAccount st.db.users) {id : Nat} {row : User}
    (hget : accounts.users.get? id = some row) (hsuper : row.enabledSuperAdmin = true) :
    (∃ u, st.db.users.get? id = some u ∧ u.enabledSuperAdmin = true) ∨ BySuperAdmin st action := by
  generalize hkind : PageKind.setup = kind at effect
  cases effect with
  | stay => exact .inl ⟨row, hget, hsuper⟩
  | setup username password salt salt' csrfToken hnamed found empty =>
      have hpos : 0 < dashboardUserCount st.accounts.users := dashboardUserCount_pos.mpr hsetup
      omega
  | signIn => cases hkind
  | legacy => cases hkind
  | create => cases hkind
  | change => cases hkind
  | ownPassword => cases hkind

/-! ### Accounts stay -/

omit [CaseFold] [Security] in
theorem hasAccount_modify {users : Users} (h : HasAccount users) (id : Nat) {f : User → User}
    (hf : ∀ u, (f u).username = u.username) : HasAccount (users.modify id f hf) := by
  obtain ⟨id', user, hget⟩ := h
  refine ⟨id', Option.isSome_iff_exists.mp ?_⟩
  rw [SerialTable.get?_modify, Option.isSome_map, hget]
  rfl

omit [CaseFold] [Security] in
theorem hasAccount_upsert {users : Users} (h : HasAccount users) (row : User) :
    HasAccount (upsertDashboardUser users row) := by
  obtain ⟨id, user, hget⟩ := h
  exact ⟨id, Option.isSome_iff_exists.mp
    (SerialTable.isSome_get?_upsert users row _ (username_replaceCredentials row) (by rw [hget]; rfl))⟩

/-- **No page deletes the last account**: the one that acts stays. -/
theorem hasAccount_page {kind : PageKind} {accounts : Accounts} {session : Option Session} {s : Session}
    (h : HasAccount st.db.users) (effect : Effect env now st.accounts s kind accounts session) :
    HasAccount accounts.users := by
  cases effect with
  | stay => exact h
  | signIn => exact hasAccount_modify h _ (by intro u; rfl)
  | legacy form salt csrfToken users row missing converted =>
      obtain ⟨-, -, -, -, rfl⟩ := legacyAdmin_eq_some converted
      exact hasAccount_modify (hasAccount_upsert h _) _ (by intro u; rfl)
  | setup => exact hasAccount_modify (hasAccount_upsert h _) _ (by intro u; rfl)
  | create r form salt new =>
      obtain ⟨id, user, hget⟩ := h
      refine ⟨id, user, ?_⟩
      show (SerialTable.insert st.db.users new).1.get? id = some user
      unfold SerialTable.insert
      split
      · next hfree =>
        show (SerialTable.add st.db.users new hfree).get? id = some user
        rw [SerialTable.get?_add, if_neg (SerialTable.fresh _ _ _ hget).ne]
        exact hget
      · exact hget
  | change r form salt userId change allowed checked =>
      obtain ⟨actor, hactor, -⟩ := dashboardAllowed_eq_true (allowed_of_adminDenial allowed)
      have hget := currentDashboardUser_eq_some hactor
      obtain ⟨-, -, -, hself, -⟩ := checkedChange_eq_ok checked
      have hid : currentDashboardUserId st.accounts s = actor.1 := by
        unfold currentDashboardUserId
        rw [hactor]
        rfl
      by_cases hown : actor.1 = userId
      · obtain rfl := hself (by rw [hid, hown])
        exact hasAccount_modify h _ (by intro u; rfl)
      · refine ⟨actor.1, actor.2, ?_⟩
        show (change.apply now st.accounts.users userId).get? actor.1 = some actor.2
        rw [get?_apply, if_neg hown]
        exact hget
  | ownPassword r salt newPassword userId user allowed own a' written =>
      subst written
      exact hasAccount_modify h _ (by intro u; rfl)

theorem hasAccount_step (h : HasAccount st.db.users) (hstep : Happens env st now action st') : HasAccount st'.db.users := by
  have hmigrate : ∀ db, HasAccount db.users → HasAccount (migrateRoles now db).users := by
    rintro db ⟨id, user, hget⟩
    unfold migrateRoles
    split
    · exact ⟨id, user, hget⟩
    · refine ⟨id, Option.isSome_iff_exists.mp ?_⟩
      dsimp only
      rw [SerialTable.get?_update, Option.isSome_map, hget]
      rfl
  cases hstep with
  | page action accounts session effect =>
      rw [bootstrap_of_hasAccount h] at effect
      exact hasAccount_page h effect
  | restored r payload db done =>
      refine hmigrate db ?_
      obtain ⟨selected, apiKeys, nodes, -, hvalid, -, -, rfl⟩ := restoreConfigurationBackup_eq_some.mp done
      obtain ⟨actor, hactor, hok⟩ := (Option.any_eq_true _ _).mp hvalid
      simp only [Bool.and_eq_true, decide_eq_true_eq] at hok
      refine ⟨r.actorUserId, actor, ?_⟩
      dsimp only
      split
      · rw [← hok.1]
        exact get?_restoreUsers r.now hactor _
      · exact hactor
  | reset r db done =>
      refine hmigrate db ?_
      obtain ⟨hvalid, husers, -⟩ := resetAppData_eq_some done
      obtain ⟨actor, hactor, -⟩ := (Option.any_eq_true _ _).mp hvalid
      refine ⟨r.actorUserId, actor, ?_⟩
      rw [husers, SerialTable.get?_deleteRows, hactor]
      simp
  | failed => exact h

/-! ### The law -/

theorem promoted_step (hknown : AllKnown st) (hsetup : HasAccount st.db.users) (hok : NoFallback env st action) {id : Nat}
    {row : User} (hget : (st.step env now action).db.users.get? id = some row) (hsuper : row.enabledSuperAdmin = true) :
    (∃ u, st.db.users.get? id = some u ∧ u.enabledSuperAdmin = true) ∨ BySuperAdmin st action := by
  have hbootstrap : st.accounts.bootstrap env now = st.accounts := bootstrap_of_hasAccount hsetup
  have hlogin : (∃ u, st.db.users.get? id = some u ∧ SameRights row u) →
      (∃ u, st.db.users.get? id = some u ∧ u.enabledSuperAdmin = true) ∨ BySuperAdmin st action := by
    rintro ⟨u, hu, hsame⟩
    exact .inl ⟨u, hu, hsame.enabledSuperAdmin.symm.trans hsuper⟩
  cases action with
  | signInDashboard cookie form csrfToken =>
      exact hlogin ((signsIn_dashboardLogin hbootstrap csrfToken).promotes_no_one hget)
  | signInAdmin cookie form salt csrfToken => exact hlogin ((signsIn_adminLogin hbootstrap hok).promotes_no_one hget)
  | setUp cookie form salt salt' csrfToken =>
      have heffect := @effect_adminSetup _ env now st.accounts (st.session cookie) form salt salt' csrfToken
      rw [hbootstrap] at heffect
      exact heffect.setup_promotes_no_one hsetup hget hsuper
  | createUser cookie csrfToken form salt =>
      have heffect := @effect_adminCreateUser _ env now st.accounts (st.session cookie) csrfToken form salt
      rw [hbootstrap] at heffect
      rcases heffect.promotes (.inl rfl) hget hsuper with hold | ⟨-, hallowed, hactor⟩
      · exact .inl hold
      · exact .inr (superAdmin_of_isSuperAdmin hknown hallowed hactor)
  | userAction cookie csrfToken form salt =>
      have heffect := @effect_adminUserAction _ env now st.accounts (st.session cookie) csrfToken form salt
      rw [hbootstrap] at heffect
      rcases heffect.promotes (.inl rfl) hget hsuper with hold | ⟨-, hallowed, hactor⟩
      · exact .inl hold
      · exact .inr (superAdmin_of_isSuperAdmin hknown hallowed hactor)
  | changePassword cookie csrfToken form salt =>
      have heffect := @effect_adminChangePassword _ env now st.accounts (st.session cookie) csrfToken form salt
      rw [hbootstrap] at heffect
      rcases heffect.promotes (.inr (.inl rfl)) hget hsuper with hold | ⟨hkind, -⟩
      · exact .inl hold
      · cases hkind
  | adminPage cookie r =>
      refine .inl ⟨row, ?_, hsuper⟩
      change (st.accounts.bootstrap env now).users.get? id = some row at hget
      rw [hbootstrap] at hget
      exact hget
  | restore r payload =>
      change ((restoreConfigurationBackup r payload st.db).elim st fun db => st.restart now db).db.users.get? id =
        some row at hget
      cases hdone : restoreConfigurationBackup r payload st.db with
      | none =>
          rw [hdone] at hget
          exact .inl ⟨row, hget, hsuper⟩
      | some db =>
          obtain ⟨selected, apiKeys, nodes, -, hvalid, -⟩ := restoreConfigurationBackup_eq_some.mp hdone
          exact .inr hvalid
  | nuclearReset r =>
      change ((resetAppData r st.db).elim st fun db => st.restart now db).db.users.get? id = some row at hget
      cases hdone : resetAppData r st.db with
      | none =>
          rw [hdone] at hget
          exact .inl ⟨row, hget, hsuper⟩
      | some db =>
          rw [hdone] at hget
          exact .inl ⟨row, get?_users_reset hdone hget, hsuper⟩

theorem rightsGranted_step (hknown : AllKnown st) (hsetup : HasAccount st.db.users) (hok : NoFallback env st action) :
    RightsGranted env st now action := by
  refine ⟨fun id row hget hsuper => promoted_step hknown hsetup hok hget hsuper, fun form s hform hsession => ?_⟩
  have hbootstrap : st.accounts.bootstrap env now = st.accounts := bootstrap_of_hasAccount hsetup
  cases action with
  | signInDashboard cookie sent csrfToken =>
      have hlogin := @signsIn_dashboardLogin _ env now st.accounts (st.session cookie) sent hbootstrap csrfToken
      change (dashboardLogin env now st.accounts (st.session cookie) sent csrfToken).session = some s at hsession
      rw [hsession] at hlogin
      refine hlogin.opens hform ?_
      exact secretKey_page (effect_dashboardLogin _ _ sent csrfToken)
  | signInAdmin cookie sent salt csrfToken =>
      have hlogin := signsIn_adminLogin hbootstrap hok
      change (adminLogin env now st.accounts (st.session cookie) sent salt csrfToken).session = some s at hsession
      rw [hsession] at hlogin
      refine hlogin.opens hform ?_
      exact secretKey_page (effect_adminLogin _ _ sent salt csrfToken)
  | setUp => cases hform
  | createUser => cases hform
  | userAction => cases hform
  | changePassword => cases hform
  | adminPage => cases hform
  | restore => cases hform
  | nuclearReset => cases hform

/-- **Without the fallback of the login, Super Admin rights come only from a Super Admin**, from the first account on. -/
theorem super_admin_rights_granted {st : State} (h : (administration env).Reachable (fun st l => NoFallback env st l.2) st)
    (hsetup : HasAccount st.db.users) (now : ℕ+) (action : Action) (hok : NoFallback env st action) :
    RightsGranted env st now action ∧ HasAccount (st.step env now action).db.users := by
  have hknown : AllKnown st := by
    refine h.invariant (I := AllKnown) ?_ ?_
    · intro st hfresh c hc
      rw [hfresh.issued] at hc
      cases hc
    · intro st l st' _ hinv _ hstep
      obtain rfl := Option.some.inj hstep
      exact allKnown_step hinv (happens env st l.1 l.2)
  exact ⟨rightsGranted_step hknown hsetup hok, hasAccount_step hsetup (happens env st now action)⟩

end Steps

end VirtInfra.Admin

namespace VirtInfra.Admin

open Lib Python Config

/-! ## The first administrator comes back -/

section Sample

attribute [local instance] asciiFold plainSecurity

def sampleSecond : Action := .createUser (some 0) (some "token") ⟨"noc", "battery staple", "super_admin"⟩ "salt"

/-- The second Super Admin has signed in. -/
def sampleTwo (env : Environment) : State :=
  ((sampleReady env).step env (instant 3) sampleSecond).step env (instant 4)
    (.signInAdmin none (some ⟨"noc", "battery staple"⟩) "salt" "token'")

/-- The first administrator's account is deleted. -/
def sampleDeleted (env : Environment) : State :=
  (sampleTwo env).step env (instant 5) (.userAction (some 0) (some "token'") ⟨1, "delete", "", ""⟩ "salt")

/-- A login with its old password. -/
def sampleReturn : Action := .signInAdmin none (some ⟨"ops", "correct horse"⟩) "salt" "token''"

theorem reachable_sampleTwo (env : Environment) {ok : State → ℕ+ × Action → Prop} (hok : ∀ st l, ok st l) :
    (administration env).Reachable ok (sampleTwo env) := by
  have hready : (administration env).Reachable ok (sampleReady env) :=
    .step (l := (instant 2, sampleSetUp)) (.init fresh_sampleInstallation) (hok _ _) rfl
  have hsecond : (administration env).Reachable ok ((sampleReady env).step env (instant 3) sampleSecond) :=
    .step (l := (instant 3, sampleSecond)) hready (hok _ _) rfl
  exact .step (l := (instant 4, .signInAdmin none (some ⟨"noc", "battery staple"⟩) "salt" "token'")) hsecond (hok _ _) rfl

/-- The second Super Admin was made by the first. -/
theorem second_super_admin_granted :
    RightsGranted ⟨"admin", ""⟩ (sampleReady ⟨"admin", ""⟩) 3 sampleSecond ∧
      HasAccount ((sampleReady ⟨"admin", ""⟩).step ⟨"admin", ""⟩ 3 sampleSecond).db.users := by
  have hready : (administration ⟨"admin", ""⟩).Reachable (fun st l => NoFallback ⟨"admin", ""⟩ st l.2)
      (sampleReady ⟨"admin", ""⟩) := .step (l := (instant 2, sampleSetUp)) (.init fresh_sampleInstallation) trivial rfl
  exact super_admin_rights_granted hready ⟨1, _, rfl⟩ 3 sampleSecond trivial

/-- **The deleted administrator is a Super Admin again.** -/
theorem deleted_super_admin_returns :
    ¬ ∀ st, (administration ⟨"admin", ""⟩).Reachable System.AnyStep st → HasAccount st.db.users →
      ∀ now action, RightsGranted ⟨"admin", ""⟩ st now action ∧
        HasAccount (st.step ⟨"admin", ""⟩ now action).db.users := by
  intro hall
  have hreachable : (administration ⟨"admin", ""⟩).Reachable System.AnyStep (sampleDeleted ⟨"admin", ""⟩) :=
    .step (l := (instant 5, .userAction (some 0) (some "token'") ⟨1, "delete", "", ""⟩ "salt"))
      (reachable_sampleTwo _ fun _ _ => trivial) trivial rfl
  obtain ⟨hgranted, -⟩ := hall _ hreachable ⟨2, _, rfl⟩ 6 sampleReturn
  have hsuper : (((sampleDeleted ⟨"admin", ""⟩).step ⟨"admin", ""⟩ 6 sampleReturn).db.users.get? 3).any
      User.enabledSuperAdmin = true := by decide
  obtain ⟨row, hrow, henabled⟩ := (Option.any_eq_true _ _).mp hsuper
  rcases hgranted.promoted 3 row hrow henabled with ⟨u, hu, -⟩ | hby
  · have hnone : (sampleDeleted ⟨"admin", ""⟩).db.users.get? 3 = none := by decide
    rw [hnone] at hu
    cases hu
  · exact hby

end Sample

end VirtInfra.Admin
