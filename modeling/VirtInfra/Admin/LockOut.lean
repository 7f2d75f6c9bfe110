import VirtInfra.Admin.Cookies
import VirtInfra.Config.RoundTrip

/-!
# `LockOut` — whether an accepted Super Admin is let in

The gate of the administration asks, next to the account and its session, for the password hash of the first
administrator, which stands in the settings or in the environment. Every page and every restore keeps it; a nuclear
reset empties the settings, so that without a hash in the environment no one passes the gate any more.
-/

namespace VirtInfra.Admin

open Lib Python Config

variable [Security]

section Configured

variable {env : Environment} {now : ℕ+} {a a' : Accounts} {s : Session} {kind : PageKind} {opened : Option Session}

/-- Where there is an account, the first administrator's password hash is set. -/
def Configured (env : Environment) (a : Accounts) : Prop :=
  (∃ id user, a.users.get? id = some user) → adminIsConfigured a.settings env = true

omit [Security] in
theorem configured_bootstrap (h : Configured env a) : Configured env (a.bootstrap env now) := by
  rintro ⟨id, user, hget⟩
  show adminIsConfigured a.settings env = true
  change (bootstrapDashboardAdmin a.settings env now a.users).get? id = some user at hget
  unfold bootstrapDashboardAdmin at hget
  split at hget
  · exact h ⟨id, user, hget⟩
  · dsimp only at hget
    split at hget
    · next hbootstrap => exact decide_eq_true hbootstrap.2
    · exact h ⟨id, user, hget⟩

theorem configured_of_adminDenial {r : Request} (h : adminDenial env a s r = none) :
    adminIsConfigured a.settings env = true := ((adminDenial_eq_none env).mp h).2.1

/-- **No page takes the hash away.** -/
theorem Effect.configured (h : Configured env a) (heffect : Effect env now a s kind a' opened) : Configured env a' := by
  cases heffect with
  | stay => exact h
  | signIn form row admin csrfToken found =>
      exact fun _ => h ⟨row.1, row.2, (getDashboardUser_eq_some found).1⟩
  | legacy form salt csrfToken users row missing converted =>
      intro _
      unfold legacyAdmin at converted
      dsimp only at converted
      split at converted
      · next hlegacy => exact decide_eq_true hlegacy.2.1
      · cases converted
  | setup username password salt salt' csrfToken hnamed row =>
      intro _
      refine decide_eq_true ?_
      show getAdminSetting ((KeyedTable.put _ _ _).put "admin_password_hash" ⟨generatePasswordHash salt password, now⟩) _
        _ ≠ ""
      unfold getAdminSetting
      rw [KeyedTable.get?_put, if_pos rfl]
      exact Security.generatePasswordHash_ne salt password
  | create r form salt row allowed => exact fun _ => configured_of_adminDenial (a := a) allowed
  | change r form salt userId change allowed => exact fun _ => configured_of_adminDenial (a := a) allowed
  | ownPassword r salt newPassword userId user allowed own a' written =>
      subst written
      exact fun _ => configured_of_adminDenial (a := a) allowed

end Configured

/-! ## Runs -/

section Runs

variable [CaseFold] {env : Environment} {now : ℕ+} {st st' : State} {action : Action}

omit [Security] [CaseFold] in
theorem getAdminPasswordHash_congr {settings settings' : KeyedTable String Setting}
    (h : settings'.get? "admin_password_hash" = settings.get? "admin_password_hash") (env : Environment) :
    getAdminPasswordHash settings' env = getAdminPasswordHash settings env := by
  unfold getAdminPasswordHash getAdminSetting
  rw [h]

omit [Security] in
/-- The setting is no part of a backup. -/
theorem adminPasswordHash_restore {r : RestoreRequest} {payload : Configuration} {db db' : Database}
    (h : restoreConfigurationBackup r payload db = some db') :
    db'.settings.get? "admin_password_hash" = db.settings.get? "admin_password_hash" := by
  obtain ⟨selected, apiKeys, nodes, -, -, -, -, rfl⟩ := restoreConfigurationBackup_eq_some.mp h
  dsimp only
  have hkept : (if .settings ∈ selected then restoreSettings r.now payload.settings db.settings else db.settings).get?
      "admin_password_hash" = db.settings.get? "admin_password_hash" := by
    split
    · exact get?_restoreSettings (by decide) _ _ _
    · rfl
  split
  · rw [KeyedTable.get?_put, if_neg (by decide)]
    exact hkept
  · exact hkept

omit [Security] in
theorem adminPasswordHash_migrateRoles (now : ℕ+) (db : Database) :
    (migrateRoles now db).settings.get? "admin_password_hash" = db.settings.get? "admin_password_hash" := by
  unfold migrateRoles
  split
  · rfl
  · show (db.settings.put _ _).get? _ = _
    rw [KeyedTable.get?_put, if_neg (by decide)]

/-- **Without a hash in the environment no nuclear reset keeps the pages open.** -/
def KeepsHash (env : Environment) : Action → Prop
  | .nuclearReset _ => env.adminPasswordHash ≠ ""
  | _ => True

theorem configured_step (h : Configured env st.accounts) (hok : KeepsHash env action)
    (hstep : Happens env st now action st') : Configured env st'.accounts := by
  cases hstep with
  | page action accounts session effect => exact effect.configured (configured_bootstrap h)
  | restored r payload db done =>
      intro _
      obtain ⟨selected, apiKeys, nodes, -, hvalid, -⟩ := restoreConfigurationBackup_eq_some.mp done
      obtain ⟨actor, hactor, -⟩ := (Option.any_eq_true _ _).mp hvalid
      have hset := h ⟨r.actorUserId, actor, hactor⟩
      have hsame : getAdminPasswordHash (st.restart now db).accounts.settings env =
          getAdminPasswordHash st.accounts.settings env :=
        getAdminPasswordHash_congr ((adminPasswordHash_migrateRoles now db).trans (adminPasswordHash_restore done)) env
      unfold adminIsConfigured at hset ⊢
      rwa [hsame]
  | reset r db done =>
      intro _
      obtain ⟨-, -, hsettings⟩ := resetAppData_eq_some done
      unfold adminIsConfigured getAdminPasswordHash getAdminSetting
      have hnone : (st.restart now db).accounts.settings.get? "admin_password_hash" = none := by
        refine (adminPasswordHash_migrateRoles now db).trans ?_
        rw [hsettings]
        unfold resetSettings
        rw [KeyedTable.get?_put, if_neg (by decide), KeyedTable.get?_put, if_neg (by decide), KeyedTable.get?_put,
          if_neg (by decide), KeyedTable.get?_empty]
      rw [hnone]
      exact decide_eq_true hok
  | failed => exact h

/-- **Whom the gate is to let in**: the accepted session of an enabled Super Admin with its CSRF token. -/
def LetsSuperAdminsIn (env : Environment) (st : State) : Prop :=
  ∀ (now : ℕ+) (cookie : Option Nat) (r : Request) (row : Nat × User),
    dashboardAllowed st.accounts (st.session cookie) = true →
    currentDashboardUser st.accounts (st.session cookie) = some row → row.2.enabledSuperAdmin = true →
    r.csrfToken = (st.session cookie).csrfToken → (requireAdmin env now st.accounts (st.session cookie) r).2 = none

/-- **While every nuclear reset finds a password hash in the environment, no Super Admin is locked out.** -/
theorem super_admins_let_in {st : State}
    (h : (administration env).Reachable (fun _ l => KeepsHash env l.2) st) : LetsSuperAdminsIn env st := by
  obtain ⟨hknown, hconfigured⟩ : AllKnown st ∧ Configured env st.accounts := by
    refine h.invariant (I := fun st => AllKnown st ∧ Configured env st.accounts) ?_ ?_
    · intro st hfresh
      refine ⟨fun c hc => ?_, ?_⟩
      · rw [hfresh.issued] at hc
        cases hc
      · rintro ⟨id, user, hget⟩
        exact absurd ((hfresh.users id).symm.trans hget) (by simp)
    · intro st l st' _ hinv hok hstep
      obtain rfl := Option.some.inj hstep
      have hhappens := happens env st l.1 l.2
      exact ⟨allKnown_step hinv.1 hhappens, configured_step hinv.2 hok hhappens⟩
  intro now cookie r row hallowed hrow hsuper hcsrf
  obtain ⟨id, row', hopened⟩ := hknown.opened (.refl _) rfl hallowed
  obtain ⟨u, hcurrent, hget, hactive, -, -, hrole⟩ := hopened.accepted hallowed
  obtain rfl := Option.some.inj (hrow.symm.trans hcurrent)
  dsimp only at hsuper
  have hu : u.role = .superAdmin ∧ u.isActive = true := by simpa [User.enabledSuperAdmin] using hsuper
  unfold requireAdmin
  rw [Accounts.bootstrap_of_get? env now hget]
  refine (adminDenial_eq_none env).mpr ⟨?_, hconfigured ⟨id, u, hget⟩, ?_, ?_, fun _ => hcsrf⟩
  · exact emergencyAdminNeeded_eq_false.mpr ⟨id, u, hget, hsuper⟩
  · unfold adminAllowed
    rw [hallowed, hcurrent]
    simp [hu]
  · intro hadmin
    rw [hrole, hu.1] at hadmin
    cases hadmin

end Runs

end VirtInfra.Admin

namespace VirtInfra.Admin

open Lib Python Config

/-! ## A reset without a hash in the environment -/

section Sample

attribute [local instance] asciiFold plainSecurity

/-- The instants of a sample run. -/
def instant (n : Nat) : ℕ+ := n.toPNat'

/-- A new installation, with the key of its sessions. -/
def sampleInstallation : State where
  db :=
    { users := .empty
      apiKeys := .empty
      settings := (KeyedTable.empty.put "app_secret_key" ⟨"k", instant 1⟩).put
        "node_groups_role_migration_v1" ⟨"completed", instant 1⟩
      nodes := resetNodes (instant 1) }
  issued := []

theorem fresh_sampleInstallation : Fresh sampleInstallation := ⟨fun _ => rfl, rfl, rfl⟩

/-- The first account. -/
def sampleSetUp : Action := .setUp none (some ⟨"ops", "correct horse", "correct horse"⟩) "salt" "salt'" "token"

def sampleReady (env : Environment) : State := sampleInstallation.step env (instant 2) sampleSetUp

def sampleReset (env : Environment) : State := (sampleReady env).step env (instant 3) (.nuclearReset ⟨1, "ops", 3, "k'"⟩)

/-- The Super Admin that a reset preserved signs in again. -/
def sampleSignedIn (env : Environment) : State :=
  (sampleReset env).step env (instant 4) (.signInDashboard none (some ⟨"ops", "correct horse"⟩) "token'")

/-- A run in which nothing is forbidden. -/
theorem reachable_foldl (env : Environment) {ok : State → ℕ+ × Action → Prop} (hok : ∀ st l, ok st l)
    (run : List (ℕ+ × Action)) :
    (administration env).Reachable ok (run.foldl (fun st l => st.step env l.1 l.2) sampleInstallation) := by
  induction run using List.reverseRecOn with
  | nil => exact .init fresh_sampleInstallation
  | append_singleton run l ih =>
      rw [List.foldl_append]
      exact .step (l := l) ih (hok _ _) rfl

theorem reachable_sampleSignedIn (env : Environment) {ok : State → ℕ+ × Action → Prop} (hok : ∀ st l, ok st l) :
    (administration env).Reachable ok (sampleSignedIn env) := by
  have hrun := reachable_foldl env hok
    [(instant 2, sampleSetUp), (instant 3, .nuclearReset ⟨1, "ops", 3, "k'"⟩),
      (instant 4, .signInDashboard none (some ⟨"ops", "correct horse"⟩) "token'")]
  simp only [List.foldl_cons, List.foldl_nil] at hrun
  exact hrun

/-- An installation with the hash of "correct horse" in its environment. -/
def bootstrapped : Environment := ⟨"admin", "13$correct horsesalt"⟩

def bootstrapRun : List (ℕ+ × Action) :=
  [(instant 2, .signInAdmin none (some ⟨"admin", "correct horse"⟩) "salt'" "token"),
    (instant 3, .nuclearReset ⟨1, "admin", 3, "k'"⟩),
    (instant 4, .signInDashboard none (some ⟨"admin", "correct horse"⟩) "token'")]

/-- The state after the reset and the second login. -/
def sampleBootstrapped : State := bootstrapRun.foldl (fun st l => st.step bootstrapped l.1 l.2) sampleInstallation

/-- The administrator of the environment signs in, resets everything, signs in again and is let in. -/
theorem super_admin_let_in_after_reset :
    dashboardAllowed sampleBootstrapped.accounts (sampleBootstrapped.session (some 0)) = true ∧
      (requireAdmin bootstrapped (instant 5) sampleBootstrapped.accounts (sampleBootstrapped.session (some 0))
        ⟨true, "admin_page", some "token'"⟩).2 = none := by
  have hreach : (administration bootstrapped).Reachable (fun _ l => KeepsHash bootstrapped l.2) sampleBootstrapped :=
    reachable_foldl bootstrapped (fun _ l => by cases l.2 <;> simp [KeepsHash, bootstrapped]) bootstrapRun
  have hallowed : dashboardAllowed sampleBootstrapped.accounts (sampleBootstrapped.session (some 0)) = true := by decide
  obtain ⟨row, hrow, -⟩ := dashboardAllowed_eq_true hallowed
  have hsuper : row.2.enabledSuperAdmin = true := by
    have hany : (currentDashboardUser sampleBootstrapped.accounts (sampleBootstrapped.session (some 0))).any
      (fun row => row.2.enabledSuperAdmin) = true := by decide
    rwa [hrow, Option.any_some] at hany
  exact ⟨hallowed, super_admins_let_in hreach (instant 5) (some 0) ⟨true, "admin_page", some "token'"⟩ row hallowed hrow
    hsuper (by decide)⟩

/-- **The preserved Super Admin is locked out.** -/
theorem super_admin_locked_out :
    ¬ ∀ st, (administration ⟨"admin", ""⟩).Reachable System.AnyStep st → LetsSuperAdminsIn ⟨"admin", ""⟩ st := by
  intro hall
  have hlets := hall _ (reachable_sampleSignedIn ⟨"admin", ""⟩ fun _ _ => trivial)
  have hallowed : dashboardAllowed (sampleSignedIn ⟨"admin", ""⟩).accounts
      ((sampleSignedIn ⟨"admin", ""⟩).session (some 0)) = true := by decide
  obtain ⟨row, hrow, -⟩ := dashboardAllowed_eq_true hallowed
  have hsuper : row.2.enabledSuperAdmin = true := by
    have hany : (currentDashboardUser (sampleSignedIn ⟨"admin", ""⟩).accounts
      ((sampleSignedIn ⟨"admin", ""⟩).session (some 0))).any (fun row => row.2.enabledSuperAdmin) = true := by decide
    rwa [hrow, Option.any_some] at hany
  have hin := hlets 5 (some 0) ⟨false, "admin_page", some "token'"⟩ row hallowed hrow hsuper (by decide)
  revert hin
  decide

end Sample

end VirtInfra.Admin
