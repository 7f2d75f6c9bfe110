import VirtInfra.Admin.Run

/-!
# `Cookies` — what every issued cookie says of its account

A cookie carries the id of an account, its name and the stamp of one row that the account had. Ids are never given again
and names never change, so as long as the account is there the cookie's names are its names; and while the cookie is not
revoked the account has the rights that it had when the cookie was issued.
-/

namespace VirtInfra.Admin

open Lib Python Config

variable [Security]

/-- Two rows with the same password hash, role and state. -/
structure SameRights (u row : User) : Prop where
  passwordHash : u.passwordHash = row.passwordHash
  role : u.role = row.role
  isActive : u.isActive = row.isActive

/-- **What a session says** of the account `id`, of which it was issued with the row `row`. -/
structure Opened (users : Users) (key : String) (s : Session) (id : Nat) (row : User) : Prop where
  userId : s.dashboardUserId = some id
  username : s.dashboardUsername = row.username
  adminUsername : s.adminUsername = "" ∨ s.adminUsername = row.username
  stamp : s.dashboardAuthStamp = userAuthStamp key (id, row)
  active : row.isActive = true
  drawn : id < users.next
  kept : ∀ u, users.get? id = some u → u.username = row.username

/-- **An accepted session leads to its account**, which has the rights that the session was issued with. -/
theorem Opened.accepted {a : Accounts} {s : Session} {id : Nat} {row : User} (h : Opened a.users a.secretKey s id row)
    (hallowed : dashboardAllowed a s = true) :
    ∃ u, currentDashboardUser a s = some (id, u) ∧ a.users.get? id = some u ∧ u.isActive = true ∧
      u.username = row.username ∧ SameRights u row ∧ currentRole a s = u.role := by
  obtain ⟨⟨id', u⟩, hcurrent, hactive, hstamp⟩ := dashboardAllowed_eq_true hallowed
  have hget := currentDashboardUser_eq_some hcurrent
  rw [h.stamp] at hstamp
  obtain ⟨hid, hrole, hstate, hhash⟩ := authPayload_inj (Security.hexdigest_inj _ _ _ hstamp)
  dsimp only at hid hrole hstate hhash hactive hget
  subst hid
  have hname := h.kept u hget
  refine ⟨u, hcurrent, hget, hactive, hname, ⟨(hhash hname.symm).symm, hrole.symm, hstate.symm⟩, ?_⟩
  -- Both names of the session are the name of the account.
  have husername : (if s.adminUsername ≠ "" then s.adminUsername else s.dashboardUsername) = u.username := by
    split
    · next hne => exact (h.adminUsername.resolve_left hne).trans hname.symm
    · exact h.username.trans hname.symm
  unfold currentRole
  rw [husername]
  dsimp only
  rw [getDashboardUser_username hget]

/-- An account that goes on is still the account of its sessions. -/
theorem Opened.mono {users users' : Users} {key : String} {s : Session} {id : Nat} {row : User}
    (h : Opened users key s id row) (hnext : SerialTable.Continues users users') : Opened users' key s id row where
  userId := h.userId
  username := h.username
  adminUsername := h.adminUsername
  stamp := h.stamp
  active := h.active
  drawn := h.drawn.trans_le hnext.next
  kept u' hu' := by
    rcases hnext.row id u' hu' with ⟨u, hu, hname⟩ | hnew
    · exact hname.symm.trans (h.kept u hu)
    · exact absurd h.drawn (by omega)

/-- **What a cookie says**; until it is revoked, its account keeps its rights. -/
structure Known (users : Users) (c : Cookie) (id : Nat) (row : User) : Prop where
  opened : Opened users c.key c.session id row
  current : c.revoked = false → ∃ u, users.get? id = some u ∧ SameRights u row

/-- A cookie after a write. -/
theorem Known.mark {users users' : Users} {c : Cookie} {id : Nat} {row : User} (h : Known users c id row)
    (hnext : SerialTable.Continues users users') (revoked : Bool)
    (hrevoked : revoked = (c.revoked || c.session.dashboardUserId.any fun id => revokes (users.get? id) (users'.get? id))) :
    Known users' { c with revoked } id row := by
  refine ⟨h.opened.mono hnext, fun hfalse => ?_⟩
  dsimp only at hfalse
  rw [hrevoked, Bool.or_eq_false_iff, h.opened.userId, Option.any_some] at hfalse
  obtain ⟨u, hu, hsame⟩ := h.current hfalse.1
  rw [hu] at hfalse
  unfold revokes at hfalse
  cases hu' : users'.get? id with
  | none =>
      rw [hu'] at hfalse
      cases hfalse.2
  | some u' =>
      rw [hu'] at hfalse
      simp only [Bool.or_eq_false_iff, decide_eq_false_iff_not, not_or, not_not, hsame.isActive, h.opened.active,
        Bool.true_and, Bool.not_eq_false'] at hfalse
      obtain ⟨-, ⟨hhash, hrole⟩, hactive⟩ := hfalse
      exact ⟨u', rfl, hhash.trans hsame.passwordHash, hrole.trans hsame.role, hactive.trans h.opened.active.symm⟩

/-! ## The pages -/

section Pages

variable {env : Environment} {now : ℕ+} {a a' : Accounts} {s : Session} {kind : PageKind} {opened : Option Session}

omit [Security] in
theorem continues_bootstrap (env : Environment) (now : ℕ+) (a : Accounts) :
    SerialTable.Continues a.users (a.bootstrap env now).users := by
  show SerialTable.Continues a.users (bootstrapDashboardAdmin a.settings env now a.users)
  unfold bootstrapDashboardAdmin
  split
  · exact .refl _
  · dsimp only
    split
    · exact .insert _ _
    · exact .refl _

theorem continues_apply (change : UserChange) (now : ℕ+) (users : Users) (userId : Nat) :
    SerialTable.Continues users (change.apply now users userId) := by
  cases change with
  | disable => exact .modify _ _ (by intro u; rfl)
  | enable => exact .modify _ _ (by intro u; rfl)
  | delete => exact .deleteRows _ _
  | resetPassword salt password => exact .modify _ _ (by intro u; rfl)
  | changeRole role => exact .modify _ _ (by intro u; rfl)

theorem continues_legacyAdmin {form : Credentials} {salt : String} {users : Users}
    (h : legacyAdmin env now a form salt = some users) : SerialTable.Continues a.users users := by
  unfold legacyAdmin at h
  dsimp only at h
  split at h
  · obtain rfl := Option.some.inj h
    exact .upsert _ _ _ _
  · cases h

theorem Effect.continues (h : Effect env now a s kind a' opened) : SerialTable.Continues a.users a'.users := by
  cases h with
  | stay => exact .refl _
  | signIn => exact .modify _ _ (by intro u; rfl)
  | legacy form salt csrfToken users row missing converted =>
      exact (continues_legacyAdmin converted).trans (.modify _ _ (by intro u; rfl))
  | setup => exact (SerialTable.Continues.upsert _ _ _ _).trans (.modify _ _ (by intro u; rfl))
  | create => exact .insert _ _
  | change => exact continues_apply _ _ _ _
  | ownPassword r salt newPassword userId user allowed own a' written =>
      subst written
      exact .modify _ _ (by intro u; rfl)

/-- What a login writes of the account. -/
theorem get?_signIn (now : ℕ+) {row : Nat × User} (admin : Bool) (csrfToken : String) (hget : a.users.get? row.1 = some row.2) :
    ∃ row', (signIn now a row admin csrfToken).accounts.users.get? row.1 = some row' ∧ row'.username = row.2.username ∧
      SameRights row' row.2 := by
  show ∃ row', (updateDashboardUserLogin a.users row.1 now).get? row.1 = some row' ∧ _
  unfold updateDashboardUserLogin
  rw [SerialTable.get?_modify, hget, Option.map_some, if_pos rfl]
  exact ⟨_, rfl, rfl, rfl, rfl, rfl⟩

/-- **A login opens a session of its account.** -/
theorem opened_signIn {row : Nat × User} {admin : Bool} {csrfToken : String} (hget : a.users.get? row.1 = some row.2)
    (hactive : row.2.isActive = true) :
    ∃ s' row', (signIn now a row admin csrfToken).session = some s' ∧
      Opened (signIn now a row admin csrfToken).accounts.users a.secretKey s' row.1 row' ∧
      (signIn now a row admin csrfToken).accounts.users.get? row.1 = some row' ∧ SameRights row' row.2 := by
  obtain ⟨row', hget', hname, hsame⟩ := get?_signIn now admin csrfToken hget
  have hfound := getDashboardUser_username hget'
  rw [hname] at hfound
  refine ⟨_, row', rfl, ?_, hget', hsame⟩
  show Opened _ _ (setSessionAuthStamp _ (getDashboardUser (signIn now a row admin csrfToken).accounts.users row.2.username)
    _) _ _
  rw [hfound]
  refine ⟨rfl, hname.symm, ?_, rfl, hsame.isActive.trans hactive, ?_, fun u hu => ?_⟩
  · show (if admin then row.2.username else "") = "" ∨ (if admin then row.2.username else "") = row'.username
    split
    · exact .inr hname.symm
    · exact .inl rfl
  · exact SerialTable.fresh _ _ _ hget'
  · obtain rfl := Option.some.inj (hget'.symm.trans hu)
    rfl

theorem allowed_of_adminDenial {r : Request} (h : adminDenial env a s r = none) : dashboardAllowed a s = true := by
  obtain ⟨-, -, hallowed, -⟩ := (adminDenial_eq_none env).mp h
  unfold adminAllowed at hallowed
  exact (Bool.and_eq_true _ _ ▸ hallowed).1

/-- **Every session that a page opens says what its account is.** -/
theorem Effect.opens {s' : Session} (h : Effect env now a s kind a' (some s'))
    (hs : dashboardAllowed a s = true → ∃ id row, Opened a.users a.secretKey s id row) :
    ∃ id row, Opened a'.users a'.secretKey s' id row ∧ ∃ u, a'.users.get? id = some u ∧ SameRights u row := by
  generalize hopened : some s' = opened at h
  cases h with
  | stay => cases hopened
  | signIn form row admin csrfToken found active =>
      obtain ⟨s'', row', hsession, hknown, hget, -⟩ := opened_signIn (getDashboardUser_eq_some found).1 active
      obtain rfl := Option.some.inj (hopened.trans hsession)
      exact ⟨row.1, row', hknown, row', hget, rfl, rfl, rfl⟩
  | legacy form salt csrfToken users row missing converted found =>
      have hactive : row.2.isActive = true := by
        unfold legacyAdmin at converted
        dsimp only at converted
        split at converted
        · next hlegacy =>
            obtain rfl := Option.some.inj converted
            obtain ⟨found', hfound', -, -, hactive⟩ := getDashboardUser_upsert a.users
              (newUser now (strip form.username) salt form.password .superAdmin ⟨strip_strip _, hlegacy.2.2.2⟩)
            rw [← getDashboardUser_strip] at found
            obtain rfl := Option.some.inj (found.symm.trans hfound')
            exact hactive
        · cases converted
      obtain ⟨s'', row', hsession, hknown, hget, -⟩ :=
        opened_signIn (a := { a with users }) (getDashboardUser_eq_some found).1 hactive
      obtain rfl := Option.some.inj (hopened.trans hsession)
      exact ⟨row.1, row', hknown, row', hget, rfl, rfl, rfl⟩
  | setup username password salt salt' csrfToken hnamed row empty found =>
      have hactive : row.2.isActive = true := by
        obtain ⟨found', hfound', -, -, hactive⟩ := getDashboardUser_upsert a.users
          (newUser now username salt' password .superAdmin hnamed)
        obtain rfl := Option.some.inj (found.symm.trans hfound')
        exact hactive
      obtain ⟨s'', row', hsession, hknown, hget, -⟩ := opened_signIn (getDashboardUser_eq_some found).1 hactive
      obtain rfl := Option.some.inj (hopened.trans hsession)
      exact ⟨row.1, row', hknown, row', hget, rfl, rfl, rfl⟩
  | create => cases hopened
  | change => cases hopened
  | ownPassword r salt newPassword userId user allowed own a' written =>
      have hallowed := allowed_of_adminDenial allowed
      obtain ⟨id, row, hknown⟩ := hs hallowed
      obtain ⟨u, hcurrent, hget, hactive, hname, -⟩ := hknown.accepted hallowed
      obtain ⟨rfl, rfl⟩ := Prod.mk.inj (Option.some.inj (hcurrent.symm.trans own))
      have hget' : ∃ u', a'.users.get? id = some u' ∧ u'.username = u.username ∧ u'.isActive = u.isActive := by
        subst written
        show ∃ u', (resetDashboardUserPassword a.users id now salt newPassword (some u.role)).get? id = some u' ∧ _
        unfold resetDashboardUserPassword
        rw [SerialTable.get?_modify, hget, Option.map_some, if_pos rfl]
        exact ⟨_, rfl, rfl, rfl⟩
      obtain ⟨u', hu', hname', hactive'⟩ := hget'
      have hfound : getDashboardUserById a'.users id = some (id, u') := getDashboardUserById_eq_some.mpr ⟨rfl, hu'⟩
      rw [hfound] at hopened
      obtain rfl := Option.some.inj hopened
      refine ⟨id, u', ⟨hknown.userId, ?_, ?_, rfl, hactive'.trans hactive, SerialTable.fresh _ _ _ hu', fun v hv => ?_⟩, u',
        hu', rfl, rfl, rfl⟩
      · exact hknown.username.trans (hname.symm.trans hname'.symm)
      · rw [hname', hname]
        exact hknown.adminUsername
      · obtain rfl := Option.some.inj (hu'.symm.trans hv)
        rfl

end Pages

/-! ## Restores and resets -/

section Restores

omit [Security]

theorem continues_foldl_restoreUser (actorUsername : String) (now : ℕ+) (items : List BackupUser) (users : Users) :
    SerialTable.Continues users (items.foldl (restoreUser actorUsername now) users) := by
  induction items generalizing users with
  | nil => exact .refl _
  | cons item rest ih =>
      rw [List.foldl_cons]
      refine SerialTable.Continues.trans ?_ (ih _)
      unfold restoreUser
      split
      · exact .refl _
      · exact .upsert _ _ _ _

theorem continues_restoreUsers (actorUserId : Nat) (actorUsername : String) (now : ℕ+) (items : List BackupUser)
    (users : Users) : SerialTable.Continues users (restoreUsers actorUserId actorUsername now items users) :=
  (SerialTable.Continues.deleteRows users fun id _ => id ≠ actorUserId).trans (continues_foldl_restoreUser _ _ _ _)

variable [CaseFold]

theorem continues_restore {r : RestoreRequest} {payload : Configuration} {db db' : Database}
    (h : restoreConfigurationBackup r payload db = some db') : SerialTable.Continues db.users db'.users := by
  obtain ⟨selected, apiKeys, nodes, -, -, -, -, rfl⟩ := restoreConfigurationBackup_eq_some.mp h
  dsimp only
  split
  · exact continues_restoreUsers _ _ _ _ _
  · exact .refl _

/-- **What a reset leaves**: the acting account, an enabled Super Admin. -/
theorem resetAppData_eq_some {r : ResetRequest} {db db' : Database} (h : resetAppData r db = some db') :
    validActor db.users r.actorUserId r.actorUsername = true ∧
      db'.users = (db.users.deleteRows fun id _ => id ≠ r.actorUserId) ∧ db'.settings = resetSettings r := by
  unfold resetAppData at h
  split at h
  · next hvalid =>
      obtain rfl := Option.some.inj h
      exact ⟨hvalid, rfl, rfl⟩
  · cases h

theorem continues_migrateRoles (now : ℕ+) (db : Database) :
    SerialTable.Continues db.users (migrateRoles now db).users := by
  unfold migrateRoles
  split
  · exact .refl _
  · exact .update _ (by intro _ user; split <;> rfl)

end Restores

/-! ## Runs -/

section Runs

variable [CaseFold] {env : Environment} {now : ℕ+} {st st' : State} {action : Action}

/-- Every cookie that was issued says what its account is. -/
def AllKnown (st : State) : Prop := ∀ c ∈ st.issued, ∃ id row, Known st.db.users c id row

omit [Security] in
/-- A session that comes with a request is one that was issued under the present key. -/
theorem session_cases (st : State) (cookie : Option Nat) :
    st.session cookie = {} ∨
      ∃ c ∈ st.issued, c.key = st.accounts.secretKey ∧ st.session cookie = c.session := by
  unfold State.session
  split
  · next c hc =>
      obtain ⟨i, -, hi⟩ := Option.bind_eq_some_iff.mp hc
      split
      · next hkey => exact .inr ⟨c, List.mem_of_getElem? hi, hkey, rfl⟩
      · exact .inl rfl
  · exact .inl rfl

omit [CaseFold] in
theorem dashboardAllowed_empty (a : Accounts) : dashboardAllowed a {} = false := rfl

/-- **An accepted session of a request is known.** -/
theorem AllKnown.opened (h : AllKnown st) {cookie : Option Nat} {a : Accounts}
    (hnext : SerialTable.Continues st.db.users a.users) (hkey : a.secretKey = st.accounts.secretKey)
    (hallowed : dashboardAllowed a (st.session cookie) = true) :
    ∃ id row, Opened a.users a.secretKey (st.session cookie) id row := by
  rcases session_cases st cookie with hempty | ⟨c, hc, hcookie, hsession⟩
  · rw [hempty, dashboardAllowed_empty] at hallowed
    cases hallowed
  · obtain ⟨id, row, hknown⟩ := h c hc
    rw [hsession, hkey, ← hcookie]
    exact ⟨id, row, hknown.opened.mono hnext⟩

theorem AllKnown.mark (h : AllKnown st) {users : Users} (hnext : SerialTable.Continues st.db.users users) {c : Cookie}
    (hc : c ∈ markRevoked st.db.users users st.issued) : ∃ id row, Known users c id row := by
  obtain ⟨old, hold, rfl⟩ := List.mem_map.mp hc
  obtain ⟨id, row, hknown⟩ := h old hold
  exact ⟨id, row, hknown.mark hnext _ rfl⟩

theorem allKnown_step (h : AllKnown st) (hstep : Happens env st now action st') : AllKnown st' := by
  cases hstep with
  | page action accounts session effect =>
      have hnext := (continues_bootstrap env now st.accounts).trans effect.continues
      intro c hc
      rcases List.mem_append.mp hc with hnew | hold
      · obtain ⟨session', hsession, rfl⟩ : ∃ session', session = some session' ∧
            c = ⟨accounts.secretKey, session', false⟩ := by
          cases session with
          | none => cases hnew
          | some session' => exact ⟨session', rfl, List.mem_singleton.mp hnew⟩
        subst hsession
        obtain ⟨id, row, hopened, hcurrent⟩ :=
          effect.opens fun hallowed => h.opened (continues_bootstrap env now st.accounts) rfl hallowed
        exact ⟨id, row, hopened, fun _ => hcurrent⟩
      · exact h.mark hnext hold
  | restored r payload db done =>
      exact fun c hc => h.mark ((continues_restore done).trans (continues_migrateRoles _ _)) hc
  | reset r db done =>
      obtain ⟨-, husers, -⟩ := resetAppData_eq_some done
      have hdeleted : SerialTable.Continues st.db.users db.users := by
        rw [husers]
        exact .deleteRows _ _
      exact fun c hc => h.mark (hdeleted.trans (continues_migrateRoles _ _)) hc
  | failed => exact h

end Runs

end VirtInfra.Admin
