import VirtInfra.Config.Backup

/-!
# `Sections` — what each section holds after a restore

A section is seen by its own names: usernames, key ids, setting keys, folded group names and nodes, without ids, update
times and the columns that no backup has. Each loop of the restore touches one name at a time (`PerKey`), and the names
of an export are distinct, so the section after the loop is read off row by row.
-/

namespace VirtInfra.Config

open Lib Python

variable [CaseFold]

/-! ## The views -/

/-- What a backup restores of a user. -/
structure UserConfig where
  passwordHash : String
  role : Role
  isActive : Bool
  createdAt : ℕ+

def User.config (user : User) : UserConfig := ⟨user.passwordHash, user.role, user.isActive, user.createdAt⟩

def userView (users : Users) (username : String) : Option UserConfig := (users.named username).map User.config

def apiKeyView (keys : ApiKeys) (keyId : String) : Option BackupKey := (keys.named keyId).map ApiKey.backup

def settingView (settings : KeyedTable String Setting) (key : String) : Option String :=
  if key ∈ safeSettingKeys then (settings.get? key).map Setting.value else none

/-- The group of a folded name, unless it is the system group. -/
def userGroup (groups : Groups) (key : String) : Option Group := (groups.named key).filter fun g => !g.isSystem

def groupView (groups : Groups) (key : String) : Option BackupGroup := (userGroup groups key).map Group.backup

/-- The folded name of the group that a node has. -/
def NodeGroups.assignedKey (n : NodeGroups) (node : String) : Option String := (n.assignedGroup node).map Group.key

/-- Of a node that the inventory does not have: the folded name of the group it is to get. -/
def NodeGroups.pendingKey (n : NodeGroups) (node : String) : Option String :=
  (n.pending.get? node).map fun p => fold p.groupName

def mappingView (n : NodeGroups) (node : String) : Option String :=
  if (n.members.get? node).isSome then n.assignedKey node else n.pendingKey node

/-! ## Users -/

section Users

omit [CaseFold]

variable {users : Users} {actorUserId : Nat} (actorUsername : String) (now : ℕ+)

theorem perKey_restoreUser :
    PerKey (fun item : BackupUser => strip item.username) (fun username (users : Users) => users.named username)
      (restoreUser actorUsername now) where
  other item username users hne := by
    unfold restoreUser
    split
    · rfl
    · next row hrow =>
        have hname : row.username = strip item.username := by
          unfold BackupUser.row? at hrow
          split at hrow
          · obtain ⟨role, -, rfl⟩ := Option.map_eq_some_iff.mp hrow
            rfl
          · cases hrow
        exact SerialTable.named_upsert_of_ne _ _ _ (by rwa [hname])
  own item users users' heq := by
    unfold restoreUser
    split
    · exact heq
    · next row hrow =>
        have hname : strip item.username = row.username := by
          unfold BackupUser.row? at hrow
          split at hrow
          · obtain ⟨role, -, rfl⟩ := Option.map_eq_some_iff.mp hrow
            rfl
          · cases hrow
        rw [hname] at heq ⊢
        rw [SerialTable.named_upsert_self, SerialTable.named_upsert_self, heq]

variable {actorUsername} in
/-- The row of an exported user. -/
theorem row?_backup (user : User) (h : user.username ≠ actorUsername) :
    ∃ row, user.backup.row? actorUsername now = some row ∧ row.username = user.username ∧ row.config = user.config := by
  have hname : strip user.backup.username = user.username := user.named.1
  have hok : strip user.backup.username ≠ "" ∧ strip user.backup.username ≠ actorUsername ∧
      user.backup.passwordHash ≠ "" := by
    rw [hname]
    exact ⟨user.named.2, h, user.hashed⟩
  have hrole : requestedRole user.backup.role = some user.role := requestedRole_text user.role
  unfold BackupUser.row?
  rw [dif_pos hok, hrole]
  refine ⟨_, rfl, hname, ?_⟩
  show UserConfig.mk _ _ _ (orNow user.createdAt now) = _
  rw [orNow_coe]
  rfl

/-- The users before the loop: the acting account alone. -/
theorem named_kept {actor : User} (hactor : users.get? actorUserId = some actor) (username : String) :
    (users.deleteRows fun id _ => id ≠ actorUserId).named username =
      if username = actor.username then some actor else none := by
  ext user
  rw [SerialTable.named_eq_some]
  constructor
  · rintro ⟨id, hget, rfl⟩
    rw [SerialTable.get?_deleteRows, Option.filter_eq_some_iff] at hget
    have hid : id = actorUserId := by simpa using hget.2
    rw [hid, hactor] at hget
    obtain rfl := Option.some.inj hget.1
    rw [if_pos rfl]
  · intro hif
    split at hif
    · next hname =>
        obtain rfl := Option.some.inj hif
        refine ⟨actorUserId, ?_, hname.symm⟩
        rw [SerialTable.get?_deleteRows, hactor]
        simp
    · cases hif

/-- **The restored users are the saved ones**, next to the acting account. -/
theorem userView_restoreUsers {actor : User} (hactor : users.get? actorUserId = some actor) (saved : Users)
    {username : String} (hne : username ≠ actor.username) :
    userView (restoreUsers actorUserId actor.username now (saved.rows.rows.map fun row => row.2.backup) users) username =
      userView saved username := by
  unfold userView restoreUsers
  have hnodup : ((saved.rows.rows.map fun row => row.2.backup).map fun item => strip item.username).Nodup := by
    rw [List.map_map]
    refine List.Nodup.map_on ?_ (List.Nodup.of_map Prod.fst saved.rows.nodupKeys)
    rintro ⟨i, u⟩ hu ⟨j, v⟩ hv heq
    have hname : u.username = v.username := u.named.1.symm.trans (heq.trans v.named.1)
    have hi := KeyedTable.get?_of_mem_rows hu
    have hj := KeyedTable.get?_of_mem_rows hv
    have hij := saved.unique i j u v hi hj hname
    subst hij
    exact Prod.ext rfl (Option.some.inj (hi.symm.trans hj))
  cases hsaved : saved.named username with
  | none =>
      have hother : ∀ item ∈ saved.rows.rows.map fun row => row.2.backup, username ≠ strip item.username := by
        intro item hitem heq
        obtain ⟨⟨i, u⟩, hu, rfl⟩ := List.mem_map.mp hitem
        have hname : u.username = username := u.named.1.symm.trans heq.symm
        rw [SerialTable.named_eq_none, SerialTable.find?_eq_none] at hsaved
        exact hsaved i u (KeyedTable.get?_of_mem_rows hu) hname
      rw [(perKey_restoreUser _ _).foldl_other hother, named_kept hactor, if_neg hne]
  | some user =>
      obtain ⟨i, hget, rfl⟩ := SerialTable.named_eq_some.mp hsaved
      have hmem : user.backup ∈ saved.rows.rows.map fun row => row.2.backup :=
        List.mem_map.mpr ⟨(i, user), KeyedTable.mem_rows_of_get? hget, rfl⟩
      have hown := (perKey_restoreUser actor.username now).foldl_own
        (s := users.deleteRows fun id _ => id ≠ actorUserId) hnodup hmem
      have hname : strip user.backup.username = user.username := user.named.1
      rw [hname] at hown
      rw [hown]
      obtain ⟨row, hrow, hrowname, hconfig⟩ := row?_backup now user hne
      unfold restoreUser
      rw [hrow]
      rw [← hrowname, SerialTable.named_upsert_self, named_kept hactor, hrowname, if_neg hne]
      exact congrArg some hconfig

/-- **The acting account is as it was.** -/
theorem get?_restoreUsers {actor : User} (hactor : users.get? actorUserId = some actor) (items : List BackupUser) :
    (restoreUsers actorUserId actor.username now items users).get? actorUserId = some actor := by
  unfold restoreUsers
  have hkept : (users.deleteRows fun id _ => id ≠ actorUserId).get? actorUserId = some actor := by
    rw [SerialTable.get?_deleteRows, hactor]
    simp
  generalize users.deleteRows (fun id _ => id ≠ actorUserId) = users' at hkept
  induction items generalizing users' with
  | nil => exact hkept
  | cons item rest ih =>
      rw [List.foldl_cons]
      apply ih
      unfold restoreUser
      split
      · exact hkept
      · next row hrow =>
          refine SerialTable.get?_upsert_of_name_ne hkept ?_ _ _
          unfold BackupUser.row? at hrow
          split at hrow
          · next hok =>
              obtain ⟨role, -, rfl⟩ := Option.map_eq_some_iff.mp hrow
              exact Ne.symm hok.2.1
          · cases hrow

end Users

/-! ## API keys and settings -/

section Keys

omit [CaseFold]

/-- The row of an exported key. -/
theorem row?_backup_key (now : ℕ+) (key : ApiKey) :
    ∃ row, key.backup.row? now = some row ∧ row.keyId = key.keyId ∧ row.backup = key.backup := by
  have hid : strip key.backup.keyId = key.keyId := key.named.1
  have hok : strip key.backup.keyId ≠ "" ∧ key.backup.secretHash ≠ "" := by
    rw [hid]
    exact ⟨key.named.2, key.hashed⟩
  unfold BackupKey.row?
  rw [dif_pos hok]
  refine ⟨_, rfl, hid, ?_⟩
  unfold ApiKey.backup
  simp only [orNow_coe, BackupKey.mk.injEq, and_true]
  exact key.named.1

/-- **The restored keys are the saved ones.** -/
theorem restoreApiKeys_backup (now : ℕ+) (saved : ApiKeys) :
    ∃ keys, restoreApiKeys now (saved.rows.rows.map fun row => row.2.backup) = some keys ∧
      ∀ keyId, apiKeyView keys keyId = apiKeyView saved keyId := by
  -- The loop over some of the rows, into a table that has none of their keys.
  have hloop : ∀ (rows : List (Nat × ApiKey)) (keys : ApiKeys), (rows.map fun row => row.2.keyId).Nodup →
      (∀ row ∈ rows, keys.named row.2.keyId = none) →
      ∃ keys', (rows.map fun row => row.2.backup).foldlM (restoreApiKey now) keys = some keys' ∧
        ∀ keyId b, apiKeyView keys' keyId = some b ↔
          apiKeyView keys keyId = some b ∨ ∃ row ∈ rows, row.2.keyId = keyId ∧ row.2.backup = b := by
    intro rows
    induction rows with
    | nil => exact fun keys _ _ => ⟨keys, rfl, by simp⟩
    | cons first rest ih =>
        intro keys hnodup hnone
        rw [List.map_cons, List.nodup_cons] at hnodup
        obtain ⟨row, hrow, hid, hbackup⟩ := row?_backup_key now first.2
        have hfree : keys.find? row.keyId = none := by
          rw [hid, ← SerialTable.named_eq_none]
          exact hnone first List.mem_cons_self
        have hstep : restoreApiKey now keys first.2.backup = some (keys.add row hfree) := by
          unfold restoreApiKey
          rw [hrow]
          simp only [SerialTable.insert_of_none hfree, Option.map_some]
        obtain ⟨keys', hkeys', hview⟩ := ih (keys.add row hfree) hnodup.2 fun other hother => by
          have hne : other.2.keyId ≠ row.keyId := by
            rw [hid]
            exact fun heq => hnodup.1 (heq ▸ List.mem_map_of_mem hother)
          rw [SerialTable.named_add, if_neg hne]
          exact hnone other (List.mem_cons_of_mem _ hother)
        refine ⟨keys', ?_, fun keyId b => ?_⟩
        · rw [List.map_cons, List.foldlM_cons, hstep]
          exact hkeys'
        · have hadd : apiKeyView (keys.add row hfree) keyId = some b ↔
              apiKeyView keys keyId = some b ∨ first.2.keyId = keyId ∧ first.2.backup = b := by
            unfold apiKeyView
            rw [SerialTable.named_add, hid]
            split
            · next heq =>
                subst heq
                rw [hnone first List.mem_cons_self]
                simp [hbackup]
            · next hne => simp [Ne.symm hne]
          rw [hview, hadd]
          simp only [List.mem_cons, exists_eq_or_imp, or_assoc]
  have hnodup : (saved.rows.rows.map fun row => row.2.keyId).Nodup := by
    refine List.Nodup.map_on ?_ (List.Nodup.of_map Prod.fst saved.rows.nodupKeys)
    rintro ⟨i, k⟩ hk ⟨j, l⟩ hl heq
    have hi := KeyedTable.get?_of_mem_rows hk
    have hj := KeyedTable.get?_of_mem_rows hl
    have hij := saved.unique i j k l hi hj heq
    subst hij
    exact Prod.ext rfl (Option.some.inj (hi.symm.trans hj))
  obtain ⟨keys, hkeys, hview⟩ := hloop saved.rows.rows .empty hnodup fun _ _ => rfl
  refine ⟨keys, hkeys, fun keyId => ?_⟩
  ext b
  have hempty : apiKeyView .empty keyId = none := rfl
  rw [hview, hempty, apiKeyView, Option.map_eq_some_iff]
  simp only [reduceCtorEq, false_or, SerialTable.named_eq_some]
  constructor
  · rintro ⟨⟨i, k⟩, hk, hid, hb⟩
    exact ⟨k, ⟨i, KeyedTable.get?_of_mem_rows hk, hid⟩, hb⟩
  · rintro ⟨k, ⟨i, hk, hid⟩, hb⟩
    exact ⟨(i, k), KeyedTable.mem_rows_of_get? hk, hid, hb⟩

theorem perKey_restoreSetting (now : ℕ+) :
    PerKey BackupSetting.key (fun key (settings : KeyedTable String Setting) => settings.get? key)
      (restoreSetting now) where
  other item key settings hne := by
    unfold restoreSetting
    split
    · rw [KeyedTable.get?_put, if_neg hne]
    · rfl
  own item settings settings' heq := by
    unfold restoreSetting
    split
    · rw [KeyedTable.get?_put, KeyedTable.get?_put, if_pos rfl, if_pos rfl]
    · exact heq

/-- A restore writes no setting beside the safe ones. -/
theorem get?_restoreSettings {key : String} (h : key ∉ safeSettingKeys) (now : ℕ+) (items : List BackupSetting)
    (settings : KeyedTable String Setting) : (restoreSettings now items settings).get? key = settings.get? key := by
  unfold restoreSettings
  have hkept : (settings.deleteWhere fun key => key ∈ safeSettingKeys).get? key = settings.get? key := by
    rw [KeyedTable.get?_deleteWhere]
    simp [h]
  rw [← hkept]
  generalize settings.deleteWhere (fun key => key ∈ safeSettingKeys) = settings'
  induction items generalizing settings' with
  | nil => rfl
  | cons item rest ih =>
      rw [List.foldl_cons, ih]
      unfold restoreSetting
      split
      · next hsafe =>
          have hne : key ≠ item.key := fun heq => h (heq ▸ hsafe)
          rw [KeyedTable.get?_put, if_neg hne]
      · rfl

/-- **The restored settings are the saved ones.** -/
theorem settingView_restoreSettings (now : ℕ+) (saved settings : KeyedTable String Setting) (key : String) :
    settingView (restoreSettings now ((saved.rows.filter fun row => row.1 ∈ safeSettingKeys).map fun row =>
      { key := row.1, value := row.2.value, updatedAt := row.2.updatedAt }) settings) key = settingView saved key := by
  unfold settingView
  by_cases hsafe : key ∈ safeSettingKeys
  · rw [if_pos hsafe, if_pos hsafe]
    have hbase : (settings.deleteWhere fun key => key ∈ safeSettingKeys).get? key = none := by
      rw [KeyedTable.get?_deleteWhere]
      simp [hsafe]
    have hnodup : (((saved.rows.filter fun row => row.1 ∈ safeSettingKeys).map fun row =>
        ({ key := row.1, value := row.2.value, updatedAt := row.2.updatedAt } : BackupSetting)).map
          BackupSetting.key).Nodup := by
      rw [List.map_map]
      exact (List.filter_sublist.map _).nodup saved.nodupKeys
    unfold restoreSettings
    cases hsaved : saved.get? key with
    | none =>
        rw [(perKey_restoreSetting now).foldl_other, hbase]
        intro item hitem heq
        obtain ⟨row, hrow, rfl⟩ := List.mem_map.mp hitem
        have hget := KeyedTable.get?_of_mem_rows (List.mem_filter.mp hrow).1
        dsimp only at heq
        rw [← heq, hsaved] at hget
        cases hget
    | some setting =>
        have hrow : (key, setting) ∈ saved.rows.filter fun row => row.1 ∈ safeSettingKeys :=
          List.mem_filter.mpr ⟨KeyedTable.mem_rows_of_get? hsaved, decide_eq_true hsafe⟩
        have hmem := List.mem_map_of_mem
          (f := fun row : String × Setting => (⟨row.1, row.2.value, row.2.updatedAt⟩ : BackupSetting)) hrow
        have hown := (perKey_restoreSetting now).foldl_own (s := settings.deleteWhere fun key => key ∈ safeSettingKeys)
          hnodup hmem
        dsimp only at hown
        rw [hown]
        unfold restoreSetting
        rw [if_pos hsafe, KeyedTable.get?_put, if_pos rfl]
        rfl
  · rw [if_neg hsafe, if_neg hsafe]

end Keys

/-! ## Groups -/

section Groups

/-- Of the groups of a name, the one that is not the system group is found under every other name than its own. -/
theorem userGroup_eq (groups : Groups) (key : String) :
    userGroup groups key = if key = "ungrouped" then none else groups.named key := by
  unfold userGroup
  cases hnamed : groups.named key with
  | none => simp
  | some g =>
      obtain ⟨i, -, rfl⟩ := SerialTable.named_eq_some.mp hnamed
      have hsystem : g.isSystem = true ↔ g.key = "ungrouped" := g.reserved
      rw [Option.filter_some]
      by_cases hkey : g.key = "ungrouped"
      · simp [hkey, hsystem.mpr hkey]
      · have hnot : g.isSystem = false := Bool.eq_false_iff.mpr fun h => hkey (hsystem.mp h)
        simp [hkey, hnot]

/-- **`group_ids`**: the ids of the groups by folded name, but for the system group. -/
def IdsOf (groups : Groups) (ids : KeyedTable String Nat) : Prop :=
  ∀ key, ids.get? key = if key = "ungrouped" then none else (groups.find? key).map Prod.fst

theorem idsOf_groupIds (groups : Groups) : IdsOf groups (groupIds groups) := by
  intro key
  have hrows : ∀ row, row ∈ groups.rows.rows.filter (fun row => !row.2.isSystem) ↔
      groups.get? row.1 = some row.2 ∧ row.2.key ≠ "ungrouped" := by
    intro row
    have hsystem : row.2.isSystem = true ↔ row.2.key = "ungrouped" := row.2.reserved
    rw [List.mem_filter, ← KeyedTable.get?_eq_some_iff, ne_eq, ← hsystem]
    simp [SerialTable.get?]
  have hnodup : ((groups.rows.rows.filter fun row => !row.2.isSystem).map fun row => row.2.key).Nodup := by
    refine List.Nodup.map_on ?_ ((List.Nodup.of_map Prod.fst groups.rows.nodupKeys).filter _)
    rintro ⟨i, g⟩ hg ⟨j, h⟩ hh heq
    obtain ⟨hi, -⟩ := (hrows _).mp hg
    obtain ⟨hj, -⟩ := (hrows _).mp hh
    have hij := groups.unique i j g h hi hj heq
    subst hij
    exact Prod.ext rfl (Option.some.inj (hi.symm.trans hj))
  by_cases hfound : ∃ row ∈ groups.rows.rows.filter (fun row => !row.2.isSystem), row.2.key = key
  · obtain ⟨⟨i, g⟩, hrow, rfl⟩ := hfound
    obtain ⟨hget, hkey⟩ := (hrows _).mp hrow
    have hfind := SerialTable.find?_eq_some.mpr ⟨hget, (rfl : g.key = g.key)⟩
    rw [if_neg hkey, hfind]
    exact KeyedTable.get?_foldl_upsert_of_mem (fun row : Nat × Group => row.2.key) hnodup hrow Prod.fst
      (fun _ new => new) .empty
  · have hnone : (groupIds groups).get? key = none :=
      KeyedTable.get?_foldl_upsert_of_ne Prod.fst (fun _ new => new) .empty fun row hrow heq => hfound ⟨row, hrow, heq.symm⟩
    rw [hnone]
    split
    · rfl
    · next hkey =>
        symm
        rw [Option.map_eq_none_iff, SerialTable.find?_eq_none]
        exact fun i g hget heq => hfound ⟨(i, g), (hrows _).mpr ⟨hget, by rwa [heq]⟩, heq⟩

/-- What a restore changes of a group: the first two letters of its country, in upper case. -/
def BackupGroup.upperCountry (b : BackupGroup) : BackupGroup := { b with countryCode := upper (clip 2 b.countryCode) }

/-- The row of an exported group. -/
theorem row?_backup_group (now : ℕ+) (group : Group) (h : group.isSystem = false) :
    ∃ row, group.backup.row? now = some row ∧ row.key = group.key ∧ row.backup = group.backup.upperCountry := by
  have hname : strip group.backup.name = group.name := group.named.1
  have hok : strip group.backup.name ≠ "" ∧ fold (strip group.backup.name) ≠ "ungrouped" := by
    rw [hname]
    exact ⟨group.named.2, fun heq => by simp [group.reserved.mpr heq] at h⟩
  unfold BackupGroup.row?
  rw [dif_pos hok]
  refine ⟨_, rfl, congrArg fold hname, ?_⟩
  simp only [Group.backup, BackupGroup.upperCountry, BackupGroup.mk.injEq, and_true]
  exact group.named.1

theorem key_ne_of_row? {now : ℕ+} {item : BackupGroup} {row : Group} (h : item.row? now = some row) :
    row.key = fold (strip item.name) ∧ row.key ≠ "ungrouped" := by
  unfold BackupGroup.row? at h
  split at h
  · next hok =>
      obtain rfl := Option.some.inj h
      exact ⟨rfl, hok.2⟩
  · cases h

/-- The loop over groups touches nothing else. -/
theorem restoreGroup_frame (now : ℕ+) (state : NodeGroups × KeyedTable String Nat) (item : BackupGroup) :
    (restoreGroup now state item).1.inventory = state.1.inventory ∧
      (restoreGroup now state item).1.members = state.1.members ∧
      (restoreGroup now state item).1.pending = state.1.pending := by
  unfold restoreGroup
  split <;> exact ⟨rfl, rfl, rfl⟩

/-- The loop keeps `group_ids` up to date, and the system group where it is. -/
theorem restoreGroup_ids (now : ℕ+) {state : NodeGroups × KeyedTable String Nat} {systemId : Nat} {g : Group}
    (hids : IdsOf state.1.groups state.2) (hsystem : state.1.groups.get? systemId = some g ∧ g.isSystem = true)
    (item : BackupGroup) :
    IdsOf (restoreGroup now state item).1.groups (restoreGroup now state item).2 ∧
      (restoreGroup now state item).1.groups.get? systemId = some g := by
  unfold restoreGroup
  split
  · exact ⟨hids, hsystem.1⟩
  · next row hrow =>
      obtain ⟨-, hkey⟩ := key_ne_of_row? hrow
      have hgkey : g.key = "ungrouped" := g.reserved.mp hsystem.2
      refine ⟨fun key => ?_, SerialTable.get?_upsert_of_name_ne hsystem.1 (by rw [hgkey]; exact hkey.symm) _ _⟩
      show (state.2.put row.key _).get? key = if key = "ungrouped" then none else
        ((state.1.groups.upsert row row.overwrite row.key_overwrite).1.find? key).map Prod.fst
      rw [KeyedTable.get?_put]
      by_cases hk : key = row.key
      · subst hk
        rw [if_pos rfl, if_neg hkey, SerialTable.find?_upsert_self]
        rfl
      · rw [if_neg hk, SerialTable.find?_upsert_of_ne _ _ _ hk]
        exact hids key

theorem perKey_restoreGroup (now : ℕ+) :
    PerKey (fun item : BackupGroup => fold (strip item.name))
      (fun key (state : NodeGroups × KeyedTable String Nat) => state.1.groups.named key) (restoreGroup now) where
  other item key state hne := by
    unfold restoreGroup
    split
    · rfl
    · next row hrow =>
        obtain ⟨hkey, -⟩ := key_ne_of_row? hrow
        exact SerialTable.named_upsert_of_ne _ _ _ (by rwa [hkey])
  own item state state' heq := by
    unfold restoreGroup
    split
    · exact heq
    · next row hrow =>
        obtain ⟨hkey, -⟩ := key_ne_of_row? hrow
        rw [← hkey] at heq ⊢
        show (state.1.groups.upsert row _ _).1.named row.key = (state'.1.groups.upsert row _ _).1.named row.key
        rw [SerialTable.named_upsert_self, SerialTable.named_upsert_self, heq]

/-- **What restoring the groups leaves**: the saved groups, in upper case, and every node with the system group. -/
structure Regrouped (saved : Groups) (n n' : NodeGroups) (ids : KeyedTable String Nat) : Prop where
  inventory : n'.inventory = n.inventory
  pending : n'.pending = n.pending
  members : ∀ node, (n'.members.get? node).isSome = (n.members.get? node).isSome
  assigned : ∀ node, n'.assignedGroup node = none
  ids : IdsOf n'.groups ids
  view : ∀ key, groupView n'.groups key = (groupView saved key).map BackupGroup.upperCountry

/-- The loop over the exported groups, from a table that has the system group alone. -/
theorem groupView_foldl (now : ℕ+) (saved : Groups) {state : NodeGroups × KeyedTable String Nat}
    (hsystem : ∀ i g, state.1.groups.get? i = some g → g.isSystem = true) (key : String) :
    groupView ((((saved.rows.rows.filter fun row => !row.2.isSystem).map fun row => row.2.backup).foldl
      (restoreGroup now) state).1.groups) key = (groupView saved key).map BackupGroup.upperCountry := by
  have hrows : ∀ row, row ∈ saved.rows.rows.filter (fun row => !row.2.isSystem) ↔
      saved.get? row.1 = some row.2 ∧ row.2.isSystem = false := by
    intro row
    rw [List.mem_filter, ← KeyedTable.get?_eq_some_iff]
    simp [SerialTable.get?]
  have hnodup : (((saved.rows.rows.filter fun row => !row.2.isSystem).map fun row => row.2.backup).map fun item =>
      fold (strip item.name)).Nodup := by
    rw [List.map_map]
    refine List.Nodup.map_on ?_ ((List.Nodup.of_map Prod.fst saved.rows.nodupKeys).filter _)
    rintro ⟨i, g⟩ hg ⟨j, h⟩ hh heq
    have hi := ((hrows _).mp hg).1
    have hj := ((hrows _).mp hh).1
    have hkey : g.key = h.key := (congrArg fold g.named.1).symm.trans (heq.trans (congrArg fold h.named.1))
    have hij := saved.unique i j g h hi hj hkey
    subst hij
    exact Prod.ext rfl (Option.some.inj (hi.symm.trans hj))
  have hbase : key ≠ "ungrouped" → state.1.groups.named key = none := by
    intro hkey
    rw [SerialTable.named_eq_none, SerialTable.find?_eq_none]
    exact fun i g hget heq => hkey (heq.symm.trans (g.reserved.mp (hsystem i g hget)))
  unfold groupView
  rw [userGroup_eq, userGroup_eq]
  by_cases hkey : key = "ungrouped"
  · rw [if_pos hkey, if_pos hkey]
    rfl
  · rw [if_neg hkey, if_neg hkey]
    cases hsaved : saved.named key with
    | none =>
        rw [(perKey_restoreGroup now).foldl_other, hbase hkey]
        · rfl
        · intro item hitem heq
          obtain ⟨⟨i, g⟩, hg, rfl⟩ := List.mem_map.mp hitem
          have hgkey : g.key = key := (congrArg fold g.named.1).symm.trans heq.symm
          rw [SerialTable.named_eq_none, SerialTable.find?_eq_none] at hsaved
          exact hsaved i g ((hrows _).mp hg).1 hgkey
    | some g =>
        obtain ⟨i, hget, rfl⟩ := SerialTable.named_eq_some.mp hsaved
        have hnot : g.isSystem = false := Bool.eq_false_iff.mpr fun h => hkey (g.reserved.mp h)
        have hmem : g.backup ∈ (saved.rows.rows.filter fun row => !row.2.isSystem).map fun row => row.2.backup :=
          List.mem_map_of_mem (f := fun row : Nat × Group => row.2.backup) ((hrows (i, g)).mpr ⟨hget, hnot⟩)
        have hown := (perKey_restoreGroup now).foldl_own (s := state) hnodup hmem
        have hname : fold (strip g.backup.name) = g.key := congrArg fold g.named.1
        rw [hname] at hown
        rw [hown]
        obtain ⟨row, hrow, hrowkey, hbackup⟩ := row?_backup_group now g hnot
        unfold restoreGroup
        rw [hrow, ← hrowkey]
        show ((state.1.groups.upsert row _ _).1.named row.key).map Group.backup = _
        rw [SerialTable.named_upsert_self, hrowkey, hbase hkey]
        exact congrArg some hbackup

theorem restoreGroups_backup (actorUsername : String) (now : ℕ+) (saved : Groups) (n : NodeGroups) :
    ∃ n' ids, restoreGroups actorUsername now
        ((saved.rows.rows.filter fun row => !row.2.isSystem).map fun row => row.2.backup) n = some (n', ids) ∧
      Regrouped saved n n' ids := by
  obtain ⟨⟨g, hget, hsystem⟩, hinventory, hmembers, hpending⟩ := n.ensureSystemGroup_spec now
  unfold restoreGroups
  generalize n.ensureSystemGroup now = ensured at hget hinventory hmembers hpending
  obtain ⟨n₁, systemId⟩ := ensured
  dsimp only at hget hinventory hmembers hpending ⊢
  have hassign : (n₁.assignAll ⟨systemId, now, actorUsername⟩).isSome :=
    NodeGroups.assignAll_isSome.mpr (Option.isSome_iff_exists.mpr ⟨g, hget⟩)
  obtain ⟨n₂, hn₂⟩ := Option.isSome_iff_exists.mp hassign
  obtain ⟨hmembers₂, hinventory₂, hgroups₂, hpending₂⟩ := NodeGroups.assignAll_eq_some hn₂
  have hall : ∀ node m, n₂.members.get? node = some m → m.groupId = systemId := by
    intro node m hm
    rw [hmembers₂, KeyedTable.get?_update] at hm
    obtain ⟨-, -, rfl⟩ := Option.map_eq_some_iff.mp hm
    rfl
  have hkept : (n₂.groups.deleteRows fun _ g => !g.isSystem).get? systemId = some g := by
    rw [SerialTable.get?_deleteRows, hgroups₂, hget]
    simp [hsystem]
  have hdelete : (n₂.deleteGroups fun _ g => !g.isSystem).isSome := by
    apply NodeGroups.deleteGroups_isSome
    intro node m hm
    rw [hall node m hm, hkept]
    rfl
  obtain ⟨n₃, hn₃⟩ := Option.isSome_iff_exists.mp hdelete
  obtain ⟨hgroups₃, hinventory₃, hmembers₃, hpending₃⟩ := NodeGroups.deleteGroups_eq_some hn₃
  rw [hn₂, Option.bind_eq_bind, Option.bind_some, hn₃, Option.bind_some]
  have hget₃ : n₃.groups.get? systemId = some g := by rw [hgroups₃, hkept]
  have hsystem₃ : ∀ i h, n₃.groups.get? i = some h → h.isSystem = true := by
    intro i h hh
    rw [hgroups₃, SerialTable.get?_deleteRows, Option.filter_eq_some_iff] at hh
    simpa using hh.2
  have hids₃ : IdsOf n₃.groups .empty := by
    intro key
    rw [KeyedTable.get?_empty]
    split
    · rfl
    · next hkey =>
        symm
        rw [Option.map_eq_none_iff, SerialTable.find?_eq_none]
        exact fun i h hh heq => hkey (heq.symm.trans (h.reserved.mp (hsystem₃ i h hh)))
  -- The loop keeps all but the groups, and the system group with its members.
  have hloop : ∀ (items : List BackupGroup) (state : NodeGroups × KeyedTable String Nat), state.1.inventory = n.inventory →
      state.1.members = n₃.members → state.1.pending = n.pending → IdsOf state.1.groups state.2 →
      state.1.groups.get? systemId = some g →
      (items.foldl (restoreGroup now) state).1.inventory = n.inventory ∧
        (items.foldl (restoreGroup now) state).1.members = n₃.members ∧
        (items.foldl (restoreGroup now) state).1.pending = n.pending ∧
        IdsOf (items.foldl (restoreGroup now) state).1.groups (items.foldl (restoreGroup now) state).2 ∧
        (items.foldl (restoreGroup now) state).1.groups.get? systemId = some g := by
    intro items
    induction items with
    | nil => exact fun state h₁ h₂ h₃ h₄ h₅ => ⟨h₁, h₂, h₃, h₄, h₅⟩
    | cons item rest ih =>
        intro state h₁ h₂ h₃ h₄ h₅
        obtain ⟨hi, hm, hp⟩ := restoreGroup_frame now state item
        obtain ⟨hids, hsys⟩ := restoreGroup_ids now h₄ ⟨h₅, hsystem⟩ item
        exact ih _ (hi.trans h₁) (hm.trans h₂) (hp.trans h₃) hids hsys
  obtain ⟨h₁, h₂, h₃, h₄, h₅⟩ := hloop
    ((saved.rows.rows.filter fun row => !row.2.isSystem).map fun row => row.2.backup) (n₃, .empty)
    (hinventory₃.trans (hinventory₂.trans hinventory)) rfl (hpending₃.trans (hpending₂.trans hpending)) hids₃ hget₃
  refine ⟨_, _, rfl, h₁, h₃, fun node => ?_, fun node => ?_, h₄, groupView_foldl now saved hsystem₃⟩
  · rw [h₂, hmembers₃, hmembers₂, hmembers, KeyedTable.get?_update, Option.isSome_map]
  · unfold NodeGroups.assignedGroup
    rw [h₂, hmembers₃]
    cases hm : n₂.members.get? node with
    | none => rfl
    | some m =>
        rw [Option.bind_some, hall node m hm, h₅, Option.filter_some]
        simp [hsystem]

end Groups

/-! ## The mapping -/

section Mapping

theorem IdsOf.isSome {groups : Groups} {ids : KeyedTable String Nat} (h : IdsOf groups ids) {key : String} {id : Nat}
    (hid : ids.get? key = some id) : ∃ g, groups.get? id = some g ∧ g.key = key ∧ key ≠ "ungrouped" := by
  rw [h key] at hid
  split at hid
  · cases hid
  · next hkey =>
      obtain ⟨⟨i, g⟩, hfind, rfl⟩ := Option.map_eq_some_iff.mp hid
      obtain ⟨hget, hname⟩ := SerialTable.find?_eq_some.mp hfind
      exact ⟨g, hget, hname, hkey⟩

/-- The id that an item of the mapping gives its node. -/
def BackupMapping.target? (item : BackupMapping) (ids : KeyedTable String Nat) : Option Nat :=
  if strip item.node = "" then none else ids.get? (fold (strip item.groupName))

variable (actorUsername : String) (now : ℕ+)

/-- **What one item does**: a row for its node, in one of two tables. -/
theorem restoreMapping_eq_some {ids : KeyedTable String Nat} {n n' : NodeGroups} {item : BackupMapping}
    (h : restoreMapping actorUsername now ids n item = some n') :
    n'.inventory = n.inventory ∧ n'.groups = n.groups ∧
      (∀ node, n'.members.get? node =
        if node = strip item.node ∧ node ∈ n.inventory then
          ((item.target? ids).map fun id => ⟨id, now, actorUsername⟩).or (n.members.get? node)
        else n.members.get? node) ∧
      ∀ node, n'.pending.get? node =
        if node = strip item.node ∧ node ∉ n.inventory then
          ((item.target? ids).map fun _ => ⟨strip item.groupName, now, actorUsername⟩).or (n.pending.get? node)
        else n.pending.get? node := by
  unfold restoreMapping at h
  unfold BackupMapping.target?
  dsimp only at h
  split at h
  · next hid =>
      obtain rfl := Option.some.inj h
      simp [hid]
  · next id hid =>
      split at h
      · next hblank =>
          obtain rfl := Option.some.inj h
          simp [hblank]
      · next hnode =>
          rw [if_neg hnode, hid]
          split at h
          · next hmem =>
              obtain ⟨hmembers, hinventory, hgroups, hpending⟩ := NodeGroups.putMember_eq_some h
              refine ⟨hinventory, hgroups, fun node => ?_, fun node => ?_⟩
              · rw [hmembers, KeyedTable.get?_put]
                by_cases hn : node = strip item.node
                · subst hn
                  simp [hmem]
                · simp [hn]
              · rw [hpending]
                split
                · next hboth => exact absurd (hboth.1 ▸ hmem) hboth.2
                · rfl
          · next hmem =>
              obtain rfl := Option.some.inj h
              refine ⟨rfl, rfl, fun node => ?_, fun node => ?_⟩
              · split
                · next hboth => exact absurd (hboth.1 ▸ hboth.2) hmem
                · rfl
              · show (n.pending.put _ _).get? node = _
                rw [KeyedTable.get?_put]
                by_cases hn : node = strip item.node
                · subst hn
                  simp [hmem]
                · simp [hn]

/-- Only a foreign key stops it. -/
theorem restoreMapping_isSome {ids : KeyedTable String Nat} {n : NodeGroups} {item : BackupMapping} :
    (restoreMapping actorUsername now ids n item).isSome ↔
      ∀ id, item.target? ids = some id → strip item.node ∈ n.inventory → (n.groups.get? id).isSome := by
  unfold restoreMapping BackupMapping.target?
  dsimp only
  split
  · next hid => simp [hid]
  · next id hid =>
      split
      · next hblank => simp [hblank]
      · next hnode =>
          split
          · next hmem =>
              rw [NodeGroups.putMember_isSome]
              simp [hid, hmem]
          · next hmem => simp [hmem]

/-- The group that a backup's mapping gives a node, if the groups have it. -/
def NodeGroups.target (n saved : NodeGroups) (node : String) : Option String :=
  (saved.assignedKey node).filter fun key => (n.groups.named key).isSome

/-- **What restoring the mapping leaves**, from a state without pending rows. -/
structure Mapped (saved n n' : NodeGroups) : Prop where
  groups : n'.groups = n.groups
  node : ∀ node,
    if n.target saved node = none then
      n'.members.get? node = n.members.get? node ∧ n'.pending.get? node = none
    else mappingView n' node = n.target saved node

/-- What an item of the mapping reads, and what it writes of a node. -/
theorem perKey_restoreMapping (ids : KeyedTable String Nat) :
    PerKey (fun item : BackupMapping => strip item.node)
      (fun node (n : NodeGroups) => (n.inventory, n.groups, n.members.get? node, n.pending.get? node))
      fun n item => (restoreMapping actorUsername now ids n item).getD n where
  other item node n hne := by
    cases hstep : restoreMapping actorUsername now ids n item with
    | none => rfl
    | some n' =>
        obtain ⟨hinventory, hgroups, hmembers, hpending⟩ := restoreMapping_eq_some actorUsername now hstep
        rw [Option.getD_some, hinventory, hgroups, hmembers, hpending]
        simp [hne]
  own item n n' heq := by
    simp only [Prod.mk.injEq] at heq
    obtain ⟨hinventory, hgroups, hmembers, hpending⟩ := heq
    have hboth : (restoreMapping actorUsername now ids n item).isSome ↔
        (restoreMapping actorUsername now ids n' item).isSome := by
      rw [restoreMapping_isSome, restoreMapping_isSome, hinventory, hgroups]
    cases hstep : restoreMapping actorUsername now ids n item with
    | none =>
        have hnone : restoreMapping actorUsername now ids n' item = none := by
          rw [hstep] at hboth
          simpa using hboth
        simp [hnone, hinventory, hgroups, hmembers, hpending]
    | some m =>
        have hsome : (restoreMapping actorUsername now ids n' item).isSome := hboth.mp (by rw [hstep]; rfl)
        obtain ⟨m', hm'⟩ := Option.isSome_iff_exists.mp hsome
        obtain ⟨h₁, h₂, h₃, h₄⟩ := restoreMapping_eq_some actorUsername now hstep
        obtain ⟨h₁', h₂', h₃', h₄'⟩ := restoreMapping_eq_some actorUsername now hm'
        rw [hm', Option.getD_some, Option.getD_some, h₁, h₂, h₃, h₄, h₁', h₂', h₃', h₄', hinventory, hgroups, hmembers,
          hpending]

/-- The item of a backup for a node with a group. -/
theorem mem_mapping {saved : NodeGroups} {item : BackupMapping} :
    item ∈ saved.mapping ↔ strip item.node = item.node ∧ item.node ≠ "" ∧
      ∃ g, saved.assignedGroup item.node = some g ∧ item.groupName = g.name := by
  unfold NodeGroups.mapping
  rw [List.mem_filterMap]
  constructor
  · rintro ⟨⟨node, m⟩, hrow, hitem⟩
    obtain ⟨g, hg, rfl⟩ := Option.map_eq_some_iff.mp hitem
    obtain ⟨hstrip, hne⟩ := saved.named node (saved.memberNode node m (KeyedTable.get?_of_mem_rows hrow))
    exact ⟨hstrip, hne, g, hg, rfl⟩
  · rintro ⟨-, -, g, hg, hname⟩
    cases hm : saved.members.get? item.node with
    | none =>
        unfold NodeGroups.assignedGroup at hg
        rw [hm] at hg
        cases hg
    | some m =>
        refine ⟨(item.node, m), KeyedTable.mem_rows_of_get? hm, ?_⟩
        rw [hg, Option.map_some, ← hname]

/-- A backup maps a node once. -/
theorem nodup_mapping (saved : NodeGroups) : (saved.mapping.map fun item => strip item.node).Nodup := by
  refine List.Nodup.map_on (fun item hitem item' hitem' heq => ?_) ?_
  · obtain ⟨hstrip, -, g, hg, hname⟩ := mem_mapping.mp hitem
    obtain ⟨hstrip', -, g', hg', hname'⟩ := mem_mapping.mp hitem'
    have hnode : item.node = item'.node := hstrip.symm.trans (heq.trans hstrip')
    rw [hnode, hg'] at hg
    obtain rfl := Option.some.inj hg
    obtain ⟨node, groupName⟩ := item
    obtain ⟨node', groupName'⟩ := item'
    exact BackupMapping.mk.injEq .. ▸ ⟨hnode, hname.trans hname'.symm⟩
  · have hkeys := saved.members.nodupKeys.filterMap (f := fun node =>
      (saved.assignedGroup node).map fun g => ({ node, groupName := g.name } : BackupMapping)) (by
        intro node node' item hitem hitem'
        obtain ⟨g, -, rfl⟩ := Option.map_eq_some_iff.mp hitem
        obtain ⟨g', -, heq⟩ := Option.map_eq_some_iff.mp hitem'
        exact (congrArg BackupMapping.node heq).symm)
    rwa [List.filterMap_map] at hkeys

theorem NodeGroups.assignedGroup_of_member {n : NodeGroups} {node : String} {m : GroupMembership}
    (hm : n.members.get? node = some m) :
    n.assignedGroup node = (n.groups.get? m.groupId).filter fun g => !g.isSystem := by
  rw [assignedGroup, hm, Option.bind_some]

/-- **The restored mapping**: each saved group that the groups have, and else what was there. -/
theorem restoreMapping_backup {ids : KeyedTable String Nat} (saved n : NodeGroups) (hids : IdsOf n.groups ids) :
    ∃ n', saved.mapping.foldlM (restoreMapping actorUsername now ids) n.truncatePending = some n' ∧
      Mapped saved n n' := by
  have hstep : ∀ (s : NodeGroups) (item : BackupMapping), s.groups = n.groups →
      restoreMapping actorUsername now ids s item = some ((restoreMapping actorUsername now ids s item).getD s) ∧
        ((restoreMapping actorUsername now ids s item).getD s).groups = n.groups := by
    intro s item hs
    have hsome : (restoreMapping actorUsername now ids s item).isSome := by
      rw [restoreMapping_isSome]
      intro id hid _
      unfold BackupMapping.target? at hid
      split at hid
      · cases hid
      · obtain ⟨g, hget, -⟩ := hids.isSome hid
        rw [hs, hget]
        rfl
    obtain ⟨s', hs'⟩ := Option.isSome_iff_exists.mp hsome
    rw [hs', Option.getD_some]
    exact ⟨rfl, (restoreMapping_eq_some actorUsername now hs').2.1.trans hs⟩
  obtain ⟨hfold, hgroups⟩ := foldlM_eq_foldl (P := fun s => s.groups = n.groups) hstep saved.mapping
    (s := n.truncatePending) rfl
  refine ⟨_, hfold, hgroups, fun node => ?_⟩
  have hperKey := perKey_restoreMapping actorUsername now ids
  cases hassigned : saved.assignedGroup node with
  | none =>
      -- No item names the node.
      have hview := hperKey.foldl_other (s := n.truncatePending) (l := saved.mapping) (j := node) fun item hitem heq => by
        obtain ⟨hstrip, -, g, hg, -⟩ := mem_mapping.mp hitem
        rw [← hstrip, ← heq, hassigned] at hg
        cases hg
      simp only [Prod.mk.injEq] at hview
      have htarget : n.target saved node = none := by rw [NodeGroups.target, NodeGroups.assignedKey, hassigned]; rfl
      rw [if_pos htarget, hview.2.2.1, hview.2.2.2]
      exact ⟨rfl, rfl⟩
  | some g =>
      have hnot : g.key ≠ "ungrouped" := by
        intro hkey
        rw [NodeGroups.assignedGroup, Option.filter_eq_some_iff] at hassigned
        simp [g.reserved.mpr hkey] at hassigned
      have hnode : strip node = node ∧ node ≠ "" := by
        by_contra hbad
        cases hm : saved.members.get? node with
        | none => rw [NodeGroups.assignedGroup, hm] at hassigned; cases hassigned
        | some m => exact hbad (saved.named node (saved.memberNode node m hm))
      have hitem : { node, groupName := g.name } ∈ saved.mapping := mem_mapping.mpr ⟨hnode.1, hnode.2, g, hassigned, rfl⟩
      have hview := hperKey.foldl_own (s := n.truncatePending) (nodup_mapping saved) hitem
      dsimp only at hview
      rw [hnode.1] at hview
      simp only [Prod.mk.injEq] at hview
      obtain ⟨hstep, -⟩ := hstep n.truncatePending { node, groupName := g.name } rfl
      obtain ⟨-, -, hmembers, hpending⟩ := restoreMapping_eq_some actorUsername now hstep
      have hid : BackupMapping.target? { node, groupName := g.name } ids = (n.groups.find? g.key).map Prod.fst := by
        unfold BackupMapping.target?
        dsimp only
        rw [hnode.1, if_neg hnode.2, g.named.1]
        exact (hids g.key).trans (if_neg hnot)
      have htarget : n.target saved node = if (n.groups.named g.key).isSome then some g.key else none := by
        rw [NodeGroups.target, NodeGroups.assignedKey, hassigned, Option.map_some, Option.filter_some]
      have hmember := hview.2.2.1.trans (hmembers node)
      have hpends := hview.2.2.2.trans (hpending node)
      rw [hid] at hmember hpends
      cases hfind : n.groups.find? g.key with
      | none =>
          rw [SerialTable.named_eq_none.mpr hfind, Option.isSome_none, if_neg Bool.false_ne_true] at htarget
          rw [hfind] at hmember hpends
          rw [if_pos htarget, hmember, hpends]
          refine ⟨?_, ?_⟩
          · split <;> rfl
          · split <;> rfl
      | some row =>
          obtain ⟨id, q⟩ := row
          obtain ⟨hget, hkey⟩ := SerialTable.find?_eq_some.mp hfind
          rw [SerialTable.named_eq_some.mpr ⟨id, hget, hkey⟩, Option.isSome_some, if_pos rfl] at htarget
          rw [htarget, if_neg (Option.some_ne_none _)]
          rw [hfind, Option.map_some, Option.map_some, Option.some_or] at hmember hpends
          unfold mappingView
          by_cases hmem : node ∈ n.inventory
          · -- A node of the inventory is a member of the group.
            rw [if_pos ⟨hnode.1.symm, hmem⟩] at hmember
            have hsystem : q.isSystem = false := Bool.eq_false_iff.mpr fun h => hnot (hkey ▸ q.reserved.mp h)
            rw [hmember, Option.isSome_some, if_pos rfl, NodeGroups.assignedKey,
              NodeGroups.assignedGroup_of_member hmember, hgroups, hget, Option.filter_some]
            simp [hsystem, hkey]
          · -- Another one waits for its first push.
            rw [if_neg fun h => hmem h.2] at hmember
            rw [if_pos ⟨hnode.1.symm, hmem⟩] at hpends
            have hnone : n.truncatePending.members.get? node = none := by
              by_contra hsome
              obtain ⟨m, hm⟩ := Option.ne_none_iff_exists'.mp hsome
              exact hmem (n.memberNode node m hm)
            rw [hmember, hnone]
            simp only [Option.isSome_none, Bool.false_eq_true, if_false]
            rw [NodeGroups.pendingKey, hpends, Option.map_some, g.named.1]
            rfl

end Mapping

/-! ## Groups and mapping together -/

section NodeGroups

/-- What a node has after a restore of a backup of `saved` over `before`. -/
def restoredMapping (sections : List BackupSection) (saved before : NodeGroups) (node : String) : Option String :=
  if .nodeGroupMapping ∈ sections then
    if .groups ∈ sections then saved.assignedKey node else (before.target saved node).or (before.assignedKey node)
  else if .groups ∈ sections then
    if (before.members.get? node).isSome then none else before.pendingKey node
  else mappingView before node

/-- **What the two sections leave**; the mapping that a restore leaves is what a second one leaves. -/
structure RestoredNodes (sections : List BackupSection) (saved before after : NodeGroups) : Prop where
  groups : ∀ key, groupView after.groups key =
    if .groups ∈ sections then (groupView saved.groups key).map BackupGroup.upperCountry else groupView before.groups key
  kept : .groups ∉ sections → after.groups = before.groups
  mapping : ∀ node, mappingView after node = restoredMapping sections saved before node
  settled : ∀ node, restoredMapping sections saved after node = restoredMapping sections saved before node

theorem mappingView_of_assignedKey {n : NodeGroups} {node key : String} (h : n.assignedKey node = some key) :
    mappingView n node = some key := by
  unfold mappingView
  cases hm : n.members.get? node with
  | none => rw [NodeGroups.assignedKey, NodeGroups.assignedGroup, hm] at h; cases h
  | some m => simpa using h

/-- The groups of a state and the row of a node say which group it has. -/
theorem assignedKey_congr {n n' : NodeGroups} {node : String} (hgroups : n'.groups = n.groups)
    (hmembers : n'.members.get? node = n.members.get? node) : n'.assignedKey node = n.assignedKey node := by
  rw [NodeGroups.assignedKey, NodeGroups.assignedKey, NodeGroups.assignedGroup, NodeGroups.assignedGroup, hgroups, hmembers]

theorem assignedKey_of_no_member {n : NodeGroups} {node : String} (h : n.members.get? node = none) :
    n.assignedKey node = none := by
  rw [NodeGroups.assignedKey, NodeGroups.assignedGroup, h]
  rfl

/-- A restored mapping, as seen by node. -/
theorem Mapped.mappingView {saved n n' : NodeGroups} (h : Mapped saved n n') (node : String) :
    mappingView n' node = (n.target saved node).or (n.assignedKey node) := by
  have hnode := h.node node
  split at hnode
  · next hnone =>
      rw [hnone, Option.none_or, ← assignedKey_congr h.groups hnode.1, Config.mappingView]
      split
      · rfl
      · next hmember =>
          have hno : n'.members.get? node = none := by simpa using hmember
          rw [assignedKey_of_no_member hno, NodeGroups.pendingKey, hnode.2]
          rfl
  · next hsome =>
      obtain ⟨key, hkey⟩ := Option.ne_none_iff_exists'.mp hsome
      rw [hnode, hkey]
      rfl

/-- A group of the backup is there after the groups are restored. -/
theorem Regrouped.target {saved n n' : NodeGroups} {ids : KeyedTable String Nat}
    (h : Regrouped saved.groups n n' ids) (node : String) : n'.target saved node = saved.assignedKey node := by
  unfold NodeGroups.target
  cases hkey : saved.assignedKey node with
  | none => rfl
  | some key =>
      obtain ⟨g, hg, rfl⟩ := Option.map_eq_some_iff.mp hkey
      have hview : groupView saved.groups g.key ≠ none := by
        rw [NodeGroups.assignedGroup, Option.filter_eq_some_iff, Option.bind_eq_some_iff] at hg
        obtain ⟨⟨m, -, hget⟩, hsystem⟩ := hg
        rw [groupView, userGroup, SerialTable.named_eq_some.mpr ⟨m.groupId, hget, rfl⟩, Option.filter_some, if_pos hsystem]
        simp
      have hnamed : (n'.groups.named g.key).isSome := by
        rw [Option.isSome_iff_ne_none]
        intro hnone
        have hgone := h.view g.key
        rw [groupView, userGroup, hnone] at hgone
        exact hview (Option.map_eq_none_iff.mp hgone.symm)
      rw [Option.filter_some, if_pos hnamed]

theorem restoreNodeGroups_backup (actorUsername : String) (now : ℕ+) (sections : List BackupSection) (saved : Database)
    (before : NodeGroups) :
    ∃ after, restoreNodeGroups actorUsername now sections (exportConfiguration saved) before = some after ∧
      RestoredNodes sections saved.nodes before after := by
  unfold restoreNodeGroups
  by_cases hgroups : .groups ∈ sections
  · obtain ⟨n, ids, hn, hregrouped⟩ := restoreGroups_backup actorUsername now saved.nodes.groups before
    rw [if_pos hgroups]
    change ∃ after, (restoreGroups actorUsername now _ before).bind _ = some after ∧ _
    rw [show restoreGroups actorUsername now (exportConfiguration saved).groups before = some (n, ids) from hn,
      Option.bind_some]
    by_cases hmapping : .nodeGroupMapping ∈ sections
    · obtain ⟨after, hafter, hmapped⟩ := restoreMapping_backup actorUsername now saved.nodes n hregrouped.ids
      refine ⟨after, (if_pos hmapping).trans hafter, ?_, fun h => absurd hgroups h, fun node => ?_, fun node => ?_⟩
      · intro key
        rw [if_pos hgroups, hmapped.groups, hregrouped.view]
      · have hnone : n.assignedKey node = none := by rw [NodeGroups.assignedKey, hregrouped.assigned]; rfl
        rw [hmapped.mappingView, hregrouped.target, hnone, Option.or_none, restoredMapping, if_pos hmapping, if_pos hgroups]
      · rw [restoredMapping, restoredMapping, if_pos hmapping, if_pos hgroups, if_pos hmapping, if_pos hgroups]
    · refine ⟨n, if_neg hmapping, ?_, fun h => absurd hgroups h, fun node => ?_, fun node => ?_⟩
      · intro key
        rw [if_pos hgroups, hregrouped.view]
      · rw [mappingView, restoredMapping, if_neg hmapping, if_pos hgroups, hregrouped.members,
          NodeGroups.assignedKey, hregrouped.assigned, NodeGroups.pendingKey, hregrouped.pending]
        rfl
      · rw [restoredMapping, restoredMapping, if_neg hmapping, if_pos hgroups, if_neg hmapping, if_pos hgroups,
          hregrouped.members, NodeGroups.pendingKey, hregrouped.pending]
        rfl
  · rw [if_neg hgroups]
    change ∃ after, (some (before, groupIds before.groups)).bind _ = some after ∧ _
    rw [Option.bind_some]
    by_cases hmapping : .nodeGroupMapping ∈ sections
    · obtain ⟨after, hafter, hmapped⟩ :=
        restoreMapping_backup actorUsername now saved.nodes before (idsOf_groupIds before.groups)
      refine ⟨after, (if_pos hmapping).trans hafter, ?_, fun _ => hmapped.groups, fun node => ?_, fun node => ?_⟩
      · intro key
        rw [if_neg hgroups, hmapped.groups]
      · rw [hmapped.mappingView, restoredMapping, if_pos hmapping, if_neg hgroups]
      · rw [restoredMapping, restoredMapping, if_pos hmapping, if_neg hgroups, if_pos hmapping, if_neg hgroups]
        have htarget : after.target saved.nodes node = before.target saved.nodes node := by
          rw [NodeGroups.target, NodeGroups.target, hmapped.groups]
        rw [htarget]
        cases hkey : before.target saved.nodes node with
        | some key => rfl
        | none =>
            have hnode := hmapped.node node
            rw [if_pos hkey] at hnode
            rw [assignedKey_congr hmapped.groups hnode.1]
    · refine ⟨before, if_neg hmapping, ?_, fun _ => rfl, fun node => ?_, fun node => rfl⟩
      · intro key
        rw [if_neg hgroups]
      · rw [restoredMapping, if_neg hmapping, if_neg hgroups]

end NodeGroups

end VirtInfra.Config
