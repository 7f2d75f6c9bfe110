import VirtInfra.Config.Sections

/-!
# `RoundTrip` — what the restore of a backup gives back

A backup of one state, restored over another: the selected sections are to be the saved ones, the others what they were,
and a second restore is to change nothing. That holds of users, API keys and settings. Groups come back with their
country in upper case, where every other writer has lower case. Groups and mapping do not stand alone: restoring the
groups without the mapping takes every node out of its group, restoring the mapping without the groups skips the groups
that are missing, and nodes that the backup does not map keep what they had.
-/

namespace VirtInfra.Config

open Lib Python

variable [CaseFold]

/-! ## The law -/

/-- The sections that a request restores. -/
def RestoreRequest.selected (r : RestoreRequest) : List BackupSection := (cleanSections r.sections).getD []

/-- A section holds the same in both states. -/
def Same (before after : Database) : BackupSection → Prop
  | .users => ∀ username, userView after.users username = userView before.users username
  | .apiKeys => ∀ keyId, apiKeyView after.apiKeys keyId = apiKeyView before.apiKeys keyId
  | .settings => ∀ key, settingView after.settings key = settingView before.settings key
  | .groups => ∀ key, groupView after.nodes.groups key = groupView before.nodes.groups key
  | .nodeGroupMapping => ∀ node, mappingView after.nodes node = mappingView before.nodes node

/-- A section holds what was saved, and the acting account is as it was. -/
def Restored (r : RestoreRequest) (saved before after : Database) : BackupSection → Prop
  | .users =>
      (∀ username, username ≠ r.actorUsername → userView after.users username = userView saved.users username) ∧
        after.users.get? r.actorUserId = before.users.get? r.actorUserId
  | item => Same saved after item

/-- Another restore by the same account of the same sections, at another time. -/
def RestoreRequest.Repeats (r r' : RestoreRequest) : Prop :=
  r'.actorUserId = r.actorUserId ∧ r'.actorUsername = r.actorUsername ∧ r'.sections = r.sections

/-- **The round trip**, when the restore went through. -/
structure RoundTrips (r : RestoreRequest) (saved before after : Database) : Prop where
  selected : ∀ item ∈ r.selected, Restored r saved before after item
  unselected : ∀ item, item ∉ r.selected → Same before after item
  again : ∀ r', r.Repeats r' → ∀ after', restoreConfigurationBackup r' (exportConfiguration saved) after = some after' →
    ∀ item, Same after after' item

/-- **The law of a backup of `saved` restored over `before`**; a restore that raises is rolled back. -/
def RestoreLaw (r : RestoreRequest) (saved before : Database) : Prop :=
  ∀ after, restoreConfigurationBackup r (exportConfiguration saved) before = some after → RoundTrips r saved before after

/-- Some section is selected, and the actor is an enabled super admin. -/
def Admitted (r : RestoreRequest) (before : Database) : Prop :=
  (cleanSections r.sections).isSome ∧ validActor before.users r.actorUserId r.actorUsername = true

/-- **When the groups and the mapping come back.** -/
structure Retained (sections : List BackupSection) (saved before : Database) : Prop where
  /-- Saved countries are in upper case, or there are none. -/
  countries : .groups ∈ sections →
    ∀ key b, groupView saved.nodes.groups key = some b → upper (clip 2 b.countryCode) = b.countryCode
  /-- Where the groups are restored alone, no node has one. -/
  ungrouped : .groups ∈ sections → .nodeGroupMapping ∉ sections → ∀ node, before.nodes.assignedKey node = none
  /-- Where the mapping is restored alone, its groups are there. -/
  present : .groups ∉ sections → .nodeGroupMapping ∈ sections →
    ∀ node key, saved.nodes.assignedKey node = some key → (before.nodes.groups.named key).isSome
  /-- A node without a saved group loses its group, if it was to have none. -/
  unmapped : .nodeGroupMapping ∈ sections → ∀ node, saved.nodes.assignedKey node = none →
    mappingView saved.nodes node = if .groups ∈ sections then none else before.nodes.assignedKey node

/-! ## What a restore does -/

/-- **What a restore that went through has done.** -/
structure Outcome (r : RestoreRequest) (saved before after : Database) : Prop where
  admitted : Admitted r before
  users : after.users =
    if .users ∈ r.selected then
      restoreUsers r.actorUserId r.actorUsername r.now (saved.users.rows.rows.map fun row => row.2.backup) before.users
    else before.users
  apiKeys : ∀ keyId, apiKeyView after.apiKeys keyId =
    apiKeyView (if .apiKeys ∈ r.selected then saved.apiKeys else before.apiKeys) keyId
  settings : ∀ key, settingView after.settings key =
    settingView (if .settings ∈ r.selected then saved.settings else before.settings) key
  nodes : RestoredNodes r.selected saved.nodes before.nodes after.nodes

omit [CaseFold] in
/-- The key of the sessions is no setting of a backup. -/
theorem settingView_put_secret (settings : KeyedTable String Setting) (value : Setting) (key : String) :
    settingView (settings.put "app_secret_key" value) key = settingView settings key := by
  unfold settingView
  split
  · next hsafe =>
      have hne : key ≠ "app_secret_key" := by
        rintro rfl
        revert hsafe
        decide
      rw [KeyedTable.get?_put, if_neg hne]
  · rfl

theorem admitted_of_restore {r : RestoreRequest} {payload : Configuration} {before after : Database}
    (h : restoreConfigurationBackup r payload before = some after) : Admitted r before := by
  obtain ⟨selected, -, -, hselected, hvalid, -⟩ := restoreConfigurationBackup_eq_some.mp h
  exact ⟨by rw [hselected]; rfl, hvalid⟩

/-- **An admitted restore goes through**: no statement of it fails on a backup. -/
theorem restore_of_admitted {r : RestoreRequest} {before : Database} (h : Admitted r before) (saved : Database) :
    ∃ after, restoreConfigurationBackup r (exportConfiguration saved) before = some after ∧
      Outcome r saved before after := by
  have hadmitted := h
  obtain ⟨hsome, hvalid⟩ := h
  obtain ⟨selected, hselected⟩ := Option.isSome_iff_exists.mp hsome
  have hsel : r.selected = selected := by rw [RestoreRequest.selected, hselected]; rfl
  obtain ⟨nodes, hnodes, hrestored⟩ := restoreNodeGroups_backup r.actorUsername r.now selected saved before.nodes
  obtain ⟨restoredKeys, hkeys, hkeyView⟩ := restoreApiKeys_backup r.now saved.apiKeys
  obtain ⟨apiKeys, hapiKeys, hview⟩ : ∃ apiKeys,
      (if .apiKeys ∈ selected then restoreApiKeys r.now (exportConfiguration saved).apiKeys else some before.apiKeys) =
        some apiKeys ∧
      ∀ keyId, apiKeyView apiKeys keyId =
        apiKeyView (if .apiKeys ∈ selected then saved.apiKeys else before.apiKeys) keyId := by
    split
    · exact ⟨restoredKeys, hkeys, hkeyView⟩
    · exact ⟨before.apiKeys, rfl, fun _ => rfl⟩
  have hdone := restoreConfigurationBackup_eq_some.mpr
    ⟨selected, apiKeys, nodes, hselected, hvalid, hapiKeys, hnodes, rfl⟩
  refine ⟨_, hdone, hadmitted, by rw [hsel]; rfl, by rw [hsel]; exact hview, fun key => ?_, by rw [hsel]; exact hrestored⟩
  have hsafe : settingView
      (if .settings ∈ selected then restoreSettings r.now (exportConfiguration saved).settings before.settings
        else before.settings) key =
      settingView (if .settings ∈ selected then saved.settings else before.settings) key := by
    split
    · exact settingView_restoreSettings r.now saved.settings before.settings key
    · rfl
  rw [hsel, ← hsafe]
  dsimp only
  split
  · rw [settingView_put_secret]
  · rfl

/-! ## The sections that always come back -/

section Outcome

variable {r r' : RestoreRequest} {saved before after after' : Database}

theorem exists_actor (h : Admitted r before) :
    ∃ actor, before.users.get? r.actorUserId = some actor ∧ actor.username = r.actorUsername := by
  obtain ⟨actor, hactor, hok⟩ := (Option.any_eq_true _ _).mp h.2
  simp only [Bool.and_eq_true, decide_eq_true_eq] at hok
  exact ⟨actor, hactor, hok.1⟩

/-- **The saved users are there, and the acting account is as it was.** -/
theorem Outcome.restored_users (h : Outcome r saved before after) (husers : .users ∈ r.selected) :
    Restored r saved before after .users := by
  obtain ⟨actor, hactor, hname⟩ := exists_actor h.admitted
  have hafter := h.users
  rw [if_pos husers, ← hname] at hafter
  refine ⟨fun username hne => ?_, ?_⟩
  · rw [hafter]
    exact userView_restoreUsers r.now hactor saved.users (by rwa [hname])
  · rw [hafter, get?_restoreUsers r.now hactor, hactor]

/-- **A second restore finds what the first one left.** -/
theorem Outcome.same_again (h : Outcome r saved before after) (hrepeats : r.Repeats r')
    (h' : Outcome r' saved after after') (item : BackupSection) : Same after after' item := by
  obtain ⟨hid, hname, hsections⟩ := hrepeats
  have hselected : r'.selected = r.selected := by rw [RestoreRequest.selected, hsections]; rfl
  cases item with
  | users =>
      intro username
      by_cases husers : .users ∈ r.selected
      · obtain ⟨hsaved, hactor⟩ := h.restored_users husers
        obtain ⟨hsaved', hactor'⟩ := h'.restored_users (hselected ▸ husers)
        rw [hname] at hsaved'
        by_cases hne : username = r.actorUsername
        · -- The acting account is still the row of its name.
          obtain ⟨actor, hget, hactorname⟩ := exists_actor h.admitted
          have hafter := hactor.trans hget
          have hafter' := hactor'.trans ((congrArg after.users.get? hid).trans hafter)
          rw [hne, ← hactorname, userView, userView,
            SerialTable.named_eq_some.mpr ⟨_, hafter, rfl⟩, SerialTable.named_eq_some.mpr ⟨_, hafter', rfl⟩]
        · rw [hsaved' username hne, hsaved username hne]
      · rw [h'.users, if_neg (hselected ▸ husers)]
  | apiKeys =>
      intro keyId
      rw [h'.apiKeys, hselected]
      split
      · next hkeys => rw [h.apiKeys, if_pos hkeys]
      · rfl
  | settings =>
      intro key
      rw [h'.settings, hselected]
      split
      · next hsettings => rw [h.settings, if_pos hsettings]
      · rfl
  | groups =>
      intro key
      rw [h'.nodes.groups, hselected]
      split
      · next hgroups => rw [h.nodes.groups, if_pos hgroups]
      · rfl
  | nodeGroupMapping =>
      intro node
      rw [h'.nodes.mapping, hselected, h.nodes.settled, h.nodes.mapping]

/-! ## The others -/

/-- A group is known by its name. -/
theorem named_of_assignedKey {n : NodeGroups} {node key : String} (h : n.assignedKey node = some key) :
    (n.groups.named key).isSome := by
  obtain ⟨g, hg, rfl⟩ := Option.map_eq_some_iff.mp h
  rw [NodeGroups.assignedGroup, Option.filter_eq_some_iff, Option.bind_eq_some_iff] at hg
  obtain ⟨⟨m, -, hget⟩, -⟩ := hg
  rw [SerialTable.named_eq_some.mpr ⟨m.groupId, hget, rfl⟩]
  rfl

/-- The groups come back unless their country changes. -/
theorem Outcome.restored_groups_iff (h : Outcome r saved before after) (hgroups : .groups ∈ r.selected) :
    Restored r saved before after .groups ↔
      ∀ key b, groupView saved.nodes.groups key = some b → upper (clip 2 b.countryCode) = b.countryCode := by
  show (∀ key, groupView after.nodes.groups key = groupView saved.nodes.groups key) ↔ _
  refine forall_congr' fun key => ?_
  rw [h.nodes.groups, if_pos hgroups]
  cases hview : groupView saved.nodes.groups key with
  | none => simp
  | some b =>
      rw [Option.map_some, Option.some.injEq]
      constructor
      · intro heq b' hb'
        obtain rfl := Option.some.inj hb'
        have hcode := congrArg BackupGroup.countryCode heq
        exact hcode
      · intro hcountry
        exact congrArg (fun code => { b with countryCode := code }) (hcountry b rfl)

/-- The mapping stays unless the groups go from under it. -/
theorem Outcome.same_mapping_iff (h : Outcome r saved before after) (hmapping : .nodeGroupMapping ∉ r.selected) :
    Same before after .nodeGroupMapping ↔ (.groups ∈ r.selected → ∀ node, before.nodes.assignedKey node = none) := by
  show (∀ node, mappingView after.nodes node = mappingView before.nodes node) ↔ _
  rw [forall_comm]
  refine forall_congr' fun node => ?_
  rw [h.nodes.mapping, restoredMapping, if_neg hmapping]
  by_cases hgroups : .groups ∈ r.selected
  · rw [if_pos hgroups, mappingView]
    split
    · exact ⟨fun heq _ => heq.symm, fun hnone => (hnone hgroups).symm⟩
    · next hmember =>
        refine iff_of_true rfl fun _ => assignedKey_of_no_member ?_
        simpa using hmember
  · rw [if_neg hgroups]
    exact iff_of_true rfl fun hin => absurd hin hgroups

/-- The mapping comes back where its groups are there, and where no other group stays with a node. -/
theorem Outcome.restored_mapping_iff (h : Outcome r saved before after) (hmapping : .nodeGroupMapping ∈ r.selected) :
    Restored r saved before after .nodeGroupMapping ↔
      (.groups ∉ r.selected → ∀ node key, saved.nodes.assignedKey node = some key →
        (before.nodes.groups.named key).isSome) ∧
      ∀ node, saved.nodes.assignedKey node = none → mappingView saved.nodes node =
        if .groups ∈ r.selected then none else before.nodes.assignedKey node := by
  show (∀ node, mappingView after.nodes node = mappingView saved.nodes node) ↔ _
  rw [forall_comm, ← forall_and]
  refine forall_congr' fun node => ?_
  rw [h.nodes.mapping, restoredMapping, if_pos hmapping, NodeGroups.target]
  cases hkey : saved.nodes.assignedKey node with
  | none =>
      simp only [Option.filter_none, Option.none_or, reduceCtorEq, IsEmpty.forall_iff, implies_true, true_and,
        forall_const]
      split <;> exact eq_comm
  | some key =>
      rw [mappingView_of_assignedKey hkey]
      simp only [Option.some.injEq, forall_eq', reduceCtorEq, IsEmpty.forall_iff, and_true]
      split
      · next hgroups => exact iff_of_true rfl fun hout => absurd hgroups hout
      · next hgroups =>
          rw [Option.filter_some]
          refine ⟨fun heq _ => ?_, fun hnamed => by rw [if_pos (hnamed hgroups)]; rfl⟩
          by_contra hmissing
          rw [if_neg hmissing, Option.none_or] at heq
          exact hmissing (named_of_assignedKey heq)

/-- **The round trip holds exactly of what is retained.** -/
theorem Outcome.roundTrips_iff (h : Outcome r saved before after) :
    RoundTrips r saved before after ↔ Retained r.selected saved before := by
  constructor
  · intro htrip
    refine ⟨fun hgroups => ?_, fun hgroups hmapping => ?_, fun hgroups hmapping => ?_, fun hmapping => ?_⟩
    · exact (h.restored_groups_iff hgroups).mp (htrip.selected _ hgroups)
    · exact (h.same_mapping_iff hmapping).mp (htrip.unselected _ hmapping) hgroups
    · exact ((h.restored_mapping_iff hmapping).mp (htrip.selected _ hmapping)).1 hgroups
    · exact ((h.restored_mapping_iff hmapping).mp (htrip.selected _ hmapping)).2
  · intro hretained
    refine ⟨fun item hitem => ?_, fun item hitem => ?_, fun r' hrepeats after' hafter' => ?_⟩
    · cases item with
      | users => exact h.restored_users hitem
      | apiKeys =>
          intro keyId
          rw [h.apiKeys, if_pos hitem]
      | settings =>
          intro key
          rw [h.settings, if_pos hitem]
      | groups => exact (h.restored_groups_iff hitem).mpr (hretained.countries hitem)
      | nodeGroupMapping =>
          exact (h.restored_mapping_iff hitem).mpr
            ⟨fun hgroups => hretained.present hgroups hitem, hretained.unmapped hitem⟩
    · cases item with
      | users =>
          intro username
          rw [h.users, if_neg hitem]
      | apiKeys =>
          intro keyId
          rw [h.apiKeys, if_neg hitem]
      | settings =>
          intro key
          rw [h.settings, if_neg hitem]
      | groups =>
          intro key
          rw [h.nodes.kept hitem]
      | nodeGroupMapping => exact (h.same_mapping_iff hitem).mpr fun hgroups => hretained.ungrouped hgroups hitem
    · obtain ⟨after'', hafter'', houtcome⟩ := restore_of_admitted (admitted_of_restore hafter') saved
      obtain rfl := Option.some.inj (hafter'.symm.trans hafter'')
      exact h.same_again hrepeats houtcome

end Outcome

/-- **The law of a backup holds exactly when groups and mapping are retained.** -/
theorem restore_round_trip_iff (r : RestoreRequest) (saved before : Database) :
    RestoreLaw r saved before ↔ (Admitted r before → Retained r.selected saved before) := by
  constructor
  · intro hlaw hadmitted
    obtain ⟨after, hafter, houtcome⟩ := restore_of_admitted hadmitted saved
    exact houtcome.roundTrips_iff.mp (hlaw after hafter)
  · intro hretained after hafter
    have hadmitted := admitted_of_restore hafter
    obtain ⟨after', hafter', houtcome⟩ := restore_of_admitted hadmitted saved
    obtain rfl := Option.some.inj (hafter.symm.trans hafter')
    exact houtcome.roundTrips_iff.mpr (hretained hadmitted)

end VirtInfra.Config

namespace VirtInfra.Config

open Lib Python

/-! ## A group with a country -/

/-- Folding of ASCII letters. -/
@[reducible] def asciiFold : CaseFold := ⟨lower, by decide⟩

section Sample

attribute [local instance] asciiFold

def sampleAdmin : User where
  username := "ops"
  passwordHash := "scrypt:32768:8:1$salt$hash"
  role := .superAdmin
  isActive := true
  createdAt := 1
  updatedAt := 1
  named := by decide
  hashed := by decide

def sampleGroup : Group where
  name := "Hanoi"
  description := ""
  countryCode := "vn"
  isActive := true
  isSystem := false
  createdAt := 1
  updatedAt := 1
  named := by decide
  reserved := by decide

def sampleGroups : Groups := .add (.add .empty (systemGroup 1) rfl) sampleGroup (by decide)

theorem named_of_mem_empty (node : String) (h : node ∈ (∅ : Finset String)) : strip node = node ∧ node ≠ "" :=
  absurd h (Finset.notMem_empty node)

theorem mem_of_get?_empty (node : String) (membership : GroupMembership)
    (h : (KeyedTable.empty : KeyedTable String GroupMembership).get? node = some membership) :
    node ∈ (∅ : Finset String) := by
  simp at h

/-- One account, one group as the form creates it, and no node. -/
def sampleDatabase : Database where
  users := .add .empty sampleAdmin rfl
  apiKeys := .empty
  settings := .empty
  nodes :=
    { inventory := ∅
      groups := sampleGroups
      members := .empty
      pending := .empty
      named := named_of_mem_empty
      memberNode := mem_of_get?_empty
      memberGroup := by simp }

def sampleRestore : RestoreRequest where
  actorUserId := 1
  actorUsername := "ops"
  sections := ["groups"]
  now := 2
  secret := "s"

/-- **A restored group has its country in upper case.** -/
theorem restore_changes_country : ¬ RestoreLaw sampleRestore sampleDatabase sampleDatabase := by
  intro hlaw
  have hadmitted : Admitted sampleRestore sampleDatabase := ⟨by decide, by decide⟩
  obtain ⟨after, hafter, houtcome⟩ := restore_of_admitted hadmitted sampleDatabase
  have hretained := houtcome.roundTrips_iff.mp (hlaw after hafter)
  have hcountry := hretained.countries (by decide) "hanoi" sampleGroup.backup rfl
  revert hcountry
  decide

end Sample

end VirtInfra.Config
