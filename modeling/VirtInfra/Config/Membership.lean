import VirtInfra.Config.GroupPages
import VirtInfra.Config.RoundTrip
import VirtInfra.Lib.Transition
import Mathlib.Algebra.BigOperators.Group.Finset.Sigma
import Mathlib.Algebra.GroupWithZero.Nat

/-!
# `Membership` — every node is in one group

Pushes insert nodes, administrators edit, hide, delete and assign groups on several pages at once, nodes are purged,
configurations restored and everything reset, in any order of their transactions. The foreign keys say that a membership
is of a node and of a group; that every node has one is an invariant, and so is that the system group is there and shown.

A page checks a row on one connection and writes on another one, and after a reset ids are given again. What keeps the
system group safe from an edit that was checked before is that it has the first id, after every reset too.
-/

namespace VirtInfra.Config

open Lib Python

variable [CaseFold]

/-! ## The invariant -/

/-- The first id that the sequence of `node_groups` gives. -/
def firstGroupId : Nat := 1

/-- **Every node has a membership, and the system group has the first id and is shown.** -/
structure Grouped (n : NodeGroups) : Prop where
  member : ∀ node ∈ n.inventory, (n.members.get? node).isSome
  system : ∃ g, n.groups.get? firstGroupId = some g ∧ g.isSystem = true ∧ g.isActive = true

namespace Grouped

variable {n n' : NodeGroups}

theorem systemGroupId? (h : Grouped n) : systemGroupId? n.groups = some firstGroupId := by
  obtain ⟨g, hget, hsystem, -⟩ := h.system
  exact systemGroupId?_eq_some.mpr ⟨g, hget, hsystem⟩

/-- The system group is never inserted again. -/
theorem ensureSystemGroup (h : Grouped n) (now : ℕ+) : n.ensureSystemGroup now = (n, firstGroupId) := by
  unfold NodeGroups.ensureSystemGroup
  split
  · next i hi => rw [Option.some.inj (hi.symm.trans h.systemGroupId?)]
  · next hnone => rw [h.systemGroupId?] at hnone; cases hnone

/-- Only the other groups are no system groups. -/
theorem isSystem_iff (h : Grouped n) {i : Nat} {g : Group} (hget : n.groups.get? i = some g) :
    g.isSystem = true ↔ i = firstGroupId := by
  obtain ⟨s, hs, hsystem, -⟩ := h.system
  constructor
  · intro hg
    exact system_unique hget hs hg hsystem
  · rintro rfl
    rw [← Option.some.inj (hs.symm.trans hget)]
    exact hsystem

/-- The next group gets another id. -/
theorem first_lt_next (h : Grouped n) : firstGroupId < n.groups.next := by
  obtain ⟨g, hget, -⟩ := h.system
  exact n.groups.fresh _ g hget

/-- Groups that keep the row of the system group keep the invariant. -/
theorem setGroups (h : Grouped n) {groups : Groups} (hsome : ∀ i, (n.groups.get? i).isSome → (groups.get? i).isSome)
    (hsystem : ∀ g, n.groups.get? firstGroupId = some g → groups.get? firstGroupId = some g) :
    Grouped (n.setGroups groups hsome) := by
  obtain ⟨g, hget, hg⟩ := h.system
  exact ⟨h.member, g, hsystem g hget, hg⟩

theorem putMember {node : String} {m : GroupMembership} (h : Grouped n) (hput : n.putMember node m = some n') :
    Grouped n' := by
  obtain ⟨hmembers, hinventory, hgroups, -⟩ := NodeGroups.putMember_eq_some hput
  refine ⟨fun other hother => ?_, by rw [hgroups]; exact h.system⟩
  rw [hmembers, KeyedTable.get?_put]
  split
  · rfl
  · exact h.member other (hinventory ▸ hother)

theorem assignAll {m : GroupMembership} (h : Grouped n) (hall : n.assignAll m = some n') : Grouped n' := by
  obtain ⟨hmembers, hinventory, hgroups, -⟩ := NodeGroups.assignAll_eq_some hall
  refine ⟨fun node hnode => ?_, by rw [hgroups]; exact h.system⟩
  rw [hmembers, KeyedTable.get?_update, Option.isSome_map]
  exact h.member node (hinventory ▸ hnode)

/-- A deletion that leaves the system group keeps the invariant: a group with members is not deleted. -/
theorem deleteGroups {p : Nat → Group → Bool} (h : Grouped n) (hdelete : n.deleteGroups p = some n')
    (hp : ∀ g, g.isSystem = true → p firstGroupId g = false) : Grouped n' := by
  obtain ⟨hgroups, hinventory, hmembers, -⟩ := NodeGroups.deleteGroups_eq_some hdelete
  obtain ⟨g, hget, hsystem, hactive⟩ := h.system
  refine ⟨fun node hnode => by rw [hmembers]; exact h.member node (hinventory ▸ hnode), g, ?_, hsystem, hactive⟩
  rw [hgroups, SerialTable.get?_deleteRows, hget, Option.filter_some, hp g hsystem]
  rfl

/-! ## The pages -/

theorem createGroup (h : Grouped n) (edit : GroupEdit) (now : ℕ+) : Grouped (n.createGroup edit now) := by
  refine h.setGroups _ fun g hget => ?_
  unfold SerialTable.insert
  split
  · rw [SerialTable.get?_add, if_neg h.first_lt_next.ne]
    exact hget
  · exact hget

/-- **A change of another group leaves the system group alone.** -/
theorem apply {change : GroupChange} (h : Grouped n) (hother : change.groupId ≠ firstGroupId) (now : ℕ+) :
    ∃ n', change.apply now n = some n' ∧ Grouped n' := by
  cases change with
  | edit groupId form =>
      simp only [GroupChange.apply, NodeGroups.editGroup]
      cases hget : n.groups.get? groupId with
      | none => exact ⟨n, rfl, h⟩
      | some old =>
          have hold : ¬ old.isSystem = true := fun hsystem => hother ((h.isSystem_iff hget).mp hsystem)
          dsimp only
          rw [if_neg hold]
          split
          · exact ⟨n, rfl, h⟩
          · next groups hreplace =>
              refine ⟨_, rfl, h.setGroups _ fun g hg => ?_⟩
              rw [(SerialTable.replace_eq_some hreplace).2, hg, Option.map_some]
              exact congrArg some (if_neg hother.symm)
  | act groupId action =>
      refine ⟨_, rfl, ?_⟩
      have hactive : ∀ active, Grouped (n.setActive groupId active now) := by
        intro active
        refine h.setGroups _ fun g hg => ?_
        rw [SerialTable.get?_modify, hg, Option.map_some]
        exact congrArg some (if_neg hother.symm)
      unfold NodeGroups.actOnGroup
      split
      · exact h
      · cases action with
        | hide => exact hactive false
        | restore => exact hactive true
        | delete =>
            dsimp only
            split
            · exact h
            · cases hdelete : n.deleteGroups fun i _ => i = groupId with
              | none => exact h
              | some n' => exact h.deleteGroups hdelete fun g _ => decide_eq_false hother.symm

/-- **A page checks that its group is not the system group.** -/
theorem checkedGroupChange {flags : String → Bool} {request : GroupRequest} {change : GroupChange} (h : Grouped n)
    (hchecked : checkedGroupChange flags n request = some change) : change.groupId ≠ firstGroupId := by
  have hrow : ∀ (groupId : Int) (row : Group), n.groupRow groupId = some row → row.isSystem ≠ true →
      groupId.toNat ≠ firstGroupId := by
    intro groupId row hrow hsystem heq
    unfold NodeGroups.groupRow at hrow
    split at hrow
    · cases hrow
    · exact hsystem ((h.isSystem_iff hrow).mpr heq)
  unfold Config.checkedGroupChange at hchecked
  cases request with
  | update groupId form =>
      dsimp only at hchecked
      split at hchecked
      · cases hchecked
      · next row hget =>
          split at hchecked
          · cases hchecked
          · next hsystem =>
              obtain ⟨edit, -, rfl⟩ := Option.map_eq_some_iff.mp hchecked
              exact hrow groupId row hget hsystem
  | action groupId action =>
      dsimp only at hchecked
      split at hchecked
      · cases hchecked
      · next row hget =>
          split at hchecked
          · cases hchecked
          · next hsystem =>
              obtain ⟨act, -, rfl⟩ := Option.map_eq_some_iff.mp hchecked
              exact hrow groupId row hget hsystem

theorem assignNodes {nodes : List String} {groupId : Nat} {actor : String} {now : ℕ+} {counts : AssignCounts}
    (h : Grouped n) (hassign : n.assignNodes nodes groupId actor now = some (n', counts)) : Grouped n' := by
  unfold NodeGroups.assignNodes at hassign
  split at hassign
  · cases hassign
  · split at hassign
    · cases hassign
    · rw [h.ensureSystemGroup] at hassign
      refine foldlM_invariant (P := fun s : NodeGroups × AssignCounts => Grouped s.1) (fun s node s' hs hstep => ?_) h hassign
      unfold NodeGroups.assignNode at hstep
      dsimp only at hstep
      split at hstep
      · obtain rfl := Option.some.inj hstep
        exact hs
      · split at hstep
        · obtain rfl := Option.some.inj hstep
          exact hs
        · obtain ⟨after, hput, rfl⟩ := Option.map_eq_some_iff.mp hstep
          exact hs.putMember hput

/-! ## The inventory -/

theorem ensureMemberships {nodes : List String} {actor : String} {now : ℕ+} (h : Grouped n)
    (hensure : n.ensureMemberships nodes actor now = some n') : Grouped n' := by
  unfold NodeGroups.ensureMemberships at hensure
  rw [h.ensureSystemGroup] at hensure
  refine foldlM_invariant (fun s node s' hs hstep => ?_) h hensure
  unfold NodeGroups.addMember at hstep
  split at hstep
  · exact hs.putMember hstep
  · obtain rfl := Option.some.inj hstep
    exact hs

/-- **The trigger gives a new node a group that exists.** -/
theorem targetGroupId (n : NodeGroups) (node : String) (now : ℕ+)
    (hsystem : Config.systemGroupId? n.groups = some firstGroupId) :
    (n.targetGroupId node now).1 = n ∧ (n.groups.get? (n.targetGroupId node now).2).isSome := by
  unfold NodeGroups.targetGroupId
  split
  · next groupId hpending =>
      obtain ⟨p, -, hp⟩ := Option.bind_eq_some_iff.mp hpending
      obtain ⟨row, hrow, rfl⟩ := Option.map_eq_some_iff.mp hp
      have hfind := SerialTable.find?_eq_some.mp (Option.filter_eq_some_iff.mp hrow).1
      exact ⟨rfl, by rw [hfind.1]; rfl⟩
  · obtain ⟨g, hget, -⟩ := systemGroupId?_eq_some.mp hsystem
    unfold NodeGroups.ensureSystemGroup
    split
    · next i hi =>
        obtain rfl := Option.some.inj (hi.symm.trans hsystem)
        exact ⟨rfl, by rw [hget]; rfl⟩
    · next hnone =>
        rw [hsystem] at hnone
        cases hnone

/-- **A new node gets its membership from the trigger.** -/
theorem insertNode (h : Grouped n) (node : String) (now : ℕ+) : ∃ n', n.insertNode node now = some n' ∧ Grouped n' := by
  unfold NodeGroups.insertNode
  split
  · exact ⟨n, rfl, h⟩
  · split
    · next hnamed =>
        obtain ⟨hsame, hgroup⟩ := targetGroupId (n.addNode node hnamed) node now h.systemGroupId?
        unfold NodeGroups.assignUngrouped
        rw [hsame]
        obtain ⟨after, hput⟩ := Option.isSome_iff_exists.mp
          ((NodeGroups.putMember_isSome (m := ⟨_, now, (n.addNode node hnamed).triggerActor node⟩)).mpr
            ⟨Finset.mem_insert_self node n.inventory, hgroup⟩)
        rw [hput]
        obtain ⟨hmembers, hinventory, hgroups, -⟩ := NodeGroups.putMember_eq_some hput
        obtain ⟨g, hget, hg⟩ := h.system
        refine ⟨_, rfl, fun other hother => ?_, g, (congrArg (·.get? firstGroupId) hgroups).trans hget, hg⟩
        show (after.members.get? other).isSome
        rw [hmembers, KeyedTable.get?_put]
        split
        · rfl
        · next hne =>
            have hother : other ∈ (n.addNode node hnamed).inventory := hinventory ▸ hother
            exact h.member other ((Finset.mem_insert.mp hother).resolve_left hne)
    · exact ⟨n, rfl, h⟩

theorem deleteNode (h : Grouped n) (node : String) : Grouped (n.deleteNode node) := by
  refine ⟨fun other hother => ?_, h.system⟩
  obtain ⟨hne, hmem⟩ := Finset.mem_erase.mp hother
  show ((n.members.deleteWhere _).get? other).isSome
  rw [KeyedTable.get?_deleteWhere, if_neg (by simpa using hne)]
  exact h.member other hmem

/-! ## Restores and resets -/

theorem restoreGroup (now : ℕ+) {state : NodeGroups × KeyedTable String Nat} (h : Grouped state.1) (item : BackupGroup) :
    Grouped (restoreGroup now state item).1 := by
  unfold Config.restoreGroup
  split
  · exact h
  · next row hrow =>
      refine h.setGroups (fun _ hi => SerialTable.isSome_get?_upsert _ _ _ _ hi) fun g hget =>
        SerialTable.get?_upsert_of_name_ne hget ?_ _ _
      have hkey : g.key = "ungrouped" := g.reserved.mp ((h.isSystem_iff hget).mpr rfl)
      rw [hkey]
      exact (key_ne_of_row? hrow).2.symm

theorem restoreGroups {actorUsername : String} {now : ℕ+} {items : List BackupGroup}
    {result : NodeGroups × KeyedTable String Nat} (h : Grouped n)
    (hrestore : restoreGroups actorUsername now items n = some result) : Grouped result.1 := by
  unfold Config.restoreGroups at hrestore
  rw [h.ensureSystemGroup] at hrestore
  obtain ⟨assigned, hassigned, hrestore⟩ := Option.bind_eq_some_iff.mp hrestore
  obtain ⟨deleted, hdeleted, hrestore⟩ := Option.bind_eq_some_iff.mp hrestore
  obtain rfl := Option.some.inj hrestore
  have hbefore : Grouped deleted := (h.assignAll hassigned).deleteGroups hdeleted fun g hg => by simp [hg]
  exact List.foldlRecOn (motive := fun state : NodeGroups × KeyedTable String Nat => Grouped state.1) _ _ hbefore
    fun _ hstate item _ => hstate.restoreGroup now item

theorem restoreMapping {actorUsername : String} {now : ℕ+} {ids : KeyedTable String Nat} {item : BackupMapping}
    (h : Grouped n) (hrestore : restoreMapping actorUsername now ids n item = some n') : Grouped n' := by
  unfold Config.restoreMapping at hrestore
  dsimp only at hrestore
  split at hrestore
  · exact Option.some.inj hrestore ▸ h
  · split at hrestore
    · exact Option.some.inj hrestore ▸ h
    · split at hrestore
      · exact h.putMember hrestore
      · obtain rfl := Option.some.inj hrestore
        exact ⟨h.member, h.system⟩

/-- The section `node_group_mapping`, if it is selected. -/
theorem restoreMappings {actorUsername : String} {now : ℕ+} {ids : KeyedTable String Nat} {sections : List BackupSection}
    {items : List BackupMapping} (h : Grouped n)
    (hrestore : (if .nodeGroupMapping ∈ sections then
      items.foldlM (Config.restoreMapping actorUsername now ids) n.truncatePending else some n) = some n') :
    Grouped n' := by
  split at hrestore
  · exact foldlM_invariant (fun _ _ _ hs hstep => restoreMapping hs hstep) (s := n.truncatePending)
      ⟨h.member, h.system⟩ hrestore
  · exact Option.some.inj hrestore ▸ h

/-- **A restore moves nodes between groups, and leaves none without one.** -/
theorem restoreNodeGroups {actorUsername : String} {now : ℕ+} {sections : List BackupSection} {payload : Configuration}
    (h : Grouped n) (hrestore : restoreNodeGroups actorUsername now sections payload n = some n') : Grouped n' := by
  unfold Config.restoreNodeGroups at hrestore
  dsimp only at hrestore
  split at hrestore
  · obtain ⟨⟨mid, ids⟩, hmid, hrestore⟩ := Option.bind_eq_some_iff.mp hrestore
    exact (h.restoreGroups hmid).restoreMappings hrestore
  · exact h.restoreMappings hrestore

theorem resetNodes (now : ℕ+) : Grouped (resetNodes now) :=
  ⟨fun node hnode => absurd hnode (Finset.notMem_empty node), systemGroup now, rfl, rfl, rfl⟩

end Grouped

/-! ## The system -/

/-- The database, and what each page has checked and not written yet. -/
structure GroupState (ι : Type*) where
  db : Database
  changes : ι → Option GroupChange

/-- One transaction of a push, of a page, of a purge or of the maintenance. -/
inductive GroupStep (ι : Type*)
  | insertNode (node : String) (now : ℕ+)
  | ensureMemberships (nodes : List String) (actor : String) (now : ℕ+)
  | ensureSystemGroup (now : ℕ+)
  | create (form : GroupForm) (now : ℕ+)
  | check (page : ι) (request : GroupRequest)
  | write (page : ι) (now : ℕ+)
  | assign (nodes : List String) (groupId : Nat) (actor : String) (now : ℕ+)
  | deleteNode (node : String)
  | restore (request : RestoreRequest) (payload : Configuration)
  | reset (request : ResetRequest)
  | accounts (users : Users) (apiKeys : ApiKeys) (settings : KeyedTable String Setting)

namespace GroupState

variable {ι : Type*}

/-- Other Node Groups; a transaction that raises leaves them. -/
def putNodes (s : GroupState ι) (nodes : Option NodeGroups) : GroupState ι :=
  { s with db := { s.db with nodes := nodes.getD s.db.nodes } }

variable [DecidableEq ι]

/-- What a page has checked, or nothing once it is written. -/
def setChange (s : GroupState ι) (page : ι) (change : Option GroupChange) : GroupState ι :=
  { s with changes := Function.update s.changes page change }

/-- **What a transaction does.** -/
def step (flags : String → Bool) (s : GroupState ι) : GroupStep ι → Option (GroupState ι)
  | .insertNode node now => some (s.putNodes (s.db.nodes.insertNode node now))
  | .ensureMemberships nodes actor now => some (s.putNodes (s.db.nodes.ensureMemberships nodes actor now))
  | .ensureSystemGroup now => some (s.putNodes (s.db.nodes.ensureSystemGroup now).1)
  | .create form now => some (s.putNodes ((form.checked flags).map fun edit => s.db.nodes.createGroup edit now))
  | .check page request => some (s.setChange page (checkedGroupChange flags s.db.nodes request))
  | .write page now =>
      -- A change that the table of groups cannot hold has no step.
      (s.changes page).bind fun change => (change.apply now s.db.nodes).map fun nodes =>
        (s.putNodes (some nodes)).setChange page none
  | .assign nodes groupId actor now => some (s.putNodes ((s.db.nodes.assignNodes nodes groupId actor now).map Prod.fst))
  | .deleteNode node => some (s.putNodes (some (s.db.nodes.deleteNode node)))
  | .restore request payload => some { s with db := (restoreConfigurationBackup request payload s.db).getD s.db }
  | .reset request => some { s with db := (resetAppData request s.db).getD s.db }
  | .accounts users apiKeys settings => some { s with db := { s.db with users, apiKeys, settings } }

/-- **What holds between transactions.** -/
structure Settled (s : GroupState ι) : Prop where
  grouped : Grouped s.db.nodes
  changes : ∀ page change, s.changes page = some change → change.groupId ≠ firstGroupId

end GroupState

/-- **The installation**: the schema puts the nodes it finds into the system group. -/
def Installed (n : NodeGroups) : Prop :=
  ∃ now, n.groups = (resetNodes now).groups ∧
    ∀ node ∈ n.inventory, n.members.get? node = some ⟨firstGroupId, now, "migration"⟩

/-- **Node Groups under all their writers.** -/
def groupSystem (ι : Type*) [DecidableEq ι] (flags : String → Bool) : System (GroupState ι) (GroupStep ι) where
  init s := Installed s.db.nodes ∧ ∀ page, s.changes page = none
  step := GroupState.step flags

namespace GroupState

variable {ι : Type*} [DecidableEq ι] {flags : String → Bool} {s s' : GroupState ι}

theorem Settled.init (h : (groupSystem ι flags).init s) : s.Settled := by
  obtain ⟨⟨now, hgroups, hmembers⟩, hchanges⟩ := h
  refine ⟨⟨fun node hnode => by rw [hmembers node hnode]; rfl, ?_⟩, fun page change hchange => ?_⟩
  · rw [hgroups]
    exact (Grouped.resetNodes now).system
  · rw [hchanges page] at hchange
    cases hchange

omit [DecidableEq ι] in
theorem Settled.putNodes (h : s.Settled) {nodes : Option NodeGroups} (hnodes : ∀ n, nodes = some n → Grouped n) :
    (s.putNodes nodes).Settled := by
  refine ⟨?_, h.changes⟩
  cases nodes with
  | none => exact h.grouped
  | some n => exact hnodes n rfl

theorem Settled.setChange (h : s.Settled) (page : ι) {change : Option GroupChange}
    (hchange : ∀ c, change = some c → c.groupId ≠ firstGroupId) : (s.setChange page change).Settled := by
  refine ⟨h.grouped, fun other c hc => ?_⟩
  unfold GroupState.setChange at hc
  dsimp only at hc
  by_cases hpage : other = page
  · subst hpage
    rw [Function.update_self] at hc
    exact hchange c hc
  · rw [Function.update_of_ne hpage] at hc
    exact h.changes other c hc

/-- **Every transaction keeps it.** -/
theorem Settled.step (h : s.Settled) {l : GroupStep ι} (hstep : s.step flags l = some s') : s'.Settled := by
  cases l with
  | insertNode node now =>
      obtain rfl := Option.some.inj hstep
      obtain ⟨n, hn, hgrouped⟩ := h.grouped.insertNode node now
      exact h.putNodes fun n' hn' => Option.some.inj (hn.symm.trans hn') ▸ hgrouped
  | ensureMemberships nodes actor now =>
      obtain rfl := Option.some.inj hstep
      exact h.putNodes fun n hn => h.grouped.ensureMemberships hn
  | ensureSystemGroup now =>
      obtain rfl := Option.some.inj hstep
      refine h.putNodes fun n hn => ?_
      rw [h.grouped.ensureSystemGroup] at hn
      exact Option.some.inj hn ▸ h.grouped
  | create form now =>
      obtain rfl := Option.some.inj hstep
      refine h.putNodes fun n hn => ?_
      obtain ⟨edit, -, rfl⟩ := Option.map_eq_some_iff.mp hn
      exact h.grouped.createGroup edit now
  | check page request =>
      obtain rfl := Option.some.inj hstep
      exact h.setChange page fun c hc => h.grouped.checkedGroupChange hc
  | write page now =>
      obtain ⟨change, hchange, hwrite⟩ := Option.bind_eq_some_iff.mp hstep
      obtain ⟨n, hn, rfl⟩ := Option.map_eq_some_iff.mp hwrite
      -- What was checked is not of the system group, whatever happened since.
      obtain ⟨n', hn', hgrouped⟩ := h.grouped.apply (h.changes page change hchange) now
      refine (h.putNodes fun n'' hn'' => ?_).setChange page fun c hc => by cases hc
      rw [← Option.some.inj hn'', ← Option.some.inj (hn'.symm.trans hn)]
      exact hgrouped
  | assign nodes groupId actor now =>
      obtain rfl := Option.some.inj hstep
      refine h.putNodes fun n hn => ?_
      obtain ⟨⟨n', counts⟩, hassign, rfl⟩ := Option.map_eq_some_iff.mp hn
      exact h.grouped.assignNodes hassign
  | deleteNode node =>
      obtain rfl := Option.some.inj hstep
      exact h.putNodes fun n hn => Option.some.inj hn ▸ h.grouped.deleteNode node
  | restore request payload =>
      obtain rfl := Option.some.inj hstep
      refine ⟨?_, h.changes⟩
      dsimp only
      cases hrestore : restoreConfigurationBackup request payload s.db with
      | none => exact h.grouped
      | some db =>
          obtain ⟨selected, apiKeys, nodes, -, -, -, hnodes, rfl⟩ := restoreConfigurationBackup_eq_some.mp hrestore
          exact h.grouped.restoreNodeGroups hnodes
  | reset request =>
      obtain rfl := Option.some.inj hstep
      refine ⟨?_, h.changes⟩
      dsimp only
      unfold resetAppData
      split
      · exact Grouped.resetNodes request.now
      · exact h.grouped
  | accounts users apiKeys settings =>
      obtain rfl := Option.some.inj hstep
      exact ⟨h.grouped, h.changes⟩

theorem Settled.of_reachable (h : System.Reachable (groupSystem ι flags) System.AnyStep s) : s.Settled :=
  h.invariant (fun _ hinit => .init hinit) fun _ _ _ _ hs _ hstep => hs.step hstep

end GroupState

/-! ## What it says -/

/-- **Every node has exactly one membership, of a group that exists, and there is exactly one system group, which is
shown.** -/
structure OneGroupEach (n : NodeGroups) : Prop where
  membership : ∀ node ∈ n.inventory, ∃! row, row ∈ n.members.rows ∧ row.1 = node
  group : ∀ row ∈ n.members.rows, row.1 ∈ n.inventory ∧ (n.groups.get? row.2.groupId).isSome
  system : ∃! row, row ∈ n.groups.rows.rows ∧ row.2.isSystem = true
  shown : ∀ row ∈ n.groups.rows.rows, row.2.isSystem = true → row.2.isActive = true

theorem Grouped.oneGroupEach {n : NodeGroups} (h : Grouped n) : OneGroupEach n := by
  obtain ⟨g, hget, hsystem, hactive⟩ := h.system
  have hfirst : ∀ row ∈ n.groups.rows.rows, row.2.isSystem = true → row = (firstGroupId, g) := by
    rintro ⟨i, g'⟩ hrow hg'
    have hget' : n.groups.get? i = some g' := KeyedTable.get?_of_mem_rows hrow
    obtain rfl := (h.isSystem_iff hget').mp hg'
    rw [Option.some.inj (hget.symm.trans hget')]
  refine ⟨fun node hnode => ?_, fun row hrow => ?_, ⟨(firstGroupId, g), ?_, fun row hrow => hfirst row hrow.1 hrow.2⟩, ?_⟩
  · obtain ⟨m, hm⟩ := Option.isSome_iff_exists.mp (h.member node hnode)
    refine ⟨(node, m), ⟨KeyedTable.mem_rows_of_get? hm, rfl⟩, ?_⟩
    rintro ⟨other, m'⟩ ⟨hrow, rfl⟩
    rw [Option.some.inj (hm.symm.trans (KeyedTable.get?_of_mem_rows hrow))]
  · have hm := KeyedTable.get?_of_mem_rows hrow
    exact ⟨n.memberNode _ _ hm, n.memberGroup _ _ hm⟩
  · exact ⟨KeyedTable.mem_rows_of_get? hget, hsystem⟩
  · intro row hrow hg
    rw [hfirst row hrow hg]
    exact hactive

/-- **Every node is in one group**, after any run of all the writers; no page is about to write to the system group, and
what a page is about to write the table of groups can hold. -/
theorem every_node_in_one_group {ι : Type*} [DecidableEq ι] {flags : String → Bool} {s : GroupState ι}
    (h : System.Reachable (groupSystem ι flags) System.AnyStep s) :
    OneGroupEach s.db.nodes ∧
      ∀ page change, s.changes page = some change →
        change.groupId ≠ firstGroupId ∧ ∀ now, (change.apply now s.db.nodes).isSome := by
  have hsettled := GroupState.Settled.of_reachable h
  refine ⟨hsettled.grouped.oneGroupEach, fun page change hchange => ⟨hsettled.changes page change hchange, fun now => ?_⟩⟩
  obtain ⟨n, hn, -⟩ := hsettled.grouped.apply (hsettled.changes page change hchange) now
  rw [hn]
  rfl

/-! ## The totals of the group page -/

namespace NodeGroups

/-- The nodes of a group. -/
def groupNodes (n : NodeGroups) (groupId : Nat) : Finset String :=
  n.inventory.filter fun node => n.groupOf node = some groupId

theorem groupOf_eq_some {n : NodeGroups} {node : String} {groupId : Nat} :
    n.groupOf node = some groupId ↔ ∃ m, (node, m) ∈ n.members.rows ∧ m.groupId = groupId := by
  unfold groupOf
  rw [Option.map_eq_some_iff]
  simp only [KeyedTable.get?_eq_some_iff]

/-- **`node_count`** of a group counts its nodes. -/
theorem memberCount_eq (n : NodeGroups) (groupId : Nat) : n.memberCount groupId = (n.groupNodes groupId).card := by
  have hnodup : ((n.members.rows.filter fun row => row.2.groupId = groupId).map Prod.fst).Nodup :=
    (List.filter_sublist.map Prod.fst).nodup n.members.nodupKeys
  have hnodes : n.groupNodes groupId = ((n.members.rows.filter fun row => row.2.groupId = groupId).map Prod.fst).toFinset := by
    ext node
    rw [groupNodes, Finset.mem_filter, groupOf_eq_some, List.mem_toFinset, List.mem_map]
    constructor
    · rintro ⟨-, m, hrow, hid⟩
      exact ⟨(node, m), List.mem_filter.mpr ⟨hrow, decide_eq_true hid⟩, rfl⟩
    · rintro ⟨⟨other, m⟩, hrow, rfl⟩
      obtain ⟨hrow, hid⟩ := List.mem_filter.mp hrow
      exact ⟨n.memberNode _ _ (KeyedTable.get?_of_mem_rows hrow), m, hrow, of_decide_eq_true hid⟩
  rw [hnodes, List.toFinset_card_of_nodup hnodup, List.length_map, memberCount]

end NodeGroups

/-- **What is summed over the groups is summed over the nodes.** -/
theorem Grouped.sum_groups {n : NodeGroups} (h : Grouped n) {M : Type*} [AddCommMonoid M] (f : String → M) :
    (n.groups.rows.rows.map fun row => ∑ node ∈ n.groupNodes row.1, f node).sum = ∑ node ∈ n.inventory, f node := by
  -- A node of the inventory is in the group of its membership, and in no other one.
  have hgroup : ∀ node ∈ n.inventory, n.groupOf node = some ((n.groupOf node).getD 0) ∧
      (n.groupOf node).getD 0 ∈ n.groups.rows.keys.toFinset := by
    intro node hnode
    obtain ⟨m, hm⟩ := Option.isSome_iff_exists.mp (h.member node hnode)
    have hof : n.groupOf node = some m.groupId := by
      rw [NodeGroups.groupOf, hm]
      rfl
    rw [hof]
    exact ⟨rfl, List.mem_toFinset.mpr (KeyedTable.get?_isSome_iff.mp (n.memberGroup node m hm))⟩
  calc (n.groups.rows.rows.map fun row => ∑ node ∈ n.groupNodes row.1, f node).sum
      = (n.groups.rows.keys.map fun id => ∑ node ∈ n.groupNodes id, f node).sum := by
        rw [KeyedTable.keys, List.map_map]
        rfl
    _ = ∑ id ∈ n.groups.rows.keys.toFinset, ∑ node ∈ n.groupNodes id, f node :=
        (List.sum_toFinset _ n.groups.rows.nodupKeys).symm
    _ = ∑ id ∈ n.groups.rows.keys.toFinset, ∑ node ∈ n.inventory with (n.groupOf node).getD 0 = id, f node := by
        refine Finset.sum_congr rfl fun id _ => Finset.sum_congr (Finset.filter_congr fun node hnode => ?_) fun _ _ => rfl
        rw [(hgroup node hnode).1, Option.some.injEq, Option.getD_some]
    _ = ∑ node ∈ n.inventory, f node := Finset.sum_fiberwise_of_maps_to (fun node hnode => (hgroup node hnode).2) f

/-- **The Node Groups partition the fleet**: after any run, totals of nodes by group add up to the total over the
inventory, and the node counts of the group page to its size. -/
theorem group_totals_partition_fleet {ι : Type*} [DecidableEq ι] {flags : String → Bool} {s : GroupState ι}
    (h : System.Reachable (groupSystem ι flags) System.AnyStep s) {M : Type*} [AddCommMonoid M] (f : String → M) :
    (s.db.nodes.groups.rows.rows.map fun row => ∑ node ∈ s.db.nodes.groupNodes row.1, f node).sum =
        ∑ node ∈ s.db.nodes.inventory, f node ∧
      (s.db.nodes.groups.rows.rows.map fun row => s.db.nodes.memberCount row.1).sum = s.db.nodes.inventory.card := by
  have hgrouped := (GroupState.Settled.of_reachable h).grouped
  refine ⟨hgrouped.sum_groups f, ?_⟩
  simp only [NodeGroups.memberCount_eq, Finset.card_eq_sum_ones]
  exact hgrouped.sum_groups fun _ => 1

end VirtInfra.Config

namespace VirtInfra.Config

open Lib Python

/-! ## A page that writes after a reset -/

section GroupSample

attribute [local instance] asciiFold

/-- An account, no node, and the groups of a new installation. -/
def newInstallation : GroupState Nat where
  db := { users := sampleDatabase.users, apiKeys := .empty, settings := .empty, nodes := resetNodes (Nat.succPNat 0) }
  changes _ := none

/-- A node comes, a group is made and checked for an edit, everything is reset, and then the edit is written. -/
def lateEdit : List (GroupStep Nat) :=
  [.insertNode "n1" (Nat.succPNat 1), .create ⟨"Hanoi", "", ""⟩ (Nat.succPNat 2),
    .assign ["n1"] 2 "ops" (Nat.succPNat 3), .check 7 (.update 2 ⟨"Hue", "", ""⟩),
    .reset ⟨1, "ops", Nat.succPNat 4, "s"⟩, .insertNode "n2" (Nat.succPNat 5), .write 7 (Nat.succPNat 6)]

theorem newInstallation_init : (groupSystem Nat fun _ => true).init newInstallation :=
  ⟨⟨Nat.succPNat 0, rfl, fun node hnode => absurd hnode (Finset.notMem_empty node)⟩, fun _ => rfl⟩

theorem lateEdit_runs : ((groupSystem Nat fun _ => true).exec System.AnyStep newInstallation lateEdit).isSome = true := by
  decide +kernel

theorem late_edit_in_one_group :
    ∃ s, (groupSystem Nat fun _ => true).exec System.AnyStep newInstallation lateEdit = some s ∧
      OneGroupEach s.db.nodes := by
  obtain ⟨s, hs⟩ := Option.isSome_iff_exists.mp lateEdit_runs
  exact ⟨s, hs, (every_node_in_one_group (System.Reachable.exec (.init newInstallation_init) hs)).1⟩

theorem late_edit_partition :
    ∃ s, (groupSystem Nat fun _ => true).exec System.AnyStep newInstallation lateEdit = some s ∧
      (s.db.nodes.groups.rows.rows.map fun row => s.db.nodes.memberCount row.1).sum = s.db.nodes.inventory.card := by
  obtain ⟨s, hs⟩ := Option.isSome_iff_exists.mp lateEdit_runs
  exact ⟨s, hs, (group_totals_partition_fleet (System.Reachable.exec (.init newInstallation_init) hs) fun _ => 1).2⟩

end GroupSample

end VirtInfra.Config
