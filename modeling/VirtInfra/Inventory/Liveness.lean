import VirtInfra.Inventory.Evidence
import Mathlib.Data.List.Dedup

/-!
# `Liveness` — a location names a node that has the VM

A presence row is live unless its VM has migrated or been purged there. Pushes keep every location on a live row, and
every VM with a live row located; so does a purge as long as what its repair finds newest is live (`PurgesLive`). The
repair only leaves out purged rows, so after a move a purge of the new node brings the location back to the row the VM
has migrated from (`purge_locates_migrated`).
-/

namespace VirtInfra.Inventory

open Lib Python

/-! ## The invariant -/

/-- The VM is live on the node. -/
def Tables.LiveOn (t : Tables) (vm node : String) : Prop :=
  ∃ r, t.presence.get? (vm, node) = some r ∧ r.status.live = true

/-- **Locations point at live rows, and live VMs are located.** -/
structure Live (t : Tables) : Prop where
  located : ∀ vm row, t.location.get? vm = some row → t.LiveOn vm row.node
  covered : ∀ vm node, t.LiveOn vm node → (t.location.get? vm).isSome = true
  named : ∀ vm row, t.location.get? vm = some row → strip vm = vm ∧ vm ≠ "" ∧ vm ≠ "-"

/-- What the repair would find newest for a VM located on the purged node is live: every candidate on a node where the VM
    is not live is older than some live row of the VM on another node, or as old and of a later source. -/
def NewestLive (d : Fleet) (removed vm : String) : Prop :=
  ∀ c ∈ candidates vm removed d, d.tables.LiveOn vm c.node ∨
    ∃ node r, node ≠ removed ∧ d.tables.presence.get? (vm, node) = some r ∧ r.status.live = true ∧
      (c.lastSeen < r.lastSeen ∨ (c.lastSeen = r.lastSeen ∧ 0 < c.sourcePriority))

/-- **Purges whose repair finds a live row.** -/
def PurgesLive (d : Fleet) : Label → Prop
  | .purgeNodeVms _ node _ => ∀ vm, d.locatedOn vm = some node → NewestLive d node vm
  | _ => True

/-! ## Pushes -/

section Push

variable {m : Migration} {now : Int} {p : InventoryPush} {d d' : Fleet} {t : Tables} {node vm : String} {seenTs : Int}
  {item : String × Loc}

/-- **The transition leaves the VM located on a live row**, if it is live on the push's node and where it is located. -/
theorem createOrUpdateLocation_live (hhere : t.LiveOn item.1 node)
    (hold : ∀ old, t.location.get? item.1 = some old → t.LiveOn item.1 old.node) :
    ∃ row, (createOrUpdateLocation m node seenTs t item).location.get? item.1 = some row ∧
      (createOrUpdateLocation m node seenTs t item).LiveOn item.1 row.node := by
  obtain ⟨vm, loc⟩ := item
  unfold createOrUpdateLocation
  dsimp only
  split
  · exact ⟨_, KeyedTable.get?_upsert_self .., by rw [‹t.location.get? vm = none›]; exact hhere⟩
  · next old hget =>
      split
      · next hnode =>
          refine ⟨_, by rw [KeyedTable.get?_modify_self, hget]; rfl, ?_⟩
          exact hold old hget
      · next hne =>
          obtain ⟨r, hr, hlive⟩ := hhere
          split
          · -- Confirmed: the old node's row is marked, the push's own is not.
            refine ⟨_, by rw [KeyedTable.get?_modify_self, hget]; rfl, r, ?_, hlive⟩
            show (t.presence.modify _ _).get? (vm, node) = some r
            rw [KeyedTable.get?_modify_of_ne _ _ fun hkey => hne (Prod.mk.inj hkey).2.symm]
            exact hr
          · -- Pending: both rows are, which is live.
            obtain ⟨r', hr', -⟩ := hold old hget
            refine ⟨_, by rw [KeyedTable.get?_modify_self, hget]; rfl, ?_⟩
            show ∃ r, ((t.presence.modify _ _).modify _ _).get? (vm, old.node) = some r ∧ r.status.live = true
            rw [KeyedTable.get?_modify_of_ne _ _ fun hkey => hne (Prod.mk.inj hkey).2, KeyedTable.get?_modify_self, hr']
            exact ⟨_, rfl, rfl⟩

theorem upsert_live (t : Tables) (vm : String) (loc : Loc) : (presenceUpsertSeen node seenTs t (vm, loc)).LiveOn vm node := by
  show ∃ r, (t.presence.upsert _ _ _).get? (vm, node) = some r ∧ r.status.live = true
  rw [KeyedTable.get?_upsert_self]
  cases t.presence.get? (vm, node) <;> exact ⟨_, rfl, rfl⟩

theorem upsert_live_of_live {vm' node' : String} (h : t.LiveOn vm' node') (item : String × Loc) :
    (presenceUpsertSeen node seenTs t item).LiveOn vm' node' := by
  by_cases hkey : (vm', node') = (item.1, node)
  · obtain ⟨rfl, rfl⟩ := Prod.mk.inj hkey
    exact upsert_live t item.1 item.2
  · obtain ⟨r, hr, hlive⟩ := h
    exact ⟨r, (KeyedTable.get?_upsert_of_ne _ _ _ hkey).trans hr, hlive⟩

theorem liveOn_of_presence {t t' : Tables} (h : t.presence.get? (vm, node) = t'.presence.get? (vm, node)) :
    t.LiveOn vm node ↔ t'.LiveOn vm node := by
  unfold Tables.LiveOn
  rw [h]

/-- A complete inventory marks expected rows, which were live and stay so. -/
theorem markMissing_liveOn {complete : Bool} {node' : String} :
    (if complete then markMissing node [] seenTs t else t).LiveOn vm node' ↔ t.LiveOn vm node' := by
  constructor
  · rintro ⟨r', hr', hlive⟩
    obtain ⟨r, hr, rfl⟩ := presence_markMissing hr'
    refine ⟨r, hr, ?_⟩
    split at hlive
    · next hmarked =>
        have hexpected := hmarked.2.2
        cases hstatus : r.status <;> simp_all [PresenceStatus.expected, PresenceStatus.live]
    · exact hlive
  · rintro ⟨r, hr, hlive⟩
    cases complete with
    | false => exact ⟨r, hr, hlive⟩
    | true =>
        show ∃ r, (t.presence.update _).get? (vm, node') = some r ∧ r.status.live = true
        rw [KeyedTable.get?_update, hr]
        refine ⟨_, rfl, ?_⟩
        dsimp only
        split
        · rfl
        · exact hlive

theorem named_eq_some {entry : String × Loc} (h : named entry = some item) :
    strip item.1 = item.1 ∧ item.1 ≠ "" ∧ item.1 ≠ "-" := by
  unfold named at h
  dsimp only at h
  split at h
  · cases h
  · next hblank =>
      obtain rfl := Option.some.inj h
      exact ⟨strip_strip _, not_or.mp hblank⟩

/-- The presence writer keeps the invariant. -/
theorem Live.process {tables : Tables} {n : Option Nat} (hd : Live t)
    (h : processNodeVmPresence m p.node p.seenVmLocations p.time p.inventoryComplete t = some (tables, n)) :
    Live tables := by
  have hseen : ∀ vm, p.reports vm = true →
      (∃ row, tables.location.get? vm = some row ∧ tables.LiveOn vm row.node) ∧ strip vm = vm ∧ vm ≠ "" ∧ vm ≠ "-" := by
    intro vm hreports
    obtain ⟨item, hitem, rfl⟩ := reports_iff.mp hreports
    have hview := view_process_seen h hitem
    obtain ⟨row, hrow, hlive⟩ := @createOrUpdateLocation_live m (presenceUpsertSeen p.node p.time t item) p.node p.time item
      (upsert_live t item.1 item.2) fun old hold => upsert_live_of_live (hd.located item.1 old hold) item
    refine ⟨⟨row, (congrArg VmView.location hview).trans hrow, ?_⟩, ?_⟩
    · exact (liveOn_of_presence (congrFun (congrArg VmView.presence hview) row.node)).mpr hlive
    · obtain ⟨entry, -, hentry⟩ := List.mem_filterMap.mp hitem
      exact named_eq_some hentry
  have hunseen : ∀ vm, ¬ p.reports vm = true → tables.location.get? vm = t.location.get? vm ∧
      ∀ node, tables.LiveOn vm node ↔ t.LiveOn vm node := by
    intro vm hreports
    have hview := view_process_unseen h fun item hitem heq => hreports (reports_iff.mpr ⟨item, hitem, heq.symm⟩)
    refine ⟨?_, fun node => ?_⟩
    · refine (congrArg VmView.location hview).trans ?_
      split <;> rfl
    · exact (liveOn_of_presence (congrFun (congrArg VmView.presence hview) node)).trans markMissing_liveOn
  constructor
  · intro vm row hrow
    by_cases hreports : p.reports vm = true
    · obtain ⟨⟨row', hrow', hlive⟩, -⟩ := hseen vm hreports
      rw [hrow'] at hrow
      exact Option.some.inj hrow ▸ hlive
    · obtain ⟨hlocation, hlive⟩ := hunseen vm hreports
      exact (hlive row.node).mpr (hd.located vm row (hlocation ▸ hrow))
  · intro vm node hlive
    by_cases hreports : p.reports vm = true
    · obtain ⟨⟨row, hrow, -⟩, -⟩ := hseen vm hreports
      rw [hrow]
      rfl
    · obtain ⟨hlocation, hiff⟩ := hunseen vm hreports
      rw [hlocation]
      exact hd.covered vm node ((hiff node).mp hlive)
  · intro vm row hrow
    by_cases hreports : p.reports vm = true
    · exact (hseen vm hreports).2
    · exact hd.named vm row ((hunseen vm hreports).1 ▸ hrow)

/-- The automatic purge takes rows that are not live. -/
theorem autoPurge_liveOn {node' : String} : (autoPurgeMigratedVms m now d).tables.LiveOn vm node' ↔
    d.tables.LiveOn vm node' := by
  constructor
  · rintro ⟨r', hr', hlive⟩
    obtain ⟨r, hr, rfl | ⟨-, hpurged, -⟩⟩ := autoPurge_rows hr'
    · exact ⟨_, hr, hlive⟩
    · rw [hpurged] at hlive
      cases hlive
  · rintro ⟨r, hr, hlive⟩
    refine ⟨r, ?_, hlive⟩
    show (d.tables.presence.update _).get? (vm, node') = some r
    rw [KeyedTable.get?_update, hr]
    refine congrArg some (if_neg fun hkey => ?_)
    rw [purgeable_migrated hkey hr] at hlive
    cases hlive

theorem Live.autoPurge (hd : Live d.tables) : Live (autoPurgeMigratedVms m now d).tables where
  located vm row hrow := autoPurge_liveOn.mpr (hd.located vm row hrow)
  covered vm node hlive := hd.covered vm node (autoPurge_liveOn.mp hlive)
  named := hd.named

end Push

/-! ## Purges of a node -/

section Purge

variable {rank : Candidate → Nat} {now : Int} {removed vm : String} {d : Fleet}

/-- What the repair of one VM reads. -/
def Fleet.repairView (vm : String) (d : Fleet) :
    Option String × KeyedTable (String × String) PresenceRow × KeyedTable (String × String) InventoryRow ×
      KeyedTable (String × String) LatestRow :=
  (d.locatedOn vm, d.tables.presence, d.tables.inventory, d.latest)

/-- The node a repaired VM is located on. -/
theorem repair_locatedOn (rank : Candidate → Nat) (now : Int) (removed : String) (d : Fleet) (vm : String) :
    (repairVmLocationAfterPurge rank now removed d vm).locatedOn vm =
      if d.locatedOn vm = some removed then (remaining rank vm removed d).map Candidate.node else d.locatedOn vm := by
  unfold repairVmLocationAfterPurge Fleet.locatedOn
  cases hrow : d.tables.location.get? vm with
  | none => simp [hrow]
  | some row =>
      dsimp only
      by_cases hnode : row.node = removed
      · rw [if_neg (not_not_intro hnode)]
        cases hremaining : remaining rank vm removed d with
        | none => simp [hnode, KeyedTable.get?_deleteWhere]
        | some c => simp [hnode, hrow]
      · rw [if_pos hnode]
        split <;> simp [hnode, hrow]

theorem repair_locatedOn_other (rank : Candidate → Nat) (now : Int) (removed : String) (d : Fleet) {vm vm' : String}
    (hne : vm' ≠ vm) : (repairVmLocationAfterPurge rank now removed d vm).locatedOn vm' = d.locatedOn vm' := by
  unfold repairVmLocationAfterPurge
  split
  · rfl
  · split
    · split
      · exact congrArg _ (KeyedTable.get?_modify_of_ne _ _ hne)
      · rfl
    · split
      · exact congrArg _ (KeyedTable.get?_modify_of_ne _ _ hne)
      · refine congrArg _ ((KeyedTable.get?_deleteWhere _ _ _).trans ?_)
        rw [if_neg (by simpa using hne)]

/-- The tables a repair only reads. -/
theorem repair_frame (rank : Candidate → Nat) (now : Int) (removed : String) (d : Fleet) (vm : String) :
    (repairVmLocationAfterPurge rank now removed d vm).tables.presence = d.tables.presence ∧
    (repairVmLocationAfterPurge rank now removed d vm).tables.inventory = d.tables.inventory ∧
    (repairVmLocationAfterPurge rank now removed d vm).latest = d.latest := by
  unfold repairVmLocationAfterPurge
  split
  · exact ⟨rfl, rfl, rfl⟩
  · split
    · split <;> exact ⟨rfl, rfl, rfl⟩
    · split <;> exact ⟨rfl, rfl, rfl⟩

theorem perKey_repair (rank : Candidate → Nat) (now : Int) (removed : String) :
    PerKey id Fleet.repairView (repairVmLocationAfterPurge rank now removed) where
  other vm vm' d hne := by
    obtain ⟨hpresence, hinventory, hlatest⟩ := repair_frame rank now removed d vm
    have hlocated := repair_locatedOn_other rank now removed d (show vm' ≠ vm from hne)
    unfold Fleet.repairView
    rw [hlocated, hpresence, hinventory, hlatest]
  own vm d d' heq := by
    obtain ⟨hpresence, hinventory, hlatest⟩ := repair_frame rank now removed d vm
    obtain ⟨hpresence', hinventory', hlatest'⟩ := repair_frame rank now removed d' vm
    unfold Fleet.repairView at heq ⊢
    simp only [id_eq, Prod.mk.injEq] at heq ⊢
    obtain ⟨hlocated, hp, hi, hl⟩ := heq
    have hremaining : remaining rank vm removed d = remaining rank vm removed d' := by
      unfold remaining candidates
      rw [hp, hi, hl]
    rw [repair_locatedOn, repair_locatedOn, hlocated, hremaining, hpresence, hinventory, hlatest, hpresence', hinventory',
      hlatest']
    exact ⟨rfl, hp, hi, hl⟩

/-- The state a purge repairs. -/
def purgedFleet (node : String) (d : Fleet) : Fleet :=
  { d with
    tables := { d.tables with
      presence := d.tables.presence.deleteWhere fun key => key.2 = node
      inventory := d.tables.inventory.deleteWhere fun key => key.1 = node
      events := d.tables.events.filter fun e => !(e.oldNode = node || e.newNode = node) }
    latest := d.latest.deleteWhere fun key => key.1 = node }

theorem candidates_purgedFleet (vm removed : String) (d : Fleet) :
    candidates vm removed (purgedFleet removed d) = candidates vm removed d := by
  unfold candidates purgedFleet KeyedTable.deleteWhere
  dsimp only
  rw [List.filter_filter, List.filter_filter, List.filter_filter]
  refine congrArg₂ _ (congrArg₂ _ ?_ ?_) ?_
  · refine congrArg _ (List.filter_congr fun row _ => ?_)
    by_cases h : row.1.2 = removed <;> simp [h]
  · refine congrArg _ (List.filter_congr fun row _ => ?_)
    by_cases h : row.1.1 = removed <;> simp [h]
  · refine congrArg _ (List.filter_congr fun row _ => ?_)
    by_cases h : row.1.1 = removed <;> simp [h]

theorem mem_collectNodeVmUuids (hd : Live d.tables) (h : d.locatedOn vm = some removed) :
    vm ∈ collectNodeVmUuids removed d := by
  obtain ⟨row, hrow, hnode⟩ := Option.map_eq_some_iff.mp h
  obtain ⟨hstrip, hblank, hdash⟩ := hd.named vm row hrow
  have hmem : vm ∈ (d.tables.location.rows.filter fun row =>
      row.2.node = removed || row.2.previousNode = some removed).map Prod.fst :=
    List.mem_map.mpr ⟨(vm, row), List.mem_filter.mpr ⟨KeyedTable.mem_rows_of_get? hrow, by simp [hnode]⟩, rfl⟩
  unfold collectNodeVmUuids
  refine List.mem_dedup.mpr (List.mem_map.mpr ⟨vm, List.mem_filter.mpr ⟨?_, by simp [hstrip, hblank, hdash]⟩, hstrip⟩)
  exact List.mem_append_left _ (List.mem_append_right _ hmem)

/-- Where a purge of a node leaves a VM. -/
theorem locatedOn_purge (hd : Live d.tables) (rank : Candidate → Nat) (now : Int) (removed vm : String) :
    (purgeAllVmsForNode rank now removed d).locatedOn vm =
      if d.locatedOn vm = some removed then (remaining rank vm removed d).map Candidate.node else d.locatedOn vm := by
  have hremaining : remaining rank vm removed (purgedFleet removed d) = remaining rank vm removed d := by
    unfold remaining
    rw [candidates_purgedFleet]
  have hperKey := perKey_repair rank now removed
  change ((collectNodeVmUuids removed d).foldl (repairVmLocationAfterPurge rank now removed)
    (purgedFleet removed d)).locatedOn vm = _
  by_cases hmem : vm ∈ collectNodeVmUuids removed d
  · have hnodup : ((collectNodeVmUuids removed d).map id).Nodup := by
      rw [List.map_id]
      exact List.nodup_dedup _
    have hown := congrArg Prod.fst (hperKey.foldl_own (s := purgedFleet removed d) hnodup hmem)
    refine hown.trans ?_
    show (repairVmLocationAfterPurge rank now removed (purgedFleet removed d) vm).locatedOn vm = _
    rw [repair_locatedOn, hremaining]
    rfl
  · have hother := congrArg Prod.fst (hperKey.foldl_other (s := purgedFleet removed d) (j := vm) fun other hother heq =>
      hmem (heq ▸ hother))
    refine hother.trans ?_
    rw [if_neg fun h => hmem (mem_collectNodeVmUuids hd h)]
    rfl

/-- A live row on another node is a candidate of the first source. -/
theorem mem_candidates_of_live {node : String} {r : PresenceRow} (hne : node ≠ removed)
    (hr : d.tables.presence.get? (vm, node) = some r) (hlive : r.status.live = true) :
    ⟨node, r.lastSeen, some r.lastIface, some r.lastBridge, 0⟩ ∈ candidates vm removed d := by
  have hpurged : r.status ≠ .purged := fun heq => by
    rw [heq] at hlive
    cases hlive
  unfold candidates
  refine List.mem_append_left _ (List.mem_append_left _ (List.mem_map.mpr ⟨((vm, node), r), ?_, rfl⟩))
  exact List.mem_filter.mpr ⟨KeyedTable.mem_rows_of_get? hr, by simp [hne, hpurged]⟩

theorem mem_candidates_ne {c : Candidate} (h : c ∈ candidates vm removed d) : c.node ≠ removed := by
  unfold candidates at h
  rcases List.mem_append.mp h with h | h
  · rcases List.mem_append.mp h with h | h
    · obtain ⟨row, hrow, rfl⟩ := List.mem_map.mp h
      have hcond := (List.mem_filter.mp hrow).2
      simp only [Bool.and_eq_true, decide_eq_true_eq] at hcond
      exact hcond.1.2
    · obtain ⟨row, hrow, rfl⟩ := List.mem_map.mp h
      have hcond := (List.mem_filter.mp hrow).2
      simp only [Bool.and_eq_true, decide_eq_true_eq] at hcond
      exact hcond.1.1.2
  · obtain ⟨row, hrow, rfl⟩ := List.mem_map.mp h
    have hcond := (List.mem_filter.mp hrow).2
    simp only [Bool.and_eq_true, decide_eq_true_eq] at hcond
    exact hcond.2

/-- **What the repair picks is live**, if the newest is. -/
theorem remaining_live {c : Candidate} (hnewest : NewestLive d removed vm) (h : remaining rank vm removed d = some c) :
    d.tables.LiveOn vm c.node := by
  have hmem : c ∈ candidates vm removed d := List.argmin_mem h
  rcases hnewest c hmem with hlive | ⟨node, r, hne, hr, hlive, horder⟩
  · exact hlive
  · have hle := List.le_of_mem_argmin (mem_candidates_of_live hne hr hlive) h
    unfold Candidate.order at hle
    rw [Prod.Lex.toLex_le_toLex] at hle
    dsimp only at hle
    rw [Prod.Lex.toLex_le_toLex] at hle
    omega

theorem purge_liveOn {node : String} : (purgeAllVmsForNode rank now removed d).tables.LiveOn vm node ↔
    node ≠ removed ∧ d.tables.LiveOn vm node := by
  unfold Tables.LiveOn
  rw [purgeAllVmsForNode, (repair_other ..).1]
  simp only [KeyedTable.get?_deleteWhere_eq_some, decide_eq_false_iff_not]
  constructor
  · rintro ⟨r, ⟨hne, hr⟩, hlive⟩
    exact ⟨hne, r, hr, hlive⟩
  · rintro ⟨hne, r, hr, hlive⟩
    exact ⟨r, ⟨hne, hr⟩, hlive⟩

theorem Live.purge (hd : Live d.tables) (hok : ∀ vm, d.locatedOn vm = some removed → NewestLive d removed vm) :
    Live (purgeAllVmsForNode rank now removed d).tables := by
  constructor
  · intro vm row hrow
    have hlocated : (purgeAllVmsForNode rank now removed d).locatedOn vm = some row.node :=
      Option.map_eq_some_iff.mpr ⟨row, hrow, rfl⟩
    rw [locatedOn_purge hd] at hlocated
    rw [purge_liveOn]
    split at hlocated
    · next hremoved =>
        obtain ⟨c, hc, hnode⟩ := Option.map_eq_some_iff.mp hlocated
        rw [← hnode]
        exact ⟨mem_candidates_ne (List.argmin_mem hc), remaining_live (hok vm hremoved) hc⟩
    · next hkept =>
        obtain ⟨old, hold, hnode⟩ := Option.map_eq_some_iff.mp hlocated
        rw [← hnode]
        refine ⟨fun heq => hkept ?_, hd.located vm old hold⟩
        rw [← heq]
        exact Option.map_eq_some_iff.mpr ⟨old, hold, rfl⟩
  · intro vm node hlive
    obtain ⟨hne, hlive⟩ := purge_liveOn.mp hlive
    have hsome : ((purgeAllVmsForNode rank now removed d).locatedOn vm).isSome = true := by
      rw [locatedOn_purge hd]
      split
      · -- The live row is a candidate, so there is one.
        obtain ⟨r, hr, hstatus⟩ := hlive
        have hmem := mem_candidates_of_live hne hr hstatus
        cases hremaining : remaining rank vm removed d with
        | none =>
            rw [List.argmin_eq_none.mp hremaining] at hmem
            cases hmem
        | some c => rfl
      · unfold Fleet.locatedOn
        rw [Option.isSome_map]
        exact hd.covered vm node hlive
    unfold Fleet.locatedOn at hsome
    rwa [Option.isSome_map] at hsome
  · intro vm row hrow
    have hlocated : (purgeAllVmsForNode rank now removed d).locatedOn vm = some row.node :=
      Option.map_eq_some_iff.mpr ⟨row, hrow, rfl⟩
    rw [locatedOn_purge hd] at hlocated
    have hold : ∃ node, d.locatedOn vm = some node := by
      split at hlocated
      · next hremoved => exact ⟨_, hremoved⟩
      · exact ⟨_, hlocated⟩
    obtain ⟨node, hnode⟩ := hold
    obtain ⟨old, hold, -⟩ := Option.map_eq_some_iff.mp hnode
    exact hd.named vm old hold

end Purge

/-! ## Runs -/

section Runs

variable {m : Migration} {d : Fleet}

theorem Live.purgeVm (hd : Live d.tables) (vm : String) : Live (purgeVmData vm d).tables := by
  have hlive : ∀ vm' node, (purgeVmData vm d).tables.LiveOn vm' node ↔ vm' ≠ vm ∧ d.tables.LiveOn vm' node := by
    intro vm' node
    unfold Tables.LiveOn purgeVmData
    simp only [KeyedTable.get?_deleteWhere_eq_some, decide_eq_false_iff_not]
    constructor
    · rintro ⟨r, ⟨hne, hr⟩, hstatus⟩
      exact ⟨hne, r, hr, hstatus⟩
    · rintro ⟨hne, r, hr, hstatus⟩
      exact ⟨r, ⟨hne, hr⟩, hstatus⟩
  constructor
  · intro vm' row hrow
    obtain ⟨hne, hrow⟩ := KeyedTable.get?_deleteWhere_eq_some.mp hrow
    exact (hlive vm' row.node).mpr ⟨by simpa using hne, hd.located vm' row hrow⟩
  · intro vm' node h
    obtain ⟨hne, h⟩ := (hlive vm' node).mp h
    show ((d.tables.location.deleteWhere _).get? vm').isSome = true
    rw [KeyedTable.get?_deleteWhere, if_neg (by simpa using hne)]
    exact hd.covered vm' node h
  · intro vm' row hrow
    exact hd.named vm' row (KeyedTable.get?_deleteWhere_eq_some.mp hrow).2

theorem live_of_reachable (h : (fleetSystem m).Reachable PurgesLive d) : Live d.tables := by
  apply h.invariant
  · rintro d rfl
    constructor
    · rintro vm row ⟨⟩
    · rintro vm node ⟨r, ⟨⟩, -⟩
    · rintro vm row ⟨⟩
  · intro d l d' _ hd hok hstep
    cases l with
    | push now p =>
        obtain ⟨tables, n, hprocess, htables, -⟩ := push_eq_some hstep
        rw [htables]
        have hwritten : Live ({ d with tables } : Fleet).tables := hd.process hprocess
        exact hwritten.autoPurge
    | autoPurge now =>
        obtain rfl := Option.some.inj hstep
        exact hd.autoPurge
    | purgeNodeVms now node rank =>
        obtain rfl := Option.some.inj hstep
        exact hd.purge hok
    | purgeVm vm =>
        obtain rfl := Option.some.inj hstep
        exact hd.purgeVm vm
    | editInventory f =>
        obtain rfl := Option.some.inj hstep
        exact ⟨hd.located, hd.covered, hd.named⟩

end Runs

end VirtInfra.Inventory
