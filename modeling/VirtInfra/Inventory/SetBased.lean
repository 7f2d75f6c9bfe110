import VirtInfra.Inventory.View

/-!
# `SetBased` — the set writer against the writer per VM

Both writers do to each VM what its own steps do (`view_process_seen`, `view_perRow_seen`), so they leave the same rows.
They part in two places: the set writer returns what it staged, and a `missing_since` of 0 counts as none in the loop of
the per-VM writer (`perRow_differs`).
-/

namespace VirtInfra.Inventory

open Lib Python

/-! ## The writer per VM -/

variable {m : Migration} {node vm : String} {seenTs : Int} {t t' : Tables} {item : String × Loc}

/-- One turn of the loop of `_mark_missing_on_node`. -/
def markRow (node : String) (seenSet : List String) (seenTs : Int) (t : Tables)
    (row : (String × String) × PresenceRow) : Tables :=
  if row.1.1 ∈ seenSet then t
  else
    { t with
      presence := t.presence.modify (row.1.1, node) fun r =>
        { r with
          status := .missing, missingSince := some (sinceOr row.2.missingSince seenTs)
          missingCount := row.2.missingCount + 1, lastPush := seenTs
          alertFlags := .missing (row.2.missingCount + 1) }
      inventory := t.inventory.modify (node, row.1.1) (InventoryRow.mark .missing) }

theorem perKey_markRow (node : String) (seenSet : List String) (seenTs : Int) :
    PerKey (fun row : (String × String) × PresenceRow => row.1.1) Tables.view (markRow node seenSet seenTs) where
  other row vm t hne := by
    unfold markRow
    split
    · rfl
    · ext1
      · funext n
        exact KeyedTable.get?_modify_of_ne _ _ fun h => hne (Prod.mk.inj h).1
      · funext n
        exact KeyedTable.get?_modify_of_ne _ _ fun h => hne (Prod.mk.inj h).2
      · rfl
      · rfl
  own row t t' heq := by
    obtain ⟨hpresence, hinventory, hlocation, hevents⟩ := VmView.ext_iff.mp heq
    unfold markRow
    split
    · exact heq
    · ext1
      · funext n
        show (t.presence.modify _ _).get? _ = (t'.presence.modify _ _).get? _
        rw [KeyedTable.get?_modify, KeyedTable.get?_modify]
        exact congrArg _ (congrFun hpresence n)
      · funext n
        show (t.inventory.modify _ _).get? _ = (t'.inventory.modify _ _).get? _
        rw [KeyedTable.get?_modify, KeyedTable.get?_modify]
        exact congrArg _ (congrFun hinventory n)
      · exact hlocation
      · exact hevents

/-- The rows the loop selects are of one VM each. -/
theorem nodup_selected (node : String) (t : Tables) : ((t.presence.rows.filter fun row =>
    row.1.2 = node && row.2.status.expected).map fun row => row.1.1).Nodup := by
  have hkeys : ((t.presence.rows.filter fun row => row.1.2 = node && row.2.status.expected).map Prod.fst).Nodup :=
    (List.filter_sublist.map Prod.fst).nodup t.presence.nodupKeys
  have hfst := hkeys.map_on (f := Prod.fst) fun key hkey key' hkey' heq => by
    obtain ⟨row, hrow, rfl⟩ := List.mem_map.mp hkey
    obtain ⟨row', hrow', rfl⟩ := List.mem_map.mp hkey'
    have hnode : row.1.2 = node := by simpa using And.left (by simpa using (List.mem_filter.mp hrow).2)
    have hnode' : row'.1.2 = node := by simpa using And.left (by simpa using (List.mem_filter.mp hrow').2)
    exact Prod.ext heq (hnode.trans hnode'.symm)
  rwa [List.map_map] at hfst

theorem sinceOr_eq_getD {missingSince : Option Int} (h : missingSince ≠ some 0) (seenTs : Int) :
    sinceOr missingSince seenTs = missingSince.getD seenTs := by
  cases missingSince with
  | none => rfl
  | some since =>
      have hne : since ≠ 0 := fun hzero => h (congrArg some hzero)
      simp [sinceOr, hne]

theorem markRow_eq_markMissing {seenSet : List String} {r : PresenceRow} (hr : t.presence.get? (vm, node) = some r)
    (hstatus : r.status.expected = true) (hseen : vm ∉ seenSet) (hsince : r.missingSince ≠ some 0) :
    (markRow node seenSet seenTs t ((vm, node), r)).view vm = (markMissing node seenSet seenTs t).view vm := by
  rw [markRow, if_neg hseen]
  ext1
  · funext n
    show (t.presence.modify _ _).get? _ = (t.presence.update _).get? _
    rw [KeyedTable.get?_modify, KeyedTable.get?_update]
    by_cases hn : n = node
    · subst hn
      rw [hr]
      simp [PresenceRow.markMissing, sinceOr_eq_getD hsince, hstatus, hseen]
    · simp [hn]
  · funext n
    show (t.inventory.modify _ _).get? _ = (t.inventory.update _).get? _
    rw [KeyedTable.get?_modify, KeyedTable.get?_update]
    by_cases hn : n = node
    · subst hn
      simp [hr, hstatus, hseen]
    · simp [hn]
  · rfl
  · rfl

/-- A VM that was not expected on the node is not marked. -/
theorem markMissing_unexpected {seenSet : List String}
    (h : ¬ (t.presence.get? (vm, node)).any (fun r => r.status.expected) = true) :
    (markMissing node seenSet seenTs t).view vm = t.view vm := by
  ext1
  · funext n
    show (t.presence.update _).get? (vm, n) = t.presence.get? (vm, n)
    rw [KeyedTable.get?_update]
    by_cases hn : n = node
    · subst hn
      cases hr : t.presence.get? (vm, n) with
      | none => rfl
      | some r =>
          have hstatus : r.status.expected = false := by simpa [hr] using h
          simp [hstatus]
    · simp [hn]
  · funext n
    show (t.inventory.update _).get? (n, vm) = t.inventory.get? (n, vm)
    rw [KeyedTable.get?_update]
    by_cases hn : n = node
    · subst hn
      cases hr : t.presence.get? (vm, n) with
      | none => simp
      | some r =>
          have hstatus : r.status.expected = false := by simpa [hr] using h
          simp [hstatus]
    · simp [hn]
  · rfl
  · rfl

/-- **The loop marks what the statement marks**, as long as no row it marks has been missing since 0. -/
theorem view_markMissingOnNode {seenSet : List String} (hsince : vm ∉ seenSet → ∀ r,
    t.presence.get? (vm, node) = some r → r.status.expected = true → r.missingSince ≠ some 0) :
    (markMissingOnNode node seenSet seenTs t).view vm = (markMissing node seenSet seenTs t).view vm := by
  have hperKey := perKey_markRow node seenSet seenTs
  change ((t.presence.rows.filter _).foldl (markRow node seenSet seenTs) t).view vm = _
  by_cases hexpected : (t.presence.get? (vm, node)).any fun r => r.status.expected
  · obtain ⟨r, hr, hstatus⟩ := (Option.any_eq_true ..).mp hexpected
    have hmem : ((vm, node), r) ∈ t.presence.rows.filter fun row => row.1.2 = node && row.2.status.expected :=
      List.mem_filter.mpr ⟨KeyedTable.mem_rows_of_get? hr, by simpa using hstatus⟩
    rw [hperKey.foldl_own (nodup_selected node t) hmem]
    by_cases hseen : vm ∈ seenSet
    · rw [markMissing_staged hseen, markRow, if_pos hseen]
    · exact markRow_eq_markMissing hr hstatus hseen (hsince hseen r hr hstatus)
  · rw [hperKey.foldl_other fun row hrow hvm => ?_]
    · exact (markMissing_unexpected hexpected).symm
    · obtain ⟨hmem, hcond⟩ := List.mem_filter.mp hrow
      obtain ⟨hnode, hstatus⟩ : row.1.2 = node ∧ row.2.status.expected = true := by simpa using hcond
      have hget : t.presence.get? (vm, node) = some row.2 := by
        apply KeyedTable.get?_of_mem_rows
        rw [hvm, ← hnode]
        exact hmem
      exact hexpected (by rw [hget]; exact hstatus)

/-- The state the last loop of the per-VM writer starts from. -/
def looped (node : String) (rows : List (String × Loc)) (seenTs : Int) (inventoryComplete : Bool) (t : Tables) : Tables :=
  let t := rows.foldl (presenceUpsertSeen node seenTs) t
  if inventoryComplete then markMissingOnNode node (rows.map Prod.fst) seenTs t else t

/-- No VM that is expected on the node, and is not among the seen ones, has been missing since 0. -/
def NotSinceZero (node : String) (seenSet : List String) (t : Tables) : Prop :=
  ∀ vm r, vm ∉ seenSet → t.presence.get? (vm, node) = some r → r.status.expected = true → r.missingSince ≠ some 0

/-- The upserts touch no VM that is not seen. -/
theorem NotSinceZero.foldl {rows : List (String × Loc)} (h : NotSinceZero node (rows.map Prod.fst) t) :
    NotSinceZero node (rows.map Prod.fst) (rows.foldl (presenceUpsertSeen node seenTs) t) := by
  intro vm r hvm hr hstatus
  have hview : (rows.foldl (presenceUpsertSeen node seenTs) t).view vm = t.view vm := by
    refine (perKey_presenceUpsertSeen node seenTs).foldl_other fun item hitem heq => hvm ?_
    rw [heq]
    exact List.mem_map_of_mem hitem
  exact h vm r hvm ((congrFun (congrArg VmView.presence hview) node).symm.trans hr) hstatus

/-- Both writers bring a VM to the same point before its location is looked at. -/
theorem view_looped {rows : List (String × Loc)} {inventoryComplete : Bool}
    (h : inventoryComplete = true → NotSinceZero node (rows.map Prod.fst) t) (vm : String) :
    (looped node rows seenTs inventoryComplete t).view vm = (staged node rows seenTs inventoryComplete t).view vm := by
  unfold looped staged
  dsimp only
  split
  · next hcomplete => exact view_markMissingOnNode fun hvm r hr => (h hcomplete).foldl vm r hvm hr
  · rfl

/-! ## The two writers -/

/-- **The set writer leaves the rows of the writer per VM**, whatever the order in which that one walks its set. -/
theorem process_eq_perRow {seen : List (String × Loc)} (hseen : WellSeen seen) {order : List String}
    (horder : order.Perm (seen.map Prod.fst)) (inventoryComplete : Bool)
    (h : inventoryComplete = true → NotSinceZero node (seen.map Prod.fst) t) :
    ∃ t', processNodeVmPresence m node seen seenTs inventoryComplete t = some (t', some seen.length) ∧
      ∀ vm, t'.view vm = (processNodeVmPresencePerRow m node seen order seenTs inventoryComplete t).1.view vm := by
  have hnamed := hseen.filterMap_named
  have hnodup : ((seen.filterMap named).map Prod.fst).Nodup := by
    rw [hnamed]
    exact hseen.nodup
  obtain ⟨t', hprocess⟩ : ∃ t', processNodeVmPresence m node seen seenTs inventoryComplete t = some (t', some seen.length) := by
    unfold processNodeVmPresence
    dsimp only
    rw [if_pos hnodup, hnamed]
    exact ⟨_, rfl⟩
  refine ⟨t', hprocess, fun vm => ?_⟩
  -- What the last loop of the writer per VM walks.
  let turn := fun vm =>
    let loc := ((seen.find? fun entry => entry.1 = vm).map Prod.snd).getD {}
    (vm, (⟨orDash loc.iface, orDash loc.bridge⟩ : Loc))
  have hperRow : (processNodeVmPresencePerRow m node seen order seenTs inventoryComplete t).1 =
      (order.map turn).foldl (createOrUpdateLocation m node seenTs) (looped node seen seenTs inventoryComplete t) := by
    unfold processNodeVmPresencePerRow
    dsimp only
    rw [hnamed]
    rfl
  have hkeys : (order.map turn).map Prod.fst = order := by
    rw [List.map_map]
    exact List.map_id order
  have hperKey := perKey_createOrUpdateLocation m node seenTs
  rw [hperRow]
  by_cases hvm : vm ∈ seen.map Prod.fst
  · obtain ⟨item, hitem, rfl⟩ := List.mem_map.mp hvm
    have hturn : turn item.1 = item := by
      show (item.1, _) = item
      rw [find?_staged hseen.nodup hitem]
      exact Prod.ext rfl (hseen.loc_eq hitem)
    have hmem : item ∈ order.map turn := List.mem_map.mpr ⟨item.1, horder.mem_iff.mpr hvm, hturn⟩
    rw [view_process_seen hprocess (hnamed.symm ▸ hitem), hperKey.foldl_own (hkeys.symm ▸ horder.nodup_iff.mpr hseen.nodup)
      hmem]
    apply hperKey.own
    rw [view_looped h, view_staged_seen hseen.nodup hitem]
  · have hunseen : ∀ item ∈ seen, vm ≠ item.1 := fun item hitem heq => hvm (heq ▸ List.mem_map_of_mem hitem)
    rw [view_process_unseen hprocess (hnamed.symm ▸ hunseen), hperKey.foldl_other fun item hitem heq => ?_]
    · rw [view_looped h, view_staged_unseen hunseen]
    · apply hvm
      rw [heq, ← horder.mem_iff, ← hkeys]
      exact List.mem_map_of_mem hitem

theorem perm_events (h : ∀ vm, t.view vm = t'.view vm) : t.events.Perm t'.events := by
  rw [List.perm_iff_count]
  intro e
  have hfilter : (t.events.filter fun old => old.vmUuid = e.vmUuid) = t'.events.filter fun old => old.vmUuid = e.vmUuid :=
    congrArg VmView.events (h e.vmUuid)
  have hcount := congrArg (List.count e) hfilter
  rwa [List.count_filter (by simp), List.count_filter (by simp)] at hcount

/-- **The set writer equals the writer per VM**, on the inventory of any push: the same presence, inventory and location
    rows, and the same migration events but for their order. -/
theorem set_writer_eq_per_row (m : Migration) (p : InventoryPush) (t : Tables) (order : List String)
    (horder : order.Perm (p.seenVmLocations.map Prod.fst))
    (h : p.inventoryComplete = true → NotSinceZero p.node (p.seenVmLocations.map Prod.fst) t) :
    ∃ t', processNodeVmPresence m p.node p.seenVmLocations p.time p.inventoryComplete t =
        some (t', some p.seenVmLocations.length) ∧
      let perRow := (processNodeVmPresencePerRow m p.node p.seenVmLocations order p.time p.inventoryComplete t).1
      (∀ key, t'.presence.get? key = perRow.presence.get? key) ∧
      (∀ key, t'.inventory.get? key = perRow.inventory.get? key) ∧
      (∀ vm, t'.location.get? vm = perRow.location.get? vm) ∧ t'.events.Perm perRow.events := by
  obtain ⟨t', hprocess, hview⟩ :=
    @process_eq_perRow m p.node p.time t p.seenVmLocations (wellSeen_seenVmLocations p) order horder p.inventoryComplete h
  refine ⟨t', hprocess, ?_, ?_, ?_, perm_events hview⟩
  · rintro ⟨vm, node⟩
    exact congrFun (congrArg VmView.presence (hview vm)) node
  · rintro ⟨node, vm⟩
    exact congrFun (congrArg VmView.inventory (hview vm)) node
  · intro vm
    exact congrArg VmView.location (hview vm)

/-- Two VMs, one of them named twice, and a blank one. -/
def InventoryPush.twoVms : InventoryPush :=
  { node := "node1", time := 72000, interfaces := [⟨"vm1", "tap0", "br0"⟩, ⟨"vm1", "tap1", "br1"⟩, ⟨" ", "tap2", "br0"⟩]
    vms := ["vm2", "vm1"], inventoryComplete := true }

theorem set_writer_eq_per_row_two : ∃ t', processNodeVmPresence {} "node1" InventoryPush.twoVms.seenVmLocations 72000 true
      Tables.empty = some (t', some 2) ∧
    t'.location.get? "vm1" = (processNodeVmPresencePerRow {} "node1" InventoryPush.twoVms.seenVmLocations ["vm2", "vm1"]
      72000 true Tables.empty).1.location.get? "vm1" := by
  have hnone : NotSinceZero "node1" (InventoryPush.twoVms.seenVmLocations.map Prod.fst) Tables.empty :=
    fun _ _ _ h => absurd h (by simp [Tables.empty])
  obtain ⟨t', hprocess, -, -, hlocation, -⟩ :=
    set_writer_eq_per_row {} InventoryPush.twoVms Tables.empty ["vm2", "vm1"] (by decide +kernel) fun _ => hnone
  exact ⟨t', hprocess, hlocation "vm1"⟩

/-- A VM that has been missing since 0 and is expected again. -/
def Tables.sinceZero : Tables :=
  { Tables.empty with
    presence := ⟨[(("vm1", "node1"), { seenRow 0 {} with missingSince := some 0, status := .pendingMigration })], by simp⟩ }

/-- The writers differ in what they return, and in the row of a VM missing since 0. -/
theorem set_writer_differs :
    let p : InventoryPush := { node := "node1", time := 72000, inventoryComplete := true }
    let set := processNodeVmPresence {} p.node p.seenVmLocations p.time p.inventoryComplete Tables.sinceZero
    let perRow := processNodeVmPresencePerRow {} p.node p.seenVmLocations [] p.time p.inventoryComplete Tables.sinceZero
    set.map Prod.snd ≠ some perRow.2 ∧
      set.bind (fun r => r.1.presence.get? ("vm1", "node1")) ≠ perRow.1.presence.get? ("vm1", "node1") := by
  decide +kernel

end VirtInfra.Inventory
