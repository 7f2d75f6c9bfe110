import VirtInfra.Inventory.Evidence

/-!
# `MissingCount` — what `missing_count` counts

The column is to be the number of complete inventories of a node, up to the latest one, that left a VM out since the node
last reported it. The statement that counts a miss asks for the status `active` or `pending_migration` and sets it to
`missing`: a second miss in a row finds a row that it does not count.
-/

namespace VirtInfra.Inventory

open Lib Python

/-- Pushes of any nodes, each at the time of the server. -/
def pushes (m : Migration) (d : Fleet) (run : List (Int × InventoryPush)) : Option Fleet :=
  run.foldlM (fun d l => d.push m l.1 l.2) d

/-- A node has reported a VM. -/
def reported (node vm : String) (history : List InventoryPush) : Bool :=
  history.any fun p => p.node = node && p.reports vm

/-- **`missing_count` counts the misses**, for every node and VM that it reported. -/
def CountsMisses (d : Fleet) : Prop :=
  ∀ vm node, reported node vm d.history = true → ∃ r, d.tables.presence.get? (vm, node) = some r ∧
    r.missingCount = (omittedSince node vm d.history).length

/-- A complete inventory leaves out only VMs whose row is `active` or `pending_migration`. -/
def OmitsExpected (d : Fleet) (p : InventoryPush) : Prop :=
  p.inventoryComplete = true → ∀ vm r, p.reports vm = false → d.tables.presence.get? (vm, p.node) = some r →
    r.status.expected = true

/-! ## One push -/

section Push

variable {m : Migration} {now : Int} {p : InventoryPush} {d d' : Fleet}

theorem missingCount_modify {table : KeyedTable (String × String) PresenceRow} {key : String × String}
    {f : PresenceRow → PresenceRow} (hf : ∀ r, (f r).missingCount = r.missingCount) (key' : String × String) :
    ((table.modify key f).get? key').map PresenceRow.missingCount = (table.get? key').map PresenceRow.missingCount := by
  rw [KeyedTable.get?_modify, Option.map_map]
  congr 1
  funext r
  dsimp only [Function.comp]
  split
  · exact hf r
  · rfl

/-- The transition counts nothing. -/
theorem missingCount_createOrUpdateLocation {node : String} {seenTs : Int} {t : Tables} {item : String × Loc}
    (key : String × String) : ((createOrUpdateLocation m node seenTs t item).presence.get? key).map
      PresenceRow.missingCount = (t.presence.get? key).map PresenceRow.missingCount := by
  obtain ⟨vm, loc⟩ := item
  unfold createOrUpdateLocation
  dsimp only
  split
  · rfl
  · split
    · rfl
    · split
      · exact missingCount_modify (by intro r; rfl) key
      · dsimp only
        rw [missingCount_modify (by intro r; rfl), missingCount_modify (by intro r; rfl)]

theorem missingCount_autoPurge (key : String × String) :
    ((autoPurgeMigratedVms m now d).tables.presence.get? key).map PresenceRow.missingCount =
      (d.tables.presence.get? key).map PresenceRow.missingCount := by
  show ((d.tables.presence.update _).get? key).map _ = _
  rw [KeyedTable.get?_update, Option.map_map]
  congr 1
  funext r
  dsimp only [Function.comp]
  split <;> rfl

/-- **What a push does to the count of a row.** -/
theorem missingCount_push (h : d.push m now p = some d') (vm node : String) :
    (d'.tables.presence.get? (vm, node)).map PresenceRow.missingCount =
      if p.node = node ∧ p.reports vm = true then some 0
      else (d.tables.presence.get? (vm, node)).map fun r =>
        if p.node = node ∧ p.inventoryComplete = true ∧ r.status.expected = true then r.missingCount + 1
        else r.missingCount := by
  obtain ⟨tables, n, hprocess, htables, -⟩ := push_eq_some h
  rw [htables, missingCount_autoPurge]
  dsimp only
  by_cases hreports : p.reports vm = true
  · obtain ⟨item, hitem, rfl⟩ := reports_iff.mp hreports
    have hview : tables.presence.get? (item.1, node) = _ :=
      congrFun (congrArg VmView.presence (view_process_seen hprocess hitem)) node
    rw [hview]
    show ((createOrUpdateLocation m p.node p.time _ item).presence.get? (item.1, node)).map _ = _
    rw [missingCount_createOrUpdateLocation]
    show ((d.tables.presence.upsert (item.1, p.node) (seenRow p.time item.2) seenMerge).get? (item.1, node)).map _ = _
    by_cases hnode : p.node = node
    · subst hnode
      rw [KeyedTable.get?_upsert_self, if_pos ⟨rfl, hreports⟩]
      cases d.tables.presence.get? (item.1, p.node) <;> rfl
    · rw [KeyedTable.get?_upsert_of_ne _ _ _ fun hkey => hnode (Prod.mk.inj hkey).2.symm, if_neg fun h => hnode h.1]
      simp [hnode]
  · have hunseen : ∀ item ∈ p.seenVmLocations.filterMap named, vm ≠ item.1 := fun item hitem heq =>
      hreports (reports_iff.mpr ⟨item, hitem, heq.symm⟩)
    have hview : tables.presence.get? (vm, node) = (if p.inventoryComplete = true then
        markMissing p.node [] p.time d.tables else d.tables).presence.get? (vm, node) :=
      congrFun (congrArg VmView.presence (view_process_unseen hprocess hunseen)) node
    have hnot : ¬(p.node = node ∧ p.reports vm = true) := fun hboth => hreports hboth.2
    rw [hview, if_neg hnot]
    cases hcomplete : p.inventoryComplete with
    | false => simp
    | true =>
        show ((d.tables.presence.update _).get? (vm, node)).map _ = _
        rw [KeyedTable.get?_update, Option.map_map]
        congr 1
        funext r
        by_cases hnode : p.node = node
        · cases hexpected : r.status.expected <;> simp [hnode, hexpected, PresenceRow.markMissing]
        · simp [hnode, Ne.symm hnode]

theorem reported_append (node vm : String) (history : List InventoryPush) :
    reported node vm (history ++ [p]) = true ↔ reported node vm history = true ∨ p.node = node ∧ p.reports vm = true := by
  unfold reported
  simp

theorem push_isSome (m : Migration) (now : Int) (p : InventoryPush) (d : Fleet) : (d.push m now p).isSome := by
  unfold Fleet.push processNodeVmPresence
  rw [(wellSeen_seenVmLocations p).filterMap_named, if_pos (wellSeen_seenVmLocations p).nodup]
  rfl

end Push

/-! ## Runs of pushes -/

section Runs

variable {m : Migration} {run : List (Int × InventoryPush)} {d : Fleet}

theorem pushes_append (d : Fleet) (before : List (Int × InventoryPush)) (l : Int × InventoryPush) :
    pushes m d (before ++ [l]) = (pushes m d before).bind fun d => d.push m l.1 l.2 := by
  unfold pushes
  rw [List.foldlM_append]
  simp

/-- The rows are those of the reported VMs. -/
def Rows (d : Fleet) : Prop :=
  ∀ vm node, (d.tables.presence.get? (vm, node)).isSome ↔ reported node vm d.history = true

theorem rows_push {now : Int} {p : InventoryPush} {d' : Fleet} (hd : Rows d) (h : d.push m now p = some d') : Rows d' := by
  obtain ⟨-, -, -, -, hhistory⟩ := push_eq_some h
  intro vm node
  have hcount := congrArg Option.isSome (missingCount_push h vm node)
  rw [Option.isSome_map] at hcount
  rw [hhistory, reported_append, hcount, ← hd vm node]
  by_cases hreports : p.node = node ∧ p.reports vm = true
  · simp [hreports]
  · rw [if_neg hreports, Option.isSome_map]
    simp [hreports]

/-- **One push** keeps the count right exactly when it leaves out no VM that is missing already. -/
theorem countsMisses_push {now : Int} {p : InventoryPush} {d' : Fleet} (hrows : Rows d) (hd : CountsMisses d)
    (h : d.push m now p = some d') : CountsMisses d' ↔ OmitsExpected d p := by
  obtain ⟨-, -, -, -, hhistory⟩ := push_eq_some h
  constructor
  · intro hd' hcomplete vm r hnot hr
    obtain ⟨r', hr', hcount'⟩ := hd' vm p.node (by
      rw [hhistory, reported_append, ← hrows vm p.node, hr]
      exact .inl rfl)
    obtain ⟨old, hold, hcount⟩ := hd vm p.node ((hrows vm p.node).mp (by rw [hr]; rfl))
    obtain rfl := Option.some.inj (hr.symm.trans hold)
    have hpush := missingCount_push h vm p.node
    rw [hr', hr, if_neg (by simp [hnot]), Option.map_some, Option.map_some, Option.some.injEq] at hpush
    rw [hhistory, omittedSince_append, omittedAfter, if_neg (by simp), if_neg (by simp [hnot]), if_pos hcomplete,
      List.length_append, List.length_singleton] at hcount'
    by_contra hexpected
    rw [if_neg fun hall => hexpected hall.2.2] at hpush
    push_cast at hcount'
    omega
  · intro hok vm node hreported
    have hpush := missingCount_push h vm node
    rw [hhistory, omittedSince_append, omittedAfter]
    by_cases hnode : p.node = node
    swap
    · -- Another node's push.
      rw [hhistory, reported_append] at hreported
      obtain ⟨r, hr, hcount⟩ := hd vm node (hreported.resolve_right fun hboth => hnode hboth.1)
      rw [if_neg fun hboth => hnode hboth.1, hr, Option.map_some, if_neg fun hall => hnode hall.1] at hpush
      obtain ⟨r', hr', heq⟩ := Option.map_eq_some_iff.mp hpush
      rw [if_pos hnode]
      exact ⟨r', hr', heq.trans hcount⟩
    rw [if_neg (not_not_intro hnode)]
    by_cases hreports : p.reports vm = true
    · rw [if_pos ⟨hnode, hreports⟩] at hpush
      obtain ⟨r', hr', heq⟩ := Option.map_eq_some_iff.mp hpush
      rw [if_pos hreports]
      exact ⟨r', hr', heq⟩
    · rw [hhistory, reported_append] at hreported
      obtain ⟨r, hr, hcount⟩ := hd vm node (hreported.resolve_right fun hboth => hreports hboth.2)
      rw [if_neg fun hboth => hreports hboth.2, hr, Option.map_some] at hpush
      obtain ⟨r', hr', heq⟩ := Option.map_eq_some_iff.mp hpush
      rw [if_neg hreports]
      refine ⟨r', hr', ?_⟩
      by_cases hcomplete : p.inventoryComplete = true
      · subst hnode
        have hexpected := hok hcomplete vm r (by simpa using hreports) hr
        rw [if_pos ⟨rfl, hcomplete, hexpected⟩] at heq
        rw [if_pos hcomplete, List.length_append, List.length_singleton]
        push_cast
        omega
      · rw [if_neg fun hall => hcomplete hall.2.1] at heq
        rw [if_neg hcomplete]
        exact heq.trans hcount

theorem rows_pushes (h : pushes m Fleet.init run = some d) : Rows d := by
  induction run using List.reverseRecOn generalizing d with
  | nil =>
      obtain rfl := Option.some.inj h
      intro vm node
      exact iff_of_false (by simp [Fleet.init, Tables.empty]) (by simp [reported, Fleet.init])
  | append_singleton before l ih =>
      rw [pushes_append] at h
      obtain ⟨mid, hmid, hpush⟩ := Option.bind_eq_some_iff.mp h
      exact rows_push (ih hmid) hpush

theorem pushes_isSome (m : Migration) (run : List (Int × InventoryPush)) : (pushes m Fleet.init run).isSome := by
  induction run using List.reverseRecOn with
  | nil => rfl
  | append_singleton before l ih =>
      obtain ⟨d, hd⟩ := Option.isSome_iff_exists.mp ih
      rw [pushes_append, hd, Option.bind_some]
      exact push_isSome m l.1 l.2 d

/-- **`missing_count` counts the misses after every push of a run exactly when no complete inventory of it leaves out a VM
    that is missing already**, and every run goes through. -/
theorem missing_count_iff (m : Migration) (run : List (Int × InventoryPush)) :
    (pushes m Fleet.init run).isSome ∧
      ((∀ before d, before <+: run → pushes m Fleet.init before = some d → CountsMisses d) ↔
        ∀ before now p d, before ++ [(now, p)] <+: run → pushes m Fleet.init before = some d → OmitsExpected d p) := by
  refine ⟨pushes_isSome m run, fun hcounts before now p d hprefix hd => ?_, fun hok before d hprefix hd => ?_⟩
  · obtain ⟨d', hpush⟩ := Option.isSome_iff_exists.mp (push_isSome m now p d)
    have hd' : pushes m Fleet.init (before ++ [(now, p)]) = some d' := by
      rw [pushes_append, hd, Option.bind_some, hpush]
    refine (countsMisses_push (rows_pushes hd) ?_ hpush).mp (hcounts _ d' hprefix hd')
    exact hcounts before d ((List.prefix_append before _).trans hprefix) hd
  · induction before using List.reverseRecOn generalizing d with
    | nil =>
        obtain rfl := Option.some.inj hd
        intro vm node hreported
        simp [reported, Fleet.init] at hreported
    | append_singleton before l ih =>
        rw [pushes_append] at hd
        obtain ⟨mid, hmid, hpush⟩ := Option.bind_eq_some_iff.mp hd
        have hcounts := ih mid ((List.prefix_append before _).trans hprefix) hmid
        exact (countsMisses_push (rows_pushes hmid) hcounts hpush).mpr (hok before l.1 l.2 mid hprefix hmid)

/-- A VM that its node reports once and then leaves out of two complete inventories. -/
def twoMisses : List (Int × InventoryPush) :=
  [(72000, { node := "node1", time := 72000, vms := ["vm1"], inventoryComplete := true }),
    (72300, { node := "node1", time := 72300, vms := ["vm2"], inventoryComplete := true }),
    (72600, { node := "node1", time := 72600, vms := ["vm2"], inventoryComplete := true })]

/-- **The second miss is not counted.** -/
theorem second_miss_not_counted : ¬ ∀ run d, pushes {} Fleet.init run = some d → CountsMisses d := by
  intro hall
  have hrun : (pushes {} Fleet.init twoMisses).bind (fun d =>
      (d.tables.presence.get? ("vm1", "node1")).map fun r =>
        (r.missingCount, (omittedSince "node1" "vm1" d.history).length, reported "node1" "vm1" d.history)) =
      some (1, 2, true) := by decide +kernel
  obtain ⟨d, hd, hrow⟩ := Option.bind_eq_some_iff.mp hrun
  obtain ⟨r, hr, heq⟩ := Option.map_eq_some_iff.mp hrow
  obtain ⟨hcount, hrest⟩ := Prod.mk.inj heq
  obtain ⟨hlength, hreported⟩ := Prod.mk.inj hrest
  obtain ⟨r', hr', hcounts⟩ := hall twoMisses d hd "vm1" "node1" hreported
  obtain rfl := Option.some.inj (hr.symm.trans hr')
  rw [hcount, hlength] at hcounts
  simp at hcounts

end Runs

end VirtInfra.Inventory
