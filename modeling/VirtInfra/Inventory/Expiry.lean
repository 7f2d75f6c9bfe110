import VirtInfra.Inventory.Hidden
import VirtInfra.Lib.Batches

/-!
# `Expiry` — what a run of the inventory cleanup leaves

A run marks rows as `deleted` that were not seen for long, in batches, and only those whose status is `active`, `stale` or
`missing`. The rows of a migration are not among them: a `pending_migration` waits for its confirmation, a `migrated` one
for the purge that follows it. Of the other statuses, every writer that sets one also dates the deletion (`Dated`), so a run
with batches enough leaves no other row that is past its age (`inventory_expiry_complete`).
-/

namespace VirtInfra.Inventory

open Lib Python

/-! ## The run -/

section Run

variable (e : Expiry) (ts : Int)

/-- The `WHERE` of the first statement. -/
def vmStaleDue (r : InventoryRow) : Bool :=
  r.status = .active && r.deletedAt = none && decide (r.lastSeen < ts - e.vmStaleSeconds) &&
    decide (r.lastSeen ≥ ts - e.vmAutoDeleteSeconds)

/-- The `WHERE` of the second one. -/
def vmDeletedDue (r : InventoryRow) : Bool :=
  decide (r.status ∈ [.active, .stale, .missing]) && r.status ≠ .hidden && r.deletedAt = none &&
    decide (r.lastSeen < ts - e.vmAutoDeleteSeconds)

/-- The `WHERE` of the third one. -/
def nodeDeletedDue (r : NodeRow) : Bool :=
  decide (r.status ∈ [.active, .stale, .missing]) && r.status ≠ .hidden && r.deletedAt = none &&
    decide (r.lastPush < ts - e.nodeAutoDeleteSeconds)

/-- No other transaction has locked a row. -/
def unlocked {κ : Type} : κ → Bool := fun _ => false

/-- `max(50, min(2000, batch_size))`. -/
def batchRows (batchSize : Int) : Nat := (max 50 (min 2000 batchSize)).toNat

/-- `max(1, min(1000, max_batches))`. -/
def batchRounds (maxBatches : Int) : Nat := (max 1 (min 1000 maxBatches)).toNat

/-- **`run_inventory_cleanup_batches`**, when it has the advisory lock and no other transaction runs. -/
def runInventoryCleanupBatches (batchSize maxBatches : Int) (s : Site) : Site :=
  let size := batchRows batchSize
  let rounds := batchRounds maxBatches
  let s := inRounds size (fun s => (selectForUpdate s.vms (vmStaleDue e ts) byLastSeen unlocked size).length)
    (vmStaleBatch e ts size unlocked) rounds s
  let s := inRounds size (fun s => (selectForUpdate s.vms (vmDeletedDue e ts) byLastSeen unlocked size).length)
    (vmDeletedBatch e ts size unlocked) rounds s
  inRounds size (fun s => (selectForUpdate s.nodes (nodeDeletedDue e ts) byLastPush unlocked size).length)
    (nodeDeletedBatch e ts size unlocked) rounds s

/-- The rows that the run has to delete. -/
def dueVms (s : Site) : Nat := s.vms.rows.countP fun row => vmDeletedDue e ts row.2

def dueNodes (s : Site) : Nat := s.nodes.rows.countP fun row => nodeDeletedDue e ts row.2

/-- There are batches for all of them. -/
structure EnoughBatches (batchSize maxBatches : Int) (s : Site) : Prop where
  vms : dueVms e ts s ≤ batchRows batchSize * batchRounds maxBatches
  nodes : dueNodes e ts s ≤ batchRows batchSize * batchRounds maxBatches

end Run

/-! ## Each statement -/

section Statements

variable {e : Expiry} {ts : Int} {limit : Nat}

theorem length_selectForUpdate {κ ρ : Type} [DecidableEq κ] (t : KeyedTable κ ρ) (due : ρ → Bool)
    (le : κ × ρ → κ × ρ → Bool) (limit : Nat) :
    (selectForUpdate t due le unlocked limit).length = min limit (t.rows.countP fun row => due row.2) := by
  unfold selectForUpdate unlocked
  simp [List.countP_eq_length_filter]

/-- A statement that marks its targets leaves as many fewer due. -/
theorem countP_update_selected {κ ρ : Type} [DecidableEq κ] (t : KeyedTable κ ρ) {due : ρ → Bool} {mark : ρ → ρ}
    (hmark : ∀ r, due (mark r) = false) (le : κ × ρ → κ × ρ → Bool) (limit : Nat) {f : κ → ρ → ρ}
    (hin : ∀ key r, key ∈ selectForUpdate t due le unlocked limit → f key r = mark r)
    (hout : ∀ key r, key ∉ selectForUpdate t due le unlocked limit → f key r = r) :
    ((t.update f).rows.countP fun row => due row.2) + min limit (t.rows.countP fun row => due row.2) ≤
      t.rows.countP fun row => due row.2 := by
  have hperm : ((t.rows.filter fun row => due row.2).mergeSort le).Perm (t.rows.filter fun row => due row.2) :=
    List.mergeSort_perm _ _
  have hselected : selectForUpdate t due le unlocked limit =
      ((((t.rows.filter fun row => due row.2).mergeSort le).take limit).map Prod.fst) := by
    unfold selectForUpdate unlocked
    simp
  rw [hselected] at hin hout
  have hf : f = fun key r =>
      if key ∈ ((((t.rows.filter fun row => due row.2).mergeSort le).take limit).map Prod.fst) then mark r else r := by
    funext key r
    split
    next hmem => exact hin key r hmem
    next hmem => exact hout key r hmem
  rw [hf]
  exact countP_update_first hmark hperm limit

theorem dueVms_vmDeletedBatch (s : Site) :
    dueVms e ts (vmDeletedBatch e ts limit unlocked s) + min limit (dueVms e ts s) ≤ dueVms e ts s := by
  have hmark : ∀ r : InventoryRow,
      vmDeletedDue e ts { r with status := .deleted, deletedAt := r.deletedAt.or (some ts) } = false := by
    intro r
    simp [vmDeletedDue]
  exact countP_update_selected s.vms hmark byLastSeen limit (fun _ _ hmem => if_pos hmem) fun _ _ hmem => if_neg hmem

theorem dueNodes_nodeDeletedBatch (s : Site) :
    dueNodes e ts (nodeDeletedBatch e ts limit unlocked s) + min limit (dueNodes e ts s) ≤ dueNodes e ts s := by
  have hmark : ∀ r : NodeRow,
      nodeDeletedDue e ts { r with status := .deleted, deletedAt := r.deletedAt.or (some ts) } = false := by
    intro r
    simp [nodeDeletedDue]
  exact countP_update_selected s.nodes hmark byLastPush limit (fun _ _ hmem => if_pos hmem) fun _ _ hmem => if_neg hmem

/-- A row that becomes stale is not past the age of the second statement. -/
theorem dueVms_vmStaleBatch (s : Site) : dueVms e ts (vmStaleBatch e ts limit unlocked s) = dueVms e ts s := by
  unfold dueVms vmStaleBatch
  rw [Site.vms_setVms]
  show (s.vms.rows.map _).countP _ = _
  rw [List.countP_map]
  apply List.countP_congr
  intro row hrow
  have hget := KeyedTable.get?_of_mem_rows (k := row.1) (r := row.2) hrow
  dsimp only [Function.comp]
  split
  next hmem =>
    have hdue := of_mem_selectForUpdate hmem hget
    simp only [Bool.and_eq_true, decide_eq_true_eq] at hdue
    have hage : ¬ row.2.lastSeen < ts - e.vmAutoDeleteSeconds := by omega
    simp [vmDeletedDue, hage]
  next => rfl

end Statements

/-! ## Dated deletions -/

/-- A VM's row that is purged or deleted says when. -/
def InventoryRow.Dated (r : InventoryRow) : Prop := r.status = .purged ∨ r.status = .deleted → r.deletedAt.isSome

/-- So does a node's, which has no other status than these. -/
def NodeRow.Dated (r : NodeRow) : Prop :=
  r.status = .active ∨ r.status = .hidden ∨ (r.status = .deleted ∧ r.deletedAt.isSome)

structure Site.Dated (s : Site) : Prop where
  vms : s.vms.All InventoryRow.Dated
  nodes : s.nodes.All NodeRow.Dated

section Dated

variable {m : Migration} {e : Expiry} {node : String} {seenTs now : Int} {t : Tables} {s s' : Site}

theorem InventoryRow.Dated.of_status {r : InventoryRow} (hpurged : r.status ≠ .purged) (hdeleted : r.status ≠ .deleted) :
    r.Dated := by
  intro h
  rcases h with h | h
  · exact absurd h hpurged
  · exact absurd h hdeleted

theorem InventoryRow.Dated.mark {r : InventoryRow} (h : r.Dated) {status : InventoryStatus} (hpurged : status ≠ .purged)
    (hdeleted : status ≠ .deleted) : (r.mark status).Dated := by
  unfold InventoryRow.mark
  split
  · exact h
  · exact .of_status hpurged hdeleted

theorem InventoryRow.Dated.markPurged {r : InventoryRow} (h : r.Dated) (now : Int) : (r.markPurged now).Dated := by
  unfold InventoryRow.markPurged
  split
  · exact h
  · intro _
    cases hdeleted : r.deletedAt <;> simp

theorem dated_presenceUpsertSeen (h : t.inventory.All InventoryRow.Dated) (item : String × Loc) :
    (presenceUpsertSeen node seenTs t item).inventory.All InventoryRow.Dated := by
  apply KeyedTable.All.upsert h
  · exact .of_status (by simp [seenInventoryRow]) (by simp [seenInventoryRow])
  · intro old _
    apply InventoryRow.Dated.of_status
    · unfold seenInventoryMerge
      dsimp only
      split <;> simp
    · unfold seenInventoryMerge
      dsimp only
      split <;> simp

theorem dated_markMissing (h : t.inventory.All InventoryRow.Dated) (staged : List String) :
    (markMissing node staged seenTs t).inventory.All InventoryRow.Dated := by
  apply KeyedTable.All.update h
  intro key r hr
  split
  · exact hr.mark (by simp) (by simp)
  · exact hr

theorem dated_createOrUpdateLocation (h : t.inventory.All InventoryRow.Dated) (item : String × Loc) :
    (createOrUpdateLocation m node seenTs t item).inventory.All InventoryRow.Dated := by
  have hmark : ∀ (table : KeyedTable (String × String) InventoryRow) (key : String × String) (status : InventoryStatus),
      status ≠ .purged → status ≠ .deleted → table.All InventoryRow.Dated →
        (table.modify key (InventoryRow.mark status)).All InventoryRow.Dated := by
    intro table key status hpurged hdeleted htable
    exact htable.modify key fun r hr => hr.mark hpurged hdeleted
  unfold createOrUpdateLocation
  dsimp only
  split
  · exact h
  · split
    · exact h
    · split
      · exact hmark _ _ _ (by simp) (by simp) h
      · exact hmark _ _ _ (by simp) (by simp) (hmark _ _ _ (by simp) (by simp) h)

theorem dated_process {seen : List (String × Loc)} {complete : Bool} {t' : Tables} {n : Option Nat}
    (hprocess : processNodeVmPresence m node seen seenTs complete t = some (t', n))
    (h : t.inventory.All InventoryRow.Dated) : t'.inventory.All InventoryRow.Dated := by
  have hseen : ((seen.filterMap named).foldl (presenceUpsertSeen node seenTs) t).inventory.All InventoryRow.Dated :=
    List.foldlRecOn (motive := fun t : Tables => t.inventory.All InventoryRow.Dated) _ _ h fun t ht item _ =>
      dated_presenceUpsertSeen ht item
  obtain ⟨-, t₁, rfl, rfl⟩ := process_eq_some hprocess
  refine List.foldlRecOn (motive := fun t : Tables => t.inventory.All InventoryRow.Dated) _ _ ?_ fun t ht item _ =>
    dated_createOrUpdateLocation ht item
  show (staged node (seen.filterMap named) seenTs complete t).inventory.All InventoryRow.Dated
  unfold staged
  split
  · exact dated_markMissing hseen _
  · exact hseen

theorem dated_push {p : InventoryPush} {d d' : Fleet} (hpush : d.push m now p = some d')
    (h : d.tables.inventory.All InventoryRow.Dated) : d'.tables.inventory.All InventoryRow.Dated := by
  obtain ⟨tables, n, hprocess, htables, -⟩ := push_eq_some hpush
  rw [htables]
  apply KeyedTable.All.update (dated_process hprocess h)
  intro key r hr
  split
  · exact hr.markPurged now
  · exact hr

/-- A purge deletes rows of `vm_inventory` and marks none. -/
theorem dated_purgeAllVmsForNode {d : Fleet} (rank : Candidate → Nat) (h : d.tables.inventory.All InventoryRow.Dated) :
    (purgeAllVmsForNode rank now node d).tables.inventory.All InventoryRow.Dated := by
  refine List.foldlRecOn (motive := fun d : Fleet => d.tables.inventory.All InventoryRow.Dated) _ _ ?_ ?_
  · exact KeyedTable.All.deleteWhere h _
  · intro d hd vm _
    rw [(repair_frame rank now node d vm).2.1]
    exact hd

theorem NodeRow.Dated.push {old new : NodeRow} : (mergeNode old new).Dated := by
  unfold NodeRow.Dated mergeNode
  by_cases hidden : old.status = .hidden <;> simp [hidden]

theorem Site.Dated.setVms (h : s.Dated) {vms : KeyedTable (String × String) InventoryRow} (hvms : vms.All InventoryRow.Dated) :
    (s.setVms vms).Dated := ⟨hvms, h.nodes⟩

theorem Site.Dated.hideItem (h : s.Dated) (item : Int × Item) : (Inventory.hideItem s item).Dated := by
  obtain ⟨now, item⟩ := item
  cases item with
  | node node => exact ⟨h.vms, h.nodes.modify node fun r _ => .inr (.inl rfl)⟩
  | vm node vmUuid =>
      apply h.setVms
      apply h.vms.modify (node, vmUuid)
      intro r _
      exact .of_status (by simp) (by simp)

theorem Site.Dated.restoreItem (h : s.Dated) (item : Item) : (Inventory.restoreItem s item).Dated := by
  cases item with
  | node node => exact ⟨h.vms, h.nodes.modify node fun r _ => .inl rfl⟩
  | vm node vmUuid =>
      apply h.setVms
      apply h.vms.modify (node, vmUuid)
      intro r _
      exact .of_status (by simp) (by simp)

/-- **Every step dates the deletions it makes.** -/
theorem Site.Dated.step (h : s.Dated) (l : SiteLabel) (hstep : s.step m e l = some s') : s'.Dated := by
  cases l with
  | push now p =>
      obtain ⟨fleet, hpush, rfl⟩ := Option.map_eq_some_iff.mp hstep
      exact ⟨dated_push hpush h.vms, KeyedTable.All.upsert h.nodes (.inl rfl) fun old _ => NodeRow.Dated.push⟩
  | autoPurge now =>
      obtain rfl := Option.some.inj hstep
      refine ⟨?_, h.nodes⟩
      show (autoPurgeMigratedVms m now s.fleet).tables.inventory.All InventoryRow.Dated
      unfold autoPurgeMigratedVms
      apply h.vms.update
      intro key r hr
      split
      · exact hr.markPurged now
      · exact hr
  | vmStale ts limit locked =>
      obtain rfl := Option.some.inj hstep
      apply h.setVms
      apply h.vms.update
      intro key r hr
      split
      · exact .of_status (by simp) (by simp)
      · exact hr
  | vmDeleted ts limit locked =>
      obtain rfl := Option.some.inj hstep
      apply h.setVms
      apply h.vms.update
      intro key r hr
      split
      · intro _
        cases hdeleted : r.deletedAt <;> simp
      · exact hr
  | nodeDeleted ts limit locked =>
      obtain rfl := Option.some.inj hstep
      refine ⟨h.vms, ?_⟩
      show (s.nodes.update _).All NodeRow.Dated
      apply h.nodes.update
      intro key r hr
      split
      · refine .inr (.inr ⟨rfl, ?_⟩)
        cases hdeleted : r.deletedAt <;> simp
      · exact hr
  | retention =>
      obtain rfl := Option.some.inj hstep
      exact h
  | hide items =>
      obtain rfl := Option.some.inj hstep
      exact List.foldlRecOn (motive := Site.Dated) _ _ h fun _ hs item _ => hs.hideItem item
  | restore items =>
      obtain rfl := Option.some.inj hstep
      exact List.foldlRecOn (motive := Site.Dated) _ _ h fun _ hs item _ => hs.restoreItem item
  | purgeVm vmUuid =>
      obtain rfl := Option.some.inj hstep
      refine ⟨?_, h.nodes⟩
      show (purgeVmData vmUuid s.fleet).tables.inventory.All InventoryRow.Dated
      unfold purgeVmData
      exact h.vms.deleteWhere _
  | purgeNodeVms now node rank =>
      obtain rfl := Option.some.inj hstep
      exact ⟨dated_purgeAllVmsForNode rank h.vms, h.nodes⟩
  | purgeNode now node rank =>
      obtain rfl := Option.some.inj hstep
      exact ⟨dated_purgeAllVmsForNode rank h.vms, KeyedTable.All.deleteWhere h.nodes _⟩

/-- An installation starts with no rows. -/
def Site.init : Site := ⟨Fleet.init, .empty⟩

theorem Site.dated (h : (siteFrom m e Site.init).Reachable System.AnyStep s) : s.Dated := by
  refine h.invariant (I := Site.Dated) ?_ ?_
  · rintro s rfl
    exact ⟨KeyedTable.all_empty _, KeyedTable.all_empty _⟩
  · intro s l s' _ hs _ hstep
    exact hs.step l hstep

end Dated

/-! ## What a run leaves -/

section Complete

variable {e : Expiry} {ts batchSize maxBatches : Int} {s : Site}

theorem vmStaleRounds_keep {size : Nat} {changed : Site → Nat} (rounds : Nat) :
    dueVms e ts (inRounds size changed (vmStaleBatch e ts size unlocked) rounds s) = dueVms e ts s := by
  refine inRounds_keeps (P := fun s' => dueVms e ts s' = dueVms e ts s) ?_ rounds rfl
  intro s' hs'
  rw [dueVms_vmStaleBatch, hs']

/-- The first two statements do not write the other table. -/
theorem vmRounds_nodes {size : Nat} {changed : Site → Nat} {round : Site → Site} (hround : ∀ s, (round s).nodes = s.nodes)
    (rounds : Nat) : (inRounds size changed round rounds s).nodes = s.nodes := by
  refine inRounds_keeps (P := fun s' : Site => s'.nodes = s.nodes) ?_ rounds rfl
  intro s' hs'
  rw [hround, hs']

/-- The third one neither. -/
theorem nodeRounds_vms {size : Nat} {changed : Site → Nat} (rounds : Nat) :
    (inRounds size changed (nodeDeletedBatch e ts size unlocked) rounds s).vms = s.vms := by
  refine inRounds_keeps (P := fun s' : Site => s'.vms = s.vms) ?_ rounds rfl
  intro s' hs'
  exact hs'

/-- **A run with batches enough leaves no row that it has to delete.** -/
theorem due_runInventoryCleanupBatches (henough : EnoughBatches e ts batchSize maxBatches s) :
    dueVms e ts (runInventoryCleanupBatches e ts batchSize maxBatches s) = 0 ∧
      dueNodes e ts (runInventoryCleanupBatches e ts batchSize maxBatches s) = 0 := by
  unfold runInventoryCleanupBatches
  dsimp only
  refine ⟨?_, ?_⟩
  · unfold dueVms
    rw [nodeRounds_vms]
    refine inRounds_done (dueVms e ts) ?_ (fun _ => dueVms_vmDeletedBatch _) _ ?_
    · intro s
      exact length_selectForUpdate _ _ _ _
    · rw [vmStaleRounds_keep]
      exact henough.vms
  · refine inRounds_done (dueNodes e ts) ?_ (fun _ => dueNodes_nodeDeletedBatch _) _ ?_
    · intro s
      exact length_selectForUpdate _ _ _ _
    · have hstale : ∀ s, (vmStaleBatch e ts (batchRows batchSize) unlocked s).nodes = s.nodes := fun _ => rfl
      have hdeleted : ∀ s, (vmDeletedBatch e ts (batchRows batchSize) unlocked s).nodes = s.nodes := fun _ => rfl
      unfold dueNodes
      rw [vmRounds_nodes hdeleted, vmRounds_nodes hstale]
      exact henough.nodes

theorem dated_runInventoryCleanupBatches (h : s.Dated) :
    (runInventoryCleanupBatches e ts batchSize maxBatches s).Dated := by
  unfold runInventoryCleanupBatches
  dsimp only
  apply inRounds_keeps
  · intro s hs
    exact hs.step (m := {}) (e := e) (.nodeDeleted ts _ unlocked) rfl
  apply inRounds_keeps
  · intro s hs
    exact hs.step (m := {}) (e := e) (.vmDeleted ts _ unlocked) rfl
  apply inRounds_keeps
  · intro s hs
    exact hs.step (m := {}) (e := e) (.vmStale ts _ unlocked) rfl
  exact h

/-- **The run deletes every row that is past its age**, other than the hidden ones and those of a migration. -/
theorem inventory_expiry_complete (m : Migration) (e : Expiry) {s : Site} {ts batchSize maxBatches : Int}
    (h : (siteFrom m e Site.init).Reachable System.AnyStep s) (henough : EnoughBatches e ts batchSize maxBatches s) :
    (∀ key r, (runInventoryCleanupBatches e ts batchSize maxBatches s).vms.get? key = some r → r.status ≠ .hidden →
      r.deletedAt = none → r.lastSeen < ts - e.vmAutoDeleteSeconds → r.status = .pendingMigration ∨ r.status = .migrated) ∧
    ∀ node r, (runInventoryCleanupBatches e ts batchSize maxBatches s).nodes.get? node = some r → r.status ≠ .hidden →
      r.deletedAt = none → ts - e.nodeAutoDeleteSeconds ≤ r.lastPush := by
  obtain ⟨hvms, hnodes⟩ := due_runInventoryCleanupBatches henough
  have hdated : (runInventoryCleanupBatches e ts batchSize maxBatches s).Dated :=
    dated_runInventoryCleanupBatches (Site.dated h)
  refine ⟨?_, ?_⟩
  · intro key r hr hshown hundeleted hage
    have hdue : vmDeletedDue e ts r ≠ true := List.countP_eq_zero.mp hvms (key, r) (KeyedTable.mem_rows_of_get? hr)
    have hrow : r.Dated := hdated.vms (key, r) (KeyedTable.mem_rows_of_get? hr)
    unfold InventoryRow.Dated at hrow
    rw [hundeleted] at hrow
    have hlisted : r.status ∉ [.active, .stale, .missing] := by
      intro hlisted
      apply hdue
      simp [vmDeletedDue, hlisted, hshown, hundeleted, hage]
    -- the other statuses are in the list of the statement, or come with a date
    cases hstatus : r.status with
    | pendingMigration => exact .inl rfl
    | migrated => exact .inr rfl
    | hidden => exact absurd hstatus hshown
    | purged => exact absurd (hrow (.inl hstatus)) (by simp)
    | deleted => exact absurd (hrow (.inr hstatus)) (by simp)
    | active => exact absurd hlisted (by simp [hstatus])
    | stale => exact absurd hlisted (by simp [hstatus])
    | missing => exact absurd hlisted (by simp [hstatus])
  · intro node r hr hshown hundeleted
    have hdue : nodeDeletedDue e ts r ≠ true := List.countP_eq_zero.mp hnodes (node, r) (KeyedTable.mem_rows_of_get? hr)
    have hrow : r.Dated := hdated.nodes (node, r) (KeyedTable.mem_rows_of_get? hr)
    obtain hactive | hhidden | ⟨-, hdeleted⟩ := hrow
    · by_contra hage
      have hold : r.lastPush < ts - e.nodeAutoDeleteSeconds := by omega
      apply hdue
      simp [nodeDeletedDue, hactive, hundeleted, hold]
    · exact absurd hhidden hshown
    · rw [hundeleted] at hdeleted
      exact absurd hdeleted (by simp)

/-- `node1` reports `vm1` and `vm2`, then `vm1` alone; `node2` has `vm2` sixteen days later, and then `vm1`. -/
def expirySteps : List SiteLabel :=
  [.push 1200 { node := "node1", time := 1200, vms := ["vm1", "vm2"], inventoryComplete := true },
   .push 1500 { node := "node1", time := 1500, vms := ["vm1"], inventoryComplete := true },
   .push 1383900 { node := "node2", time := 1383900, vms := ["vm2"], inventoryComplete := true },
   .push 1384200 { node := "node2", time := 1384200, vms := ["vm1", "vm2"], inventoryComplete := true }]

def expirySite : Option Site := (siteFrom .standard {} Site.init).exec System.AnyStep Site.init expirySteps

theorem enoughBatches_expirySite (hs : expirySite = some s) : EnoughBatches {} 1384500 500 50 s := by
  have hvms : expirySite.all (fun s => decide (dueVms {} 1384500 s ≤ batchRows 500 * batchRounds 50)) = true := by
    decide +kernel
  have hnodes : expirySite.all (fun s => decide (dueNodes {} 1384500 s ≤ batchRows 500 * batchRounds 50)) = true := by
    decide +kernel
  rw [hs] at hvms hnodes
  exact ⟨of_decide_eq_true hvms, of_decide_eq_true hnodes⟩

theorem inventory_expiry_complete_two_nodes : ∃ s, expirySite = some s ∧
    ∀ key r, (runInventoryCleanupBatches {} 1384500 500 50 s).vms.get? key = some r → r.status ≠ .hidden →
      r.deletedAt = none → r.lastSeen < 88500 → r.status = .pendingMigration ∨ r.status = .migrated := by
  obtain ⟨s, hs⟩ := Option.isSome_iff_exists.mp (show expirySite.isSome by decide +kernel)
  refine ⟨s, hs, ?_⟩
  exact (inventory_expiry_complete {} {} (System.Reachable.exec (.init rfl) hs) (enoughBatches_expirySite hs)).1

/-- Sixteen days after `node1` last reported `vm1`, its row still waits for the confirmation, and a run leaves it. -/
theorem pending_row_outlives_expiry : ∃ s, (siteFrom {} {} Site.init).Reachable System.AnyStep s ∧
    EnoughBatches {} 1384500 500 50 s ∧ ∃ key r, (runInventoryCleanupBatches {} 1384500 500 50 s).vms.get? key = some r ∧
      r.status ≠ .hidden ∧ r.deletedAt = none ∧ r.lastSeen < 1384500 - ({} : Expiry).vmAutoDeleteSeconds := by
  obtain ⟨s, hs⟩ := Option.isSome_iff_exists.mp (show expirySite.isSome by decide +kernel)
  have hrow : expirySite.all (fun s => ((runInventoryCleanupBatches {} 1384500 500 50 s).vms.get? ("node1", "vm1")).any
      fun r => r.status ≠ .hidden && r.deletedAt = none && decide (r.lastSeen < 1384500 - 1296000)) = true := by
    decide +kernel
  rw [hs] at hrow
  obtain ⟨r, hr, hold⟩ := (Option.any_eq_true _ _).mp hrow
  simp only [Bool.and_eq_true, decide_eq_true_eq] at hold
  exact ⟨s, System.Reachable.exec (.init rfl) hs, enoughBatches_expirySite hs, _, r, hr, hold.1.1, hold.1.2, hold.2⟩

end Complete

end VirtInfra.Inventory
