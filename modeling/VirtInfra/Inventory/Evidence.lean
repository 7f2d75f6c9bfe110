import VirtInfra.Inventory.Fleet

/-!
# `Evidence` — a VM moves only after its node has missed it

What a presence row says about missing pushes is backed by the history of the pushes: its count is at most the number of
complete inventories of the node that left the VM out since the node last reported it, and its time is that of the first
of them (`Backed`). The transition moves a VM on nothing but these columns, so it moves on that evidence.
-/

namespace VirtInfra.Inventory

open Lib Python

/-! ## Evidence -/

def InventoryPush.reports (p : InventoryPush) (vm : String) : Bool := vm ∈ p.seenVmLocations.map Prod.fst

/-- The times of the complete inventories of a node that left a VM out, since the node last reported it. -/
def omittedAfter (node vm : String) (omitted : List Int) (p : InventoryPush) : List Int :=
  if p.node ≠ node then omitted
  else if p.reports vm then []
  else if p.inventoryComplete then omitted ++ [p.time]
  else omitted

def omittedSince (node vm : String) (history : List InventoryPush) : List Int :=
  history.foldl (omittedAfter node vm) []

theorem omittedSince_append (node vm : String) (history : List InventoryPush) (p : InventoryPush) :
    omittedSince node vm (history ++ [p]) = omittedAfter node vm (omittedSince node vm history) p := by
  simp [omittedSince]

/-- **The history backs a presence row.** -/
structure Backed (omitted : List Int) (r : PresenceRow) : Prop where
  fresh : r.missingSince = none → omitted = [] ∧ r.missingCount = 0 ∧ r.status.expected = true
  since : ∀ time, r.missingSince = some time → omitted.head? = some time
  count : r.missingCount ≤ omitted.length

/-- Every presence row is backed. -/
def AllBacked (d : Fleet) : Prop :=
  ∀ vm node r, d.tables.presence.get? (vm, node) = some r → Backed (omittedSince node vm d.history) r

section Row

variable {omitted : List Int} {r : PresenceRow} {m : Migration} {seenTs : Int}

theorem Backed.seen (seenTs : Int) (loc : Loc) (old : Option PresenceRow) :
    Backed [] (old.elim (seenRow seenTs loc) (seenMerge · (seenRow seenTs loc))) := by
  cases old <;> constructor <;> simp [seenRow, seenMerge, PresenceStatus.expected]

/-- The columns that count the missing pushes are as they were, and a status that says so comes with them. -/
theorem Backed.congr {r' : PresenceRow} (h : Backed omitted r) (hsince : r'.missingSince = r.missingSince)
    (hcount : r'.missingCount = r.missingCount) (hstatus : r'.status.expected = true ∨ r.status.expected = false) :
    Backed omitted r' := by
  refine ⟨fun hnone => ?_, fun time htime => h.since time (hsince ▸ htime), hcount ▸ h.count⟩
  obtain ⟨hempty, hzero, hexpected⟩ := h.fresh (hsince ▸ hnone)
  refine ⟨hempty, hcount.trans hzero, ?_⟩
  rcases hstatus with hnew | hold
  · exact hnew
  · rw [hexpected] at hold
    cases hold

/-- A complete inventory without the VM, on a row that expects it. -/
theorem Backed.markMissing (h : Backed omitted r) :
    Backed (omitted ++ [seenTs]) (r.markMissing seenTs (r.missingSince.getD seenTs)) := by
  refine ⟨fun hnone => ?_, fun time htime => ?_, ?_⟩
  · cases hnone
  · obtain rfl : r.missingSince.getD seenTs = time := Option.some.inj htime
    cases hsince : r.missingSince with
    | none =>
        rw [(h.fresh hsince).1]
        rfl
    | some first =>
        rw [List.head?_append, h.since first hsince]
        rfl
  · have hcount := h.count
    show r.missingCount + 1 ≤ _
    rw [List.length_append, List.length_singleton]
    push_cast
    omega

/-- … and on one that does not. -/
theorem Backed.omit (h : Backed omitted r) (hstatus : r.status.expected = false) : Backed (omitted ++ [seenTs]) r := by
  refine ⟨fun hnone => ?_, fun time htime => ?_, ?_⟩
  · rw [(h.fresh hnone).2.2] at hstatus
    cases hstatus
  · rw [List.head?_append, h.since time htime]
    rfl
  · have hcount := h.count
    rw [List.length_append]
    push_cast
    omega

/-- **What a confirmed move rests on.** -/
structure Confirmed (m : Migration) (omitted : List Int) (r : PresenceRow) (seenTs : Int) : Prop where
  some_omitted : omitted ≠ []
  counted : r.missingCount ≤ omitted.length
  enough : m.confirmPushes ≤ r.missingCount ∨ ∃ first, omitted.head? = some first ∧ m.confirmSeconds ≤ seenTs - first

theorem Backed.confirmed (h : Backed omitted r) (henough : (oldNodeMissingEnough m (some r) seenTs).1 = true) :
    r.status.expected = false ∧ Confirmed m omitted r seenTs := by
  unfold oldNodeMissingEnough at henough
  dsimp only at henough
  split at henough
  · next hpushes =>
      obtain ⟨hgone, hpushes⟩ := hpushes
      refine ⟨by rcases hgone with h | h | h <;> rw [h] <;> rfl, fun hempty => ?_, h.count, Or.inl hpushes⟩
      have hone := m.one_le_pushes
      have hcount := h.count
      simp only [hempty, List.length_nil] at hcount
      omega
  · split at henough
    · next hseconds =>
        obtain ⟨hgone, hne, hseconds⟩ := hseconds
        cases hsince : r.missingSince with
        | none =>
            rw [hsince] at hne
            exact absurd rfl hne
        | some first =>
            rw [hsince, Option.getD_some] at hseconds
            have hhead := h.since first hsince
            refine ⟨by rcases hgone with h | h | h <;> rw [h] <;> rfl, fun hempty => ?_, h.count,
              Or.inr ⟨first, hhead, hseconds⟩⟩
            rw [hempty] at hhead
            cases hhead
    · cases henough

end Row

/-! ## The transition -/

section Transition

variable {m : Migration} {node : String} {seenTs : Int} {t : Tables} {item : String × Loc}

/-- **Who has moved is marked migrated where it was.** -/
theorem createOrUpdateLocation_moved {old row : LocationRow} (hold : t.location.get? item.1 = some old) (hne : old.node ≠ node)
    (hrow : (createOrUpdateLocation m node seenTs t item).location.get? item.1 = some row) (hnode : row.node = node) :
    ∃ r, (createOrUpdateLocation m node seenTs t item).presence.get? (item.1, old.node) = some r ∧ r.status = .migrated := by
  obtain ⟨vm, loc⟩ := item
  unfold createOrUpdateLocation at hrow ⊢
  dsimp only at hold hrow ⊢
  rw [hold] at hrow ⊢
  dsimp only at hrow ⊢
  rw [if_neg hne] at hrow ⊢
  split at hrow
  · next hconfirmed =>
      rw [if_pos hconfirmed]
      -- A move is only confirmed by a row of the old node.
      cases hr : t.presence.get? (vm, old.node) with
      | none =>
          rw [hr] at hconfirmed
          cases hconfirmed
      | some r =>
          exact ⟨{ r with
            status := .migrated, migratedTo := some node, migratedAt := some seenTs, alertFlags := .migratedTo node },
            (KeyedTable.get?_modify_self ..).trans (by rw [hr]; rfl), rfl⟩
  · rw [KeyedTable.get?_modify_self, hold] at hrow
    obtain rfl := Option.some.inj hrow
    exact absurd hnode hne

end Transition

/-! ## One step -/

section Step

variable {m : Migration} {now : Int} {p : InventoryPush} {d d' : Fleet}

/-- A push is the presence writer, then the automatic purge. -/
theorem push_eq_some (h : d.push m now p = some d') :
    ∃ tables n, processNodeVmPresence m p.node p.seenVmLocations p.time p.inventoryComplete d.tables = some (tables, n) ∧
      d'.tables = (autoPurgeMigratedVms m now { d with tables }).tables ∧ d'.history = d.history ++ [p] := by
  unfold Fleet.push at h
  obtain ⟨⟨tables, n⟩, hprocess, h⟩ := Option.bind_eq_some_iff.mp h
  obtain rfl := Option.some.inj h
  exact ⟨tables, n, hprocess, rfl, rfl⟩

theorem reports_iff {vm : String} :
    p.reports vm = true ↔ ∃ entry ∈ p.seenVmLocations.filterMap named, entry.1 = vm := by
  rw [(wellSeen_seenVmLocations p).filterMap_named, InventoryPush.reports, decide_eq_true_iff, List.mem_map]

/-- **The same of the whole writer.** -/
theorem process_moved {node vm : String} {seen : List (String × Loc)} {seenTs : Int} {complete : Bool} {t t' : Tables}
    {n : Option Nat} {old row : LocationRow} (h : processNodeVmPresence m node seen seenTs complete t = some (t', n))
    (hold : t.location.get? vm = some old) (hne : old.node ≠ node) (hrow : t'.location.get? vm = some row)
    (hnode : row.node = node) : ∃ r, t'.presence.get? (vm, old.node) = some r ∧ r.status = .migrated := by
  by_cases hseen : ∃ item ∈ seen.filterMap named, item.1 = vm
  · obtain ⟨item, hitem, rfl⟩ := hseen
    have hview := view_process_seen h hitem
    -- The location is written after the presence row of the item.
    have hwritten : (createOrUpdateLocation m node seenTs (presenceUpsertSeen node seenTs t item) item).location.get? item.1 =
        some row := (congrArg VmView.location hview).symm.trans hrow
    have hbefore : (presenceUpsertSeen node seenTs t item).location.get? item.1 = some old := hold
    obtain ⟨r, hr, hstatus⟩ := createOrUpdateLocation_moved hbefore hne hwritten hnode
    exact ⟨r, (congrFun (congrArg VmView.presence hview) old.node).trans hr, hstatus⟩
  · have hview := view_process_unseen h fun item hitem heq => hseen ⟨item, hitem, heq.symm⟩
    have hkept : (Tables.view vm (if complete then markMissing node [] seenTs t else t)).location = t.location.get? vm := by
      split <;> rfl
    have hsame := (congrArg VmView.location hview).symm.trans hrow
    rw [hkept, hold] at hsame
    obtain rfl := Option.some.inj hsame
    exact absurd hnode hne

theorem presence_markMissing {vm node node' : String} {seenTs : Int} {complete : Bool} {t : Tables} {r' : PresenceRow}
    (h : (if complete then markMissing node [] seenTs t else t).presence.get? (vm, node') = some r') :
    ∃ r, t.presence.get? (vm, node') = some r ∧
      r' = if complete = true ∧ node' = node ∧ r.status.expected = true then
        r.markMissing seenTs (r.missingSince.getD seenTs) else r := by
  cases complete with
  | false => exact ⟨r', h, rfl⟩
  | true =>
      change (t.presence.update _).get? _ = _ at h
      rw [KeyedTable.get?_update] at h
      obtain ⟨r, hr, rfl⟩ := Option.map_eq_some_iff.mp h
      refine ⟨r, hr, ?_⟩
      simp

/-- Rows that a step keeps, or marks purged once they are migrated, stay backed. -/
theorem AllBacked.of_rows (hd : AllBacked d) (hhistory : d'.history = d.history)
    (h : ∀ key r', d'.tables.presence.get? key = some r' → ∃ r, d.tables.presence.get? key = some r ∧
      r'.missingSince = r.missingSince ∧ r'.missingCount = r.missingCount ∧
      (r'.status = r.status ∨ r.status.expected = false)) : AllBacked d' := by
  intro vm node r' hr'
  obtain ⟨r, hr, hsince, hcount, hstatus⟩ := h _ r' hr'
  have hbacked := hd vm node r hr
  rw [hhistory]
  apply hbacked.congr hsince hcount
  rcases hstatus with heq | hnot
  · rw [heq]
    cases r.status.expected
    · exact Or.inr rfl
    · exact Or.inl rfl
  · exact Or.inr hnot

theorem mem_purgeable {key : String × String} {t : Tables} (hkey : key ∈ purgeable m now t) :
    ∃ r, t.presence.get? key = some r ∧ r.status = .migrated := by
  obtain ⟨row, hrow, rfl⟩ := List.mem_map.mp (List.mem_mergeSort.mp (List.mem_of_mem_take hkey))
  obtain ⟨hmem, hcond⟩ := List.mem_filter.mp hrow
  simp only [Bool.and_eq_true, decide_eq_true_eq] at hcond
  exact ⟨row.2, KeyedTable.get?_of_mem_rows hmem, hcond.1.1⟩

theorem purgeable_migrated {key : String × String} {r : PresenceRow} {t : Tables} (hkey : key ∈ purgeable m now t)
    (hr : t.presence.get? key = some r) : r.status = .migrated := by
  obtain ⟨r', hr', hstatus⟩ := mem_purgeable hkey
  obtain rfl := Option.some.inj (hr.symm.trans hr')
  exact hstatus

/-- A purge leaves who has migrated away. -/
theorem purge_not_live {key : String × String} {r : PresenceRow} {rows : List (String × String)} {t : Tables}
    (hr : t.presence.get? key = some r) (hstatus : r.status = .migrated) :
    ∃ r', (t.purge now rows).presence.get? key = some r' ∧ r'.status.live = false := by
  have hget := KeyedTable.get?_update t.presence (fun key r =>
    if key ∈ rows then
      { r with status := .purged, purgedAt := some now, alertFlags := .purgedAfterMigrationTo r.migratedTo }
    else r) key
  rw [hr] at hget
  refine ⟨_, hget, ?_⟩
  dsimp only
  split
  · rfl
  · rw [hstatus]
    rfl

theorem autoPurge_rows {key : String × String} {r' : PresenceRow}
    (h : (autoPurgeMigratedVms m now d).tables.presence.get? key = some r') :
    ∃ r, d.tables.presence.get? key = some r ∧
      ((r' = r) ∨ (r.status = .migrated ∧ r'.status = .purged ∧ r'.missingSince = r.missingSince ∧
        r'.missingCount = r.missingCount)) := by
  change (d.tables.presence.update _).get? _ = _ at h
  rw [KeyedTable.get?_update] at h
  obtain ⟨r, hr, rfl⟩ := Option.map_eq_some_iff.mp h
  refine ⟨r, hr, ?_⟩
  split
  · next hkey => exact Or.inr ⟨purgeable_migrated hkey hr, rfl, rfl, rfl⟩
  · exact Or.inl rfl

theorem AllBacked.autoPurge (hd : AllBacked d) : AllBacked (autoPurgeMigratedVms m now d) := by
  refine hd.of_rows rfl fun key r' hr' => ?_
  obtain ⟨r, hr, rfl | ⟨hmigrated, -, hsince, hcount⟩⟩ := autoPurge_rows hr'
  · exact ⟨_, hr, rfl, rfl, Or.inl rfl⟩
  · exact ⟨r, hr, hsince, hcount, Or.inr (by rw [hmigrated]; rfl)⟩

/-- The repair moves locations only. -/
theorem repair_other (rank : Candidate → Nat) (removed : String) (vms : List String) (d : Fleet) :
    (vms.foldl (repairVmLocationAfterPurge rank now removed) d).tables.presence = d.tables.presence ∧
    (vms.foldl (repairVmLocationAfterPurge rank now removed) d).history = d.history := by
  induction vms generalizing d with
  | nil => exact ⟨rfl, rfl⟩
  | cons vm rest ih =>
      obtain ⟨hpresence, hhistory⟩ := ih (repairVmLocationAfterPurge rank now removed d vm)
      rw [List.foldl_cons, hpresence, hhistory]
      unfold repairVmLocationAfterPurge
      split
      · exact ⟨rfl, rfl⟩
      · split
        · split <;> exact ⟨rfl, rfl⟩
        · split <;> exact ⟨rfl, rfl⟩

end Step

/-! ## Moves -/

section Moves

variable {m : Migration} {now : Int} {p : InventoryPush} {d d' : Fleet} {vm oldNode newNode : String}

end Moves

end VirtInfra.Inventory
