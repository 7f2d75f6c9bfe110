import VirtInfra.Inventory.Presence
import VirtInfra.Lib.PerKey

/-!
# `View` — the presence writer, VM by VM

What the tables say about one VM is its `view`. Each statement of the writer that names a VM touches and reads that view
alone, so the writer does to a VM what its own steps do, whatever else the push lists (`view_process_seen`,
`view_process_unseen`).
-/

namespace VirtInfra.Inventory

open Lib Python

/-! ## The inventory of a push -/

/-- **The entries are read as they stand**: named VMs, each once. -/
structure WellSeen (seen : List (String × Loc)) : Prop where
  nodup : (seen.map Prod.fst).Nodup
  entries : ∀ item ∈ seen, named item = some item

@[simp] theorem orDash_orDash (s : String) : orDash (orDash s) = orDash s := by
  unfold orDash
  by_cases h : s = "" <;> simp [h]

theorem WellSeen.addSeen {seen : List (String × Loc)} (h : WellSeen seen) (vmUuid : String) {loc : Loc}
    (hiface : orDash loc.iface = loc.iface) (hbridge : orDash loc.bridge = loc.bridge) :
    WellSeen (addSeen seen vmUuid loc) := by
  unfold Inventory.addSeen
  dsimp only
  split
  · exact h
  · next hnew =>
      rw [not_or, not_or] at hnew
      obtain ⟨hblank, hdash, hfresh⟩ := hnew
      constructor
      · rw [List.map_append, List.map_singleton]
        refine List.nodup_append.mpr ⟨h.nodup, List.nodup_singleton _, ?_⟩
        intro vm hvm vm' hmem heq
        obtain rfl := List.mem_singleton.mp hmem
        subst heq
        exact hfresh hvm
      · intro item hitem
        rcases List.mem_append.mp hitem with hold | hlast
        · exact h.entries item hold
        · obtain rfl := List.mem_singleton.mp hlast
          simp [named, hblank, hdash, hiface, hbridge]

theorem WellSeen.foldl {α : Type} {seen : List (String × Loc)} (h : WellSeen seen) (items : List α)
    (vmUuid : α → String) (loc : α → Loc) (hiface : ∀ a, orDash (loc a).iface = (loc a).iface)
    (hbridge : ∀ a, orDash (loc a).bridge = (loc a).bridge) :
    WellSeen (items.foldl (fun seen a => Inventory.addSeen seen (vmUuid a) (loc a)) seen) := by
  induction items generalizing seen with
  | nil => exact h
  | cons a rest ih => exact ih (h.addSeen (vmUuid a) (hiface a) (hbridge a))

/-- What the endpoint hands to the writer. -/
theorem wellSeen_seenVmLocations (p : InventoryPush) : WellSeen p.seenVmLocations := by
  have hdash : orDash "-" = "-" := by decide
  have hempty : WellSeen [] := ⟨List.nodup_nil, fun _ h => absurd h List.not_mem_nil⟩
  unfold InventoryPush.seenVmLocations
  have hifaces := hempty.foldl p.interfaces SeenItem.vmUuid (fun i => ⟨orDash i.iface, orDash i.bridge⟩)
    (fun _ => orDash_orDash _) fun _ => orDash_orDash _
  have hvms := hifaces.foldl p.vms id (fun _ => {}) (fun _ => hdash) fun _ => hdash
  exact hvms.foldl p.vmInventory SeenItem.vmUuid (fun i => ⟨orDash i.iface, orDash i.bridge⟩)
    (fun _ => orDash_orDash _) fun _ => orDash_orDash _

theorem WellSeen.loc_eq {seen : List (String × Loc)} (h : WellSeen seen) {item : String × Loc} (hitem : item ∈ seen) :
    (⟨orDash item.2.iface, orDash item.2.bridge⟩ : Loc) = item.2 := by
  have hentry := h.entries item hitem
  unfold named at hentry
  dsimp only at hentry
  split at hentry
  · cases hentry
  · exact congrArg Prod.snd (Option.some.inj hentry)

theorem WellSeen.filterMap_named {seen : List (String × Loc)} (h : WellSeen seen) : seen.filterMap named = seen := by
  rw [List.filterMap_congr h.entries]
  exact List.filterMap_some

/-! ## Views -/

/-- **All the tables hold on one VM.** -/
@[ext] structure VmView where
  presence : String → Option PresenceRow
  inventory : String → Option InventoryRow
  location : Option LocationRow
  events : List MigrationEvent

def Tables.view (vm : String) (t : Tables) : VmView where
  presence node := t.presence.get? (vm, node)
  inventory node := t.inventory.get? (node, vm)
  location := t.location.get? vm
  events := t.events.filter fun e => e.vmUuid = vm

variable {m : Migration} {node vm : String} {seenTs : Int} {t t' : Tables} {item : String × Loc}

/-! ## The steps that name a VM -/

theorem perKey_presenceUpsertSeen (node : String) (seenTs : Int) :
    PerKey (Prod.fst : String × Loc → String) Tables.view (presenceUpsertSeen node seenTs) where
  other item vm t hne := by
    ext1
    · funext n
      exact KeyedTable.get?_upsert_of_ne _ _ _ fun h => hne (Prod.mk.inj h).1
    · funext n
      exact KeyedTable.get?_upsert_of_ne _ _ _ fun h => hne (Prod.mk.inj h).2
    · rfl
    · rfl
  own item t t' heq := by
    obtain ⟨hpresence, hinventory, hlocation, hevents⟩ := VmView.ext_iff.mp heq
    ext1
    · funext n
      have hn := congrFun hpresence n
      show (t.presence.upsert _ _ _).get? _ = (t'.presence.upsert _ _ _).get? _
      change t.presence.get? _ = t'.presence.get? _ at hn
      by_cases hk : (item.1, n) = (item.1, node)
      · rw [hk] at hn ⊢
        rw [KeyedTable.get?_upsert_self, KeyedTable.get?_upsert_self, hn]
      · rw [KeyedTable.get?_upsert_of_ne _ _ _ hk, KeyedTable.get?_upsert_of_ne _ _ _ hk, hn]
    · funext n
      have hn := congrFun hinventory n
      show (t.inventory.upsert _ _ _).get? _ = (t'.inventory.upsert _ _ _).get? _
      change t.inventory.get? _ = t'.inventory.get? _ at hn
      by_cases hk : (n, item.1) = (node, item.1)
      · rw [hk] at hn ⊢
        rw [KeyedTable.get?_upsert_self, KeyedTable.get?_upsert_self, hn]
      · rw [KeyedTable.get?_upsert_of_ne _ _ _ hk, KeyedTable.get?_upsert_of_ne _ _ _ hk, hn]
    · exact hlocation
    · exact hevents

/-- The test of `NOT EXISTS` reads the events of its own VM. -/
theorem any_filter_vm (e : MigrationEvent) (events : List MigrationEvent) :
    (events.any fun old => old.vmUuid = e.vmUuid && old.oldNode = e.oldNode && old.newNode = e.newNode &&
        decide (old.time ≥ e.time - 86400)) =
      (events.filter fun old => old.vmUuid = e.vmUuid).any fun old =>
        old.oldNode = e.oldNode && old.newNode = e.newNode && decide (old.time ≥ e.time - 86400) := by
  rw [List.any_filter]
  congr 1
  funext old
  simp only [Bool.and_assoc]

theorem filter_insertEvent_other {e : MigrationEvent} {events : List MigrationEvent} (h : e.vmUuid ≠ vm) :
    ((insertEvent e events).filter fun old => old.vmUuid = vm) = events.filter fun old => old.vmUuid = vm := by
  unfold insertEvent
  split
  · rfl
  · simp [List.filter_append, h]

theorem filter_insertEvent_own {e : MigrationEvent} {events events' : List MigrationEvent} (hvm : e.vmUuid = vm)
    (h : (events.filter fun old => old.vmUuid = vm) = events'.filter fun old => old.vmUuid = vm) :
    ((insertEvent e events).filter fun old => old.vmUuid = vm) =
      (insertEvent e events').filter fun old => old.vmUuid = vm := by
  subst hvm
  unfold insertEvent
  rw [any_filter_vm, any_filter_vm, h]
  split
  · exact h
  · simp [List.filter_append, h]

/-- Another VM's row is not the row of `vm`. -/
theorem other_presence {a b : String} (h : vm ≠ item.1) : (vm, a) ≠ (item.1, b) := fun heq => h (Prod.mk.inj heq).1

theorem other_inventory {a b : String} (h : vm ≠ item.1) : (a, vm) ≠ (b, item.1) := fun heq => h (Prod.mk.inj heq).2

theorem createOrUpdateLocation_other (h : vm ≠ item.1) :
    (createOrUpdateLocation m node seenTs t item).view vm = t.view vm := by
  obtain ⟨vm', loc⟩ := item
  unfold createOrUpdateLocation
  dsimp only
  split
  · -- A first location.
    ext1
    · rfl
    · rfl
    · exact KeyedTable.get?_upsert_of_ne _ _ _ h
    · rfl
  · split
    · -- Seen where it is located.
      ext1
      · rfl
      · rfl
      · exact KeyedTable.get?_modify_of_ne _ _ h
      · rfl
    · split
      · -- A confirmed move.
        ext1
        · funext n
          exact KeyedTable.get?_modify_of_ne _ _ (other_presence h)
        · funext n
          exact KeyedTable.get?_modify_of_ne _ _ (other_inventory h)
        · exact KeyedTable.get?_modify_of_ne _ _ h
        · exact filter_insertEvent_other (Ne.symm h)
      · -- A pending one.
        ext1
        · funext n
          show ((t.presence.modify _ _).modify _ _).get? _ = _
          rw [KeyedTable.get?_modify_of_ne _ _ (other_presence h), KeyedTable.get?_modify_of_ne _ _ (other_presence h)]
          rfl
        · funext n
          show ((t.inventory.modify _ _).modify _ _).get? _ = _
          rw [KeyedTable.get?_modify_of_ne _ _ (other_inventory h), KeyedTable.get?_modify_of_ne _ _ (other_inventory h)]
          rfl
        · exact KeyedTable.get?_modify_of_ne _ _ h
        · rfl

theorem createOrUpdateLocation_own (h : t.view item.1 = t'.view item.1) :
    (createOrUpdateLocation m node seenTs t item).view item.1 =
      (createOrUpdateLocation m node seenTs t' item).view item.1 := by
  obtain ⟨vm, loc⟩ := item
  obtain ⟨hpresence, hinventory, hlocation, hevents⟩ := VmView.ext_iff.mp h
  have hp : ∀ n, t.presence.get? (vm, n) = t'.presence.get? (vm, n) := fun n => congrFun hpresence n
  have hi : ∀ n, t.inventory.get? (n, vm) = t'.inventory.get? (n, vm) := fun n => congrFun hinventory n
  have hl : t.location.get? vm = t'.location.get? vm := hlocation
  unfold createOrUpdateLocation
  dsimp only
  rw [← hl]
  cases hold : t.location.get? vm with
  | none =>
      ext1
      · exact hpresence
      · exact hinventory
      · show (t.location.upsert _ _ _).get? vm = (t'.location.upsert _ _ _).get? vm
        rw [KeyedTable.get?_upsert_self, KeyedTable.get?_upsert_self, hl]
      · exact hevents
  | some old =>
      dsimp only
      rw [← hp old.node]
      split
      · ext1
        · exact hpresence
        · exact hinventory
        · show (t.location.modify _ _).get? vm = (t'.location.modify _ _).get? vm
          rw [KeyedTable.get?_modify_self, KeyedTable.get?_modify_self, hl]
        · exact hevents
      · split
        · ext1
          · funext n
            show (t.presence.modify _ _).get? _ = (t'.presence.modify _ _).get? _
            rw [KeyedTable.get?_modify, KeyedTable.get?_modify, hp n]
          · funext n
            show (t.inventory.modify _ _).get? _ = (t'.inventory.modify _ _).get? _
            rw [KeyedTable.get?_modify, KeyedTable.get?_modify, hi n]
          · show (t.location.modify _ _).get? vm = (t'.location.modify _ _).get? vm
            rw [KeyedTable.get?_modify_self, KeyedTable.get?_modify_self, hl]
          · show ((insertEvent _ t.events).filter fun e => e.vmUuid = vm) =
              (insertEvent _ t'.events).filter fun e => e.vmUuid = vm
            exact filter_insertEvent_own rfl hevents
        · ext1
          · funext n
            show ((t.presence.modify _ _).modify _ _).get? _ = ((t'.presence.modify _ _).modify _ _).get? _
            simp only [KeyedTable.get?_modify, hp n]
          · funext n
            show ((t.inventory.modify _ _).modify _ _).get? _ = ((t'.inventory.modify _ _).modify _ _).get? _
            simp only [KeyedTable.get?_modify, hi n]
          · show (t.location.modify _ _).get? vm = (t'.location.modify _ _).get? vm
            rw [KeyedTable.get?_modify_self, KeyedTable.get?_modify_self, hl]
          · exact hevents

theorem perKey_createOrUpdateLocation (m : Migration) (node : String) (seenTs : Int) :
    PerKey (Prod.fst : String × Loc → String) Tables.view (createOrUpdateLocation m node seenTs) where
  other _ _ _ hne := createOrUpdateLocation_other hne
  own _ _ _ heq := createOrUpdateLocation_own heq

/-! ## The statements in sets -/

theorem markMissing_staged {staged : List String} (h : vm ∈ staged) :
    (markMissing node staged seenTs t).view vm = t.view vm := by
  ext1
  · funext n
    show ((t.presence.update _).get? (vm, n)) = _
    rw [KeyedTable.get?_update]
    simp [h, Tables.view]
  · funext n
    show ((t.inventory.update _).get? (n, vm)) = _
    rw [KeyedTable.get?_update]
    simp [h, Tables.view]
  · rfl
  · rfl

/-- What is marked missing of a VM outside the stage depends on the VM alone. -/
theorem markMissing_unstaged {staged : List String} (h : t.view vm = t'.view vm) (hvm : vm ∉ staged) :
    (markMissing node staged seenTs t).view vm = (markMissing node [] seenTs t').view vm := by
  obtain ⟨hpresence, hinventory, hlocation, hevents⟩ := VmView.ext_iff.mp h
  have hp : ∀ n, t.presence.get? (vm, n) = t'.presence.get? (vm, n) := fun n => congrFun hpresence n
  have hi : ∀ n, t.inventory.get? (n, vm) = t'.inventory.get? (n, vm) := fun n => congrFun hinventory n
  ext1
  · funext n
    show (t.presence.update _).get? (vm, n) = (t'.presence.update _).get? (vm, n)
    rw [KeyedTable.get?_update, KeyedTable.get?_update, hp n]
    simp [hvm]
  · funext n
    show (t.inventory.update _).get? (n, vm) = (t'.inventory.update _).get? (n, vm)
    rw [KeyedTable.get?_update, KeyedTable.get?_update, hi n]
    simp [hvm, hp]
  · exact hlocation
  · exact hevents

theorem insertLocations_other {rows : List (String × Loc)} (h : ∀ item ∈ rows, vm ≠ item.1) :
    (insertLocations node seenTs rows t).view vm = t.view vm := by
  ext1
  · rfl
  · rfl
  · exact KeyedTable.get?_foldl_upsert_of_ne _ _ _ h
  · rfl

theorem refreshLocations_other {rows : List (String × Loc)} (h : ∀ item ∈ rows, vm ≠ item.1) :
    (refreshLocations node seenTs rows t).view vm = t.view vm := by
  have hfind : rows.find? (fun item => item.1 = vm) = none := by
    rw [List.find?_eq_none]
    intro item hitem
    simpa using Ne.symm (h item hitem)
  ext1
  · rfl
  · rfl
  · show (t.location.update _).get? vm = t.location.get? vm
    rw [KeyedTable.get?_update]
    simp [hfind]
  · rfl

section Staged

variable {rows : List (String × Loc)} (hnodup : (rows.map Prod.fst).Nodup) (hitem : item ∈ rows)

include hnodup hitem

theorem find?_staged : rows.find? (fun other => other.1 = item.1) = some item := by
  have hget : (⟨rows, hnodup⟩ : KeyedTable String Loc).get? item.1 = some item.2 := KeyedTable.get?_of_mem_rows hitem
  obtain ⟨other, hfind, hloc⟩ := Option.map_eq_some_iff.mp hget
  have hkey : other.1 = item.1 := by simpa using List.find?_some hfind
  rw [show item = other from Prod.ext hkey.symm hloc.symm] at hfind ⊢
  exact hfind

theorem get?_insertLocations : (insertLocations node seenTs rows t).location.get? item.1 =
    some ((t.location.get? item.1).getD
      { node, firstSeen := seenTs, lastSeen := seenTs, previousNode := none, movedAt := none, moveCount := 0
        lastIface := item.2.iface, lastBridge := item.2.bridge, alertLevel := .ok, alertFlags := .none }) := by
  refine (KeyedTable.get?_foldl_upsert_self _ _ t.location hnodup hitem).trans ?_
  cases t.location.get? item.1 <;> rfl

/-- The set writer's insert and update do to a VM without a location, or located on the node, what the transition does. -/
theorem refreshLocations_here (h : (t.location.get? item.1).all fun old => old.node = node) :
    (refreshLocations node seenTs rows (insertLocations node seenTs rows t)).view item.1 =
      (createOrUpdateLocation m node seenTs t item).view item.1 := by
  have hrefresh : (refreshLocations node seenTs rows (insertLocations node seenTs rows t)).location.get? item.1 = _ :=
    KeyedTable.get?_update _ _ _
  rw [get?_insertLocations hnodup hitem, find?_staged hnodup hitem] at hrefresh
  unfold createOrUpdateLocation
  dsimp only
  cases hold : t.location.get? item.1 with
  | none =>
      ext1
      · rfl
      · rfl
      · show _ = (t.location.upsert _ _ _).get? item.1
        refine hrefresh.trans ?_
        rw [KeyedTable.get?_upsert_self, hold]
        simp
      · rfl
  | some old =>
      rw [hold] at h
      have hnode : old.node = node := by simpa using h
      dsimp only
      rw [if_pos hnode]
      ext1
      · rfl
      · rfl
      · show _ = (t.location.modify _ _).get? item.1
        refine hrefresh.trans ?_
        rw [KeyedTable.get?_modify_self, hold]
        simp [hnode]
      · rfl

/-- … and leave a VM located elsewhere alone. -/
theorem refreshLocations_elsewhere {old : LocationRow} (hold : t.location.get? item.1 = some old) (hne : old.node ≠ node) :
    (refreshLocations node seenTs rows (insertLocations node seenTs rows t)).view item.1 = t.view item.1 := by
  have hrefresh : (refreshLocations node seenTs rows (insertLocations node seenTs rows t)).location.get? item.1 = _ :=
    KeyedTable.get?_update _ _ _
  rw [get?_insertLocations hnodup hitem, find?_staged hnodup hitem, hold] at hrefresh
  ext1
  · rfl
  · rfl
  · refine hrefresh.trans ?_
    simp [hne, Tables.view, hold]
  · rfl

end Staged

/-! ## One push -/

/-- The state the transitions start from: the push's VMs are upserted, the missing ones marked. -/
def staged (node : String) (rows : List (String × Loc)) (seenTs : Int) (inventoryComplete : Bool) (t : Tables) : Tables :=
  let t := rows.foldl (presenceUpsertSeen node seenTs) t
  if inventoryComplete then markMissing node (rows.map Prod.fst) seenTs t else t

theorem view_staged_seen {rows : List (String × Loc)} (hnodup : (rows.map Prod.fst).Nodup) (hitem : item ∈ rows)
    (inventoryComplete : Bool) :
    (staged node rows seenTs inventoryComplete t).view item.1 = (presenceUpsertSeen node seenTs t item).view item.1 := by
  rw [← (perKey_presenceUpsertSeen node seenTs).foldl_own hnodup hitem]
  unfold staged
  split
  · exact markMissing_staged (List.mem_map_of_mem hitem)
  · rfl

theorem view_staged_unseen {rows : List (String × Loc)} (hvm : ∀ item ∈ rows, vm ≠ item.1) (inventoryComplete : Bool) :
    (staged node rows seenTs inventoryComplete t).view vm =
      (if inventoryComplete then markMissing node [] seenTs t else t).view vm := by
  have hupsert : (rows.foldl (presenceUpsertSeen node seenTs) t).view vm = t.view vm :=
    (perKey_presenceUpsertSeen node seenTs).foldl_other hvm
  unfold staged
  split
  · apply markMissing_unstaged hupsert
    intro hmem
    obtain ⟨item, hitem, rfl⟩ := List.mem_map.mp hmem
    exact hvm item hitem rfl
  · exact hupsert

/-- The VMs located elsewhere, in the order of their UUIDs. -/
def movedRows (node : String) (rows : List (String × Loc)) (t : Tables) : List (String × Loc) :=
  (rows.filter fun item => (t.location.get? item.1).any fun old => old.node ≠ node).mergeSort
    fun a b => decide (a.1 ≤ b.1)

theorem mem_movedRows {rows : List (String × Loc)} : item ∈ movedRows node rows t ↔
    item ∈ rows ∧ (t.location.get? item.1).any (fun old => old.node ≠ node) = true := by
  rw [movedRows, (List.mergeSort_perm _ _).mem_iff, List.mem_filter]

theorem nodup_movedRows {rows : List (String × Loc)} (hnodup : (rows.map Prod.fst).Nodup) :
    ((movedRows node rows t).map Prod.fst).Nodup := by
  rw [movedRows, ((List.mergeSort_perm _ _).map Prod.fst).nodup_iff]
  exact (List.filter_sublist.map Prod.fst).nodup hnodup

/-- What a successful run of the writer has done. -/
theorem process_eq_some {seen : List (String × Loc)} {inventoryComplete : Bool} {n : Option Nat}
    (h : processNodeVmPresence m node seen seenTs inventoryComplete t = some (t', n)) :
    ((seen.filterMap named).map Prod.fst).Nodup ∧ ∃ t₁, t₁ = staged node (seen.filterMap named) seenTs inventoryComplete t ∧
      t' = (movedRows node (seen.filterMap named) t₁).foldl (createOrUpdateLocation m node seenTs)
        (refreshLocations node seenTs (seen.filterMap named) (insertLocations node seenTs (seen.filterMap named) t₁)) := by
  unfold processNodeVmPresence at h
  dsimp only at h
  split at h
  · next hnodup =>
      obtain ⟨rfl, -⟩ := Prod.mk.inj (Option.some.inj h)
      exact ⟨hnodup, _, rfl, rfl⟩
  · cases h

section Process

variable {seen : List (String × Loc)} {inventoryComplete : Bool} {n : Option Nat}
  (h : processNodeVmPresence m node seen seenTs inventoryComplete t = some (t', n))

include h

/-- **A VM the push lists** goes through its own upsert and transition. -/
theorem view_process_seen (hitem : item ∈ seen.filterMap named) :
    t'.view item.1 = (createOrUpdateLocation m node seenTs (presenceUpsertSeen node seenTs t item) item).view item.1 := by
  obtain ⟨hnodup, t₁, ht₁, rfl⟩ := process_eq_some h
  generalize seen.filterMap named = rows at hitem hnodup ht₁ ⊢
  have hstaged : t₁.view item.1 = (presenceUpsertSeen node seenTs t item).view item.1 := by
    rw [ht₁]
    exact view_staged_seen hnodup hitem inventoryComplete
  rw [← createOrUpdateLocation_own hstaged]
  have hperKey := perKey_createOrUpdateLocation m node seenTs
  by_cases helsewhere : (t₁.location.get? item.1).any fun old => old.node ≠ node
  · -- Located elsewhere: the transition is the only statement that touches the VM.
    obtain ⟨old, hold, hne⟩ := (Option.any_eq_true ..).mp helsewhere
    rw [hperKey.foldl_own (nodup_movedRows hnodup) (mem_movedRows.mpr ⟨hitem, helsewhere⟩)]
    exact hperKey.own item _ _ (refreshLocations_elsewhere hnodup hitem hold (by simpa using hne))
  · -- Without a location, or located on the node: no transition is left.
    rw [hperKey.foldl_other fun other hother hkey => ?_]
    · apply refreshLocations_here hnodup hitem
      cases hold : t₁.location.get? item.1 with
      | none => rfl
      | some old => simpa [hold] using helsewhere
    · have hmoved := (mem_movedRows.mp hother).2
      rw [← hkey] at hmoved
      exact helsewhere hmoved

/-- **A VM the push does not list** is at most marked missing. -/
theorem view_process_unseen {vm : String} (hvm : ∀ item ∈ seen.filterMap named, vm ≠ item.1) :
    t'.view vm = (if inventoryComplete then markMissing node [] seenTs t else t).view vm := by
  obtain ⟨-, t₁, rfl, rfl⟩ := process_eq_some h
  generalize seen.filterMap named = rows at hvm ⊢
  rw [(perKey_createOrUpdateLocation m node seenTs).foldl_other fun other hother => ?_]
  · rw [refreshLocations_other hvm, insertLocations_other hvm]
    exact view_staged_unseen hvm inventoryComplete
  · exact hvm other (mem_movedRows.mp hother).1

end Process

end VirtInfra.Inventory
