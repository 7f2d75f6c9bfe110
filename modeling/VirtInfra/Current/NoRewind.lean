import VirtInfra.Current.Writers
import VirtInfra.Consumption.Ledger
import VirtInfra.Inventory.Evidence

/-!
# `NoRewind` — a late push against newer current rows

The guarded writers compare row by row: a push leaves alone every row of `vm_current_fast`, `vm_iface_current`,
`vm_latest_metrics`, `vm_disk_current`, `node_storage_current`, `node_current_fast` and `vm_abuse_state` that is newer
than itself, and its bytes are counted whatever its age (`late_push_keeps_newer`). Only the rows of `vm_latest_metrics`
of a VM that has migrated away are marked and purged by pushes of any age. A row that is older than a late push, or
missing, it does write; and the tables without a guard it always writes (`late_push_writes`).
-/

namespace VirtInfra.Current

open Lib Python Consumption Agent

/-! ## Runs -/

inductive Label
  | push (receivedNow : Int) (p : Payload)
  | retention (table : RollupTable) (cutoff : Int)
  | deleteReceipts (cutoff : Int)
  | savePolicy (values : Abuse.PolicyValues) (now : Int)
  | autoPurge (now : Int)

def step (m : Inventory.Migration) (cfg : Config) (d : Database) : Label → Option Database
  | .push receivedNow p => push m cfg receivedNow p d
  | .retention table cutoff => some { d with monitor := Consumption.step cfg d.monitor (.delete table cutoff) }
  | .deleteReceipts cutoff => some { d with monitor := Consumption.step cfg d.monitor (.deleteReceipts cutoff) }
  | .savePolicy values now => some { d with store := Abuse.savePolicy values now d.store }
  | .autoPurge now => some (autoPurge m now d)

def Database.init (policy : Abuse.Policy) : Database :=
  { monitor := Monitor.init, store := Abuse.Store.init policy, presence := Inventory.Tables.empty, tables := Tables.empty }

/-- The monitor under one configuration. -/
def currentSystem (m : Inventory.Migration) (cfg : Config) : System Database Label where
  init d := ∃ policy, d = Database.init policy
  step := step m cfg

/-! ## What a late push may not do -/

/-- A VM has moved away from a node, or has been purged there since. -/
def MigratedAway (t : Inventory.Tables) (node vm : String) : Prop :=
  ∃ r, t.presence.get? (vm, node) = some r ∧ r.status.live = false

/-- **Every guarded row newer than `time` is as it was**, but for the latest metrics of VMs that have migrated away. -/
structure NewerKept (time : Int) (d d' : Database) : Prop where
  vm : ∀ key row, d.store.current.get? key = some row → time < row.lastSeen → d'.store.current.get? key = some row
  abuse : ∀ key row, d.store.abuse.get? key = some row → time < row.lastSeen → d'.store.abuse.get? key = some row
  iface : ∀ key row, d.tables.iface.get? key = some row → time < row.lastSeen → d'.tables.iface.get? key = some row
  latest : ∀ key row, d.tables.latest.get? key = some row → time < row.lastSeen →
    ¬ MigratedAway d'.presence key.1 key.2 → d'.tables.latest.get? key = some row
  disk : ∀ key row, d.tables.disk.get? key = some row → time < row.lastSeen → d'.tables.disk.get? key = some row
  storage : ∀ key row, d.tables.storage.get? key = some row → time < row.lastSeen →
    d'.tables.storage.get? key = some row
  node : ∀ key row, d.tables.node.get? key = some row → time < row.lastSeen → d'.tables.node.get? key = some row

/-- **The bytes of a push are in the daily rows**: those of any selection of VMs, and those of every node column. -/
structure Counted (off : Int) (s : Sample) (t t' : RollupTables) : Prop where
  vm : ∀ (who : Selector) (dir : Direction) (lo hi : Int), lo ≤ localDayStart off (slotOf s.dataTime) →
    localDayStart off (slotOf s.dataTime) < hi →
    (t'.vmDaily.sumOf (vmKeyIn who lo hi) fun row => row.deltas.bytes dir) =
      (t.vmDaily.sumOf (vmKeyIn who lo hi) fun row => row.deltas.bytes dir) + vmBytes off who dir s
  node : ∀ (node : String) (column : NodeColumn) (lo hi : Int), lo ≤ localDayStart off (rollupTime column.meter s) →
    localDayStart off (rollupTime column.meter s) < hi →
    (t'.nodeDaily.sumOf (nodeKeyIn node lo hi) fun row => row.bytes column) =
      (t.nodeDaily.sumOf (nodeKeyIn node lo hi) fun row => row.bytes column) + nodeBytes off node column s

theorem counted_writeSample (off : Int) (s : Sample) {t : RollupTables} (hpacked : t.Packed) :
    Counted off s t (writeSample off s t) where
  vm who dir lo hi hlo hhi := by
    have hledger := @vmDailyLedger off who dir lo hi (fun _ _ => True) fun _ _ _ => trivial
    have hwrite := hledger.write t s hpacked
    rwa [if_pos ⟨hlo, hhi⟩] at hwrite
  node node column lo hi hlo hhi := by
    have hledger := @nodeDailyLedger off node column lo hi (fun _ _ => True) fun _ _ _ => trivial
    have hwrite := hledger.write t s hpacked
    rwa [if_pos ⟨hlo, hhi⟩] at hwrite

/-! ## The guarded writers, one by one -/

section

variable {s : Sample} {p : Payload} {t t' : Tables}

/-- A delete of what the push did not refresh misses the newer rows. -/
theorem not_older {time lastSeen : Int} {b : Bool} (h : time < lastSeen) : (b && decide (lastSeen < time)) = false := by
  have hnot : ¬ lastSeen < time := by omega
  simp [hnot]

theorem latest_kept {key : String × String} {row : LatestMetrics} (hrow : t.latest.get? key = some row)
    (hnewer : s.dataTime < row.lastSeen) : (mergeLatestMetrics p s t).latest.get? key = some row := by
  unfold mergeLatestMetrics
  dsimp only
  generalize t.latest = table at hrow
  induction (p.vmPush s).vmUuids (p.vms.getD []) generalizing table with
  | nil => exact hrow
  | cons vm rest ih =>
      rw [List.foldl_cons]
      apply ih
      by_cases hkey : key = (s.node, vm)
      · subst hkey
        rw [KeyedTable.get?_upsert_self, hrow]
        have holder : ¬ (latestSource p s vm).lastSeen ≥ row.lastSeen := Int.not_le.mpr hnewer
        show some ((latestSource p s vm).merge row) = some row
        rw [LatestSource.merge, if_neg holder]
      · rw [KeyedTable.get?_upsert_of_ne _ _ _ hkey]
        exact hrow

theorem insertSelect_of_copyUpsertRows {κ ρ : Type} [DecidableEq κ] {stamp : ρ → Int} {rows : List (κ × ρ)}
    {table table' : KeyedTable κ ρ} (h : copyUpsertRows stamp rows table = some table') :
    (OnConflict.newest stamp).insertSelect rows table = .ok table' := by
  unfold copyUpsertRows at h
  cases hinsert : (OnConflict.newest stamp).insertSelect rows table with
  | error message =>
      rw [hinsert] at h
      cases h
  | ok new =>
      rw [hinsert] at h
      exact congrArg Except.ok (Option.some.inj h)

/-- What a batch upsert that goes through leaves. -/
theorem copyUpsertRows_eq_foldl {κ ρ : Type} [DecidableEq κ] {stamp : ρ → Int} {rows : List (κ × ρ)}
    {table table' : KeyedTable κ ρ} (h : copyUpsertRows stamp rows table = some table') :
    table' = rows.foldl (fun table row => table.upsert row.1 row.2 (KeyedTable.guarded stamp)) table := by
  rw [OnConflict.insertSelect_eq_foldl (insertSelect_of_copyUpsertRows h), ← OnConflict.merge_newest]
  rfl

theorem copyUpsertRows_kept {κ ρ : Type} [DecidableEq κ] {stamp : ρ → Int} {rows : List (κ × ρ)}
    {table table' : KeyedTable κ ρ} {key : κ} {row : ρ} (h : copyUpsertRows stamp rows table = some table')
    (hrow : table.get? key = some row) (hnewer : ∀ new ∈ rows, stamp new.2 < stamp row) :
    table'.get? key = some row := by
  rw [copyUpsertRows_eq_foldl h]
  exact KeyedTable.get?_foldl_upsert_guarded hrow hnewer

theorem diskRow_lastSeen {item : DiskItem} {row : DiskKey × DiskCurrent} (h : diskRow s item = some row) :
    row.2.lastSeen = s.dataTime := by
  unfold diskRow at h
  dsimp only at h
  split at h
  · cases h
  · obtain rfl := Option.some.inj h
    rfl

theorem storageRow_lastSeen {item : StorageItem} {row : (String × String) × StorageCurrent}
    (h : storageRow s item = some row) : row.2.lastSeen = s.dataTime := by
  unfold storageRow at h
  dsimp only at h
  split at h
  · cases h
  · obtain rfl := Option.some.inj h
    rfl

/-- What `_v5052_ingest_disk_io_current` keeps, and that it touches no other table. -/
theorem ingestDiskIoCurrent_kept (h : ingestDiskIoCurrent p s t = some t') :
    (∀ key row, t.disk.get? key = some row → s.dataTime < row.lastSeen → t'.disk.get? key = some row) ∧
    (∀ key row, t.storage.get? key = some row → s.dataTime < row.lastSeen → t'.storage.get? key = some row) ∧
    t'.iface = t.iface ∧ t'.latest = t.latest ∧ t'.node = t.node := by
  unfold ingestDiskIoCurrent at h
  obtain ⟨disk, hdisk, h⟩ := Option.bind_eq_some_iff.mp h
  obtain ⟨storage, hstorage, h⟩ := Option.bind_eq_some_iff.mp h
  obtain rfl := Option.some.inj h
  refine ⟨fun key row hrow hnewer => ?_, fun key row hrow hnewer => ?_, rfl, rfl, rfl⟩
  · have hkept : disk.get? key = some row := by
      refine copyUpsertRows_kept hdisk hrow fun new hnew => ?_
      obtain ⟨item, -, hitem⟩ := List.mem_filterMap.mp hnew
      rw [diskRow_lastSeen hitem]
      exact hnewer
    exact KeyedTable.get?_deleteRows_of_false hkept (not_older hnewer)
  · have hkept : storage.get? key = some row := by
      refine copyUpsertRows_kept hstorage hrow fun new hnew => ?_
      obtain ⟨item, -, hitem⟩ := List.mem_filterMap.mp hnew
      rw [storageRow_lastSeen hitem]
      exact hnewer
    exact KeyedTable.get?_deleteRows_of_false hkept (not_older hnewer)

theorem iface_kept {policy : PpsPolicy} {key : IfaceKey} {row : IfaceCurrent} (hrow : t.iface.get? key = some row)
    (hnewer : s.dataTime < row.lastSeen) : (writeIfaceCurrent policy p s t).iface.get? key = some row := by
  have hkept : ((pickedRows s p.interfaces).foldl
      (fun table new => table.upsert (ifaceKey s new) (ifaceRow policy p s new)
        (KeyedTable.guarded IfaceCurrent.lastSeen)) t.iface).get? key = some row :=
    KeyedTable.get?_foldl_upsert_guarded hrow fun _ _ => hnewer
  unfold writeIfaceCurrent
  dsimp only
  split
  · exact KeyedTable.get?_deleteRows_of_false hkept (not_older hnewer)
  · exact hkept

theorem writeIfaceCurrent_other {policy : PpsPolicy} : (writeIfaceCurrent policy p s t).node = t.node ∧
    (writeIfaceCurrent policy p s t).latest = t.latest ∧ (writeIfaceCurrent policy p s t).disk = t.disk ∧
    (writeIfaceCurrent policy p s t).storage = t.storage := by
  unfold writeIfaceCurrent
  dsimp only
  split <;> exact ⟨rfl, rfl, rfl, rfl⟩

theorem node_kept {vmCount : Nat} {key : String} {row : NodeCurrent} (hrow : t.node.get? key = some row)
    (hnewer : s.dataTime < row.lastSeen) : (writeNodeCurrent vmCount p s t).node.get? key = some row :=
  KeyedTable.get?_upsert_guarded hrow hnewer

section

variable {moved purged : List (String × String)}

/-- The writers of every push touch, of the guarded tables, only `vm_latest_metrics`. -/
theorem writeEndpoint_guarded : (writeEndpoint p s moved purged t).iface = t.iface ∧
    (writeEndpoint p s moved purged t).disk = t.disk ∧ (writeEndpoint p s moved purged t).storage = t.storage ∧
    (writeEndpoint p s moved purged t).node = t.node ∧
    (writeEndpoint p s moved purged t).latest = (mergeLatestMetrics p s (migrateLatest s.node moved purged t)).latest := by
  unfold writeEndpoint
  cases p.host <;> cases p.health <;> exact ⟨rfl, rfl, rfl, rfl, rfl⟩

theorem writeEndpoint_latest_kept {key : String × String} {row : LatestMetrics} (hrow : t.latest.get? key = some row)
    (hnewer : s.dataTime < row.lastSeen) (hmoved : key ∉ moved) (hpurged : (key.2, key.1) ∉ purged) :
    (writeEndpoint p s moved purged t).latest.get? key = some row := by
  rw [writeEndpoint_guarded.2.2.2.2]
  refine latest_kept ?_ hnewer
  show (KeyedTable.deleteWhere (t.latest.update _) _).get? key = some row
  rw [KeyedTable.get?_deleteWhere, if_neg (by simpa using hpurged), KeyedTable.get?_update, hrow, Option.map_some,
    if_neg hmoved]

end

end

section

variable {f : Abuse.InFlight} {vms : List (String × Abuse.VmPerf)} {store : Abuse.Store}

theorem currentWriter_kept {key : Abuse.VmKey} {row : Abuse.VmCurrent} (hrow : store.current.get? key = some row)
    (hnewer : f.push.time < row.lastSeen) : (Abuse.currentWriter f vms store).current.get? key = some row := by
  have hkept : ((f.push.vmUuids vms).foldl
      (fun table vm => table.upsert (f.push.node, vm) (Abuse.currentRow f.policy f.push vms vm)
        (KeyedTable.guarded Abuse.VmCurrent.lastSeen)) store.current).get? key = some row :=
    KeyedTable.get?_foldl_upsert_guarded hrow fun _ _ => hnewer
  unfold Abuse.currentWriter
  dsimp only
  split
  · exact KeyedTable.get?_deleteRows_of_false hkept (not_older hnewer)
  · exact hkept

theorem currentWriter_abuse_kept {key : Abuse.VmKey} {row : Abuse.AbuseState} (hrow : store.abuse.get? key = some row)
    (hnewer : f.push.time < row.lastSeen) : (Abuse.currentWriter f vms store).abuse.get? key = some row := by
  unfold Abuse.currentWriter
  dsimp only
  split
  · exact KeyedTable.get?_deleteRows_of_false hrow (not_older hnewer)
  · exact hrow

theorem evaluatedRows_lastSeen {row : String × Abuse.VmCurrent} (h : row ∈ Abuse.evaluatedRows f store) :
    row.2.lastSeen = f.push.time := by
  obtain ⟨entry, -, hentry⟩ := List.mem_filterMap.mp h
  split at hentry
  · next hlast =>
      obtain rfl := Option.some.inj hentry
      exact hlast
  · cases hentry

theorem refreshFastCurrentState_kept {key : Abuse.VmKey} {row : Abuse.AbuseState}
    (hrow : store.abuse.get? key = some row) (hnewer : f.push.time < row.lastSeen) :
    (Abuse.refreshFastCurrentState f vms store).abuse.get? key = some row := by
  show (Abuse.writeAbuse f (Abuse.currentWriter f vms store)).abuse.get? key = some row
  unfold Abuse.writeAbuse
  refine KeyedTable.get?_foldl_upsert_guarded (currentWriter_abuse_kept hrow hnewer) fun new hnew => ?_
  show new.2.lastSeen < row.lastSeen
  rw [evaluatedRows_lastSeen hnew]
  exact hnewer

end

/-! ## Migrated VMs -/

/-- **What a push marks or purges has migrated away.** -/
theorem migratedAway_of_writePresence {m : Inventory.Migration} {now : Int} {p : Payload} {s : Sample}
    {t t' : Inventory.Tables} {purged : List (String × String)} (h : writePresence m now p s t = some (t', purged))
    {key : String × String} (hkey : key ∈ confirmedMoves s.node t t' ∨ (key.2, key.1) ∈ purged) :
    MigratedAway t' key.1 key.2 := by
  obtain ⟨⟨t₁, n⟩, hprocess, h⟩ := Option.bind_eq_some_iff.mp h
  obtain ⟨rfl, rfl⟩ := Prod.mk.inj (Option.some.inj h)
  rcases hkey with hmoved | hpurged
  · obtain ⟨row, hrow, hentry⟩ := List.mem_filterMap.mp hmoved
    split at hentry
    · next hcond =>
        obtain rfl := Option.some.inj hentry
        obtain ⟨hne, hany⟩ := hcond
        obtain ⟨new, hnew, hnode⟩ := (Option.any_eq_true ..).mp hany
        obtain ⟨r, hr, hstatus⟩ := Inventory.process_moved hprocess (KeyedTable.get?_of_mem_rows hrow) hne hnew
          (of_decide_eq_true hnode)
        exact Inventory.purge_not_live hr hstatus
    · cases hentry
  · obtain ⟨r, hr, hstatus⟩ := Inventory.mem_purgeable hpurged
    exact Inventory.purge_not_live hr hstatus

/-! ## One push -/

theorem writeVmMetrics_kept {f : Abuse.InFlight} {vms : List (String × Abuse.VmPerf)} {p : Payload} {s : Sample}
    {d d' : Database} (htime : f.push.time = s.dataTime) (h : writeVmMetrics f vms p s d = some d') :
    NewerKept s.dataTime d d' ∧ d'.monitor = d.monitor ∧ d'.presence = d.presence ∧ d'.tables.latest = d.tables.latest := by
  unfold writeVmMetrics at h
  obtain ⟨t, ht, h⟩ := Option.bind_eq_some_iff.mp h
  obtain ⟨hdisk, hstorage, hifaceEq, hlatestEq, hnodeEq⟩ := ingestDiskIoCurrent_kept ht
  obtain rfl := Option.some.inj h
  obtain ⟨hnodeW, hlatestW, hdiskW, hstorageW⟩ := @writeIfaceCurrent_other s p t f.policy.toPpsPolicy
  have hlatest : (writeNodeCurrent ((Abuse.evaluatedRows f (Abuse.currentWriter f vms d.store)).length) p s
      (writeIfaceCurrent f.policy.toPpsPolicy p s t)).latest = d.tables.latest := hlatestW.trans hlatestEq
  refine ⟨⟨?_, ?_, ?_, ?_, ?_, ?_, ?_⟩, rfl, rfl, hlatest⟩
  · intro key row hrow hnewer
    exact currentWriter_kept hrow (htime ▸ hnewer)
  · intro key row hrow hnewer
    exact refreshFastCurrentState_kept hrow (htime ▸ hnewer)
  · intro key row hrow hnewer
    rw [← hifaceEq] at hrow
    exact iface_kept hrow hnewer
  · intro key row hrow _ _
    exact (congrArg (fun table => table.get? key) hlatest).trans hrow
  · intro key row hrow hnewer
    show (writeIfaceCurrent f.policy.toPpsPolicy p s t).disk.get? key = some row
    rw [hdiskW]
    exact hdisk key row hrow hnewer
  · intro key row hrow hnewer
    show (writeIfaceCurrent f.policy.toPpsPolicy p s t).storage.get? key = some row
    rw [hstorageW]
    exact hstorage key row hrow hnewer
  · intro key row hrow hnewer
    rw [← hnodeEq, ← hnodeW] at hrow
    exact node_kept hrow hnewer

theorem packed_of_reachable {m : Inventory.Migration} {cfg : Config} {ok : Database → Label → Prop} {d : Database}
    (h : (currentSystem m cfg).Reachable ok d) : d.monitor.tables.Packed := by
  apply h.invariant
  · rintro d ⟨policy, rfl⟩
    exact packed_empty
  · intro d l d' _ hd _ hstep
    cases l with
    | push receivedNow p =>
        change push m cfg receivedNow p d = some d' at hstep
        have hnext := hd.step cfg (.push receivedNow p.request)
        unfold push at hstep
        split at hstep
        · obtain rfl := Option.some.inj hstep
          exact hd
        · obtain ⟨⟨presence, purged⟩, -, hstep⟩ := Option.bind_eq_some_iff.mp hstep
          cases hvms : p.vms with
          | none =>
              rw [hvms] at hstep
              obtain rfl := Option.some.inj hstep
              exact hnext
          | some vms =>
              rw [hvms] at hstep
              obtain ⟨-, hmonitor, -, -⟩ := writeVmMetrics_kept rfl hstep
              rw [hmonitor]
              exact hnext
    | retention table cutoff =>
        obtain rfl := Option.some.inj hstep
        exact hd.step cfg (.delete table cutoff)
    | deleteReceipts cutoff =>
        obtain rfl := Option.some.inj hstep
        exact hd.step cfg (.deleteReceipts cutoff)
    | savePolicy values now =>
        obtain rfl := Option.some.inj hstep
        exact hd
    | autoPurge now =>
        obtain rfl := Option.some.inj hstep
        exact hd

/-- **A late push keeps newer rows.** In every reachable state, an accepted push leaves every guarded current row that
    is newer than it as it was, and its bytes are counted. -/
theorem late_push_keeps_newer {m : Inventory.Migration} {cfg : Config} {receivedNow : Int} {p : Payload} {s : Sample}
    {d d' : Database} (h : (currentSystem m cfg).Reachable System.AnyStep d)
    (haccepted : acceptedSample cfg receivedNow p.request d.monitor = some s)
    (hpush : push m cfg receivedNow p d = some d') :
    NewerKept s.dataTime d d' ∧ Counted cfg.tzOffset s d.monitor.tables d'.monitor.tables := by
  have hpacked := packed_of_reachable h
  have hingest : (ingest cfg receivedNow p.request d.monitor).1.tables =
      writeSample cfg.tzOffset s d.monitor.tables := by
    rw [ingest_tables, haccepted]
  have hcounted : Counted cfg.tzOffset s d.monitor.tables (ingest cfg receivedNow p.request d.monitor).1.tables := by
    rw [hingest]
    exact counted_writeSample cfg.tzOffset s hpacked
  unfold push at hpush
  rw [haccepted] at hpush
  obtain ⟨⟨presence, purged⟩, hpresence, hpush⟩ := Option.bind_eq_some_iff.mp hpush
  obtain ⟨hiface, hdisk, hstorage, hnode, -⟩ :=
    @writeEndpoint_guarded s p d.tables (confirmedMoves s.node d.presence presence) purged
  -- What is neither moved nor purged is left to the guarded merge.
  have hlatest : ∀ key row, d.tables.latest.get? key = some row → s.dataTime < row.lastSeen →
      ¬ MigratedAway presence key.1 key.2 →
        (writeEndpoint p s (confirmedMoves s.node d.presence presence) purged d.tables).latest.get? key = some row := by
    intro key row hrow hnewer hstays
    refine writeEndpoint_latest_kept hrow hnewer (fun hmoved => hstays ?_) fun hpurged => hstays ?_
    · exact migratedAway_of_writePresence hpresence (.inl hmoved)
    · exact migratedAway_of_writePresence hpresence (.inr hpurged)
  cases hvms : p.vms with
  | none =>
      rw [hvms] at hpush
      obtain rfl := Option.some.inj hpush
      refine ⟨⟨fun _ _ h _ => h, fun _ _ h _ => h, ?_, hlatest, ?_, ?_, ?_⟩, hcounted⟩
      · exact fun key row hrow _ => hiface ▸ hrow
      · exact fun key row hrow _ => hdisk ▸ hrow
      · exact fun key row hrow _ => hstorage ▸ hrow
      · exact fun key row hrow _ => hnode ▸ hrow
  | some vms =>
      rw [hvms] at hpush
      obtain ⟨hkept, hmonitor, hpresenceEq, hlatestEq⟩ := writeVmMetrics_kept rfl hpush
      refine ⟨⟨hkept.vm, hkept.abuse, ?_, ?_, ?_, ?_, ?_⟩, ?_⟩
      · exact fun key row hrow => hkept.iface key row (hiface ▸ hrow)
      · intro key row hrow hnewer hstays
        rw [hpresenceEq] at hstays
        rw [hlatestEq]
        exact hlatest key row hrow hnewer hstays
      · exact fun key row hrow => hkept.disk key row (hdisk ▸ hrow)
      · exact fun key row hrow => hkept.storage key row (hstorage ▸ hrow)
      · exact fun key row hrow => hkept.node key row (hnode ▸ hrow)
      · rw [hmonitor]
        exact hcounted

/-- One VM and a host under some load. -/
def Payload.sample (vm : String) (time : Int) (load : ℚ) : Payload :=
  { time := some time, node := "node1", vms := some [(vm, {})], host := some { load1 := load } }

/-- A push of `vm1` and then the retry of an older one. -/
theorem late_push_keeps_newer_sample : ∃ d d' s row,
    acceptedSample {} 72700 (Payload.sample "vm1" 72300 9).request d.monitor = some s ∧
    push .standard {} 72700 (Payload.sample "vm1" 72300 9) d = some d' ∧
    d.store.current.get? ("node1", "vm1") = some row ∧ row.lastSeen = 72600 ∧
    d'.store.current.get? ("node1", "vm1") = some row := by
  have hstart : (currentSystem .standard {}).Reachable System.AnyStep (Database.init Abuse.Policy.sample) := .init ⟨_, rfl⟩
  have hrun : (((currentSystem .standard {}).step (Database.init Abuse.Policy.sample)
      (.push 72600 (Payload.sample "vm1" 72600 1))).bind fun d =>
      (acceptedSample {} 72700 (Payload.sample "vm1" 72300 9).request d.monitor).bind fun s =>
      (push .standard {} 72700 (Payload.sample "vm1" 72300 9) d).bind fun _ =>
      (d.store.current.get? ("node1", "vm1")).map fun row => (s.dataTime, row.lastSeen)) =
        some (72300, 72600) := by decide +kernel
  obtain ⟨d, hd, hrun⟩ := Option.bind_eq_some_iff.mp hrun
  obtain ⟨s, hs, hrun⟩ := Option.bind_eq_some_iff.mp hrun
  obtain ⟨d', hd', hrun⟩ := Option.bind_eq_some_iff.mp hrun
  obtain ⟨row, hrow, hrun⟩ := Option.map_eq_some_iff.mp hrun
  obtain ⟨htime, hlast⟩ := Prod.mk.inj hrun
  have hkept := (late_push_keeps_newer (hstart.step trivial hd) hs hd').1.vm _ row hrow (by omega)
  exact ⟨d, d', s, row, hs, hd', hrow, hlast, hkept⟩

/-- `vm2` was last seen before the late push, and the host row has no guard. -/
def lateRun : List Label :=
  [.push 72000 (Payload.sample "vm2" 72000 1), .push 72600 (Payload.sample "vm1" 72600 1)]

/-- **A late push writes** the rows that are older than itself and, newer as it is, the host row. -/
theorem late_push_writes : ∃ d d', (currentSystem .standard {}).Reachable System.AnyStep d ∧
    d.monitor.receipts.any (fun receipt => receipt.node = "node1" && decide (72300 < receipt.pushTime)) = true ∧
    push .standard {} 72700 (Payload.sample "vm2" 72300 9) d = some d' ∧
    d'.store.current.get? ("node1", "vm2") ≠ d.store.current.get? ("node1", "vm2") ∧
    d'.tables.host.get? "node1" ≠ d.tables.host.get? "node1" := by
  have hstart : (currentSystem .standard {}).Reachable System.AnyStep (Database.init Abuse.Policy.sample) := .init ⟨_, rfl⟩
  have hrun : (((currentSystem .standard {}).exec System.AnyStep (Database.init Abuse.Policy.sample) lateRun).bind fun d =>
      (push .standard {} 72700 (Payload.sample "vm2" 72300 9) d).map fun d' =>
        (d.monitor.receipts.any fun receipt => receipt.node = "node1" && decide (72300 < receipt.pushTime),
        ((d.store.current.get? ("node1", "vm2")).map Abuse.VmCurrent.lastSeen,
          (d'.store.current.get? ("node1", "vm2")).map Abuse.VmCurrent.lastSeen),
        (d.tables.host.get? "node1").map HostLatest.load1, (d'.tables.host.get? "node1").map HostLatest.load1)) =
          some (true, (some 72000, some 72300), some 1, some 9) := by decide +kernel
  obtain ⟨d, hd, hrun⟩ := Option.bind_eq_some_iff.mp hrun
  obtain ⟨d', hd', hrun⟩ := Option.map_eq_some_iff.mp hrun
  simp only [Prod.mk.injEq] at hrun
  obtain ⟨hnewer, ⟨hvm, hvm'⟩, hhost, hhost'⟩ := hrun
  refine ⟨d, d', hstart.exec hd, hnewer, hd', fun heq => ?_, fun heq => ?_⟩
  · rw [heq, hvm] at hvm'
    cases hvm'
  · rw [heq, hhost] at hhost'
    cases hhost'

end VirtInfra.Current
