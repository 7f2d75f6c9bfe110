import VirtInfra.Current.NoRewind

/-!
# `StoragePayload` — the disks that a push retains for history (`31_storage_snapshots_ui.py`)

Beside the rows of `vm_disk_current`, the disk writer packs the push's customer disks into `node_push_snapshots`, as
lists of fourteen values and one interval for all of them. A historical page expands the retained payload into a table
that shadows `vm_disk_current`. What comes out is what the direct ingest stored, except where only one of the two
normalises: the packer also takes a VM by its `uuid`, leaves the source as it is, and drops the interval of a disk.

`json` and `zlib` give back the values they were given. The storage devices of the payload are left out.
-/

namespace VirtInfra.Current

open Lib Python Consumption

/-! ## The payload -/

/-- One dict of a VM's `disks`, with both names of the VM and the two columns that only the payload reads here. -/
structure SnapshotDisk extends DiskItem where
  uuid : String := ""
  storageBlock : String := ""
  storageFstype : String := ""

/-- One list of `d`, its fourteen positions in their order. -/
structure PackedDisk where
  vmUuid : String
  target : String
  source : String
  mount : String
  storageDevice : String
  storageBlock : String
  storageFstype : String
  capacityBytes : Int
  allocationBytes : Int
  physicalBytes : Int
  readBps : ℚ
  writeBps : ℚ
  readIops : ℚ
  writeIops : ℚ

structure StoragePayload where
  v : Int
  t : Int
  i : Int
  d : List PackedDisk

/-- `str(vm.get("vm_uuid") or vm.get("uuid") or "").strip()`. -/
def SnapshotDisk.packUuid (item : SnapshotDisk) : String :=
  strip (if item.vmUuid = "" then item.uuid else item.vmUuid)

/-- The body of the loop over `disks`. -/
def packDisk (defaultInterval : Int) (item : SnapshotDisk) : Option PackedDisk :=
  let vmUuid := item.packUuid
  let target := strip item.target
  let di := max 1 (safeInt item.intervalSeconds defaultInterval)
  if vmUuid = "" then none
  else if lower (strip item.role) ≠ "customer" then none
  else if target = "" then none
  else some
    { vmUuid, target, source := item.source, mount := item.mount, storageDevice := item.storageDevice
      storageBlock := item.storageBlock, storageFstype := item.storageFstype
      capacityBytes := counter item.capacityBytes, allocationBytes := counter item.allocationBytes
      physicalBytes := counter item.physicalBytes
      readBps := counter item.readDelta / di, writeBps := counter item.writeDelta / di
      readIops := counter item.readReqsDelta / di, writeIops := counter item.writeReqsDelta / di }

/-- `_v48137_pack_storage_payload`. -/
def packStoragePayload (s : Sample) (items : List SnapshotDisk) : StoragePayload :=
  let defaultInterval := max 1 s.intervalSeconds
  { v := 1, t := s.dataTime, i := defaultInterval, d := items.filterMap (packDisk defaultInterval) }

/-- `_v48137_unpack_storage_payload`. -/
def unpackStoragePayload (payload : Option StoragePayload) : Option StoragePayload :=
  payload.filter fun data => !decide (data.v ≤ 0)

/-- A row of the shadow table. -/
structure ShadowDisk extends DiskCurrent where
  key : DiskKey
  storageBlock : String
  storageFstype : String

/-- The body of the loop over `d`: every row is a customer's, and has the interval of the payload. -/
def shadowDisk (node : String) (interval seen : Int) (row : PackedDisk) : ShadowDisk :=
  { key := ⟨node, row.vmUuid, row.target, row.source⟩, lastSeen := seen, role := "customer", mount := row.mount
    storageDevice := row.storageDevice, storageBlock := row.storageBlock, storageFstype := row.storageFstype
    capacityBytes := counter (some row.capacityBytes), allocationBytes := counter (some row.allocationBytes)
    physicalBytes := counter (some row.physicalBytes), intervalSeconds := interval
    readBps := max 0 row.readBps, writeBps := max 0 row.writeBps
    readIops := max 0 row.readIops, writeIops := max 0 row.writeIops }

/-- `_v48137_create_snapshot_shadow_tables`, for the payload of one node. -/
def createSnapshotShadowDisks (node : String) (blob : Option StoragePayload) : List ShadowDisk :=
  match unpackStoragePayload blob with
  | none => []
  | some data => data.d.map (shadowDisk node (max 1 data.i) data.t)

/-- A payload whose disks are these. -/
def Payload.withDisks (p : Payload) (items : List SnapshotDisk) : Payload :=
  { p with disks := items.map SnapshotDisk.toDiskItem }

/-! ## The law -/

/-- The columns that both tables have. From the rates and the interval a page reads the bytes and operations. -/
def ShadowDisk.current (row : ShadowDisk) : DiskKey × DiskCurrent := (row.key, row.toDiskCurrent)

/-- **What the retained payload of a push expands to.** -/
def snapshotDisks (s : Sample) (items : List SnapshotDisk) : List (DiskKey × DiskCurrent) :=
  (createSnapshotShadowDisks s.node (some (packStoragePayload s items))).map ShadowDisk.current

/-- **The customer disks that a push has left in `vm_disk_current`.** -/
def storedDisks (s : Sample) (disk : KeyedTable DiskKey DiskCurrent) : List (DiskKey × DiskCurrent) :=
  disk.rows.filter fun row => row.1.node = s.node && row.2.role = "customer" && row.2.lastSeen = s.dataTime

/-- The disks that the packer takes. -/
def SnapshotDisk.packs (item : SnapshotDisk) : Bool :=
  item.packUuid ≠ "" && lower (strip item.role) = "customer" && strip item.target ≠ ""

/-- The key under which the direct ingest stores a disk. -/
def diskKey (s : Sample) (item : SnapshotDisk) : DiskKey :=
  ⟨s.node, strip item.vmUuid, strip item.target, strip item.source⟩

/-- **A disk that survives packing**: its VM has a `vm_uuid`, its source has no blanks at the ends, its interval is the
    push's, and no newer push has reported it. -/
structure Retainable (s : Sample) (disk : KeyedTable DiskKey DiskCurrent) (item : SnapshotDisk) : Prop where
  named : strip item.vmUuid ≠ ""
  source : strip item.source = item.source
  interval : max 1 (safeInt item.intervalSeconds s.intervalSeconds) = max 1 s.intervalSeconds
  newest : ∀ row, disk.get? (diskKey s item) = some row → row.lastSeen ≤ s.dataTime

/-! ## The rows of one disk -/

section Rows

variable (s : Sample) (item : SnapshotDisk)

/-- The current row of a customer disk of a VM, under a source and an interval. -/
def customerRow (vmUuid source : String) (sec interval : Int) : DiskKey × DiskCurrent :=
  (⟨s.node, vmUuid, strip item.target, source⟩,
    { lastSeen := s.dataTime, role := "customer", mount := item.mount, storageDevice := item.storageDevice
      capacityBytes := counter item.capacityBytes, allocationBytes := counter item.allocationBytes
      physicalBytes := counter item.physicalBytes, intervalSeconds := interval
      readBps := counter item.readDelta / sec, writeBps := counter item.writeDelta / sec
      readIops := counter item.readReqsDelta / sec, writeIops := counter item.writeReqsDelta / sec })

/-- Its interval, with the push's as the default. -/
def SnapshotDisk.sec : Int := max 1 (safeInt item.intervalSeconds s.intervalSeconds)

/-- What the payload keeps of a disk. -/
def shadowRow : DiskKey × DiskCurrent :=
  customerRow s item item.packUuid item.source (item.sec s) (max 1 s.intervalSeconds)

/-- What the direct ingest writes of a customer disk. -/
def directRow : DiskKey × DiskCurrent := customerRow s item (strip item.vmUuid) (strip item.source) (item.sec s) (item.sec s)

/-- Whichever default is taken, the interval is at least 1. -/
theorem sec_default : max 1 (safeInt item.intervalSeconds (max 1 s.intervalSeconds)) = item.sec s := by
  unfold SnapshotDisk.sec safeInt
  cases item.intervalSeconds with
  | none => simp
  | some n => rfl

theorem max_rate (n : Nat) {sec : Int} (h : 1 ≤ sec) : max 0 ((n : ℚ) / sec) = n / sec := by
  refine max_eq_right (div_nonneg (Nat.cast_nonneg n) ?_)
  exact_mod_cast (by omega : (0 : Int) ≤ sec)

/-- Packing and expanding one disk. -/
theorem shadow_packDisk :
    ((packDisk (max 1 s.intervalSeconds) item).map fun row =>
      (shadowDisk s.node (max 1 (max 1 s.intervalSeconds)) s.dataTime row).current) =
        if item.packs then some (shadowRow s item) else none := by
  have hsec : 1 ≤ item.sec s := le_max_left _ _
  unfold packDisk SnapshotDisk.packs
  dsimp only
  rw [sec_default]
  by_cases huuid : item.packUuid = ""
  · simp [huuid]
  · by_cases hrole : lower (strip item.role) = "customer"
    · by_cases htarget : strip item.target = ""
      · simp [huuid, hrole, htarget]
      · simp only [huuid, hrole, htarget, if_false, ne_eq, not_true, not_false_eq_true, decide_true, Bool.and_self,
          if_true, Option.map_some, ShadowDisk.current, shadowDisk, max_rate _ hsec, shadowRow,
          customerRow, le_max_left, max_eq_right]
        rfl
    · simp [huuid, hrole]

/-- A role of 32 characters at most is all of it. -/
theorem clip_eq_customer (role : String) : clip 32 role = "customer" ↔ role = "customer" := by
  unfold clip
  constructor
  · intro h
    have hchars : role.toList.take 32 = "customer".toList := by rw [← h, String.toList_ofList]
    have hlen := congrArg List.length hchars
    have h8 : "customer".toList.length = 8 := by decide
    rw [List.length_take, h8] at hlen
    rw [List.take_of_length_le (by omega)] at hchars
    exact String.toList_inj.mp hchars
  · rintro rfl
    decide

/-- The row of the direct ingest, if the disk is a customer's. -/
theorem diskRow_customer :
    ((diskRow s item.toDiskItem).filter fun row => row.2.role = "customer") =
      if strip item.vmUuid ≠ "" ∧ lower (strip item.role) = "customer" ∧ strip item.target ≠ ""
      then some (directRow s item) else none := by
  unfold diskRow
  dsimp only
  by_cases hnone : strip item.vmUuid = "" ∨ strip item.target = ""
  · rw [if_pos hnone, if_neg]
    · rfl
    · rintro ⟨hvm, -, htarget⟩
      exact hnone.elim hvm htarget
  · obtain ⟨hvm, htarget⟩ := not_or.mp hnone
    rw [if_neg hnone]
    by_cases hrole : lower (strip item.role) = "customer"
    · have hclip := (clip_eq_customer (lower (strip item.role))).mpr hrole
      rw [if_pos ⟨hvm, hrole, htarget⟩, Option.filter_some, hclip]
      rfl
    · have hclip : ¬ clip 32 (lower (strip item.role)) = "customer" := fun h => hrole ((clip_eq_customer _).mp h)
      rw [if_neg fun h => hrole h.2.1, Option.filter_some]
      simp [hclip]

end Rows

theorem filterMap_ite {α β : Type} (p : α → Bool) (f : α → β) (items : List α) :
    (items.filterMap fun a => if p a then some (f a) else none) = (items.filter p).map f := by
  induction items with
  | nil => rfl
  | cons a rest ih => by_cases hp : p a = true <;> simp [hp, ih]

/-- **The expanded payload**, disk by disk. -/
theorem snapshotDisks_eq (s : Sample) (items : List SnapshotDisk) :
    snapshotDisks s items = (items.filter SnapshotDisk.packs).map (shadowRow s) := by
  show ((items.filterMap (packDisk (max 1 s.intervalSeconds))).map
    (shadowDisk s.node (max 1 (max 1 s.intervalSeconds)) s.dataTime)).map ShadowDisk.current = _
  rw [List.map_map, List.map_filterMap, ← filterMap_ite]
  exact List.filterMap_congr fun item _ => shadow_packDisk s item

/-! ## The direct ingest -/

section Direct

variable {p : Payload} {s : Sample} {t t' : Tables} {items : List SnapshotDisk}

/-- The rows the direct ingest writes. -/
def diskRows (s : Sample) (items : List SnapshotDisk) : List (DiskKey × DiskCurrent) :=
  items.filterMap fun item => diskRow s item.toDiskItem

/-- A stored row that is newer than the push stays. -/
def newer (s : Sample) (disk : KeyedTable DiskKey DiskCurrent) (key : DiskKey) : Bool :=
  (disk.get? key).any fun row => s.dataTime < row.lastSeen

theorem ingest_disk (h : ingestDiskIoCurrent (p.withDisks items) s t = some t') :
    ∃ disk, (OnConflict.newest DiskCurrent.lastSeen).insertSelect (diskRows s items) t.disk = .ok disk ∧
      t'.disk = disk.deleteRows fun key row => key.node = s.node && row.lastSeen < s.dataTime := by
  unfold ingestDiskIoCurrent at h
  obtain ⟨disk, hdisk, h⟩ := Option.bind_eq_some_iff.mp h
  obtain ⟨storage, -, h⟩ := Option.bind_eq_some_iff.mp h
  obtain rfl := Option.some.inj h
  have hrows : (p.withDisks items).disks.filterMap (diskRow s) = diskRows s items := by
    show (items.map SnapshotDisk.toDiskItem).filterMap (diskRow s) = _
    rw [List.filterMap_map]
    rfl
  rw [hrows] at hdisk
  exact ⟨disk, insertSelect_of_copyUpsertRows hdisk, rfl⟩

theorem diskRows_mem {row : DiskKey × DiskCurrent} (h : row ∈ diskRows s items) :
    row.1.node = s.node ∧ row.2.lastSeen = s.dataTime := by
  obtain ⟨item, -, hitem⟩ := List.mem_filterMap.mp h
  refine ⟨?_, diskRow_lastSeen hitem⟩
  unfold diskRow at hitem
  dsimp only at hitem
  split at hitem
  · cases hitem
  · obtain rfl := Option.some.inj hitem
    rfl

/-- A row of the push goes in exactly if no newer one is there. -/
theorem applies_newest {row : DiskKey × DiskCurrent} (hrow : row ∈ diskRows s items) (disk : KeyedTable DiskKey DiskCurrent) :
    (OnConflict.newest DiskCurrent.lastSeen).applies disk row = !newer s disk row.1 := by
  obtain ⟨-, htime⟩ := diskRows_mem hrow
  unfold OnConflict.applies newer
  cases disk.get? row.1 with
  | none => rfl
  | some old =>
      show decide (old.lastSeen ≤ row.2.lastSeen) = !decide (s.dataTime < old.lastSeen)
      rw [htime, ← decide_not]
      exact decide_eq_decide.mpr Int.not_lt.symm

/-- **What the direct ingest leaves of the push**: its rows, but for those that a newer push has reported. -/
theorem mem_stored (h : ingestDiskIoCurrent (p.withDisks items) s t = some t')
    (hreceipt : ∀ key row, t.disk.get? key = some row → key.node = s.node → row.lastSeen ≠ s.dataTime)
    (row : DiskKey × DiskCurrent) :
    (t'.disk.get? row.1 = some row.2 ∧ row.1.node = s.node ∧ row.2.lastSeen = s.dataTime) ↔
      row ∈ diskRows s items ∧ newer s t.disk row.1 = false := by
  obtain ⟨disk, hinsert, hdisk⟩ := ingest_disk h
  rw [hdisk, KeyedTable.get?_deleteRows, Option.filter_eq_some_iff]
  -- A row that no newer one stands in the way of is what the statement leaves.
  have hwritten : ∀ new ∈ diskRows s items, newer s t.disk new.1 = false → disk.get? new.1 = some new.2 := by
    intro new hnew hnewer
    have happlies : (OnConflict.newest DiskCurrent.lastSeen).applies t.disk new = true := by
      rw [applies_newest hnew, hnewer]
      rfl
    rw [OnConflict.get?_insertSelect_of_applies rfl hinsert hnew happlies, OnConflict.upsert, KeyedTable.get?_upsert_self,
      OnConflict.merge_newest]
    cases hold : t.disk.get? new.1 with
    | none => rfl
    | some old =>
        have hle : ¬ s.dataTime < old.lastSeen := by simpa [newer, hold] using hnewer
        refine congrArg some (if_pos ?_)
        rw [(diskRows_mem hnew).2]
        omega
  have hkept : ∀ key old, t.disk.get? key = some old → s.dataTime < old.lastSeen → disk.get? key = some old := by
    intro key old hold hnewer
    rw [OnConflict.insertSelect_eq_foldl hinsert]
    unfold OnConflict.upsert
    rw [OnConflict.merge_newest]
    refine KeyedTable.get?_foldl_upsert_guarded hold fun new hnew => ?_
    rw [(diskRows_mem hnew).2]
    exact hnewer
  constructor
  · rintro ⟨⟨hrow, -⟩, hnode, htime⟩
    cases hnewer : newer s t.disk row.1 with
    | true =>
        obtain ⟨old, hold, hlater⟩ := (Option.any_eq_true ..).mp hnewer
        obtain rfl := Option.some.inj ((hkept _ _ hold (of_decide_eq_true hlater)).symm.trans hrow)
        exact absurd (of_decide_eq_true hlater) (by omega)
    | false =>
        refine ⟨?_, rfl⟩
        by_cases hkey : ∃ new ∈ diskRows s items, new.1 = row.1
        · obtain ⟨new, hnew, hsame⟩ := hkey
          have hget := hwritten new hnew (hsame ▸ hnewer)
          rw [hsame, hrow] at hget
          exact Prod.ext hsame (Option.some.inj hget).symm ▸ hnew
        · -- Nothing of the push has the key.
          rw [OnConflict.insertSelect_eq_foldl hinsert] at hrow
          unfold OnConflict.upsert at hrow
          rw [KeyedTable.get?_foldl_upsert_of_ne Prod.snd _ t.disk fun new hnew heq => hkey ⟨new, hnew, heq.symm⟩] at hrow
          exact absurd htime (hreceipt _ _ hrow hnode)
  · rintro ⟨hrow, hnewer⟩
    obtain ⟨hnode, htime⟩ := diskRows_mem hrow
    refine ⟨⟨hwritten row hrow hnewer, ?_⟩, hnode, htime⟩
    simp [htime]

/-- The direct ingest rejects a payload that lists a disk twice, unless a newer row stands in the way of it. -/
theorem written_keys_nodup (h : ingestDiskIoCurrent (p.withDisks items) s t = some t') :
    (((diskRows s items).filter fun row => !newer s t.disk row.1).map Prod.fst).Nodup := by
  obtain ⟨disk, hinsert, -⟩ := ingest_disk h
  obtain rfl := OnConflict.insertSelect_eq_foldl hinsert
  have hpairs := (OnConflict.insertSelect_eq_ok_iff.mp hinsert).resolve_left (by decide)
  rw [List.Nodup, List.pairwise_map]
  refine (hpairs.filter _).imp_of_mem fun {earlier later} hearlier _ hskipped heq => ?_
  obtain ⟨hmem, hnewer⟩ := List.mem_filter.mp hearlier
  have happlies := applies_newest hmem t.disk
  rw [hskipped heq, hnewer] at happlies
  cases happlies

/-- The disks that the direct ingest stores as a customer's. -/
def stores (s : Sample) (disk : KeyedTable DiskKey DiskCurrent) (item : SnapshotDisk) : Bool :=
  (strip item.vmUuid ≠ "" ∧ lower (strip item.role) = "customer" ∧ strip item.target ≠ "") ∧
    newer s disk (diskKey s item) = false

theorem stored_row (s : Sample) (disk : KeyedTable DiskKey DiskCurrent) (item : SnapshotDisk) :
    ((diskRow s item.toDiskItem).filter fun row => row.2.role = "customer" && !newer s disk row.1) =
      if stores s disk item then some (directRow s item) else none := by
  have hfilter : ((diskRow s item.toDiskItem).filter fun row => row.2.role = "customer" && !newer s disk row.1) =
      ((diskRow s item.toDiskItem).filter fun row => row.2.role = "customer").filter fun row => !newer s disk row.1 := by
    rw [Option.filter_filter]
  have hkey : (directRow s item).1 = diskKey s item := rfl
  rw [hfilter, diskRow_customer]
  unfold stores
  split
  · next hcustomer =>
      rw [Option.filter_some, hkey]
      by_cases hnewer : newer s disk (diskKey s item) = true
      · simp [hnewer]
      · simp [hnewer, hcustomer]
  · next hother => simp [hother]

theorem stored_rows (s : Sample) (disk : KeyedTable DiskKey DiskCurrent) (items : List SnapshotDisk) :
    (items.filter (stores s disk)).map (directRow s) =
      (diskRows s items).filter fun row => row.2.role = "customer" && !newer s disk row.1 := by
  unfold diskRows
  rw [List.filter_filterMap, ← filterMap_ite]
  exact List.filterMap_congr fun item _ => (stored_row s disk item).symm

theorem storedDisks_perm (h : ingestDiskIoCurrent (p.withDisks items) s t = some t')
    (hreceipt : ∀ key row, t.disk.get? key = some row → key.node = s.node → row.lastSeen ≠ s.dataTime) :
    (storedDisks s t'.disk).Perm ((items.filter (stores s t.disk)).map (directRow s)) := by
  have hstored : (storedDisks s t'.disk).Nodup := (List.Nodup.of_map Prod.fst t'.disk.nodupKeys).filter _
  have hrows : ((diskRows s items).filter fun row => row.2.role = "customer" && !newer s t.disk row.1).Nodup := by
    rw [← List.filter_filter]
    exact (List.Nodup.of_map Prod.fst (written_keys_nodup h)).filter _
  rw [stored_rows, List.perm_ext_iff_of_nodup hstored hrows]
  intro row
  have hmem := mem_stored h hreceipt row
  rw [KeyedTable.get?_eq_some_iff] at hmem
  unfold storedDisks
  rw [List.mem_filter, List.mem_filter]
  simp only [Bool.and_eq_true, decide_eq_true_eq, Bool.not_eq_true']
  constructor
  · rintro ⟨hin, ⟨hnode, hrole⟩, htime⟩
    obtain ⟨hrow, hnewer⟩ := hmem.mp ⟨hin, hnode, htime⟩
    exact ⟨hrow, hrole, hnewer⟩
  · rintro ⟨hrow, hrole, hnewer⟩
    obtain ⟨hin, hnode, htime⟩ := hmem.mpr ⟨hrow, hnewer⟩
    exact ⟨hin, ⟨hnode, hrole⟩, htime⟩

theorem stored_keys_nodup (h : ingestDiskIoCurrent (p.withDisks items) s t = some t') :
    (((items.filter (stores s t.disk)).map (directRow s)).map Prod.fst).Nodup := by
  have hsub : ((items.filter (stores s t.disk)).map (directRow s)).Sublist
      ((diskRows s items).filter fun row => !newer s t.disk row.1) := by
    rw [stored_rows, ← List.filter_filter]
    exact List.filter_sublist
  exact (hsub.map Prod.fst).nodup (written_keys_nodup h)

/-! ## The round trip -/

theorem packs_of_stores {disk : KeyedTable DiskKey DiskCurrent} {item : SnapshotDisk} (h : stores s disk item = true) :
    item.packs = true ∧ item.packUuid = strip item.vmUuid := by
  obtain ⟨⟨hvm, hrole, htarget⟩, -⟩ := of_decide_eq_true h
  have hne : item.vmUuid ≠ "" := by
    intro hempty
    rw [hempty] at hvm
    exact hvm (by decide)
  have huuid : item.packUuid = strip item.vmUuid := by
    unfold SnapshotDisk.packUuid
    rw [if_neg hne]
  refine ⟨?_, huuid⟩
  unfold SnapshotDisk.packs
  simp [huuid, hvm, hrole, htarget]

/-- A disk comes out as it was stored exactly when its source and its interval are those of the payload. -/
theorem shadowRow_eq_directRow {item : SnapshotDisk} (huuid : item.packUuid = strip item.vmUuid) :
    shadowRow s item = directRow s item ↔
      strip item.source = item.source ∧ item.sec s = max 1 s.intervalSeconds := by
  unfold shadowRow directRow customerRow
  rw [huuid]
  constructor
  · intro heq
    exact ⟨(congrArg (fun row => row.1.source) heq).symm, (congrArg (fun row => row.2.intervalSeconds) heq).symm⟩
  · rintro ⟨hsource, hsec⟩
    rw [hsource, hsec]

/-- **What a push retains expands to what it has stored exactly when every disk it packs is retainable.** A push whose
    disks are accepted by the direct ingest, and whose node and time no earlier row has, leaves a payload that expands to
    the customer disks of the push, one row for each, if and only if each packed disk belongs to a VM with a `vm_uuid`,
    has a source without blanks at the ends and the push's interval, and is not in the table with a newer time. -/
theorem storage_snapshot_round_trip_iff (h : ingestDiskIoCurrent (p.withDisks items) s t = some t')
    (hreceipt : ∀ key row, t.disk.get? key = some row → key.node = s.node → row.lastSeen ≠ s.dataTime) :
    (snapshotDisks s items).Perm (storedDisks s t'.disk) ↔
      ∀ item ∈ items, item.packs = true → Retainable s t.disk item := by
  have hstored := storedDisks_perm h hreceipt
  rw [snapshotDisks_eq]
  have hnewer : ∀ item : SnapshotDisk, newer s t.disk (diskKey s item) = false ↔
      ∀ row, t.disk.get? (diskKey s item) = some row → row.lastSeen ≤ s.dataTime := by
    intro item
    unfold newer
    cases t.disk.get? (diskKey s item) <;> simp
  constructor
  · intro hperm
    have hrows := hperm.trans hstored
    -- No disk is packed that is not stored: there are as many of either.
    have hall : ∀ item ∈ items, item.packs = true → stores s t.disk item = true := by
      have hlength := hrows.length_eq
      rw [List.length_map, List.length_map] at hlength
      have hsub : items.filter (stores s t.disk) = (items.filter SnapshotDisk.packs).filter (stores s t.disk) := by
        rw [List.filter_filter]
        refine List.filter_congr fun item _ => ?_
        by_cases hstores : stores s t.disk item = true
        · simp [hstores, (packs_of_stores hstores).1]
        · simp [hstores]
      rw [hsub] at hlength
      intro item hitem hpacks
      exact List.length_filter_eq_length_iff.mp hlength.symm item (List.mem_filter.mpr ⟨hitem, hpacks⟩)
    intro item hitem hpacks
    have hstores := hall item hitem hpacks
    have hmem : item ∈ items.filter (stores s t.disk) := List.mem_filter.mpr ⟨hitem, hstores⟩
    have huuid := (packs_of_stores hstores).2
    -- Its packed row is the row of a stored disk; so its source is stripped, and the disk is itself.
    obtain ⟨other, hother, heq⟩ := List.mem_map.mp
      (hrows.mem_iff.mp (List.mem_map_of_mem (f := shadowRow s) (List.mem_filter.mpr ⟨hitem, hpacks⟩)))
    have hsource : strip item.source = item.source := by
      have hother' : strip other.source = item.source := congrArg (fun row => row.1.source) heq
      rw [← hother', strip_strip]
    have hkey : (directRow s other).1 = (directRow s item).1 := by
      rw [heq]
      show (⟨s.node, item.packUuid, strip item.target, item.source⟩ : DiskKey) =
        ⟨s.node, strip item.vmUuid, strip item.target, strip item.source⟩
      rw [huuid, hsource]
    have hnodup := stored_keys_nodup h
    rw [List.map_map] at hnodup
    obtain rfl : other = item := List.inj_on_of_nodup_map hnodup hother hmem hkey
    obtain ⟨⟨hvm, -, -⟩, hold⟩ := of_decide_eq_true hstores
    exact ⟨hvm, hsource, ((shadowRow_eq_directRow huuid).mp heq.symm).2, (hnewer other).mp hold⟩
  · intro hretain
    have hstores : ∀ item ∈ items, item.packs = true → stores s t.disk item = true := by
      intro item hitem hpacks
      have hitem' := hretain item hitem hpacks
      unfold SnapshotDisk.packs at hpacks
      simp only [Bool.and_eq_true, decide_eq_true_eq, ne_eq] at hpacks
      exact decide_eq_true ⟨⟨hitem'.named, hpacks.1.2, hpacks.2⟩, (hnewer item).mpr hitem'.newest⟩
    have hsame : items.filter SnapshotDisk.packs = items.filter (stores s t.disk) :=
      List.filter_congr fun item hitem => by
        by_cases hpacks : item.packs = true
        · rw [hpacks, hstores item hitem hpacks]
        · have hnot : ¬ stores s t.disk item = true := fun hstored => hpacks (packs_of_stores hstored).1
          rw [Bool.eq_false_iff.mpr hpacks, Bool.eq_false_iff.mpr hnot]
    refine List.Perm.trans ?_ hstored.symm
    rw [hsame]
    refine List.Perm.of_eq (List.map_congr_left fun item hmem => ?_)
    obtain ⟨hitem, hstored'⟩ := List.mem_filter.mp hmem
    obtain ⟨hpacks, huuid⟩ := packs_of_stores hstored'
    have hitem' := hretain item hitem hpacks
    exact (shadowRow_eq_directRow huuid).mpr ⟨hitem'.source, hitem'.interval⟩

end Direct

/-! ## A push with one disk -/

/-- The system disk of `vm1`, read at 4096 bytes in some seconds. -/
def SnapshotDisk.sample (sec : Option Int) : SnapshotDisk :=
  { vmUuid := "vm1", target := "vda", source := "/images/vm1.qcow2", role := "customer"
    intervalSeconds := sec, readDelta := some 4096 }

/-- A push of `node1` that covers five minutes. -/
def fiveMinuteSample : Sample := ⟨"node1", 1200, 300, [], []⟩

/-- The tables after that push, the first of all. -/
def ingestSample (sec : Option Int) : Option Tables :=
  ingestDiskIoCurrent ((Payload.sample "vm1" 1200 1).withDisks [.sample sec]) fiveMinuteSample Tables.empty

/-- A disk over the interval of its push is retained. -/
theorem storage_snapshot_round_trip_iff_sample : ∃ t', ingestSample none = some t' ∧
    (snapshotDisks fiveMinuteSample [.sample none]).Perm (storedDisks fiveMinuteSample t'.disk) := by
  have hingest : (ingestSample none).isSome := by decide +kernel
  obtain ⟨t', ht'⟩ := Option.isSome_iff_exists.mp hingest
  have hnone : ∀ key, Tables.empty.disk.get? key = none := fun _ => rfl
  refine ⟨t', ht', (storage_snapshot_round_trip_iff ht' fun key row hrow => ?_).mpr ?_⟩
  · rw [hnone] at hrow
    cases hrow
  · intro item hitem _
    obtain rfl := List.mem_singleton.mp hitem
    refine ⟨by decide, by decide, by decide, fun row hrow => ?_⟩
    rw [hnone] at hrow
    cases hrow

/-- **A disk keeps its interval in the table, and loses it in the payload**: the table has 4096 bytes in one second, the
    payload expands to 4096 bytes a second for the 300 of the push. -/
theorem storage_snapshot_drops_interval : ∃ t', ingestSample (some 1) = some t' ∧
    (storedDisks fiveMinuteSample t'.disk).map (fun row => row.2.intervalSeconds) = [1] ∧
    (snapshotDisks fiveMinuteSample [.sample (some 1)]).map (fun row => row.2.intervalSeconds) = [300] ∧
    ¬ (snapshotDisks fiveMinuteSample [.sample (some 1)]).Perm (storedDisks fiveMinuteSample t'.disk) := by
  have hrun : (ingestSample (some 1)).map (fun t' =>
      (storedDisks fiveMinuteSample t'.disk).map fun row => row.2.intervalSeconds) = some [1] := by decide +kernel
  obtain ⟨t', ht', hstored⟩ := Option.map_eq_some_iff.mp hrun
  have hsnapshot : (snapshotDisks fiveMinuteSample [.sample (some 1)]).map (fun row => row.2.intervalSeconds) =
      [300] := by decide +kernel
  refine ⟨t', ht', hstored, hsnapshot, fun hperm => ?_⟩
  have hsame := hperm.map fun row => row.2.intervalSeconds
  rw [hstored, hsnapshot] at hsame
  exact absurd hsame (by decide)

end VirtInfra.Current
