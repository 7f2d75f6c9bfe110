import VirtInfra.Lib.OnConflict
import VirtInfra.Current.StoragePayload

/-!
# `CopyUpsert` — a batch of rows through COPY (`37_native_copy_ingest.py`)

`_v5052_copy_upsert_rows` copies a batch of dicts into a stage without a key and merges the stage into the table with one
`INSERT … SELECT … ON CONFLICT`. The path it replaced sent one statement for each row. Both do the same until two dicts of
a batch have one key.

A transaction fills a stage once, so a stage holds the rows of its batch and no others.
-/

namespace VirtInfra.Current

open Lib Python Consumption

/-! ## The writer -/

/-- What a column holds. -/
inductive Value
  | int (n : Int)
  | real (q : ℚ)
  | text (s : String)
  deriving DecidableEq, Repr

/-- `<=` on values of one type. -/
def Value.le : Value → Value → Bool
  | .int m, .int n => m ≤ n
  | .real p, .real q => p ≤ q
  | .text s, .text t => s ≤ t
  | _, _ => false

/-- A dict, in the order of its keys. -/
abbrev Dict := List (String × Value)

def Dict.columns (dict : Dict) : List String := dict.map Prod.fst

/-- A row of a table, column by column. -/
abbrev Columns := String → Value

/-- A table's name, and what its columns hold when an insert does not name them. -/
structure TargetTable where
  name : String
  defaults : Columns

/-- `_V5050_IDENT`. -/
def isIdent (value : String) : Bool :=
  match value.toList with
  | [] => false
  | c :: rest => (c.isAlpha || c = '_') && rest.all fun c => c.isAlphanum || c = '_'

/-- `_v5050_ident`. -/
def v5050Ident (value : String) : Except String String :=
  if isIdent value then .ok value else .error ("unsafe SQL identifier: '" ++ value ++ "'")

/-- `ON CONFLICT(keys) …`: without other columns nothing is updated, and with `last_seen` no row goes back in time. -/
def conflictClause (keys columns : List String) : OnConflict Columns :=
  let updates := columns.filter (· ∉ keys)
  if updates = [] then .doNothing
  else
    .doUpdate (fun old new column => if column ∈ updates then new column else old column)
      fun old new => if "last_seen" ∈ columns then (old "last_seen").le (new "last_seen") else true

section Writer

variable (target : TargetTable) (keys : List String)

/-- The row that an insert of a dict proposes, under its key. -/
def proposed (dict : Dict) : List Value × Columns :=
  let row : Columns := fun column => (dict.lookup column).getD (target.defaults column)
  (keys.map row, row)

/-- `[dict(row) for row in (rows or []) if row]`. -/
def givenRows (rows : List Dict) : List Dict := rows.filter fun row => !row.isEmpty

def heterogeneousBatch : String := "heterogeneous batch for " ++ target.name

/-- **`_v5052_copy_upsert_rows`.** -/
def copyUpsertDicts (rows : List Dict) (t : KeyedTable (List Value) Columns) :
    Except String (KeyedTable (List Value) Columns) :=
  match givenRows rows with
  | [] => .ok t
  | first :: rest => do
      let _ ← v5050Ident target.name
      if rest.any fun row => row.columns ≠ first.columns then
        throw (heterogeneousBatch target)
      let columns ← first.columns.mapM v5050Ident
      let keys ← keys.mapM v5050Ident
      (conflictClause keys columns).insertSelect ((first :: rest).map (proposed target keys)) t

/-- One `INSERT … VALUES … ON CONFLICT`, with the columns of its dict. -/
def upsertDict (t : KeyedTable (List Value) Columns) (dict : Dict) : KeyedTable (List Value) Columns :=
  (conflictClause keys dict.columns).upsert t (proposed target keys dict)

/-- **The rows of a batch, one statement after another.** -/
def upsertOneByOne (rows : List Dict) (t : KeyedTable (List Value) Columns) : KeyedTable (List Value) Columns :=
  (givenRows rows).foldl (upsertDict target keys) t

/-! ## The law -/

/-- The batch passes the checks: its rows have the same columns, and all names are identifiers. -/
def Accepted (rows : List Dict) : Prop :=
  ∀ first rest, givenRows rows = first :: rest → isIdent target.name = true ∧
    (∀ row ∈ rest, row.columns = first.columns) ∧ (∀ column ∈ first.columns, isIdent column = true) ∧
      ∀ key ∈ keys, isIdent key = true

/-- The table has a newer row under the key of a dict. -/
def Overtaken (t : KeyedTable (List Value) Columns) (dict : Dict) : Prop :=
  "last_seen" ∈ dict.columns ∧ ∃ old, t.get? (proposed target keys dict).1 = some old ∧
    (old "last_seen").le ((proposed target keys dict).2 "last_seen") = false

/-- **No dict of the batch has the key of an earlier one**, unless that one is overtaken or has no column but its key. -/
def KeysApart (rows : List Dict) (t : KeyedTable (List Value) Columns) : Prop :=
  (givenRows rows).Pairwise fun earlier later => (proposed target keys earlier).1 = (proposed target keys later).1 →
    (∀ column ∈ earlier.columns, column ∈ keys) ∨ Overtaken target keys t earlier

end Writer

/-! ## The disks of a push -/

def vmDiskKeys : List String := ["node", "vm_uuid", "target", "source"]

/-- A dict of `disk_rows` in `_v5052_ingest_disk_io_current`. -/
def diskDict (s : Sample) (item : SnapshotDisk) : Option Dict :=
  let vmUuid := strip item.vmUuid
  let target := strip item.target
  let sec := max 1 (safeInt item.intervalSeconds s.intervalSeconds)
  if vmUuid = "" ∨ target = "" then none
  else some
    [("node", .text s.node), ("vm_uuid", .text vmUuid), ("target", .text target), ("source", .text (strip item.source)),
      ("role", .text (clip 32 (lower (strip item.role)))), ("mount", .text item.mount),
      ("storage_device", .text item.storageDevice), ("storage_block", .text item.storageBlock),
      ("storage_fstype", .text item.storageFstype), ("capacity_bytes", .int (counter item.capacityBytes)),
      ("allocation_bytes", .int (counter item.allocationBytes)), ("physical_bytes", .int (counter item.physicalBytes)),
      ("interval_seconds", .int sec), ("read_bps", .real (counter item.readDelta / sec)),
      ("write_bps", .real (counter item.writeDelta / sec)), ("read_iops", .real (counter item.readReqsDelta / sec)),
      ("write_iops", .real (counter item.writeReqsDelta / sec)), ("last_seen", .int s.dataTime)]

/-! ## The checks -/

theorem isIdent_of_v5050Ident {name value : String} (h : v5050Ident name = .ok value) : isIdent name = true := by
  unfold v5050Ident at h
  split at h
  · assumption
  · cases h

theorem mapM_v5050Ident {names : List String} (h : ∀ name ∈ names, isIdent name = true) :
    names.mapM v5050Ident = .ok names := by
  induction names with
  | nil => rfl
  | cons name rest ih =>
      have hname : v5050Ident name = .ok name := if_pos (h name List.mem_cons_self)
      rw [List.mapM_cons, hname, ih fun other hother => h other (List.mem_cons_of_mem _ hother)]
      rfl

theorem mapM_v5050Ident_eq_ok {names checked : List String} (h : names.mapM v5050Ident = .ok checked) :
    ∀ name ∈ names, isIdent name = true := by
  induction names generalizing checked with
  | nil => simp
  | cons name rest ih =>
      rw [List.mapM_cons] at h
      cases hname : v5050Ident name with
      | error message =>
          rw [hname] at h
          cases h
      | ok value =>
          rw [hname] at h
          cases hrest : rest.mapM v5050Ident with
          | error message =>
              rw [hrest] at h
              cases h
          | ok values =>
              exact List.forall_mem_cons.mpr ⟨isIdent_of_v5050Ident hname, ih hrest⟩

section Law

variable {target : TargetTable} {keys : List String} {rows : List Dict} {t : KeyedTable (List Value) Columns}

/-- There is nothing to update when every column is a key. -/
theorem updates_conflictClause {columns : List String} :
    (conflictClause keys columns).updates = false ↔ ∀ column ∈ columns, column ∈ keys := by
  have hupdates : columns.filter (· ∉ keys) = [] ↔ ∀ column ∈ columns, column ∈ keys := by
    simp [List.filter_eq_nil_iff]
  rw [← hupdates]
  unfold conflictClause
  dsimp only
  split
  · rename_i hnil
    exact ⟨fun _ => hnil, fun _ => rfl⟩
  · rename_i hcons
    exact ⟨nofun, fun h => absurd h hcons⟩

/-- An update that does not apply is overtaken. -/
theorem applies_conflictClause {dict : Dict} (h : ¬ ∀ column ∈ dict.columns, column ∈ keys) :
    (conflictClause keys dict.columns).applies t (proposed target keys dict) = false ↔ Overtaken target keys t dict := by
  have hupdates : dict.columns.filter (· ∉ keys) ≠ [] := fun hnil => h (by simpa [List.filter_eq_nil_iff] using hnil)
  unfold conflictClause OnConflict.applies Overtaken
  simp only [hupdates, if_false]
  cases hold : t.get? (proposed target keys dict).1 with
  | none => simp
  | some old => by_cases hseen : "last_seen" ∈ dict.columns <;> simp [hseen]

/-- The pairs of a batch with the columns of its first dict. -/
theorem keysApart_iff {first : Dict} (hsame : ∀ row ∈ givenRows rows, row.columns = first.columns) :
    KeysApart target keys rows t ↔ (conflictClause keys first.columns).updates = false ∨
      ((givenRows rows).map (proposed target keys)).Pairwise fun earlier later =>
        earlier.1 = later.1 → (conflictClause keys first.columns).applies t earlier = false := by
  unfold KeysApart
  rw [List.pairwise_map, updates_conflictClause]
  by_cases hkeys : ∀ column ∈ first.columns, column ∈ keys
  · refine ⟨fun _ => .inl hkeys, fun _ => ?_⟩
    refine List.pairwise_of_forall_mem_list fun earlier hearlier later _ _ => .inl ?_
    rw [hsame earlier hearlier]
    exact hkeys
  · simp only [hkeys, false_or]
    refine List.Pairwise.iff_of_mem fun {earlier later} hearlier _ => ?_
    have hcolumns := hsame earlier hearlier
    have hupdates : ¬ ∀ column ∈ earlier.columns, column ∈ keys := by rwa [hcolumns]
    rw [← hcolumns, applies_conflictClause hupdates]
    simp only [hupdates, false_or]

/-- With the same columns, the single statements are those of the batch. -/
theorem upsertOneByOne_eq {first : Dict} (hsame : ∀ row ∈ givenRows rows, row.columns = first.columns) :
    upsertOneByOne target keys rows t =
      ((givenRows rows).map (proposed target keys)).foldl (conflictClause keys first.columns).upsert t := by
  unfold upsertOneByOne
  rw [List.foldl_map]
  refine List.foldl_ext _ _ _ fun t dict hdict => ?_
  rw [upsertDict, hsame dict hdict]

/-- A batch that passes the checks goes to the statement. -/
theorem copyUpsertDicts_of_accepted {first : Dict} {rest : List Dict} (hrows : givenRows rows = first :: rest)
    (h : Accepted target keys rows) : copyUpsertDicts target keys rows t =
      (conflictClause keys first.columns).insertSelect ((givenRows rows).map (proposed target keys)) t := by
  obtain ⟨hname, hsame, hcolumns, hkeys⟩ := h first rest hrows
  have htable : v5050Ident target.name = .ok target.name := if_pos hname
  have hany : (rest.any fun row => decide (row.columns ≠ first.columns)) = false := by
    simpa using hsame
  unfold copyUpsertDicts
  rw [hrows]
  simp only [htable, hany, mapM_v5050Ident hcolumns, mapM_v5050Ident hkeys]
  rfl

/-- Any other batch is refused. -/
theorem accepted_of_copyUpsertDicts {t' : KeyedTable (List Value) Columns}
    (h : copyUpsertDicts target keys rows t = .ok t') : Accepted target keys rows := by
  intro first rest hrows
  unfold copyUpsertDicts at h
  rw [hrows] at h
  cases hname : v5050Ident target.name with
  | error message =>
      simp only [hname] at h
      cases h
  | ok name =>
      by_cases hany : (rest.any fun row => decide (row.columns ≠ first.columns)) = true
      · simp only [hname, hany] at h
        cases h
      · cases hcolumns : first.columns.mapM v5050Ident with
        | error message =>
            simp only [hname, hany, hcolumns] at h
            cases h
        | ok columns =>
            cases hkeys : keys.mapM v5050Ident with
            | error message =>
                simp only [hname, hany, hcolumns, hkeys] at h
                cases h
            | ok checked =>
                exact ⟨isIdent_of_v5050Ident hname, by simpa using hany, mapM_v5050Ident_eq_ok hcolumns,
                  mapM_v5050Ident_eq_ok hkeys⟩

/-- **A COPY batch does what its rows do one after another** exactly if it passes the checks and no dict has the key of an
    earlier one that is applied. -/
theorem copy_upsert_iff (target : TargetTable) (keys : List String) (rows : List Dict)
    (t : KeyedTable (List Value) Columns) :
    copyUpsertDicts target keys rows t = .ok (upsertOneByOne target keys rows t) ↔
      Accepted target keys rows ∧ KeysApart target keys rows t := by
  cases hrows : givenRows rows with
  | nil =>
      simp [copyUpsertDicts, upsertOneByOne, Accepted, KeysApart, hrows]
  | cons first rest =>
      constructor
      · intro h
        have haccepted := accepted_of_copyUpsertDicts h
        obtain ⟨-, hrest, -⟩ := haccepted first rest hrows
        have hsame : ∀ row ∈ givenRows rows, row.columns = first.columns := by
          rw [hrows]
          exact List.forall_mem_cons.mpr ⟨rfl, hrest⟩
        rw [copyUpsertDicts_of_accepted hrows haccepted, upsertOneByOne_eq hsame] at h
        exact ⟨haccepted, (keysApart_iff hsame).mpr (OnConflict.insertSelect_eq_ok_iff.mp h)⟩
      · rintro ⟨haccepted, hapart⟩
        obtain ⟨-, hrest, -⟩ := haccepted first rest hrows
        have hsame : ∀ row ∈ givenRows rows, row.columns = first.columns := by
          rw [hrows]
          exact List.forall_mem_cons.mpr ⟨rfl, hrest⟩
        rw [copyUpsertDicts_of_accepted hrows haccepted, upsertOneByOne_eq hsame]
        exact OnConflict.insertSelect_eq_ok_iff.mpr ((keysApart_iff hsame).mp hapart)

/-- The dicts of a push always pass the checks: only their keys can meet. -/
theorem accepted_diskDicts {s : Sample} {items : List SnapshotDisk} {defaults : Columns} :
    Accepted ⟨"vm_disk_current", defaults⟩ vmDiskKeys (items.filterMap (diskDict s)) := by
  have hcolumns : ∀ dict ∈ items.filterMap (diskDict s), dict.columns =
      ["node", "vm_uuid", "target", "source", "role", "mount", "storage_device", "storage_block", "storage_fstype",
        "capacity_bytes", "allocation_bytes", "physical_bytes", "interval_seconds", "read_bps", "write_bps", "read_iops",
        "write_iops", "last_seen"] := by
    intro dict hdict
    obtain ⟨item, -, hitem⟩ := List.mem_filterMap.mp hdict
    unfold diskDict at hitem
    dsimp only at hitem
    split at hitem
    · cases hitem
    · obtain rfl := Option.some.inj hitem
      rfl
  intro first rest hrows
  have hgiven : ∀ dict ∈ first :: rest, dict ∈ items.filterMap (diskDict s) := by
    intro dict hdict
    rw [← hrows] at hdict
    exact (List.mem_filter.mp hdict).1
  have hfirst := hcolumns first (hgiven first List.mem_cons_self)
  refine ⟨?_, fun row hrow => ?_, ?_, by decide⟩
  · show isIdent "vm_disk_current" = true
    decide
  · rw [hfirst, hcolumns row (hgiven row (List.mem_cons_of_mem _ hrow))]
  · rw [hfirst]
    decide

/-- Two disks of one name. -/
def twinDisks : List Dict := [SnapshotDisk.sample none, SnapshotDisk.sample none].filterMap (diskDict fiveMinuteSample)

/-- **The batch of a push that names a disk twice is refused**; one after another the rows would go in. -/
theorem copy_upsert_refuses_twins : ¬ ∀ (target : TargetTable) (keys : List String) (rows : List Dict)
    (t : KeyedTable (List Value) Columns),
    copyUpsertDicts target keys rows t = .ok (upsertOneByOne target keys rows t) := by
  intro hclaim
  have hrefused : (copyUpsertDicts ⟨"vm_disk_current", fun _ => .int 0⟩ vmDiskKeys twinDisks .empty).toBool = false := by
    decide +kernel
  rw [hclaim] at hrefused
  cases hrefused

end Law

end VirtInfra.Current
