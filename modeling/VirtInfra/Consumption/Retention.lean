import VirtInfra.Consumption.Billing
import VirtInfra.Consumption.Clear
import VirtInfra.Consumption.LegacyUsage
import VirtInfra.Consumption.NodeWindow
import VirtInfra.Lib.Batches
import VirtInfra.Snapshot.Batches

/-!
# `Retention` — what the cleanups leave to the windows that can still be requested

Three jobs delete consumption rows: `run_retention` with its wrappers, the cleanup of scope `consumption`, and the
inventory cleanup. A reader is untouched by a delete that spares every row it consults (`vmWindowBytes_congr`,
`nodeWindowBytes_deleteOlder`), so what matters is where a reader's first row starts, and which rows a delete takes besides
those before its cutoff: `run_retention` deletes from the VM tables in batches, by `ctid`.

The Node reader never goes before its window, and clips its 5-minute rows to the raw retention by itself. The VM reader
does go before its window: the edge at the window's start is read from the row of the whole local hour. The deletes of
`vm_consumption_hourly` do not round their cutoff down to that hour, as those of the daily tables do to the day.
-/

namespace VirtInfra.Consumption

open Lib Python

/-! ## The cleanups -/

/-- `BW_RAW_RETENTION_DAYS`, `BW_HOURLY_RETENTION_DAYS` and `BW_RETENTION_BATCH_ROWS`. -/
structure RetentionEnv where
  rawDays : Int := 2
  hourlyDays : Int := 7
  batchRows : Nat := 25000

namespace RetentionEnv

/-- `RAW_RETENTION_DAYS`. -/
def raw (env : RetentionEnv) : Int := min 2 (max 1 env.rawDays)

/-- `HOURLY_RETENTION_DAYS`. -/
def hourly (env : RetentionEnv) : Int := min 7 (max (env.raw + 1) env.hourlyDays)

/-- `RETENTION_BATCH_ROWS`. -/
def batch (env : RetentionEnv) : { n : Nat // 0 < n } := ⟨max 1000 env.batchRows, by omega⟩

theorem hourly_bounds (env : RetentionEnv) : 2 ≤ env.hourly ∧ env.hourly ≤ 7 := by
  unfold hourly raw
  omega

end RetentionEnv

/-- `HISTORY_RETENTION_DAYS`. -/
abbrev historyRetentionDays : Int := 7

/-- `V5058R4_ROLLUP_RETENTION_SECONDS` and `V5070_ROLLUP_RETENTION_SECONDS`. -/
abbrev rollupRetentionSeconds : Int := 8 * 86400

/-- `V5070_NODE_RAW_RETENTION_SECONDS`. -/
abbrev nodeRawRetentionSeconds : Int := 2 * 86400

/-- The VM table of a grain. -/
def Grain.table : Grain → RollupTable
  | .hour => .vmHourly
  | .day => .vmDaily

/-- `_delete_in_batches` on a VM table, whose rows have the addresses `ctid`. -/
def deleteOlderInBatches (g : Grain) (cutoff : Int) (batch : { n : Nat // 0 < n }) (ctid : VmKey → Ctid) (t : RollupTables) :
    RollupTables :=
  match g with
  | .hour => { t with vmHourly := t.vmHourly.deleteWhereInBatches ctid (fun key => key.start < cutoff) batch }
  | .day => { t with vmDaily := t.vmDaily.deleteWhereInBatches ctid (fun key => key.start < cutoff) batch }

/-- A statement of a cleanup. -/
inductive CleanupStatement
  | event (event : BillingEvent)
  | deleteInBatches (g : Grain) (cutoff : Int) (ctid : VmKey → Ctid)

/-- A cleanup, with the times at which its layers read the clock and the `ctid`s of the VM tables when it deletes from them
    in batches. -/
inductive Cleanup
  /-- `run_retention` of layer 44 -/
  | runRetention (started history rollups : Int) (hourly daily : VmKey → Ctid)
  /-- `run_consumption_retention_cleanup()` -/
  | consumption (now : Int)
  /-- `run_inventory_cleanup_batches` of layer 44; without `ts` when the one of layer 40 is already running -/
  | inventory (ts : Option Int) (now : Int)

namespace Cleanup

def times : Cleanup → List Int
  | runRetention started history rollups _ _ => [started, history, rollups]
  | consumption now => [now]
  | inventory ts now => ts.toList ++ [now]

/-- **The statements of a cleanup on the consumption tables**, in their order. -/
def statements (off : Int) (env : RetentionEnv) : Cleanup → List CleanupStatement
  | runRetention started history rollups hourly daily =>
      let rawCutoff := bucketFor (started - env.raw * 86400)
      let hourlyCutoff := bucketFor (started - env.hourly * 86400)
      [.event (.rollupUsage rawCutoff), .event (.monitor (.deleteReceipts rawCutoff)),
          .deleteInBatches .hour hourlyCutoff hourly] ++
        .deleteInBatches .day (history - historyRetentionDays * 86400) daily ::
          (consumptionRetentionSpecs off rollups false).map fun event => .event (.monitor event)
  | consumption now => (consumptionRetentionSpecs off now true).map fun event => .event (.monitor event)
  | inventory ts now =>
      (ts.elim [] fun ts =>
        [.event (.monitor (.delete .nodeHourly (ts - rollupRetentionSeconds))),
          .event (.monitor (.delete .nodeDaily (localDayStart off (ts - rollupRetentionSeconds))))]) ++
      [.event (.monitor (.delete .node5m (now - nodeRawRetentionSeconds))),
        .event (.monitor (.delete .nodeHourly (now - rollupRetentionSeconds))),
        .event (.monitor (.delete .nodeDaily (localDayStart off (now - rollupRetentionSeconds))))]

end Cleanup

/-- The statements of a sequence of cleanups. -/
def cleanupStatements (off : Int) (env : RetentionEnv) (cleanups : List Cleanup) : List CleanupStatement :=
  cleanups.flatMap (Cleanup.statements off env)

def CleanupStatement.exec (cfg : BillingConfig) (batch : { n : Nat // 0 < n }) (b : Billing) : CleanupStatement → Billing
  | event e => b.step cfg e
  | deleteInBatches g cutoff ctid =>
      { b with monitor.tables := deleteOlderInBatches g cutoff batch ctid b.monitor.tables }

/-- **The database after some statements of cleanups.** -/
def Billing.clean (cfg : BillingConfig) (batch : { n : Nat // 0 < n }) (b : Billing) (statements : List CleanupStatement) :
    Billing :=
  statements.foldl (CleanupStatement.exec cfg batch) b

/-- What a statement is to delete: the rows of a table before a cutoff. -/
def CleanupStatement.cut : CleanupStatement → Option (RollupTable × Int)
  | event (.monitor (.delete table cutoff)) => some (table, cutoff)
  | event _ => none
  | deleteInBatches g cutoff _ => some (g.table, cutoff)

/-- Nothing in `usage` is to be rolled up. -/
def NothingToRollUp (usage : List StageRow) (statements : List CleanupStatement) : Prop :=
  ∀ cutoff, .event (.rollupUsage cutoff) ∈ statements → oldestUsage cutoff usage ≤ 0

/-- **No row that the VM reader consults has the `ctid` of an older row** that a batched delete is for. -/
def CleanupStatement.Apart (off start stop : Int) (t : RollupTables) : CleanupStatement → Prop
  | event _ => True
  | deleteInBatches g cutoff ctid => ∀ key other, g.holds key t → g.holds other t →
      VmConsulted off start stop g.table key.start → ctid other = ctid key → other.start < cutoff → key.start < cutoff

/-- So it is at every statement of a run. -/
def ReadsApart (cfg : BillingConfig) (batch : { n : Nat // 0 < n }) (start stop : Int) : Billing → List CleanupStatement → Prop
  | _, [] => True
  | b, statement :: rest => statement.Apart cfg.tzOffset start stop b.monitor.tables ∧
      ReadsApart cfg batch start stop (statement.exec cfg batch b) rest

/-- **The same bytes**: both readers return for `[start, stop)` what they returned before, the Node reader at `now`. -/
structure SameBytes (off start stop now : Int) (t t' : RollupTables) : Prop where
  vm : ∀ selectedNode node vmUuid bridge dir,
    vmWindowBytes off start stop selectedNode t' node vmUuid bridge dir =
      vmWindowBytes off start stop selectedNode t node vmUuid bridge dir
  node : ∀ node column,
    nodeWindowBytes off start stop (nodeRawAvailableStart now) t' node column =
      nodeWindowBytes off start stop (nodeRawAvailableStart now) t node column

/-! ## A delete that spares what a reader consults -/

section Spared

variable {off start stop avail cutoff : Int} {table : RollupTable} {t t' : RollupTables}

/-- Two databases have the same VM rows where `P` holds of the table and the start. -/
structure AgreeOn (P : RollupTable → Int → Prop) (t t' : RollupTables) : Prop where
  hourly : ∀ q : VmKey → Bool, (∀ key, q key = true → P .vmHourly key.start) → t'.vmHourly.select q = t.vmHourly.select q
  daily : ∀ q : VmKey → Bool, (∀ key, q key = true → P .vmDaily key.start) → t'.vmDaily.select q = t.vmDaily.select q

theorem VmBranch.rows_congr {branch : VmBranch} (h : AgreeOn (fun table x => branch.Consults table x) t t')
    (selectedNode : String) : branch.rows selectedNode t' = branch.rows selectedNode t := by
  cases branch with
  | edge edgeStart edgeStop hourStart first last =>
      unfold VmBranch.rows
      dsimp only
      rw [h.hourly]
      intro key hkey
      simp only [Bool.and_eq_true, decide_eq_true_eq] at hkey
      exact ⟨rfl, hkey.1⟩
  | hourly lo hi =>
      unfold VmBranch.rows
      dsimp only
      rw [h.hourly]
      intro key hkey
      simp only [Bool.and_eq_true, decide_eq_true_eq] at hkey
      exact ⟨rfl, hkey.1⟩
  | daily lo hi =>
      unfold VmBranch.rows
      dsimp only
      rw [h.daily]
      intro key hkey
      simp only [Bool.and_eq_true, decide_eq_true_eq] at hkey
      exact ⟨rfl, hkey.1⟩

/-- **The VM reader is untouched** by what spares the rows it consults. -/
theorem vmWindowBytes_congr (h : AgreeOn (VmConsulted off start stop) t t') (selectedNode node vmUuid bridge : String)
    (dir : Direction) :
    vmWindowBytes off start stop selectedNode t' node vmUuid bridge dir =
      vmWindowBytes off start stop selectedNode t node vmUuid bridge dir := by
  unfold vmWindowBytes
  cases hplan : vmSource off start stop with
  | error message => rfl
  | ok branches =>
      have hrows : branches.flatMap (VmBranch.rows selectedNode t') = branches.flatMap (VmBranch.rows selectedNode t) := by
        refine List.flatMap_congr fun branch hbranch => VmBranch.rows_congr ⟨?_, ?_⟩ selectedNode
        · exact fun q hq => h.hourly q fun key hkey => ⟨branches, hplan, branch, hbranch, hq key hkey⟩
        · exact fun q hq => h.daily q fun key hkey => ⟨branches, hplan, branch, hbranch, hq key hkey⟩
      show Except.ok _ = Except.ok _
      rw [hrows]

theorem agreeOn_deleteOlder {P : RollupTable → Int → Prop} (h : ∀ x, P table x → cutoff ≤ x) :
    AgreeOn P t (deleteOlder table cutoff t) := by
  have hspared : ∀ key : VmKey, P table key.start → decide (key.start < cutoff) = false := by
    intro key hkey
    have hcutoff := h key.start hkey
    exact decide_eq_false (by omega)
  cases table with
  | vmHourly =>
      refine ⟨fun q hq => ?_, fun _ _ => rfl⟩
      exact KeyedTable.select_deleteWhere _ _ _ fun key hkey => hspared key (hq key hkey)
  | vmDaily =>
      refine ⟨fun _ _ => rfl, fun q hq => ?_⟩
      exact KeyedTable.select_deleteWhere _ _ _ fun key hkey => hspared key (hq key hkey)
  | node5m | nodeHourly | nodeDaily => exact ⟨fun _ _ => rfl, fun _ _ => rfl⟩

/-- A batched delete spares a row that lies after the cutoff and is apart from the older ones. -/
theorem agreeOn_deleteOlderInBatches {P : RollupTable → Int → Prop} {g : Grain} {batch : { n : Nat // 0 < n }}
    {ctid : VmKey → Ctid} (h : ∀ x, P g.table x → cutoff ≤ x)
    (hapart : ∀ key other, g.holds key t → g.holds other t → P g.table key.start → ctid other = ctid key →
      other.start < cutoff → key.start < cutoff) :
    AgreeOn P t (deleteOlderInBatches g cutoff batch ctid t) := by
  have hspared : ∀ {ρ : Type} (rows : KeyedTable VmKey ρ), (∀ key, key ∈ rows.keys ↔ g.holds key t) →
      ∀ key ∈ rows.keys, P g.table key.start → rows.sharesAddress ctid (fun key => key.start < cutoff) key = false := by
    intro ρ rows hrows key hkey hread
    rw [← Bool.not_eq_true, KeyedTable.sharesAddress, sharesAddress_iff]
    rintro ⟨other, hother, hold, haddr⟩
    -- an older row at its address would make the row older too, and the reader does not go there
    have hlt := hapart key other ((hrows key).mp hkey) ((hrows other).mp hother) hread haddr (of_decide_eq_true hold)
    have hle := h key.start hread
    omega
  cases g with
  | hour =>
      refine ⟨fun q hq => ?_, fun _ _ => rfl⟩
      exact KeyedTable.select_deleteWhereInBatches _ fun key hkey hq' => hspared t.vmHourly (fun _ => Iff.rfl) key hkey (hq key hq')
  | day =>
      refine ⟨fun _ _ => rfl, fun q hq => ?_⟩
      exact KeyedTable.select_deleteWhereInBatches _ fun key hkey hq' => hspared t.vmDaily (fun _ => Iff.rfl) key hkey (hq key hq')

/-- The Node reader does not read the VM tables. -/
theorem nodeWindowBytes_deleteOlderInBatches (g : Grain) (batch : { n : Nat // 0 < n }) (ctid : VmKey → Ctid) (node : String)
    (column : NodeColumn) :
    nodeWindowBytes off start stop avail (deleteOlderInBatches g cutoff batch ctid t) node column =
      nodeWindowBytes off start stop avail t node column := by
  have hrows : ∀ part : NodePart, part.rows (deleteOlderInBatches g cutoff batch ctid t) = part.rows t := by
    rintro ⟨resolution, lo, hi⟩
    cases g <;> cases resolution <;> rfl
  unfold nodeWindowBytes
  rw [List.flatMap_congr fun part _ => hrows part]

theorem NodePart.rows_deleteOlder {part : NodePart} (h : part.table = table → cutoff ≤ part.start) :
    part.rows (deleteOlder table cutoff t) = part.rows t := by
  obtain ⟨resolution, lo, hi⟩ := part
  -- a part reads one table: only a delete on that table matters, and it spares the part's rows
  have hspared : ∀ key : NodeKey, NodePart.table ⟨resolution, lo, hi⟩ = table →
      (decide (lo ≤ key.start) && decide (key.start < hi)) = true → decide (key.start < cutoff) = false := by
    intro key htable hkey
    have hcutoff : cutoff ≤ lo := h htable
    simp only [Bool.and_eq_true, decide_eq_true_eq] at hkey
    exact decide_eq_false (by omega)
  cases resolution <;> cases table <;> first
    | rfl
    | (unfold NodePart.rows deleteOlder
       dsimp only
       rw [KeyedTable.select_deleteWhere _ _ _ fun key => hspared key rfl])

/-- **The Node reader is untouched** by a delete that spares the rows it reads. -/
theorem nodeWindowBytes_deleteOlder
    (h : ∀ part ∈ nodeSource off start stop avail, part.table = table → cutoff ≤ part.start) (node : String)
    (column : NodeColumn) :
    nodeWindowBytes off start stop avail (deleteOlder table cutoff t) node column =
      nodeWindowBytes off start stop avail t node column := by
  have hrows : (nodeSource off start stop avail).flatMap (NodePart.rows (deleteOlder table cutoff t)) =
      (nodeSource off start stop avail).flatMap (NodePart.rows t) :=
    List.flatMap_congr fun part hpart => NodePart.rows_deleteOlder (h part hpart)
  unfold nodeWindowBytes
  rw [hrows]

end Spared

/-! ## Where a reader's rows start -/

section Starts

variable {off start stop x : Int}

theorem localHourStart_mono {a b : Int} (h : a ≤ b) : localHourStart off a ≤ localHourStart off b :=
  ((onHour_localHourStart off a).le_gridFloor_iff (by decide)).mpr ((localHourStart_le off a).trans h)

theorem VmBranch.consults_hourly {branch : VmBranch} (hcut : branch.WellCut off) (h : branch.Consults .vmHourly x) :
    localHourStart off branch.span.1 ≤ x := by
  cases branch with
  | edge edgeStart edgeStop hourStart first last =>
      obtain ⟨-, rfl⟩ := h
      exact hcut.2.1.ge
  | hourly lo hi => exact (localHourStart_le off lo).trans h.2.1
  | daily lo hi => cases h.1

theorem VmBranch.consults_daily {branch : VmBranch} (h : branch.Consults .vmDaily x) : branch.span.1 ≤ x := by
  cases branch with
  | edge edgeStart edgeStop hourStart first last => cases h.1
  | hourly lo hi => cases h.1
  | daily lo hi => exact h.2.1

/-- The VM reader reads the VM tables only. -/
theorem vmConsulted_table {table : RollupTable} (h : VmConsulted off start stop table x) :
    table = .vmHourly ∨ table = .vmDaily := by
  obtain ⟨branches, -, branch, -, hx⟩ := h
  cases branch with
  | edge edgeStart edgeStop hourStart first last => exact Or.inl hx.1
  | hourly lo hi => exact Or.inl hx.1
  | daily lo hi => exact Or.inr hx.1

/-- The middle from a local midnight on: whole days, and the hours of the last day. -/
theorem addCompleteMiddle_of_onDay (hday : OnDay off start) (h : start < localDayStart off stop) :
    addCompleteMiddle off start stop =
      vmDailyBranch start (localDayStart off stop) ++ vmHourlyBranch (localDayStart off stop) stop := by
  have hle : localDayStart off stop ≤ stop := gridFloor_le (by decide)
  have hfirst : localDayStart off start = start := hday.gridFloor_eq (by decide)
  have htail : (if localDayStart off stop < stop then vmHourlyBranch (localDayStart off stop) stop else []) =
      vmHourlyBranch (localDayStart off stop) stop := by
    unfold vmHourlyBranch
    split_ifs <;> first | rfl | omega
  unfold addCompleteMiddle
  simp only [hfirst, if_true, htail, if_neg (show ¬ stop ≤ start by omega), if_pos h, lt_irrefl, if_false,
    List.nil_append]

variable (hs : Aligned start) (he : Aligned stop) (hlt : start < stop)
include hs he hlt

/-- **The VM reader starts with the local hour of its window's start.** -/
theorem vmConsulted_hourly (h : VmConsulted off start stop .vmHourly x) : localHourStart off start ≤ x := by
  obtain ⟨branches, hplan, htiles, hcut⟩ := vmSource_spec off hs he hlt
  obtain ⟨branches', hplan', branch, hbranch, hx⟩ := h
  obtain rfl := Except.ok.inj (hplan.symm.trans hplan')
  have hstart : start ≤ branch.span.1 := htiles.le_start _ (List.mem_map_of_mem hbranch)
  exact (localHourStart_mono hstart).trans (VmBranch.consults_hourly (hcut branch hbranch) hx)

/-- Its daily rows start inside the window. -/
theorem vmConsulted_daily (h : VmConsulted off start stop .vmDaily x) : start ≤ x := by
  obtain ⟨branches, hplan, htiles, -⟩ := vmSource_spec off hs he hlt
  obtain ⟨branches', hplan', branch, hbranch, hx⟩ := h
  obtain rfl := Except.ok.inj (hplan.symm.trans hplan')
  have hstart : start ≤ branch.span.1 := htiles.le_start _ (List.mem_map_of_mem hbranch)
  exact hstart.trans (VmBranch.consults_daily hx)

/-- **From a local midnight on, whole days come from the daily rows**: the first hourly row is one of the last day. -/
theorem vmConsulted_hourly_of_onDay (hday : OnDay off start) (h : VmConsulted off start stop .vmHourly x) :
    localDayStart off stop ≤ x := by
  have hhour : localHourStart off start = start := hday.onHour.gridFloor_eq (by decide)
  -- a window within one day starts at that day's midnight
  by_cases hdays : localDayStart off stop ≤ start
  · have hx := vmConsulted_hourly hs he hlt h
    omega
  · have hlast : start < localDayStart off stop := not_le.mp hdays
    have hstop : OnDay off (localDayStart off stop) := onDay_localDayStart off stop
    have hle : localDayStart off stop ≤ stop := gridFloor_le (by decide)
    have hfloor : localDayStart off stop ≤ localHourStart off stop :=
      (hstop.onHour.le_gridFloor_iff (by decide)).mpr hle
    have hmid := localDayStart_localHourStart off stop
    obtain ⟨tail, htail, htiles, hcut⟩ := addEdgeParts_spec off (localHourStart off stop) stop
      (localHourStart_le off stop) (.inr (onHour_localHourStart off stop)) (.inl he)
    have htail' : (if localHourStart off stop < stop then addEdgeParts off (localHourStart off stop) stop
        else Except.ok []) = .ok tail := by
      split
      · exact htail
      · rename_i hnot
        rw [addEdgeParts, dif_neg hnot] at htail
        exact htail
    -- the plan has no head: whole days, the hours of the last day, and the tail edge
    have hsource : vmSource off start stop = .ok (vmDailyBranch start (localDayStart off stop) ++
        vmHourlyBranch (localDayStart off stop) (localHourStart off stop) ++ tail) := by
      have hceil : ceilHour off start = start := hday.onHour.gridCeil_eq (by decide)
      unfold vmSource
      rw [normalizedRange_of_aligned he hs hlt]
      dsimp only
      rw [hceil, if_neg (not_le.mpr hlt), if_neg (show ¬ start ≥ localHourStart off stop by omega),
        if_neg (lt_irrefl start), htail', addCompleteMiddle_of_onDay hday (by omega), hmid]
      rfl
    obtain ⟨branches, hplan, branch, hbranch, hx⟩ := h
    obtain rfl := Except.ok.inj (hsource.symm.trans hplan)
    rw [List.mem_append, List.mem_append] at hbranch
    rcases hbranch with (hdaily | hhourly) | hedge
    · unfold vmDailyBranch at hdaily
      split at hdaily
      · cases hdaily
      · obtain rfl := List.mem_singleton.mp hdaily
        cases hx.1
    · unfold vmHourlyBranch at hhourly
      split at hhourly
      · cases hhourly
      · obtain rfl := List.mem_singleton.mp hhourly
        exact hx.2.1
    · have hspan : localHourStart off stop ≤ branch.span.1 := htiles.le_start _ (List.mem_map_of_mem hedge)
      have hon := (onHour_localHourStart off stop).gridFloor_eq (by decide)
      have hbranch := VmBranch.consults_hourly (hcut branch hedge) hx
      have hmono : localHourStart off (localHourStart off stop) ≤ localHourStart off branch.span.1 :=
        localHourStart_mono hspan
      have hon' : localHourStart off (localHourStart off stop) = localHourStart off stop := hon
      omega

end Starts

/-- The rows of the Node reader start inside the window, and its 5-minute rows not before the raw retention. -/
theorem nodeSource_start {off start stop avail : Int} {part : NodePart} (h : part ∈ nodeSource off start stop avail) :
    start ≤ part.start ∧ (part.resolution = .raw → avail ≤ part.start) := by
  have hedge : ∀ {a b : Int} {plan : NodePart}, plan ∈ nodeEdge off a b → a ≤ plan.start := by
    intro a b plan hplan
    have hraw : ∀ {lo hi : Int}, plan ∈ rawPart lo hi → plan.start = lo := by
      intro lo hi hmem
      unfold rawPart at hmem
      split at hmem
      · cases hmem
      · obtain rfl := List.mem_singleton.mp hmem
        rfl
    have hceil : a ≤ ceilHour off a := le_gridCeil (by decide)
    unfold nodeEdge at hplan
    dsimp only at hplan
    split at hplan
    · cases hplan
    · split at hplan
      · exact (hraw hplan).ge
      · rename_i hhours
        rw [List.mem_append, List.mem_append, List.mem_singleton] at hplan
        rcases hplan with (hhead | rfl) | htail
        · split at hhead
          · exact (hraw hhead).ge
          · cases hhead
        · exact hceil
        · split at htail
          · rw [hraw htail]
            omega
          · cases htail
  -- what is not at the leading edge of the plan lies behind it
  have hplan : ∀ {plan : NodePart}, plan ∈ nodePlan off start stop → start ≤ plan.start := by
    intro plan hmem
    have hceil : start ≤ gridCeil 86400 off start := le_gridCeil (by decide)
    rw [nodePlan_eq] at hmem
    split at hmem
    · rcases List.mem_cons.mp hmem with rfl | hmem
      · exact hceil
      · rcases List.mem_append.mp hmem with hmem | hmem
        · exact hedge hmem
        · have hstart := hedge hmem
          omega
    · exact hedge hmem
  obtain ⟨plan, hmem, hclip⟩ := List.mem_filterMap.mp h
  have hstart := hplan hmem
  -- clipping moves the start of a 5-minute row forward only
  unfold clipRaw at hclip
  split at hclip
  · dsimp only at hclip
    split at hclip
    · cases hclip
    · obtain rfl := Option.some.inj hclip
      show start ≤ max plan.start (max 0 avail) ∧ (_ → avail ≤ max plan.start (max 0 avail))
      omega
  · next hother =>
      obtain rfl := Option.some.inj hclip
      exact ⟨hstart, fun hraw => absurd hraw hother⟩

/-! ## Deletes that spare a window -/

/-- A delete that removes no row a reader needs. -/
structure Spares (off start stop now : Int) (cut : RollupTable × Int) : Prop where
  vm : ∀ x, VmConsulted off start stop cut.1 x → cut.2 ≤ x
  node : ∀ part ∈ nodeSource off start stop (nodeRawAvailableStart now), part.table = cut.1 → cut.2 ≤ part.start

/-- A statement that ingests nothing and rolls nothing up. -/
structure CleanupStatement.OnlyDeletes (statement : CleanupStatement) (usage : List StageRow) : Prop where
  noPush : ∀ receivedNow req, statement ≠ .event (.monitor (.push receivedNow req))
  noRollup : ∀ cutoff, statement = .event (.rollupUsage cutoff) → oldestUsage cutoff usage ≤ 0

section Statements

variable {off start stop now : Int} {cfg : BillingConfig} {batch : { n : Nat // 0 < n }} {b : Billing}
  {statement : CleanupStatement}

variable (cfg batch) in
/-- **What a statement does**: it leaves the consumption tables, or deletes what is before a cutoff, at once or in batches. -/
theorem exec_cases (h : statement.OnlyDeletes b.usage) :
    (statement.exec cfg batch b).usage = b.usage ∧
      (statement.cut = none ∧ (statement.exec cfg batch b).monitor.tables = b.monitor.tables ∨
        (∃ table cutoff, statement.cut = some (table, cutoff) ∧
          (statement.exec cfg batch b).monitor.tables = deleteOlder table cutoff b.monitor.tables) ∨
        ∃ g cutoff ctid, statement = .deleteInBatches g cutoff ctid ∧
          (statement.exec cfg batch b).monitor.tables = deleteOlderInBatches g cutoff batch ctid b.monitor.tables) := by
  cases statement with
  | deleteInBatches g cutoff ctid => exact ⟨rfl, .inr (.inr ⟨g, cutoff, ctid, rfl, rfl⟩)⟩
  | event event =>
      cases event with
      | rollupUsage cutoff =>
          have hsame : CleanupStatement.exec cfg batch b (.event (.rollupUsage cutoff)) = b :=
            rollupAndDeleteLegacyUsage_of_empty (h.noRollup cutoff rfl)
          rw [hsame]
          exact ⟨rfl, .inl ⟨rfl, rfl⟩⟩
      | monitor event =>
          cases event with
          | push receivedNow req => exact absurd rfl (h.noPush receivedNow req)
          | delete table cutoff => exact ⟨List.append_nil _, .inr (.inl ⟨table, cutoff, rfl, rfl⟩)⟩
          | deleteReceipts cutoff => exact ⟨List.append_nil _, .inl ⟨rfl, rfl⟩⟩

/-- A statement that spares what both readers consult leaves their bytes. -/
theorem sameBytes_exec (h : statement.OnlyDeletes b.usage) (hspares : ∀ cut ∈ statement.cut, Spares off start stop now cut)
    (hapart : statement.Apart off start stop b.monitor.tables) :
    SameBytes off start stop now b.monitor.tables (statement.exec cfg batch b).monitor.tables := by
  rcases (exec_cases cfg batch h).2 with ⟨-, htables⟩ | ⟨table, cutoff, hcut, htables⟩ | ⟨g, cutoff, ctid, rfl, htables⟩
  · rw [htables]
    exact ⟨fun _ _ _ _ _ => rfl, fun _ _ => rfl⟩
  · obtain ⟨hvm, hnode⟩ := hspares _ hcut
    rw [htables]
    exact ⟨vmWindowBytes_congr (agreeOn_deleteOlder hvm), fun node column => nodeWindowBytes_deleteOlder hnode node column⟩
  · obtain ⟨hvm, -⟩ := hspares _ rfl
    rw [htables]
    exact ⟨vmWindowBytes_congr (agreeOn_deleteOlderInBatches hvm hapart),
      fun node column => nodeWindowBytes_deleteOlderInBatches g batch ctid node column⟩

/-- What a delete of old rows leaves of a VM table. -/
theorem holds_deleteOlder {g : Grain} {table : RollupTable} {cutoff : Int} {t : RollupTables} {key : VmKey}
    (hkey : g.holds key (deleteOlder table cutoff t)) : g.holds key t ∧ (g.table = table → cutoff ≤ key.start) := by
  cases g <;> cases table <;>
    first
    | exact ⟨hkey, fun heq => nomatch heq⟩
    | (obtain ⟨hold, hfresh⟩ := KeyedTable.mem_keys_deleteWhere.mp hkey
       exact ⟨hold, fun _ => not_lt.mp (of_decide_eq_false hfresh)⟩)

/-- The same of one in batches. -/
theorem holds_deleteOlderInBatches {g g' : Grain} {cutoff : Int} {ctid : VmKey → Ctid} {t : RollupTables} {key : VmKey}
    (hkey : g.holds key (deleteOlderInBatches g' cutoff batch ctid t)) :
    g.holds key t ∧ (g.table = g'.table → cutoff ≤ key.start) := by
  cases g <;> cases g' <;>
    first
    | exact ⟨hkey, fun heq => nomatch heq⟩
    | (obtain ⟨hold, hfresh⟩ := KeyedTable.mem_keys_deleteWhereInBatches hkey
       exact ⟨hold, fun _ => not_lt.mp (of_decide_eq_false hfresh)⟩)

/-- **What a statement leaves of a VM table** was there, and is not before its cutoff. -/
theorem holds_exec (h : statement.OnlyDeletes b.usage) {g : Grain} {key : VmKey}
    (hkey : g.holds key (statement.exec cfg batch b).monitor.tables) :
    g.holds key b.monitor.tables ∧ ∀ cutoff, statement.cut = some (g.table, cutoff) → cutoff ≤ key.start := by
  rcases (exec_cases cfg batch h).2 with ⟨hcut, htables⟩ | ⟨table, cutoff, hcut, htables⟩ | ⟨g', cutoff, ctid, rfl, htables⟩
  · rw [htables] at hkey
    refine ⟨hkey, fun cutoff hsome => ?_⟩
    rw [hcut] at hsome
    cases hsome
  · rw [htables] at hkey
    obtain ⟨hold, hfresh⟩ := holds_deleteOlder hkey
    refine ⟨hold, fun cutoff' hsome => ?_⟩
    obtain ⟨rfl, rfl⟩ := Prod.mk.inj (Option.some.inj (hcut.symm.trans hsome))
    exact hfresh rfl
  · rw [htables] at hkey
    obtain ⟨hold, hfresh⟩ := holds_deleteOlderInBatches hkey
    refine ⟨hold, fun cutoff' hsome => ?_⟩
    obtain ⟨htable, rfl⟩ := Prod.mk.inj (Option.some.inj hsome)
    exact hfresh htable.symm

end Statements

/-! ## Runs of statements -/

section Runs

variable {off start stop now : Int} {cfg : BillingConfig} {batch : { n : Nat // 0 < n }}

/-- Statements that ingest nothing and roll nothing up. -/
def OnlyDelete (statements : List CleanupStatement) (usage : List StageRow) : Prop :=
  ∀ statement ∈ statements, statement.OnlyDeletes usage

/-- **A run of such statements leaves the bytes of a window** that each of them spares. -/
theorem sameBytes_clean {statements : List CleanupStatement} {b : Billing} (h : OnlyDelete statements b.usage)
    (hspares : ∀ statement ∈ statements, ∀ cut ∈ statement.cut, Spares cfg.tzOffset start stop now cut)
    (hapart : ReadsApart cfg batch start stop b statements) :
    SameBytes cfg.tzOffset start stop now b.monitor.tables (b.clean cfg batch statements).monitor.tables := by
  induction statements generalizing b with
  | nil => exact ⟨fun _ _ _ _ _ => rfl, fun _ _ => rfl⟩
  | cons statement rest ih =>
      have hfirst := h statement List.mem_cons_self
      have hstep : SameBytes cfg.tzOffset start stop now b.monitor.tables (statement.exec cfg batch b).monitor.tables :=
        sameBytes_exec hfirst (hspares statement List.mem_cons_self) hapart.1
      have hrest : SameBytes cfg.tzOffset start stop now (statement.exec cfg batch b).monitor.tables
          ((statement.exec cfg batch b).clean cfg batch rest).monitor.tables := by
        refine ih ?_ (fun s hs => hspares s (List.mem_cons_of_mem _ hs)) hapart.2
        -- a delete leaves `usage`, so that what follows rolls nothing up either
        rw [OnlyDelete, (exec_cases cfg batch hfirst).1]
        exact fun s hs => h s (List.mem_cons_of_mem _ hs)
      exact ⟨fun selectedNode node vmUuid bridge dir =>
          (hrest.vm selectedNode node vmUuid bridge dir).trans (hstep.vm selectedNode node vmUuid bridge dir),
        fun node column => (hrest.node node column).trans (hstep.node node column)⟩

/-- What a run leaves of a VM table. -/
theorem holds_clean {statements : List CleanupStatement} {b : Billing} (h : OnlyDelete statements b.usage) {g : Grain}
    {key : VmKey} (hkey : g.holds key (b.clean cfg batch statements).monitor.tables) :
    g.holds key b.monitor.tables ∧ ∀ statement ∈ statements, ∀ cutoff, statement.cut = some (g.table, cutoff) →
      cutoff ≤ key.start := by
  induction statements generalizing b with
  | nil => exact ⟨hkey, fun _ hmem => absurd hmem List.not_mem_nil⟩
  | cons statement rest ih =>
      have hfirst := h statement List.mem_cons_self
      have hrest : OnlyDelete rest (statement.exec cfg batch b).usage := by
        rw [OnlyDelete, (exec_cases cfg batch hfirst).1]
        exact fun s hs => h s (List.mem_cons_of_mem _ hs)
      obtain ⟨hmem, hcuts⟩ := ih hrest hkey
      obtain ⟨hmem, hcut⟩ := holds_exec hfirst hmem
      refine ⟨hmem, fun s hs => ?_⟩
      rcases List.mem_cons.mp hs with rfl | hs
      · exact hcut
      · exact hcuts s hs

/-- Where a VM table has one row at most, no other shares its address. -/
theorem readsApart_of_unique {statements : List CleanupStatement} {b : Billing} (h : OnlyDelete statements b.usage)
    (hunique : ∀ (g : Grain) key other, g.holds key b.monitor.tables → g.holds other b.monitor.tables → key = other) :
    ReadsApart cfg batch start stop b statements := by
  induction statements generalizing b with
  | nil => trivial
  | cons statement rest ih =>
      have hfirst := h statement List.mem_cons_self
      refine ⟨?_, ih ?_ ?_⟩
      · cases statement with
        | event event => trivial
        | deleteInBatches g cutoff ctid =>
            intro key other hkey hother _ _ hold
            rwa [hunique g key other hkey hother]
      · rw [OnlyDelete, (exec_cases cfg batch hfirst).1]
        exact fun s hs => h s (List.mem_cons_of_mem _ hs)
      · exact fun g key other hkey hother => hunique g key other (holds_exec hfirst hkey).1 (holds_exec hfirst hother).1

end Runs

/-- The VM reader finds nothing where there are no rows. -/
theorem vmWindowBytes_of_unconsulted {off start stop : Int} {t : RollupTables} {selectedNode node vmUuid bridge : String}
    {dir : Direction} (hs : Aligned start) (he : Aligned stop) (hlt : start < stop)
    (h : ∀ (g : Grain) key, VmConsulted off start stop g.table key.start → ¬ g.holds key t) :
    vmWindowBytes off start stop selectedNode t node vmUuid bridge dir = .ok 0 := by
  obtain ⟨branches, hplan, -, -⟩ := vmSource_spec off hs he hlt
  have hnone : ∀ {ρ : Type} {table : KeyedTable VmKey ρ} {p : VmKey → Bool},
      (∀ key, p key = true → key ∉ table.keys) → table.select p = [] := by
    intro ρ table p hp
    refine List.filter_eq_nil_iff.mpr fun row hrow hkey => ?_
    exact hp row.1 hkey (List.mem_map_of_mem hrow)
  -- to the reader the database is an empty one
  have hempty : AgreeOn (VmConsulted off start stop) RollupTables.empty t := by
    refine ⟨fun q hq => ?_, fun q hq => ?_⟩
    · exact hnone fun key hkey => h .hour key (hq key hkey)
    · exact hnone fun key hkey => h .day key (hq key hkey)
  rw [vmWindowBytes_congr hempty]
  have hrows : branches.flatMap (VmBranch.rows selectedNode RollupTables.empty) = [] := by
    rw [List.flatMap_eq_nil_iff]
    intro branch _
    cases branch <;> rfl
  unfold vmWindowBytes
  rw [hplan]
  show Except.ok (sourceBytes (branches.flatMap _) _ _) = _
  rw [hrows]
  rfl

/-! ## A run of cleanups -/

/-- **Cleanups only delete**, when `usage` has nothing to roll up. -/
theorem onlyDelete_cleanupStatements {off : Int} {env : RetentionEnv} {cleanups : List Cleanup} {usage : List StageRow}
    (h : NothingToRollUp usage (cleanupStatements off env cleanups)) : OnlyDelete (cleanupStatements off env cleanups) usage := by
  intro statement hstatement
  refine ⟨?_, fun cutoff heq => h cutoff (heq ▸ hstatement)⟩
  rintro receivedNow req rfl
  obtain ⟨cleanup, -, hmem⟩ := List.mem_flatMap.mp hstatement
  cases cleanup with
  | runRetention started history rollups hourly daily =>
      simp [Cleanup.statements, consumptionRetentionSpecs] at hmem
  | consumption now => simp [Cleanup.statements, consumptionRetentionSpecs] at hmem
  | inventory ts now => cases ts <;> simp [Cleanup.statements] at hmem

/-- The time before which a table may lose rows, `t` being the latest time of a cleanup. -/
def horizon (t : Int) : RollupTable → Int
  | .vmHourly | .node5m => t - 2 * 86400
  | .vmDaily | .nodeHourly | .nodeDaily => t - 7 * 86400

/-- The cutoff at which a cleanup deletes hourly VM rows. -/
def Cleanup.vmHourlyCutoff (env : RetentionEnv) : Cleanup → Option Int
  | runRetention started _ _ _ _ => some (bucketFor (started - env.hourly * 86400))
  | consumption now => some (now - 7 * 86400)
  | inventory _ _ => none

theorem Cleanup.exists_cut_of_vmHourlyCutoff (off : Int) {cutoff : Int} {env : RetentionEnv} {cleanup : Cleanup}
    (h : cleanup.vmHourlyCutoff env = some cutoff) :
    ∃ statement ∈ cleanup.statements off env, statement.cut = some (.vmHourly, cutoff) := by
  cases cleanup with
  | runRetention started history rollups hourly daily =>
      obtain rfl := Option.some.inj h
      exact ⟨.deleteInBatches .hour _ hourly, by simp [statements], rfl⟩
  | consumption now =>
      obtain rfl := Option.some.inj h
      exact ⟨.event (.monitor (.delete .vmHourly (now - 7 * 86400))), by simp [statements, consumptionRetentionSpecs], rfl⟩
  | inventory ts now => cases h

/-- Every delete of a cleanup, with its cutoff. -/
theorem Cleanup.cutoff_le {off t cutoff : Int} {env : RetentionEnv} {cleanup : Cleanup} {table : RollupTable}
    (htimes : ∀ time ∈ cleanup.times, time ≤ t) {statement : CleanupStatement}
    (h : statement ∈ cleanup.statements off env) (hcut : statement.cut = some (table, cutoff)) :
    cutoff ≤ horizon t table ∧ (table = .vmHourly → cleanup.vmHourlyCutoff env = some cutoff) := by
  have hday : ∀ x, localDayStart off x ≤ x := fun x => gridFloor_le (by decide)
  cases cleanup with
  | runRetention started history rollups hourly daily =>
      have hstarted := htimes started (by simp [times])
      have hhistory := htimes history (by simp [times])
      have hrollups := htimes rollups (by simp [times])
      have hhourly := env.hourly_bounds
      have hbucket := bucketFor_le (started - env.hourly * 86400)
      have hdaily := hday (rollups - 7 * 86400)
      simp only [statements, consumptionRetentionSpecs, historyRetentionDays, List.cons_append, List.nil_append,
        List.map_cons, List.map_nil, List.append_nil, List.mem_cons, List.not_mem_nil, or_false, Bool.false_eq_true,
        if_false] at h
      rcases h with rfl | rfl | rfl | rfl | rfl | rfl | rfl
      · cases hcut
      · cases hcut
      · obtain ⟨rfl, rfl⟩ := Prod.mk.inj (Option.some.inj hcut)
        refine ⟨?_, fun _ => rfl⟩
        show bucketFor _ ≤ t - 2 * 86400
        omega
      all_goals
        obtain ⟨rfl, rfl⟩ := Prod.mk.inj (Option.some.inj hcut)
        refine ⟨?_, nofun⟩
        show _ ≤ t - _ * 86400
        omega
  | consumption now =>
      have hnow := htimes now (by simp [times])
      have hdaily := hday (now - 7 * 86400)
      simp only [statements, consumptionRetentionSpecs, List.cons_append, List.nil_append, List.map_cons,
        List.map_nil, List.mem_cons, List.not_mem_nil, or_false, if_true] at h
      rcases h with rfl | rfl | rfl | rfl | rfl
      case inr.inr.inr.inl =>
        obtain ⟨rfl, rfl⟩ := Prod.mk.inj (Option.some.inj hcut)
        refine ⟨?_, fun _ => rfl⟩
        show _ ≤ t - 2 * 86400
        omega
      all_goals
        obtain ⟨rfl, rfl⟩ := Prod.mk.inj (Option.some.inj hcut)
        refine ⟨?_, nofun⟩
        show _ ≤ t - _ * 86400
        omega
  | inventory ts now =>
      have hnow := htimes now (by simp [times])
      have hdaily := hday (now - 8 * 86400)
      rcases List.mem_append.mp h with hbase | h
      · cases ts with
        | none => cases hbase
        | some ts =>
            have hts := htimes ts (by simp [times])
            have hdaily := hday (ts - 8 * 86400)
            simp only [Option.elim, rollupRetentionSeconds, List.mem_cons, List.not_mem_nil, or_false] at hbase
            rcases hbase with rfl | rfl
            all_goals
              obtain ⟨rfl, rfl⟩ := Prod.mk.inj (Option.some.inj hcut)
              refine ⟨?_, nofun⟩
              show _ ≤ t - _ * 86400
              omega
      · simp only [rollupRetentionSeconds, nodeRawRetentionSeconds, List.mem_cons, List.not_mem_nil, or_false] at h
        rcases h with rfl | rfl | rfl
        all_goals
          obtain ⟨rfl, rfl⟩ := Prod.mk.inj (Option.some.inj hcut)
          refine ⟨?_, nofun⟩
          show _ ≤ t - _ * 86400
          omega

/-- **The hour of the window's start is kept**, or the window starts at a local midnight and needs no part of it. -/
def KeepsFirstHour (off start : Int) (env : RetentionEnv) (cleanups : List Cleanup) : Prop :=
  OnDay off start ∨
    ∀ cleanup ∈ cleanups, ∀ cutoff ∈ cleanup.vmHourlyCutoff env, cutoff ≤ localHourStart off start

instance (off start : Int) (env : RetentionEnv) (cleanups : List Cleanup) :
    Decidable (KeepsFirstHour off start env cleanups) :=
  inferInstanceAs (Decidable (OnDay off start ∨
    ∀ cleanup ∈ cleanups, ∀ cutoff ∈ cleanup.vmHourlyCutoff env, cutoff ≤ localHourStart off start))

/-- **Cleanups that keep the first hour spare the window.** -/
theorem spares_of_keepsFirstHour {off start stop t now : Int} {env : RetentionEnv} {cleanups : List Cleanup}
    (hs : Aligned start) (he : Aligned stop) (hlt : start < stop) (hweek : stop - 7 * 86400 ≤ start) (ht : t ≤ stop)
    (hnow : t ≤ now) (htimes : ∀ cleanup ∈ cleanups, ∀ time ∈ cleanup.times, time ≤ t)
    (h : KeepsFirstHour off start env cleanups) :
    ∀ statement ∈ cleanupStatements off env cleanups, ∀ cut ∈ statement.cut, Spares off start stop now cut := by
  rintro statement hmem ⟨table, cutoff⟩ hcut
  obtain ⟨cleanup, hcleanup, hstatement⟩ := List.mem_flatMap.mp hmem
  obtain ⟨hle, hhourly⟩ := Cleanup.cutoff_le (htimes cleanup hcleanup) hstatement hcut
  refine ⟨fun x hx => ?_, fun part hpart htable => ?_⟩
  · show cutoff ≤ x
    rcases vmConsulted_table hx with heq | heq
    · obtain rfl : table = .vmHourly := heq
      rcases h with hday | hkeeps
      · -- two days lie before the last local midnight
        have hx := vmConsulted_hourly_of_onDay hs he hlt hday hx
        have hlast : stop < localDayStart off stop + 86400 := lt_gridFloor_add (by decide)
        have hle : cutoff ≤ t - 2 * 86400 := hle
        omega
      · exact (hkeeps cleanup hcleanup cutoff (hhourly rfl)).trans (vmConsulted_hourly hs he hlt hx)
    · obtain rfl : table = .vmDaily := heq
      have hx := vmConsulted_daily hs he hlt hx
      have hle : cutoff ≤ t - 7 * 86400 := hle
      omega
  · show cutoff ≤ part.start
    obtain ⟨hstart, hraw⟩ := nodeSource_start hpart
    -- the Node reader clips its 5-minute rows itself; its other tables are kept for the whole week
    obtain ⟨resolution, lo, hi⟩ := part
    obtain rfl : NodePart.table ⟨resolution, lo, hi⟩ = table := htable
    cases resolution with
    | raw =>
        have hraw : nodeRawAvailableStart now ≤ lo := hraw rfl
        have hle : cutoff ≤ t - 2 * 86400 := hle
        show cutoff ≤ lo
        unfold nodeRawAvailableStart at hraw
        dsimp only at hraw
        omega
    | hourly =>
        have hle : cutoff ≤ t - 7 * 86400 := hle
        show cutoff ≤ lo
        exact hle.trans (le_trans (by omega) hstart)
    | daily =>
        have hle : cutoff ≤ t - 7 * 86400 := hle
        show cutoff ≤ lo
        exact hle.trans (le_trans (by omega) hstart)

/-! ## A byte that is lost -/

/-- A database with one byte, received in the slot `start`. -/
def oneByte (off start : Int) : Billing :=
  ⟨run { tzOffset := off } Monitor.init [.push (start + 300) (sentPush (start + 300) 1)], []⟩

/-- The sample of that byte. -/
def oneByteSample (start : Int) : Sample :=
  { node := "n1", dataTime := start + 300, intervalSeconds := 300
    interfaces := [some { vmUuid := " vm-1 ", bridge := "br0", rxDelta := some 1 }], physicalInterfaces := [] }

theorem oneByte_accepted (off start : Int) :
    acceptedSample { tzOffset := off } (start + 300) (sentPush (start + 300) 1) Monitor.init =
      some (oneByteSample start) := by
  have hnode : strip "n1" = "n1" := by decide +kernel
  have hinterval : clamp 1 3600 300 = 300 := by decide
  simp [acceptedSample, validatePush, sentPush, safeInt, hnode, Monitor.hasReceipt, Monitor.init, oneByteSample,
    hinterval]

theorem slotOf_next {start : Int} (hs : Aligned start) : slotOf (start + 300) = start := by
  obtain ⟨k, hk⟩ := hs
  unfold slotOf bucketFor cacheBucketSeconds
  omega

section Lost

variable {off start stop : Int} (hs : Aligned start)
include hs

/-- The reader returns the byte. -/
theorem oneByte_read (he : Aligned stop) (hlt : start < stop) :
    vmWindowBytes off start stop "" (oneByte off start).monitor.tables "n1" "vm-1" "br0" .rx = .ok 1 := by
  have hretained : Retained { tzOffset := off } (VmConsulted off start stop) Monitor.init
      [.push (start + 300) (sentPush (start + 300) 1)] := trivial
  refine (vm_window_exact hs he hlt (Or.inl rfl) hretained).trans (congrArg Except.ok ?_)
  have hhistory : history { tzOffset := off } Monitor.init [.push (start + 300) (sentPush (start + 300) 1)] =
      [oneByteSample start] := by
    show (acceptedSample _ _ _ _).toList ++ [] = _
    rw [oneByte_accepted]
    rfl
  have hslot : start ≤ slotOf (oneByteSample start).dataTime ∧ slotOf (oneByteSample start).dataTime < stop := by
    rw [show (oneByteSample start).dataTime = start + 300 from rfl, slotOf_next hs]
    exact ⟨le_rfl, hlt⟩
  rw [hhistory]
  show (if start ≤ slotOf (oneByteSample start).dataTime ∧ slotOf (oneByteSample start).dataTime < stop then
    vmBytes off (Selector.vm "n1" "vm-1" "br0") .rx (oneByteSample start) else 0) + 0 = 1
  rw [if_pos hslot]
  rfl

variable (off) in
/-- Its rows are those of the local hour and of the local day of `start`, one each. -/
theorem oneByte_keys : ∃ hour day : VmKey,
    (oneByte off start).monitor.tables.vmHourly.keys = [hour] ∧ hour.start = localHourStart off start ∧
      (oneByte off start).monitor.tables.vmDaily.keys = [day] ∧ day.start = localDayStart off start := by
  have htables : (oneByte off start).monitor.tables = writeSample off (oneByteSample start) RollupTables.empty := by
    show (ingest _ _ _ _).1.tables = _
    rw [ingest_tables, oneByte_accepted]
    rfl
  rw [htables]
  refine ⟨⟨localHourStart off (slotOf (start + 300)), _, _, _⟩, ⟨localDayStart off (slotOf (start + 300)), _, _, _⟩,
    rfl, ?_, rfl, ?_⟩
  · rw [slotOf_next hs]
  · rw [slotOf_next hs]

theorem oneByte_start {g : Grain} {key : VmKey} (h : g.holds key (oneByte off start).monitor.tables) :
    key.start = g.start off start := by
  obtain ⟨hour, day, hhours, hhour, hdays, hday⟩ := oneByte_keys off hs
  cases g with
  | hour =>
      have hkey : key ∈ [hour] := hhours ▸ h
      rw [List.mem_singleton.mp hkey]
      exact hhour
  | day =>
      have hkey : key ∈ [day] := hdays ▸ h
      rw [List.mem_singleton.mp hkey]
      exact hday

theorem oneByte_unique (g : Grain) (key other : VmKey) (hkey : g.holds key (oneByte off start).monitor.tables)
    (hother : g.holds other (oneByte off start).monitor.tables) : key = other := by
  obtain ⟨hour, day, hhours, -, hdays, -⟩ := oneByte_keys off hs
  cases g with
  | hour =>
      have hkey : key ∈ [hour] := hhours ▸ hkey
      have hother : other ∈ [hour] := hhours ▸ hother
      rw [List.mem_singleton.mp hkey, List.mem_singleton.mp hother]
  | day =>
      have hkey : key ∈ [day] := hdays ▸ hkey
      have hother : other ∈ [day] := hdays ▸ hother
      rw [List.mem_singleton.mp hkey, List.mem_singleton.mp hother]

/-- **The byte is lost** with the row of its hour: the row of its day lies before the window. -/
theorem oneByte_lost {cfg : BillingConfig} {batch : { n : Nat // 0 < n }} (he : Aligned stop) (hlt : start < stop)
    {statements : List CleanupStatement} (hdelete : OnlyDelete statements (oneByte off start).usage) {cutoff : Int}
    (hcut : ∃ statement ∈ statements, statement.cut = some (.vmHourly, cutoff)) (hhour : localHourStart off start < cutoff)
    (hday : ¬ OnDay off start) :
    vmWindowBytes off start stop "" ((oneByte off start).clean cfg batch statements).monitor.tables "n1" "vm-1" "br0" .rx =
      .ok 0 := by
  refine vmWindowBytes_of_unconsulted hs he hlt fun g key hread hkey => ?_
  obtain ⟨hheld, hcuts⟩ := holds_clean hdelete hkey
  have hstart := oneByte_start hs hheld
  cases g with
  | hour =>
      obtain ⟨statement, hstatement, hcut⟩ := hcut
      have hle := hcuts statement hstatement cutoff hcut
      have hstart : key.start = localHourStart off start := hstart
      omega
  | day =>
      have hstart : key.start = localDayStart off start := hstart
      have hin := vmConsulted_daily hs he hlt hread
      have hle : localDayStart off start ≤ start := gridFloor_le (by decide)
      apply hday
      have heq : localDayStart off start = start := by omega
      rw [← heq]
      exact onDay_localDayStart off start

end Lost

/-! ## Exactly when the cleanups take nothing -/

theorem period_bounds : ∀ period ∈ Snapshot.periods, 300 ∣ period.2 ∧ 0 < period.2 ∧ period.2 ≤ 7 * 86400 := by
  decide

theorem Aligned.sub {stop seconds : Int} (h : Aligned stop) (hseconds : 300 ∣ seconds) : Aligned (stop - seconds) := by
  obtain ⟨a, ha⟩ := h
  obtain ⟨b, hb⟩ := hseconds
  exact ⟨a - b, by omega⟩

/-- **Exactly when cleanups take no bytes from a window**: where no batched delete takes a row of the window along, the
    cleanups up to `t` leave every database the bytes of a rolling window that ends at or after `t`, as long as they keep the
    hour in which the window starts. -/
theorem cleanups_take_no_bytes_iff (cfg : BillingConfig) (env : RetentionEnv) {cleanups : List Cleanup}
    {t stop now : Int} {period : String × Int} (hperiod : period ∈ Snapshot.periods) (hstop : Aligned stop)
    (ht : t ≤ stop) (hnow : t ≤ now) (htimes : ∀ cleanup ∈ cleanups, ∀ time ∈ cleanup.times, time ≤ t) :
    (∀ b : Billing, NothingToRollUp b.usage (cleanupStatements cfg.tzOffset env cleanups) →
      ReadsApart cfg env.batch (stop - period.2) stop b (cleanupStatements cfg.tzOffset env cleanups) →
      SameBytes cfg.tzOffset (stop - period.2) stop now b.monitor.tables
        (b.clean cfg env.batch (cleanupStatements cfg.tzOffset env cleanups)).monitor.tables) ↔
      KeepsFirstHour cfg.tzOffset (stop - period.2) env cleanups := by
  obtain ⟨hdvd, hpos, hweek⟩ := period_bounds period hperiod
  have hs : Aligned (stop - period.2) := Aligned.sub hstop hdvd
  have hlt : stop - period.2 < stop := by omega
  constructor
  · intro h
    by_contra hlost
    unfold KeepsFirstHour at hlost
    push Not at hlost
    obtain ⟨hday, cleanup, hcleanup, cutoff, hcutoff, hhour⟩ := hlost
    -- a byte in the first slot of the window is lost with the row of its hour
    obtain ⟨statement, hstatement, hcut⟩ := Cleanup.exists_cut_of_vmHourlyCutoff cfg.tzOffset hcutoff
    have hcut : ∃ statement ∈ cleanupStatements cfg.tzOffset env cleanups, statement.cut = some (.vmHourly, cutoff) :=
      ⟨statement, List.mem_flatMap.mpr ⟨cleanup, hcleanup, hstatement⟩, hcut⟩
    have husage : NothingToRollUp (oneByte cfg.tzOffset (stop - period.2)).usage
        (cleanupStatements cfg.tzOffset env cleanups) := fun _ _ => le_rfl
    have hdelete := onlyDelete_cleanupStatements husage
    have hsame := (h (oneByte cfg.tzOffset (stop - period.2)) husage
      (readsApart_of_unique hdelete (oneByte_unique hs))).vm "" "n1" "vm-1" "br0" .rx
    rw [oneByte_read hs hstop hlt, oneByte_lost hs hstop hlt hdelete hcut hhour hday] at hsame
    cases hsame
  · intro hkeeps b husage hapart
    exact sameBytes_clean (onlyDelete_cleanupStatements husage)
      (spares_of_keepsFirstHour hs hstop hlt (by omega) ht hnow htimes hkeeps) hapart

/-- Three cleanups, on the hour. -/
def onTheHour : List Cleanup :=
  [.consumption 600000, .runRetention 608400 608400 608400 (fun _ => (0, 1)) (fun _ => (0, 1)), .inventory (some 608400) 608400]

/-- A week read right after them is whole: with one row in each VM table, no other shares its `ctid`. -/
theorem cleanups_take_no_bytes_iff_on_hour : (∀ cleanup ∈ onTheHour, ∀ time ∈ cleanup.times, time ≤ 608400) ∧
    SameBytes 25200 (608400 - 604800) 608400 608400 (oneByte 25200 3600).monitor.tables
      ((oneByte 25200 3600).clean {} (RetentionEnv.batch {}) (cleanupStatements 25200 {} onTheHour)).monitor.tables := by
  have hperiod : ("7d", 604800) ∈ Snapshot.periods := by decide
  have hstop : Aligned 608400 := by decide
  have htimes : ∀ cleanup ∈ onTheHour, ∀ time ∈ cleanup.times, time ≤ 608400 := by decide
  have husage : NothingToRollUp (oneByte 25200 3600).usage (cleanupStatements 25200 {} onTheHour) := fun _ _ => le_rfl
  refine ⟨htimes, ?_⟩
  exact (cleanups_take_no_bytes_iff {} {} hperiod hstop le_rfl le_rfl htimes).mpr (by decide) _ husage
    (readsApart_of_unique (onlyDelete_cleanupStatements husage) (oneByte_unique (by decide)))

/-- **Retention cuts into the week it keeps.** Five minutes past the hour, `run_retention` deletes the row of the hour
    in which the last seven days begin. -/
theorem retention_takes_first_hour : ¬ ∀ (cfg : BillingConfig) (env : RetentionEnv) (cleanups : List Cleanup)
    (t stop now : Int), ∀ period ∈ Snapshot.periods, Aligned stop → t ≤ stop → t ≤ now →
    (∀ cleanup ∈ cleanups, ∀ time ∈ cleanup.times, time ≤ t) → ∀ b : Billing,
      SameBytes cfg.tzOffset (stop - period.2) stop now b.monitor.tables
        (b.clean cfg env.batch (cleanupStatements cfg.tzOffset env cleanups)).monitor.tables := by
  intro hclaim
  have hsame := (hclaim {} {} [.runRetention 608700 608700 608700 (fun _ => (0, 1)) (fun _ => (0, 1))] 608700 608700 608700
    ("7d", 604800) (by decide) (by decide) (by decide) (by decide) (by decide) (oneByte 25200 3900)).vm "" "n1" "vm-1" "br0" .rx
  have hread : vmWindowBytes 25200 3900 608700 "" (oneByte 25200 3900).monitor.tables "n1" "vm-1" "br0" .rx = .ok 1 :=
    oneByte_read (by decide) (by decide) (by decide)
  have hdelete : OnlyDelete (cleanupStatements 25200 {} [.runRetention 608700 608700 608700 (fun _ => (0, 1)) (fun _ => (0, 1))])
      (oneByte 25200 3900).usage := onlyDelete_cleanupStatements fun _ _ => le_rfl
  have hcutoff : Cleanup.vmHourlyCutoff {} (.runRetention 608700 608700 608700 (fun _ => (0, 1)) (fun _ => (0, 1))) =
      some 3900 := by decide
  obtain ⟨statement, hstatement, hcut⟩ := Cleanup.exists_cut_of_vmHourlyCutoff 25200 hcutoff
  have hcut : ∃ statement ∈ cleanupStatements 25200 {}
      [.runRetention 608700 608700 608700 (fun _ => (0, 1)) (fun _ => (0, 1))], statement.cut = some (.vmHourly, 3900) :=
    ⟨statement, List.mem_flatMap.mpr ⟨_, List.mem_singleton_self _, hstatement⟩, hcut⟩
  have hlost : vmWindowBytes 25200 3900 608700 "" ((oneByte 25200 3900).clean {} (RetentionEnv.batch {}) _).monitor.tables "n1"
      "vm-1" "br0" .rx = .ok 0 := oneByte_lost (by decide) (by decide) (by decide) hdelete hcut (by decide) (by decide)
  exact absurd (hlost.symm.trans (hsame.trans hread)) (by decide)

end VirtInfra.Consumption
