import VirtInfra.Consumption.Ledger

/-!
# `VmWindow` — the VM rolling-window reader

`_v5058c_vm_source_sql` covers a window by `SELECT` branches: packed slots for the partial hours at its edges,
hourly rows up to the nearest local midnights, daily rows in between. `vmSource` is that planner, branch by branch,
and `VmBranch.rows` what a branch returns.

The argument has two halves. The planner's branches tile the window and are cut where a branch of their kind may be
cut (`vmSource_spec`). A branch so cut returns exactly the bytes of the pushes whose slot lies in its span
(`VmBranch.bytes_eq`): for whole hours and days because boundaries separate slots as they separate hours, for an edge
because the slots of a row account for all its bytes, which leaves no residual to spread.
-/

namespace VirtInfra.Consumption

open Lib Python

/-! ## The planner -/

/-- One `SELECT` of the union. An edge carries the segment and the slots `first … last - 1` of its hour. -/
inductive VmBranch
  | edge (start stop hourStart : Int) (first last : Nat)
  | hourly (start stop : Int)
  | daily (start stop : Int)
  deriving DecidableEq, Repr

/-- `_r21_normalized_range(start, end)` of the VM layer. -/
def normalizedRange (start stop : Int) : Int × Int :=
  let duration := max 300 (stop - start)
  let normalizedEnd := stop / 300 * 300
  (normalizedEnd - duration, normalizedEnd)

/-- `_r2210_slot_bounds(hour_start, start, end)`. -/
def slotBounds (hourStart start stop : Int) : Nat × Nat :=
  let first := max 0 (min 12 ((start - hourStart) / 300))
  let last := max first (min 12 ((stop - hourStart) / 300))
  (first.toNat, last.toNat)

/-- `_r2210_vm_edge_branch`, which refuses a segment that leaves its local hour. -/
def vmEdgeBranch (off start stop : Int) : Except String (List VmBranch) :=
  if stop ≤ start then .ok []
  else
    let hourStart := localHourStart off start
    if localHourStart off (max start (stop - 1)) ≠ hourStart then
      .error "VM slot edge must stay within one local hour"
    else
      let (first, last) := slotBounds hourStart start stop
      .ok [.edge start stop hourStart first last]

/-- `_r2210_vm_hourly_branch`. -/
def vmHourlyBranch (start stop : Int) : List VmBranch := if stop ≤ start then [] else [.hourly start stop]

/-- `_v5058r7_vm_daily_branch`. -/
def vmDailyBranch (start stop : Int) : List VmBranch := if stop ≤ start then [] else [.daily start stop]

/-- `_r2210_add_edge_parts`: the segment, cut at the local hours. -/
def addEdgeParts (off cursor stop : Int) : Except String (List VmBranch) :=
  if _h : cursor < stop then do
    let partEnd := min stop (localHourStart off cursor + 3600)
    let part ← vmEdgeBranch off cursor partEnd
    let rest ← addEdgeParts off partEnd stop
    return part ++ rest
  else .ok []
termination_by (stop - cursor).toNat
decreasing_by
  have := lt_localHourStart_add off cursor
  omega

/-- `_r2210_add_complete_middle`. -/
def addCompleteMiddle (off start stop : Int) : List VmBranch :=
  if stop ≤ start then []
  else
    let firstDay := localDayStart off start
    let fullDayStart := if start = firstDay then firstDay else firstDay + 86400
    let fullDayEnd := localDayStart off stop
    if fullDayStart < fullDayEnd then
      (if start < fullDayStart then vmHourlyBranch start fullDayStart else []) ++
        vmDailyBranch fullDayStart fullDayEnd ++
        (if fullDayEnd < stop then vmHourlyBranch fullDayEnd stop else [])
    else vmHourlyBranch start stop

/-- **`_v5058c_vm_source_sql`** of the VM layer. -/
def vmSource (off start stop : Int) : Except String (List VmBranch) :=
  let (start, stop) := normalizedRange start stop
  if stop ≤ start then .ok []
  else
    let firstFullHour := ceilHour off start
    let lastFullHour := localHourStart off stop
    if firstFullHour ≥ lastFullHour then addEdgeParts off start stop
    else do
      let head ← (if start < firstFullHour then addEdgeParts off start firstFullHour else .ok [])
      let tail ← (if lastFullHour < stop then addEdgeParts off lastFullHour stop else .ok [])
      return head ++ addCompleteMiddle off firstFullHour lastFullHour ++ tail

/-! ## What a branch returns -/

structure VmSourceRow where
  node : String
  vmUuid : String
  bridge : String
  rxBytes : Nat
  txBytes : Nat
  sampleCount : Nat
  lastPush : Int
  deriving DecidableEq, Repr

def VmSourceRow.bytes (row : VmSourceRow) : Direction → Nat
  | .rx => row.rxBytes
  | .tx => row.txBytes

/-- `ROUND(a / b::numeric)` on naturals: half away from zero. -/
def roundDiv (a b : Nat) : Nat := (2 * a + b) / (2 * b)

/-- Slot `index` of a row is sampled. -/
def slotKnown (row : VmConsumptionHourly) (index : Nat) : Bool :=
  row.slot5mVersion.getD 1 ≥ 2 ∧ row.sample5mMask &&& (1 <<< index) ≠ 0

/-- `_r2210_mask_count_sql`. -/
def maskCount (row : VmConsumptionHourly) (first last : Nat) : Nat :=
  ((List.range' first (last - first)).map fun index => if slotKnown row index then 1 else 0).sum

/-- `_r2210_latest_slot_sql`. -/
def latestSlot (row : VmConsumptionHourly) (hourStart : Int) (first last : Nat) : Int :=
  ((List.range' first (last - first)).map fun index =>
    if slotKnown row index then hourStart + ((index : Int) + 1) * 300 else 0).max?.getD 0

/-- The bytes an edge reads off a row: the selected slots, plus a share of what a row straddling the rollout has
    outside its slots. -/
def edgeBytes (row : VmConsumptionHourly) (dir : Direction) (first last : Nat) : Nat :=
  let slotCount := last - first
  let selected := slotSum row.slot5mVersion (row.slots dir) first last
  let packed := slotSum row.slot5mVersion (row.slots dir) 0 12
  let selectedKnown := maskCount row first last
  let packedKnown := maskCount row 0 12
  selected + if packedKnown ≥ 12 then 0
    else roundDiv ((row.deltas.bytes dir - packed) * (slotCount - selectedKnown)) (max (12 - packedKnown) 1)

def edgeRow (start stop hourStart : Int) (first last : Nat) (key : VmKey) (row : VmConsumptionHourly) : VmSourceRow :=
  let slotCount := last - first
  let selectedKnown := maskCount row first last
  let packedKnown := maskCount row 0 12
  { node := key.node, vmUuid := key.vmUuid, bridge := key.bridge
    rxBytes := edgeBytes row .rx first last
    txBytes := edgeBytes row .tx first last
    sampleCount := min slotCount (selectedKnown + if packedKnown ≥ 12 then 0
      else min (min 12 row.sampleCount - packedKnown) (slotCount - selectedKnown))
    lastPush := max (latestSlot row hourStart first last)
      (if selectedKnown < slotCount ∧ row.sampleCount > packedKnown then min row.lastPush (max start (stop - 1)) else 0) }

def hourlyRow (key : VmKey) (row : VmConsumptionHourly) : VmSourceRow :=
  { node := key.node, vmUuid := key.vmUuid, bridge := key.bridge
    rxBytes := row.deltas.rx, txBytes := row.deltas.tx
    sampleCount := max (if row.slot5mVersion.getD 1 ≥ 2 ∧ row.sample5mMask ≠ 0 then maskCount row 0 12 else 0)
      (min 12 row.sampleCount)
    lastPush := row.lastPush }

def dailyRow (key : VmKey) (row : VmConsumption) : VmSourceRow :=
  { node := key.node, vmUuid := key.vmUuid, bridge := key.bridge
    rxBytes := row.deltas.rx, txBytes := row.deltas.tx
    sampleCount := row.sampleCount, lastPush := row.lastPush }

/-- `AND node=?`, present when a node is selected. -/
def nodeClause (selectedNode : String) (key : VmKey) : Bool := selectedNode = "" ∨ key.node = selectedNode

def VmBranch.rows (selectedNode : String) (t : RollupTables) : VmBranch → List VmSourceRow
  | .edge start stop hourStart first last =>
      (t.vmHourly.select fun key => key.start = hourStart && nodeClause selectedNode key).map
        fun row => edgeRow start stop hourStart first last row.1 row.2
  | .hourly start stop =>
      (t.vmHourly.select fun key => start ≤ key.start && key.start < stop && nodeClause selectedNode key).map
        fun row => hourlyRow row.1 row.2
  | .daily start stop =>
      (t.vmDaily.select fun key => start ≤ key.start && key.start < stop && nodeClause selectedNode key).map
        fun row => dailyRow row.1 row.2

/-- The bytes of the selected VMs in the source rows. -/
def sourceBytes (rows : List VmSourceRow) (who : Selector) (dir : Direction) : Nat :=
  (rows.map fun row => if who row.node row.vmUuid row.bridge then row.bytes dir else 0).sum

/-- **The window reader**: the bytes its `per_bridge` query returns for one node, VM and bridge. -/
def vmWindowBytes (off start stop : Int) (selectedNode : String) (t : RollupTables) (node vmUuid bridge : String)
    (dir : Direction) : Except String Nat := do
  let branches ← vmSource off start stop
  return sourceBytes (branches.flatMap (VmBranch.rows selectedNode t)) (Selector.vm node vmUuid bridge) dir

/-- The rows a branch reads. -/
def VmBranch.Consults (table : RollupTable) (x : Int) : VmBranch → Prop
  | .edge _ _ hourStart _ _ => table = .vmHourly ∧ x = hourStart
  | .hourly start stop => table = .vmHourly ∧ start ≤ x ∧ x < stop
  | .daily start stop => table = .vmDaily ∧ start ≤ x ∧ x < stop

/-- The rows the reader consults for a window. -/
def VmConsulted (off start stop : Int) (table : RollupTable) (x : Int) : Prop :=
  ∃ branches, vmSource off start stop = .ok branches ∧ ∃ branch ∈ branches, branch.Consults table x

/-! ## Where branches are cut -/

/-- The window segment a branch stands for. -/
def VmBranch.span : VmBranch → Int × Int
  | .edge start stop _ _ _ => (start, stop)
  | .hourly start stop => (start, stop)
  | .daily start stop => (start, stop)

/-- A time an edge may be cut at: a five-minute boundary, or the start of a local hour. -/
def Cut (off x : Int) : Prop := Aligned x ∨ OnHour off x

/-- **A branch that is cut where its kind may be cut.** -/
def VmBranch.WellCut (off : Int) : VmBranch → Prop
  | .edge start stop hourStart first last =>
      start < stop ∧ hourStart = localHourStart off start ∧ stop ≤ hourStart + 3600 ∧ Cut off start ∧ Cut off stop ∧
        (first, last) = slotBounds hourStart start stop
  | .hourly start stop => OnHour off start ∧ OnHour off stop
  | .daily start stop => OnDay off start ∧ OnDay off stop

theorem onHour_localHourStart (off t : Int) : OnHour off (localHourStart off t) := onGrid_gridFloor

theorem localHourStart_eq_iff {off hourStart x : Int} (h : OnHour off hourStart) :
    localHourStart off x = hourStart ↔ hourStart ≤ x ∧ x < hourStart + 3600 :=
  h.gridFloor_eq_iff (by decide)

/-- One part of `_r2210_add_edge_parts` is a well-cut edge. -/
theorem vmEdgeBranch_spec {off start stop : Int} (hlt : start < stop) (hstop : stop ≤ localHourStart off start + 3600)
    (hs : Cut off start) (he : Cut off stop) :
    ∃ branch, vmEdgeBranch off start stop = .ok [branch] ∧ branch.span = (start, stop) ∧ branch.WellCut off := by
  have hhour : localHourStart off (max start (stop - 1)) = localHourStart off start := by
    rw [localHourStart_eq_iff (onHour_localHourStart off start)]
    have := localHourStart_le off start
    omega
  refine ⟨.edge start stop (localHourStart off start) (slotBounds (localHourStart off start) start stop).1
    (slotBounds (localHourStart off start) start stop).2, ?_, rfl, hlt, rfl, hstop, hs, he, rfl⟩
  unfold vmEdgeBranch
  rw [if_neg (by omega), if_neg (by simp [hhour])]

/-- **The edge loop** cuts its segment into well-cut edges that tile it. -/
theorem addEdgeParts_spec (off cursor stop : Int) (hle : cursor ≤ stop) (hs : Cut off cursor) (he : Cut off stop) :
    ∃ branches, addEdgeParts off cursor stop = .ok branches ∧ Tiles cursor (branches.map VmBranch.span) stop ∧
      ∀ branch ∈ branches, branch.WellCut off := by
  induction cursor using addEdgeParts.induct off stop with
  | case1 cursor hlt partEnd ih =>
      have hcursor := lt_localHourStart_add off cursor
      have hnext : Cut off partEnd := by
        show Cut off (min stop (localHourStart off cursor + 3600))
        rcases min_choice stop (localHourStart off cursor + 3600) with h | h
        · rw [h]; exact he
        · rw [h]; exact Or.inr (onHour_localHourStart off cursor).add_cell
      obtain ⟨rest, hrest, htiles, hcut⟩ := ih (min_le_left _ _) hnext
      obtain ⟨part, hpart, hspan, hpartCut⟩ :=
        vmEdgeBranch_spec (lt_min hlt hcursor) (min_le_right _ _) hs hnext
      refine ⟨part :: rest, ?_, ?_, ?_⟩
      · rw [addEdgeParts, dif_pos hlt]
        show (do let part ← vmEdgeBranch off cursor partEnd; let rest ← addEdgeParts off partEnd stop; pure (part ++ rest)) = _
        rw [hpart, hrest]
        rfl
      · rw [List.map_cons, hspan]
        exact .cons (lt_min hlt hcursor).le htiles
      · intro branch hbranch
        rcases List.mem_cons.mp hbranch with rfl | hbranch
        · exact hpartCut
        · exact hcut branch hbranch
  | case2 cursor hge =>
      obtain rfl : cursor = stop := by omega
      exact ⟨[], by rw [addEdgeParts, dif_neg hge], .nil _, by simp⟩

theorem onDay_localDayStart (off t : Int) : OnDay off (localDayStart off t) := onGrid_gridFloor

theorem vmHourlyBranch_spec {off start stop : Int} (hle : start ≤ stop) (hs : OnHour off start)
    (he : OnHour off stop) :
    Tiles start ((vmHourlyBranch start stop).map VmBranch.span) stop ∧
      ∀ branch ∈ vmHourlyBranch start stop, branch.WellCut off := by
  unfold vmHourlyBranch
  split
  · obtain rfl : start = stop := by omega
    exact ⟨.nil _, by simp⟩
  · refine ⟨.single hle, fun branch hbranch => ?_⟩
    obtain rfl := List.mem_singleton.mp hbranch
    exact ⟨hs, he⟩

/-- **The middle** between two local hours: hours, whole days, hours. -/
theorem addCompleteMiddle_spec {off start stop : Int} (hlt : start < stop) (hs : OnHour off start)
    (he : OnHour off stop) :
    Tiles start ((addCompleteMiddle off start stop).map VmBranch.span) stop ∧
      ∀ branch ∈ addCompleteMiddle off start stop, branch.WellCut off := by
  have hceil : (if start = localDayStart off start then localDayStart off start
      else localDayStart off start + 86400) = gridCeil 86400 off start := rfl
  have hday : OnDay off (gridCeil 86400 off start) := onGrid_gridCeil
  have hstart : start ≤ gridCeil 86400 off start := le_gridCeil (by decide)
  have hstop : localDayStart off stop ≤ stop := gridFloor_le (by decide)
  have hday' := onDay_localDayStart off stop
  unfold addCompleteMiddle
  rw [if_neg (by omega)]
  simp only [hceil]
  split
  · rename_i hfull
    -- the head hours, the whole days and the tail hours, each possibly empty
    have hhead : (if start < gridCeil 86400 off start then vmHourlyBranch start (gridCeil 86400 off start) else []) =
        vmHourlyBranch start (gridCeil 86400 off start) := by
      unfold vmHourlyBranch; split_ifs <;> first | rfl | omega
    have htail : (if localDayStart off stop < stop then vmHourlyBranch (localDayStart off stop) stop else []) =
        vmHourlyBranch (localDayStart off stop) stop := by
      unfold vmHourlyBranch; split_ifs <;> first | rfl | omega
    obtain ⟨hheadTiles, hheadCut⟩ := vmHourlyBranch_spec hstart hs hday.onHour
    obtain ⟨htailTiles, htailCut⟩ := vmHourlyBranch_spec hstop hday'.onHour he
    have hdaily : vmDailyBranch (gridCeil 86400 off start) (localDayStart off stop) =
        [.daily (gridCeil 86400 off start) (localDayStart off stop)] := if_neg (by omega)
    rw [hhead, htail, hdaily, List.map_append, List.map_append]
    refine ⟨(hheadTiles.append (.single hfull.le)).append htailTiles, fun branch hbranch => ?_⟩
    rw [List.mem_append, List.mem_append, List.mem_singleton] at hbranch
    rcases hbranch with (hbranch | rfl) | hbranch
    · exact hheadCut branch hbranch
    · exact ⟨hday, hday'⟩
    · exact htailCut branch hbranch
  · exact vmHourlyBranch_spec hlt.le hs he

theorem normalizedRange_of_aligned {start stop : Int} (he : Aligned stop) (hs : Aligned start) (hlt : start < stop) :
    normalizedRange start stop = (start, stop) := by
  obtain ⟨a, ha⟩ := hs
  obtain ⟨b, hb⟩ := he
  unfold normalizedRange
  simp only [Prod.mk.injEq]
  omega

/-- **The planner's branches tile the window and are well cut.** -/
theorem vmSource_spec (off : Int) {start stop : Int} (hs : Aligned start) (he : Aligned stop) (hlt : start < stop) :
    ∃ branches, vmSource off start stop = .ok branches ∧ Tiles start (branches.map VmBranch.span) stop ∧
      ∀ branch ∈ branches, branch.WellCut off := by
  have hceil : start ≤ ceilHour off start := le_gridCeil (by decide)
  have hfloor := localHourStart_le off stop
  have hceilHour : OnHour off (ceilHour off start) := onGrid_gridCeil
  have hfloorHour := onHour_localHourStart off stop
  unfold vmSource
  rw [normalizedRange_of_aligned he hs hlt]
  simp only [if_neg (not_le.mpr hlt)]
  split
  · exact addEdgeParts_spec off start stop hlt.le (.inl hs) (.inl he)
  · rename_i hmiddle
    obtain ⟨head, hhead, hheadTiles, hheadCut⟩ :=
      addEdgeParts_spec off start (ceilHour off start) hceil (.inl hs) (.inr hceilHour)
    obtain ⟨tail, htail, htailTiles, htailCut⟩ :=
      addEdgeParts_spec off (localHourStart off stop) stop hfloor (.inr hfloorHour) (.inl he)
    obtain ⟨hmidTiles, hmidCut⟩ := addCompleteMiddle_spec (not_le.mp hmiddle) hceilHour hfloorHour
    refine ⟨head ++ addCompleteMiddle off (ceilHour off start) (localHourStart off stop) ++ tail, ?_, ?_, ?_⟩
    · -- an empty segment plans no edge, with or without the guard
      have hguard : ∀ a b, (if a < b then addEdgeParts off a b else Except.ok []) = addEdgeParts off a b := by
        intro a b
        split
        · rfl
        · rename_i h
          rw [addEdgeParts, dif_neg h]
      rw [hguard, hguard, hhead, htail]
      rfl
    · rw [List.map_append, List.map_append]
      exact (hheadTiles.append hmidTiles).append htailTiles
    · intro branch hbranch
      rw [List.mem_append, List.mem_append] at hbranch
      rcases hbranch with (hbranch | hbranch) | hbranch
      · exact hheadCut branch hbranch
      · exact hmidCut branch hbranch
      · exact htailCut branch hbranch

/-! ## What a well-cut branch returns -/

theorem packed_run (cfg : Config) (events : List Event) :
    ∀ m : Monitor, m.tables.Packed → (run cfg m events).tables.Packed := by
  induction events with
  | nil => intro m h; exact h
  | cons event rest ih => intro m h; exact ih _ (h.step cfg event)

/-- **Nothing is left to spread.** On a row whose slots are complete, an edge reads the selected slots. -/
theorem edgeBytes_of_packed {row : VmConsumptionHourly} (h : Packed row) (dir : Direction) (first last : Nat) :
    edgeBytes row dir first last = slotSum row.slot5mVersion (row.slots dir) first last := by
  have hresidual : row.deltas.bytes dir - slotSum row.slot5mVersion (row.slots dir) 0 12 = 0 := by
    rw [h.version, h.slots dir, Nat.sub_self]
  have hround : ∀ b, 0 < b → roundDiv 0 b = 0 := fun b hb => Nat.div_eq_of_lt (by omega)
  unfold edgeBytes
  dsimp only
  rw [hresidual, Nat.zero_mul, hround _ (lt_max_of_lt_right Nat.one_pos), ite_self, Nat.add_zero]

theorem sourceBytes_select {ρ : Type} (t : KeyedTable VmKey ρ) (p : VmKey → Bool)
    (toRow : VmKey → ρ → VmSourceRow) (f : ρ → Nat) {who : Selector} {dir : Direction}
    (hkey : ∀ k r, (toRow k r).node = k.node ∧ (toRow k r).vmUuid = k.vmUuid ∧ (toRow k r).bridge = k.bridge)
    (hbytes : ∀ k r, (toRow k r).bytes dir = f r) :
    sourceBytes ((t.select p).map fun row => toRow row.1 row.2) who dir =
      t.sumOf (fun k => p k && who k.node k.vmUuid k.bridge) f := by
  rw [← KeyedTable.sum_select]
  unfold sourceBytes
  rw [List.map_map]
  refine congrArg List.sum (List.map_congr_left fun row _ => ?_)
  obtain ⟨hnode, hvm, hbridge⟩ := hkey row.1 row.2
  simp only [Function.comp_apply, hnode, hvm, hbridge, hbytes]

/-- The node filter of the query keeps the VMs `who` selects. -/
def Admits (selectedNode : String) (who : Selector) : Prop :=
  ∀ n v b, who n v b → selectedNode = "" ∨ n = selectedNode

/-- The keys a branch selects. -/
theorem selected_key {selectedNode : String} {who : Selector} {lo hi : Int} (hsel : Admits selectedNode who)
    (key : VmKey) :
    ((decide (lo ≤ key.start) && decide (key.start < hi) && nodeClause selectedNode key) &&
        who key.node key.vmUuid key.bridge) = vmKeyIn who lo hi key := by
  rw [Bool.eq_iff_iff]
  simp only [nodeClause, vmKeyIn, Bool.and_eq_true, decide_eq_true_eq]
  constructor
  · rintro ⟨⟨⟨h₁, h₂⟩, -⟩, h₃⟩
    exact ⟨h₁, h₂, h₃⟩
  · rintro ⟨h₁, h₂, h₃⟩
    exact ⟨⟨⟨h₁, h₂⟩, hsel _ _ _ h₃⟩, h₃⟩

/-- **Slots select the segment.** A slot lies in a well-cut edge exactly when it is one of the edge's slots of the
    edge's hour. -/
theorem slot_in_edge {off start stop hourStart x : Int} {first last : Nat}
    (h : (VmBranch.edge start stop hourStart first last).WellCut off) (hx : Aligned x) :
    (localHourStart off x = hourStart ∧ (first : Int) ≤ (x - hourStart) / 300 ∧ (x - hourStart) / 300 < last) ↔
      (start ≤ x ∧ x < stop) := by
  obtain ⟨hlt, hhour, hstop, hs, he, hbounds⟩ := h
  have hon : OnHour off hourStart := hhour ▸ onHour_localHourStart off start
  obtain ⟨hle, hnext⟩ := (localHourStart_eq_iff hon).mp hhour.symm
  rw [localHourStart_eq_iff hon]
  simp only [slotBounds, Prod.mk.injEq] at hbounds
  obtain ⟨hfirst, hlast⟩ := hbounds
  obtain ⟨k, hk⟩ := hx
  -- a cut that is the start of a local hour is an end of this hour
  have hs' : (∃ a, start = 300 * a) ∨ start = hourStart := by
    rcases hs with ⟨a, ha⟩ | hs
    · exact Or.inl ⟨a, by omega⟩
    · exact Or.inr (by rw [hhour]; exact (hs.gridFloor_eq (by decide)).symm)
  have he' : (∃ b, stop = 300 * b) ∨ stop = hourStart + 3600 := by
    rcases he with ⟨b, hb⟩ | he
    · exact Or.inl ⟨b, by omega⟩
    · have := hon.add_le_of_lt (by decide) he (by omega)
      exact Or.inr (by omega)
  rcases hs' with ⟨a, ha⟩ | hs' <;> rcases he' with ⟨b, hb⟩ | he' <;> omega

variable {cfg : Config} {events : List Event} {consulted : RollupTable → Int → Prop}

/-- **A well-cut branch returns the bytes of the pushes whose slot lies in its span.** -/
theorem VmBranch.bytes_eq {selectedNode : String} {who : Selector} {dir : Direction} {branch : VmBranch}
    (hsel : Admits selectedNode who) (hcut : branch.WellCut cfg.tzOffset)
    (hconsulted : ∀ table x, branch.Consults table x → consulted table x)
    (hretained : Retained cfg consulted Monitor.init events) :
    sourceBytes (branch.rows selectedNode (run cfg Monitor.init events).tables) who dir =
      rangeSum (fun s => slotOf s.dataTime) (vmBytes cfg.tzOffset who dir)
        (history cfg Monitor.init events) branch.span.1 branch.span.2 := by
  have hpacked := packed_run cfg events Monitor.init packed_empty
  cases branch with
  | edge start stop hourStart first last =>
      have hlast : last ≤ 12 := by
        have := hcut.2.2.2.2.2
        simp only [slotBounds, Prod.mk.injEq] at this
        omega
      have hkeys : ∀ key : VmKey, ((decide (key.start = hourStart) && nodeClause selectedNode key) &&
          who key.node key.vmUuid key.bridge) =
          vmKeyIn who hourStart (hourStart + 1) key := by
        intro key
        have hstart : decide (key.start = hourStart) =
            (decide (hourStart ≤ key.start) && decide (key.start < hourStart + 1)) := by
          rw [← Bool.decide_and]; exact decide_eq_decide.mpr (by omega)
        rw [hstart, selected_key hsel]
      have hledger := vmEdgeLedger cfg.tzOffset who dir first hlast
        (hconsulted .vmHourly hourStart ⟨rfl, rfl⟩)
      rw [VmBranch.rows, sourceBytes_select _ _ _ (fun row => edgeBytes row dir first last)
        (fun _ _ => ⟨rfl, rfl, rfl⟩) (fun _ _ => by cases dir <;> rfl),
        KeyedTable.sumOf_congr hpacked hkeys fun row hrow => edgeBytes_of_packed hrow dir first last,
        hledger.run events Monitor.init packed_empty hretained, show Monitor.init.tables.vmHourly.sumOf _ _ = 0 from rfl,
        Nat.zero_add]
      exact congrArg List.sum (List.map_congr_left fun s _ =>
        if_congr (slot_in_edge hcut (aligned_slotOf s.dataTime)) rfl rfl)
  | hourly start stop =>
      have hledger := vmHourlyLedger cfg.tzOffset who dir
        fun x h₁ h₂ => hconsulted .vmHourly x ⟨rfl, h₁, h₂⟩
      rw [VmBranch.rows, sourceBytes_select _ _ _ (fun row => row.deltas.bytes dir)
        (fun _ _ => ⟨rfl, rfl, rfl⟩) (fun _ _ => by cases dir <;> rfl),
        KeyedTable.sumOf_congr hpacked (selected_key hsel) fun _ _ => rfl,
        hledger.run events Monitor.init packed_empty hretained, show Monitor.init.tables.vmHourly.sumOf _ _ = 0 from rfl,
        Nat.zero_add]
      exact rangeSum_gridFloor (by decide) hcut.1 hcut.2
  | daily start stop =>
      have hledger := vmDailyLedger cfg.tzOffset who dir
        fun x h₁ h₂ => hconsulted .vmDaily x ⟨rfl, h₁, h₂⟩
      rw [VmBranch.rows, sourceBytes_select _ _ _ (fun row => row.deltas.bytes dir)
        (fun _ _ => ⟨rfl, rfl, rfl⟩) (fun _ _ => by cases dir <;> rfl),
        KeyedTable.sumOf_congr (P := fun _ => True) (fun _ _ => trivial) (selected_key hsel) fun _ _ => rfl,
        hledger.run events Monitor.init packed_empty hretained, show Monitor.init.tables.vmDaily.sumOf _ _ = 0 from rfl,
        Nat.zero_add]
      exact rangeSum_gridFloor (by decide) hcut.1 hcut.2

theorem sourceBytes_flatMap {β : Type} (branches : List β) (f : β → List VmSourceRow) (who : Selector)
    (dir : Direction) :
    sourceBytes (branches.flatMap f) who dir = (branches.map fun branch => sourceBytes (f branch) who dir).sum := by
  induction branches with
  | nil => rfl
  | cons branch rest ih => rw [List.flatMap_cons, List.map_cons, List.sum_cons, ← ih]; simp [sourceBytes]

/-- **The source rows are exact**, for whichever VMs are summed up. -/
theorem vmSource_exact {start stop : Int} {selectedNode : String} (hs : Aligned start) (he : Aligned stop)
    (hlt : start < stop) (hretained : Retained cfg (VmConsulted cfg.tzOffset start stop) Monitor.init events) :
    ∃ branches, vmSource cfg.tzOffset start stop = .ok branches ∧ ∀ who dir, Admits selectedNode who →
      sourceBytes (branches.flatMap (VmBranch.rows selectedNode (run cfg Monitor.init events).tables)) who dir =
        rangeSum (fun s => slotOf s.dataTime) (vmBytes cfg.tzOffset who dir) (history cfg Monitor.init events)
          start stop := by
  obtain ⟨branches, hplan, htiles, hcut⟩ := vmSource_spec cfg.tzOffset hs he hlt
  refine ⟨branches, hplan, fun who dir hsel => ?_⟩
  rw [sourceBytes_flatMap, ← rangeSum_tiles _ _ _ htiles, List.map_map]
  refine congrArg List.sum (List.map_congr_left fun branch hbranch => ?_)
  exact VmBranch.bytes_eq hsel (hcut branch hbranch) (fun table x hx => ⟨branches, hplan, branch, hbranch, hx⟩)
    hretained

/-- **The VM rolling window is exact.** For every run and every aligned window whose rows are retained, the bytes
    read for a VM on a bridge are the bytes of the accepted pushes whose slot lies in the window. -/
theorem vm_window_exact {start stop : Int} {selectedNode node vmUuid bridge : String} {dir : Direction}
    (hs : Aligned start) (he : Aligned stop) (hlt : start < stop)
    (hsel : selectedNode = "" ∨ selectedNode = node)
    (hretained : Retained cfg (VmConsulted cfg.tzOffset start stop) Monitor.init events) :
    vmWindowBytes cfg.tzOffset start stop selectedNode (run cfg Monitor.init events).tables node vmUuid bridge dir =
      .ok (rangeSum (fun s => (slotCoordinates cfg.tzOffset s.dataTime).slotStart)
        (vmBytes cfg.tzOffset (Selector.vm node vmUuid bridge) dir) (history cfg Monitor.init events) start stop) := by
  obtain ⟨branches, hplan, hexact⟩ := vmSource_exact hs he hlt hretained
  unfold vmWindowBytes
  rw [hplan]
  refine congrArg Except.ok (hexact _ dir fun n v b hwho => hsel.imp_right fun h => ?_)
  exact (of_decide_eq_true hwho).1.trans h.symm

/-- A push of one VM that sent `rx` bytes on the public bridge. -/
def sentPush (time rx : Int) : PushRequest :=
  { time := some time, node := "n1", interval := none, physicalInterfaces := []
    interfaces := some [some { vmUuid := " vm-1 ", bridge := "br0", rxDelta := some rx }] }

/-- Two pushes of one bucket and a later one, of which 19:00-20:00 reads the first two. -/
theorem vm_window_exact_hour :
    vmWindowBytes 0 68400 72000 "n1"
      (run { tzOffset := 0 } Monitor.init
        [.push 72400 (sentPush 72010 700), .push 72400 (sentPush 72020 50), .push 72400 (sentPush 72310 9),
          .delete .vmHourly 68400]).tables "n1" "vm-1" "br0" .rx = .ok 750 := by
  have hretained : Retained { tzOffset := 0 } (VmConsulted 0 68400 72000) Monitor.init
      [.push 72400 (sentPush 72010 700), .push 72400 (sentPush 72020 50), .push 72400 (sentPush 72310 9),
        .delete .vmHourly 68400] := by
    refine ⟨fun x hx hold => ?_, trivial⟩
    rw [show (RollupTables.starts _ .vmHourly) = [68400, 72000] from by decide, List.mem_cons,
      List.mem_singleton] at hx
    omega
  exact (vm_window_exact (by decide) (by decide) (by decide) (Or.inr rfl) hretained).trans
    (congrArg Except.ok (by decide))

end VirtInfra.Consumption
