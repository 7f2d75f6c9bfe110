import VirtInfra.Consumption.Ledger

/-!
# `NodeWindow` — the Node reader and its drift from the slots

`_r21_node_source_sql` covers a window by daily rows between local midnights, hourly rows up to the local hours and
5-minute rows at the two ragged ends. The three resolutions are not keyed by one time: the VM columns of the hourly
and daily rows go by the slot, those of the 5-minute rows by the bucket after it, and the physical columns by
`data_time` itself. Where the reader passes from one resolution to another it therefore reads some pushes twice and
others not at all.

`nodeWindowBytes_add_carriedOut` is the exact balance: what the reader returns exceeds the bytes of the window's
slots by the bytes carried over the boundaries it enters through, less those carried over the boundaries it leaves
through.
-/

namespace VirtInfra.Consumption

open Lib Python

/-! ## The planner -/

inductive Resolution | raw | hourly | daily
  deriving DecidableEq, Repr

/-- One `SELECT` of the union. -/
structure NodePart where
  resolution : Resolution
  start : Int
  stop : Int
  deriving DecidableEq, Repr

/-- A raw edge before it is clipped to the raw retention. -/
def rawPart (start stop : Int) : List NodePart := if stop ≤ start then [] else [⟨.raw, start, stop⟩]

/-- The loop body of `_r21_node_source_sql` for one edge of the window. -/
def nodeEdge (off edgeStart edgeEnd : Int) : List NodePart :=
  if edgeEnd ≤ edgeStart then []
  else
    let fullHourStart := ceilHour off edgeStart
    let fullHourEnd := localHourStart off edgeEnd
    if fullHourStart ≥ fullHourEnd then rawPart edgeStart edgeEnd
    else
      (if edgeStart < fullHourStart then rawPart edgeStart fullHourStart else []) ++
        [⟨.hourly, fullHourStart, fullHourEnd⟩] ++
        (if fullHourEnd < edgeEnd then rawPart fullHourEnd edgeEnd else [])

/-- The branches of the union, with unclipped raw edges. -/
def nodePlan (off start stop : Int) : List NodePart :=
  let firstDay := localDayStart off start
  let fullDayStart := if start = firstDay then firstDay else firstDay + 86400
  let fullDayEnd := localDayStart off stop
  if fullDayStart < fullDayEnd then
    ⟨.daily, fullDayStart, fullDayEnd⟩ :: (nodeEdge off start fullDayStart ++ nodeEdge off fullDayEnd stop)
  else nodeEdge off start stop

/-- `add_raw` never reads before `raw_available_start`. -/
def clipRaw (rawAvailableStart : Int) (part : NodePart) : Option NodePart :=
  match part.resolution with
  | .raw =>
      let rawStart := max part.start rawAvailableStart
      if part.stop ≤ rawStart then none else some { part with start := rawStart }
  | _ => some part

/-- `_r22_node_raw_available_start(reference_now)`. -/
def nodeRawAvailableStart (referenceNow : Int) : Int :=
  let cutoff := max 0 (referenceNow - 2 * 86400)
  (cutoff + 300 - 1) / 300 * 300

/-- **`_r21_node_source_sql(start, end, raw_available_start)`**. -/
def nodeSource (off start stop rawAvailableStart : Int) : List NodePart :=
  (nodePlan off start stop).filterMap (clipRaw (max 0 rawAvailableStart))

/-! ## What a part returns -/

def NodePart.table (part : NodePart) : RollupTable :=
  match part.resolution with
  | .raw => .node5m
  | .hourly => .nodeHourly
  | .daily => .nodeDaily

def NodePart.rows (t : RollupTables) (part : NodePart) : List (NodeKey × NodeConsumption) :=
  let inPart : NodeKey → Bool := fun key => part.start ≤ key.start && key.start < part.stop
  match part.resolution with
  | .raw => t.node5m.select inPart
  | .hourly => (t.nodeHourly.select inPart).map fun row => (row.1, row.2.toNodeConsumption)
  | .daily => (t.nodeDaily.select inPart).map fun row => (row.1, row.2.toNodeConsumption)

/-- `SUM(column) … GROUP BY node`, for one node. -/
def nodeSum (rows : List (NodeKey × NodeConsumption)) (node : String) (column : NodeColumn) : Nat :=
  (rows.map fun row => if row.1.node = node then row.2.bytes column else 0).sum

/-- **The Node reader**: the bytes of a column it returns for a node over a window. -/
def nodeWindowBytes (off start stop rawAvailableStart : Int) (t : RollupTables) (node : String)
    (column : NodeColumn) : Nat :=
  nodeSum ((nodeSource off start stop rawAvailableStart).flatMap (NodePart.rows t)) node column

/-- The rows the reader consults for a window. -/
def NodeConsulted (off start stop : Int) (table : RollupTable) (x : Int) : Prop :=
  ∃ part ∈ nodePlan off start stop, part.table = table ∧ part.start ≤ x ∧ x < part.stop

instance (off start stop : Int) (table : RollupTable) (x : Int) : Decidable (NodeConsulted off start stop table x) :=
  inferInstanceAs (Decidable (∃ part ∈ nodePlan off start stop, part.table = table ∧ part.start ≤ x ∧ x < part.stop))

/-- **Every row a window consults is there**: no delete removed one, and no raw edge is clipped. -/
structure WindowRetained (cfg : Config) (events : List Event) (rawAvailableStart start stop : Int) : Prop where
  rows : Retained cfg (NodeConsulted cfg.tzOffset start stop) Monitor.init events
  raw : ∀ part ∈ nodePlan cfg.tzOffset start stop, part.resolution = .raw → max 0 rawAvailableStart ≤ part.start

/-! ## Parts and times -/

section Balance

variable (cfg : Config) (events : List Event) (node : String) (column : NodeColumn)

/-- The bytes of the accepted pushes whose slot lies in `[lo, hi)`. -/
def slotBytes (lo hi : Int) : Nat :=
  rangeSum (fun s => (slotCoordinates cfg.tzOffset s.dataTime).slotStart) (nodeBytes cfg.tzOffset node column)
    (history cfg Monitor.init events) lo hi

/-- The bytes the 5-minute rows in `[lo, hi)` hold. -/
def rawBytes (lo hi : Int) : Nat :=
  rangeSum (fun s => bucketFor s.dataTime) (nodeBytes cfg.tzOffset node column)
    (history cfg Monitor.init events) lo hi

/-- The bytes the hourly or daily rows in `[lo, hi)` hold. -/
def rollupBytes (lo hi : Int) : Nat :=
  rangeSum (rollupTime column.meter) (nodeBytes cfg.tzOffset node column) (history cfg Monitor.init events) lo hi

/-- The bytes that the 5-minute rows put at or after `x` though their slot lies before it. -/
def rawCarry (x : Int) : Nat :=
  carry (fun s => (slotCoordinates cfg.tzOffset s.dataTime).slotStart) (fun s => bucketFor s.dataTime)
    (nodeBytes cfg.tzOffset node column) (history cfg Monitor.init events) x

/-- The bytes that the hourly and daily rows put at or after `x` though their slot lies before it. -/
def rollupCarry (x : Int) : Nat :=
  carry (fun s => (slotCoordinates cfg.tzOffset s.dataTime).slotStart) (rollupTime column.meter)
    (nodeBytes cfg.tzOffset node column) (history cfg Monitor.init events) x

/-- What the reader of `[start, stop)` reads although its slot lies before: the bytes carried over the boundaries
    where it starts on a resolution. -/
def carriedIn (start stop : Int) : Nat :=
  let hourStart := ceilHour cfg.tzOffset start
  let hourEnd := localHourStart cfg.tzOffset stop
  if hourStart < hourEnd then
    rawCarry cfg events node column start + rollupCarry cfg events node column hourStart +
      rawCarry cfg events node column hourEnd
  else rawCarry cfg events node column start

/-- What it misses: the bytes carried over the boundaries where it ends with a resolution. -/
def carriedOut (start stop : Int) : Nat :=
  let hourStart := ceilHour cfg.tzOffset start
  let hourEnd := localHourStart cfg.tzOffset stop
  if hourStart < hourEnd then
    rawCarry cfg events node column hourStart + rollupCarry cfg events node column hourEnd +
      rawCarry cfg events node column stop
  else rawCarry cfg events node column stop

end Balance

variable {cfg : Config} {events : List Event} {node : String} {column : NodeColumn}

theorem rollupTime_ge_slot (meter : Meter) (s : Sample) : slotOf s.dataTime ≤ rollupTime meter s := by
  cases meter with
  | physical => exact (slotOf_lt s.dataTime).le
  | vm => exact le_rfl

theorem nodeSum_flatMap {β : Type} (parts : List β) (f : β → List (NodeKey × NodeConsumption)) (node : String)
    (column : NodeColumn) :
    nodeSum (parts.flatMap f) node column = (parts.map fun part => nodeSum (f part) node column).sum := by
  induction parts with
  | nil => rfl
  | cons part rest ih => rw [List.flatMap_cons, List.map_cons, List.sum_cons, ← ih]; simp [nodeSum]

/-- A part of the plan is cut where its table's cells are. -/
def NodePart.WellCut (off : Int) (part : NodePart) : Prop :=
  match part.resolution with
  | .raw => True
  | .hourly => OnHour off part.start ∧ OnHour off part.stop
  | .daily => OnDay off part.start ∧ OnDay off part.stop

/-- The bytes a part stands for. -/
def partBytes (cfg : Config) (events : List Event) (node : String) (column : NodeColumn) (part : NodePart) : Nat :=
  match part.resolution with
  | .raw => rawBytes cfg events node column part.start part.stop
  | _ => rollupBytes cfg events node column part.start part.stop

theorem nodeSum_select {ρ : Type} (t : KeyedTable NodeKey ρ) (lo hi : Int) (toRow : ρ → NodeConsumption)
    (node : String) (column : NodeColumn) :
    nodeSum ((t.select fun key => lo ≤ key.start && key.start < hi).map fun row => (row.1, toRow row.2)) node column =
      t.sumOf (nodeKeyIn node lo hi) fun row => (toRow row).bytes column := by
  have hkeys : ∀ key : NodeKey, ((decide (lo ≤ key.start) && decide (key.start < hi)) && decide (key.node = node)) =
      nodeKeyIn node lo hi key := by
    intro key
    rw [Bool.eq_iff_iff]
    simp [nodeKeyIn, and_assoc]
  rw [← KeyedTable.sumOf_congr (P := fun _ => True) (fun _ _ => trivial) hkeys fun _ _ => rfl,
    ← KeyedTable.sum_select]
  unfold nodeSum
  rw [List.map_map]
  refine congrArg List.sum (List.map_congr_left fun row _ => ?_)
  simp only [Function.comp_apply, decide_eq_true_eq]

/-- **A well-cut part returns the bytes it stands for.** -/
theorem NodePart.bytes_eq {consulted : RollupTable → Int → Prop} {part : NodePart}
    (hcut : part.WellCut cfg.tzOffset)
    (hconsulted : ∀ x, part.start ≤ x → x < part.stop → consulted part.table x)
    (hretained : Retained cfg consulted Monitor.init events) :
    nodeSum (part.rows (run cfg Monitor.init events).tables) node column = partBytes cfg events node column part := by
  obtain ⟨resolution, start, stop⟩ := part
  cases resolution with
  | raw =>
      have hrun := (node5mLedger cfg.tzOffset node column hconsulted).run events Monitor.init packed_empty hretained
      have hrows := nodeSum_select (run cfg Monitor.init events).tables.node5m start stop id node column
      rw [show (fun row : NodeKey × NodeConsumption => (row.1, id row.2)) = id from rfl, List.map_id] at hrows
      exact hrows.trans (hrun.trans (Nat.zero_add _))
  | hourly =>
      have hrun :=
        (nodeHourlyLedger cfg.tzOffset node column hconsulted).run events Monitor.init packed_empty hretained
      have hrows := nodeSum_select (run cfg Monitor.init events).tables.nodeHourly start stop
        NodeRollup.toNodeConsumption node column
      exact hrows.trans ((hrun.trans (Nat.zero_add _)).trans (rangeSum_gridFloor (by decide) hcut.1 hcut.2))
  | daily =>
      have hrun :=
        (nodeDailyLedger cfg.tzOffset node column hconsulted).run events Monitor.init packed_empty hretained
      have hrows := nodeSum_select (run cfg Monitor.init events).tables.nodeDaily start stop
        NodeRollup.toNodeConsumption node column
      exact hrows.trans ((hrun.trans (Nat.zero_add _)).trans (rangeSum_gridFloor (by decide) hcut.1 hcut.2))

/-! ## The plan as a sum -/

theorem rawPart_sum (start stop : Int) :
    ((rawPart start stop).map (partBytes cfg events node column)).sum =
      rawBytes cfg events node column start stop := by
  unfold rawPart
  split
  · rename_i h
    exact (rangeSum_of_le h).symm
  · simp [partBytes]

/-- An edge of the window, as raw ends around whole hours. -/
def edgeBytesOf (cfg : Config) (events : List Event) (node : String) (column : NodeColumn) (start stop : Int) : Nat :=
  let hourStart := ceilHour cfg.tzOffset start
  let hourEnd := localHourStart cfg.tzOffset stop
  if hourStart < hourEnd then
    rawBytes cfg events node column start hourStart + rollupBytes cfg events node column hourStart hourEnd +
      rawBytes cfg events node column hourEnd stop
  else rawBytes cfg events node column start stop

theorem nodeEdge_sum (start stop : Int) :
    ((nodeEdge cfg.tzOffset start stop).map (partBytes cfg events node column)).sum =
      edgeBytesOf cfg events node column start stop := by
  have hceil : start ≤ ceilHour cfg.tzOffset start := le_gridCeil (by decide)
  have hfloor := localHourStart_le cfg.tzOffset stop
  unfold nodeEdge edgeBytesOf
  dsimp only
  split
  · rename_i hle
    rw [if_neg (by omega)]
    exact (rangeSum_of_le hle).symm
  · split
    · rename_i hge
      rw [if_neg (by omega), rawPart_sum]
    · rename_i hlt
      -- the guards of the two raw ends only leave out empty ends
      have hhead : (if start < ceilHour cfg.tzOffset start then rawPart start (ceilHour cfg.tzOffset start) else []) =
          rawPart start (ceilHour cfg.tzOffset start) := by
        unfold rawPart; split_ifs <;> first | rfl | omega
      have htail : (if localHourStart cfg.tzOffset stop < stop then rawPart (localHourStart cfg.tzOffset stop) stop
          else []) = rawPart (localHourStart cfg.tzOffset stop) stop := by
        unfold rawPart; split_ifs <;> first | rfl | omega
      rw [hhead, htail, if_pos (by omega), List.map_append, List.map_append, List.sum_append, List.sum_append,
        rawPart_sum, rawPart_sum]
      simp [partBytes]

theorem rollupBytes_split {lo mid hi : Int} (h₁ : lo ≤ mid) (h₂ : mid ≤ hi) :
    rollupBytes cfg events node column lo hi =
      rollupBytes cfg events node column lo mid + rollupBytes cfg events node column mid hi :=
  rangeSum_split h₁ h₂

/-- An edge that ends on a local hour has no raw end there. -/
theorem edgeBytesOf_to_hour {start stop : Int} (hstop : OnHour cfg.tzOffset stop) (hle : start ≤ stop) :
    edgeBytesOf cfg events node column start stop =
      rawBytes cfg events node column start (ceilHour cfg.tzOffset start) +
        rollupBytes cfg events node column (ceilHour cfg.tzOffset start) stop := by
  have hceil : ceilHour cfg.tzOffset start ≤ stop := hstop.gridCeil_le (by decide) hle
  have hfloor : localHourStart cfg.tzOffset stop = stop := hstop.gridFloor_eq (by decide)
  unfold edgeBytesOf
  dsimp only
  rw [hfloor]
  by_cases hlt : ceilHour cfg.tzOffset start < stop
  · rw [if_pos hlt, show rawBytes cfg events node column stop stop = 0 from rangeSum_of_le le_rfl, Nat.add_zero]
  · obtain rfl : ceilHour cfg.tzOffset start = stop := by omega
    rw [if_neg hlt, show rollupBytes cfg events node column _ _ = 0 from rangeSum_of_le le_rfl, Nat.add_zero]

/-- An edge that starts on a local hour has no raw end there. -/
theorem edgeBytesOf_from_hour {start stop : Int} (hstart : OnHour cfg.tzOffset start) (hle : start ≤ stop) :
    edgeBytesOf cfg events node column start stop =
      rollupBytes cfg events node column start (localHourStart cfg.tzOffset stop) +
        rawBytes cfg events node column (localHourStart cfg.tzOffset stop) stop := by
  have hfloor : start ≤ localHourStart cfg.tzOffset stop := (hstart.le_gridFloor_iff (by decide)).mpr hle
  have hceil : ceilHour cfg.tzOffset start = start := hstart.gridCeil_eq (by decide)
  unfold edgeBytesOf
  dsimp only
  rw [hceil]
  by_cases hlt : start < localHourStart cfg.tzOffset stop
  · rw [if_pos hlt, show rawBytes cfg events node column start start = 0 from rangeSum_of_le le_rfl, Nat.zero_add]
  · have heq : localHourStart cfg.tzOffset stop = start := by omega
    rw [if_neg hlt, heq, show rollupBytes cfg events node column _ _ = 0 from rangeSum_of_le le_rfl, Nat.zero_add]

/-- The plan, by the first midnight at or after its start and the last at or before its end. -/
theorem nodePlan_eq (off start stop : Int) :
    nodePlan off start stop =
      if gridCeil 86400 off start < localDayStart off stop then
        ⟨.daily, gridCeil 86400 off start, localDayStart off stop⟩ ::
          (nodeEdge off start (gridCeil 86400 off start) ++ nodeEdge off (localDayStart off stop) stop)
      else nodeEdge off start stop := rfl

/-- **The days inside the window change nothing**: daily rows hold what the hourly rows hold. -/
theorem nodePlan_sum (start stop : Int) :
    ((nodePlan cfg.tzOffset start stop).map (partBytes cfg events node column)).sum =
      edgeBytesOf cfg events node column start stop := by
  rw [nodePlan_eq]
  split
  · rename_i hfull
    have hday : OnDay cfg.tzOffset (gridCeil 86400 cfg.tzOffset start) := onGrid_gridCeil
    have hday' : OnDay cfg.tzOffset (localDayStart cfg.tzOffset stop) := onGrid_gridFloor
    have hstart : start ≤ gridCeil 86400 cfg.tzOffset start := le_gridCeil (by decide)
    have hstop : localDayStart cfg.tzOffset stop ≤ stop := gridFloor_le (by decide)
    -- both midnights are local hours, so the first and last whole hour lie on their outer sides
    have hceil : ceilHour cfg.tzOffset start ≤ gridCeil 86400 cfg.tzOffset start :=
      hday.onHour.gridCeil_le (by decide) hstart
    have hfloor : localDayStart cfg.tzOffset stop ≤ localHourStart cfg.tzOffset stop :=
      (hday'.onHour.le_gridFloor_iff (by decide)).mpr hstop
    rw [List.map_cons, List.sum_cons, List.map_append, List.sum_append, nodeEdge_sum, nodeEdge_sum,
      edgeBytesOf_to_hour hday.onHour hstart, edgeBytesOf_from_hour hday'.onHour hstop]
    show rollupBytes cfg events node column _ _ + _ = _
    unfold edgeBytesOf
    dsimp only
    rw [if_pos (by omega), rollupBytes_split hceil (hfull.le.trans hfloor), rollupBytes_split hfull.le hfloor]
    omega
  · exact nodeEdge_sum start stop

/-! ## The balance -/

theorem rawPart_mem {start stop : Int} {part : NodePart} (h : part ∈ rawPart start stop) :
    part.resolution = .raw ∧ part.start < part.stop := by
  unfold rawPart at h
  split at h
  · simp at h
  · rename_i hlt
    obtain rfl := List.mem_singleton.mp h
    exact ⟨rfl, not_le.mp hlt⟩

theorem nodeEdge_mem {off start stop : Int} {part : NodePart} (h : part ∈ nodeEdge off start stop) :
    (part.resolution = .raw ∧ part.start < part.stop) ∨
      part = ⟨.hourly, ceilHour off start, localHourStart off stop⟩ := by
  unfold nodeEdge at h
  dsimp only at h
  split at h
  · simp at h
  · split at h
    · exact Or.inl (rawPart_mem h)
    · rw [List.mem_append, List.mem_append, List.mem_singleton] at h
      rcases h with (h | h) | h
      · split at h
        · exact Or.inl (rawPart_mem h)
        · simp at h
      · exact Or.inr h
      · split at h
        · exact Or.inl (rawPart_mem h)
        · simp at h

/-- **Every part of the plan is well cut**, and its raw parts are not empty. -/
theorem nodePlan_mem {off start stop : Int} {part : NodePart} (h : part ∈ nodePlan off start stop) :
    part.WellCut off ∧ (part.resolution = .raw → part.start < part.stop) := by
  have hedge : ∀ {a b : Int}, part ∈ nodeEdge off a b →
      part.WellCut off ∧ (part.resolution = .raw → part.start < part.stop) := by
    intro a b hmem
    rcases nodeEdge_mem hmem with ⟨hraw, hlt⟩ | rfl
    · exact ⟨by unfold NodePart.WellCut; rw [hraw]; trivial, fun _ => hlt⟩
    · exact ⟨⟨onGrid_gridCeil, onGrid_gridFloor⟩, nofun⟩
  rw [nodePlan_eq] at h
  split at h
  · rcases List.mem_cons.mp h with rfl | h
    · exact ⟨⟨onGrid_gridCeil, onGrid_gridFloor⟩, nofun⟩
    · rcases List.mem_append.mp h with h | h
      · exact hedge h
      · exact hedge h
  · exact hedge h

/-- With no raw edge clipped, the reader reads its plan. -/
theorem nodeSource_eq_nodePlan {off start stop rawAvailableStart : Int}
    (h : ∀ part ∈ nodePlan off start stop, part.resolution = .raw → max 0 rawAvailableStart ≤ part.start) :
    nodeSource off start stop rawAvailableStart = nodePlan off start stop := by
  unfold nodeSource
  rw [List.filterMap_congr (g := some), List.filterMap_some]
  intro part hpart
  obtain ⟨resolution, partStart, partStop⟩ := part
  cases resolution with
  | raw =>
      have hstart : max 0 rawAvailableStart ≤ partStart := h _ hpart rfl
      have hlt : partStart < partStop := (nodePlan_mem hpart).2 rfl
      simp only [clipRaw, max_eq_left hstart, if_neg (not_le.mpr hlt)]
  | hourly => rfl
  | daily => rfl

/-- **What the Node reader returns** on a retained window: raw ends around whole hours, or one raw piece. -/
theorem nodeWindowBytes_eq {start stop rawAvailableStart : Int}
    (hretained : WindowRetained cfg events rawAvailableStart start stop) :
    nodeWindowBytes cfg.tzOffset start stop rawAvailableStart (run cfg Monitor.init events).tables node column =
      edgeBytesOf cfg events node column start stop := by
  unfold nodeWindowBytes
  rw [nodeSource_eq_nodePlan hretained.raw, nodeSum_flatMap, ← nodePlan_sum]
  refine congrArg List.sum (List.map_congr_left fun part hpart => ?_)
  exact NodePart.bytes_eq (nodePlan_mem hpart).1 (fun x h₁ h₂ => ⟨part, hpart, rfl, h₁, h₂⟩) hretained.rows

theorem rawBytes_add_carry (cfg : Config) (events : List Event) (node : String) (column : NodeColumn) {lo hi : Int} (hle : lo ≤ hi) :
    rawBytes cfg events node column lo hi + rawCarry cfg events node column hi =
      slotBytes cfg events node column lo hi + rawCarry cfg events node column lo :=
  rangeSum_add_carry (fun s _ => slotOf_le_bucketFor s.dataTime) hle

theorem rollupBytes_add_carry (cfg : Config) (events : List Event) (node : String) (column : NodeColumn) {lo hi : Int} (hle : lo ≤ hi) :
    rollupBytes cfg events node column lo hi + rollupCarry cfg events node column hi =
      slotBytes cfg events node column lo hi + rollupCarry cfg events node column lo :=
  rangeSum_add_carry (fun s _ => rollupTime_ge_slot column.meter s) hle

theorem slotBytes_split (cfg : Config) (events : List Event) (node : String) (column : NodeColumn) {lo mid hi : Int} (h₁ : lo ≤ mid) (h₂ : mid ≤ hi) :
    slotBytes cfg events node column lo hi =
      slotBytes cfg events node column lo mid + slotBytes cfg events node column mid hi :=
  rangeSum_split h₁ h₂

/-- **The balance of a window.** -/
theorem nodeWindowBytes_add_carriedOut (node : String) (column : NodeColumn) {start stop rawAvailableStart : Int} (hle : start ≤ stop)
    (hretained : WindowRetained cfg events rawAvailableStart start stop) :
    nodeWindowBytes cfg.tzOffset start stop rawAvailableStart (run cfg Monitor.init events).tables node column +
        carriedOut cfg events node column start stop =
      slotBytes cfg events node column start stop + carriedIn cfg events node column start stop := by
  have hceil : start ≤ ceilHour cfg.tzOffset start := le_gridCeil (by decide)
  have hfloor := localHourStart_le cfg.tzOffset stop
  rw [nodeWindowBytes_eq hretained]
  unfold edgeBytesOf carriedOut carriedIn
  dsimp only
  by_cases hlt : ceilHour cfg.tzOffset start < localHourStart cfg.tzOffset stop
  · simp only [if_pos hlt]
    have hhead := rawBytes_add_carry cfg events node column hceil
    have hmid := rollupBytes_add_carry cfg events node column hlt.le
    have htail := rawBytes_add_carry cfg events node column hfloor
    have hsplit := slotBytes_split cfg events node column hceil
      (hlt.le.trans hfloor)
    have hsplit' := slotBytes_split cfg events node column hlt.le hfloor
    omega
  · simp only [if_neg hlt]
    exact rawBytes_add_carry cfg events node column hle

/-! ## Counting once -/

/-- **Every accepted push counts once, and windows add up.** What the reader returns over `[a, c)` is the sum over
    the two halves, and is the bytes of the pushes whose slot lies in `[a, c)`, for every byte column. -/
def CountsOnce (cfg : Config) (events : List Event) (rawAvailableStart : Int) (node : String) (a b c : Int) : Prop :=
  ∀ column,
    let read := fun start stop =>
      nodeWindowBytes cfg.tzOffset start stop rawAvailableStart (run cfg Monitor.init events).tables node column
    read a c = read a b + read b c ∧ read a c = slotBytes cfg events node column a c

/-- **Exactly when the Node reader counts once**: for every column the bytes carried into the window balance those
    carried out of it, and so do those of the two halves together. -/
theorem node_window_counts_once_iff {a b c rawAvailableStart : Int} (hab : a ≤ b) (hbc : b ≤ c)
    (hretained : WindowRetained cfg events rawAvailableStart a c)
    (hretained₁ : WindowRetained cfg events rawAvailableStart a b)
    (hretained₂ : WindowRetained cfg events rawAvailableStart b c) :
    CountsOnce cfg events rawAvailableStart node a b c ↔
      ∀ column,
        carriedIn cfg events node column a c = carriedOut cfg events node column a c ∧
          carriedIn cfg events node column a b + carriedIn cfg events node column b c =
            carriedOut cfg events node column a b + carriedOut cfg events node column b c := by
  refine forall_congr' fun column => ?_
  have hwhole := nodeWindowBytes_add_carriedOut node column (hab.trans hbc) hretained
  have hleft := nodeWindowBytes_add_carriedOut node column hab hretained₁
  have hright := nodeWindowBytes_add_carriedOut node column hbc hretained₂
  have hsplit := slotBytes_split cfg events node column hab hbc
  dsimp only
  constructor
  · rintro ⟨hadd, hexact⟩
    omega
  · rintro ⟨hbal, hbal'⟩
    omega

/-- A push of one VM that received 1000 bytes on the public bridge. -/
def publicPush (time : Int) : PushRequest :=
  { time := some time, node := "n1", interval := some 300
    interfaces := some [some { vmUuid := "vm-1", bridge := "br0", iface := "tap0", txDelta := some 1000 }]
    physicalInterfaces := [] }

/-- At 19:50 the push is inside an hour, and 19:00-20:00-20:05 counts it once. -/
theorem node_window_counts_once_iff_inside :
    CountsOnce {} [.push 71400 (publicPush 71400), .delete .node5m 3600] 3600 "n1" 68400 72000 72300 := by
  have hretained : ∀ a b, Retained {} (NodeConsulted 25200 a b) Monitor.init
      [.push 71400 (publicPush 71400), .delete .node5m 3600] := by
    intro a b
    refine ⟨fun x hx hold => ?_, trivial⟩
    rw [show (RollupTables.starts _ .node5m) = [71400] from by decide, List.mem_singleton] at hx
    omega
  refine (node_window_counts_once_iff (by decide) (by decide) ⟨hretained _ _, by decide⟩
    ⟨hretained _ _, by decide⟩ ⟨hretained _ _, by decide⟩).mpr ?_
  rintro ⟨meter, role, dir⟩
  cases meter <;> cases role <;> cases dir <;> decide

/-- **A push at 20:00 counts twice.** Its hourly row is the 19:00 one and its 5-minute row the 20:00 one, so the
    window 19:00-20:05 reads 2000 bytes for the 1000 it reported. -/
theorem node_window_counts_twice :
    ¬ ∀ (cfg : Config) (events : List Event) (rawAvailableStart : Int) (node : String) (a b c : Int),
      Aligned a → Aligned b → Aligned c → a ≤ b → b ≤ c →
      WindowRetained cfg events rawAvailableStart a c → WindowRetained cfg events rawAvailableStart a b →
      WindowRetained cfg events rawAvailableStart b c → CountsOnce cfg events rawAvailableStart node a b c := by
  intro h
  have hcounts := h {} [.push 72000 (publicPush 72000)] 3600 "n1" 68400 72000 72300 (by decide) (by decide)
    (by decide) (by decide) (by decide) ⟨trivial, by decide⟩ ⟨trivial, by decide⟩ ⟨trivial, by decide⟩
  exact absurd (hcounts ⟨.vm, .pub, .rx⟩).2 (by decide)

end VirtInfra.Consumption
