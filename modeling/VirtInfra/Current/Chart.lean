import VirtInfra.Consumption.Ledger
import VirtInfra.Current.SameRow

/-!
# `Chart` — what `vm_chart_5m` keeps of the bytes

`write_storage_v2` copies the rows of `vm_current_fast` that the push has just written into the bucket of the push, by
an upsert that overwrites every column. A chart row therefore holds the last push of its bucket, where the consumption
tables add all of them up. The bytes that a push does not chart, or takes from the chart, are `lost`; charts and
consumption agree exactly as long as no push of the run loses any.
-/

namespace VirtInfra.Current

open Lib Python Consumption

/-! ## The writer -/

/-- An accepted push, with `vm_metrics_present`: without a list of `vms` there are none. -/
structure ChartPush extends FastPush where
  vmMetricsPresent : Bool
  vms_eq : vmMetricsPresent = false → vms = []

/-- The packet columns, which `_interface_aggregates` adds up. -/
inductive PacketColumn
  | publicRxPackets | publicTxPackets | privateRxPackets | privateTxPackets | rxPackets | txPackets
  deriving DecidableEq, Repr

/-- `_role`. It strips the bridge, where the current writer compares it as it is. -/
def chartRole (item : TapItem) : Option Role :=
  let bridge := strip item.bridge
  if bridge = publicBridge then some .pub else if bridge = privateBridge then some .priv else none

/-- What one interface adds to the packets of its VM. -/
def chartPackets (item : TapItem) : PacketColumn → Nat
  | .publicRxPackets => if chartRole item = some .pub then counter item.rxPacketsDelta else 0
  | .publicTxPackets => if chartRole item = some .pub then counter item.txPacketsDelta else 0
  | .privateRxPackets => if chartRole item = some .priv then counter item.rxPacketsDelta else 0
  | .privateTxPackets => if chartRole item = some .priv then counter item.txPacketsDelta else 0
  | .rxPackets => counter item.rxPacketsDelta
  | .txPackets => counter item.txPacketsDelta

/-- `by_vm` of `_interface_aggregates`, its packets. -/
def interfaceAggregates (push : FastPush) : KeyedTable String (PacketColumn → Nat) :=
  (namedTaps push.interfaces).foldl
    (fun table item => table.accumulate item.vmUuid 0 fun packets column => packets column + chartPackets item column)
    .empty

structure ChartKey where
  bucket : Int
  node : String
  vmUuid : String
  deriving DecidableEq, Repr

/-- A row of `vm_chart_5m`: the columns selected from `vm_current_fast`, and the packets. -/
structure ChartRow where
  current : FastRow
  packets : PacketColumn → Nat

abbrev ChartTable := KeyedTable ChartKey ChartRow

def ChartPush.key (push : ChartPush) (vm : String) : ChartKey := ⟨bucketFor push.dataTime, push.node, vm⟩

/-- `agg = net_by_vm.get(vm_uuid, {})` beside the row of `vm_current_fast`. -/
def ChartPush.chartRow (push : ChartPush) (vm : String) (current : FastRow) : ChartRow :=
  ⟨current, ((interfaceAggregates push.toFastPush).get? vm).getD 0⟩

/-- `SELECT … FROM vm_current_fast c WHERE c.node=? AND c.last_seen=?`. -/
def currentRows (push : ChartPush) (fast : FastTable) : List ((String × String) × FastRow) :=
  fast.rows.filter fun row => row.1.1 = push.node && row.2.lastSeen = push.dataTime

/-- **`write_storage_v2`**, the chart rows: `_upsert_sql` sets every column to its excluded value. -/
def writeStorageV2 (push : ChartPush) (fast : FastTable) (chart : ChartTable) : ChartTable :=
  (currentRows push fast).foldl
    (fun chart row => chart.upsert (push.key row.1.2) (push.chartRow row.1.2 row.2) fun _ new => new) chart

/-- The two tables a push writes here. -/
structure ChartState where
  fast : FastTable
  chart : ChartTable

def ChartState.init : ChartState := ⟨.empty, .empty⟩

/-- `if vm_metrics_present: refresh_fast_current_state(…)`. -/
def ChartPush.refresh (push : ChartPush) (fast : FastTable) : FastTable :=
  if push.vmMetricsPresent then v5052CurrentWriter push.toFastPush fast else fast

/-- The end of an accepted push: the current state, then the chart. -/
def ChartState.push (st : ChartState) (push : ChartPush) : ChartState :=
  { fast := push.refresh st.fast, chart := writeStorageV2 push (push.refresh st.fast) st.chart }

def ChartState.run (st : ChartState) (pushes : List ChartPush) : ChartState := pushes.foldl ChartState.push st

/-! ## The bytes -/

/-- `public_rx_bytes`, …, `private_tx_bytes`. -/
def byteColumn : Role → Direction → IntColumn
  | .pub, .rx => .publicRxBytes
  | .pub, .tx => .publicTxBytes
  | .priv, .rx => .privateRxBytes
  | .priv, .tx => .privateTxBytes

/-- The sum of a byte column of one VM over all buckets. -/
def chartBytes (node vm : String) (role : Role) (dir : Direction) (chart : ChartTable) : Nat :=
  chart.sumOf (fun key => key.node = node ∧ key.vmUuid = vm) fun row => row.current.ints (byteColumn role dir)

/-- The sample that the same push hands to the consumption writers. -/
def ChartPush.sample (push : ChartPush) : Sample :=
  { node := push.node, dataTime := push.dataTime, intervalSeconds := push.intervalSeconds
    interfaces := push.interfaces.map (Option.map TapItem.toIfaceItem), physicalInterfaces := [] }

/-- **The accepted bytes** of a VM on the bridge of a role, as the consumption tables add them up. -/
def ChartPush.bytes (push : ChartPush) (off : Int) (node vm : String) (role : Role) (dir : Direction) : Nat :=
  vmBytes off (.vm node vm role.bridge) dir push.sample

/-- The bytes of the chart row that a push would overwrite. -/
def ChartPush.stored (push : ChartPush) (vm : String) (role : Role) (dir : Direction) (chart : ChartTable) : Nat :=
  ((chart.get? (push.key vm)).map fun row => row.current.ints (byteColumn role dir)).getD 0

/-- A push is late for a VM whose current row is newer. -/
def ChartPush.lateFor (push : ChartPush) (fast : FastTable) (vm : String) : Bool :=
  (fast.get? (push.node, vm)).any fun row => push.dataTime < row.lastSeen

/-- **No byte of the push is lost, and none by it**: a push without `vms` reports none, nor does a push report any of a
    VM for which it is late, and of the VMs it charts its bucket has no bytes yet. -/
structure Charted (st : ChartState) (push : ChartPush) : Prop where
  present : push.vmMetricsPresent = false → ∀ vm role dir, push.bytes 0 push.node vm role dir = 0
  timely : ∀ vm, push.lateFor st.fast vm = true → ∀ role dir, push.bytes 0 push.node vm role dir = 0
  alone : push.vmMetricsPresent = true → ∀ vm ∈ push.vmUuids, push.lateFor st.fast vm = false →
    ∀ role dir, push.stored vm role dir st.chart = 0

/-! ## The bytes of one push -/

/-- The delta of one interface. -/
def TapRow.delta (row : TapRow) : Direction → Nat
  | .rx => row.rxDelta
  | .tx => row.txDelta

theorem int_byteColumn (row : TapRow) (role : Role) (dir : Direction) :
    row.int (byteColumn role dir) = row.onBridge role (row.delta dir) := by
  cases role <;> cases dir <;> rfl

/-- The two stages add up the same items. -/
theorem stage_bytes (off : Int) (node vm : String) (role : Role) (dir : Direction) (push : FastPush) (sec : TapItem → Int)
    (items : List (Option TapItem)) :
    ((ifaceRows off push.node push.dataTime (bucketFor push.dataTime) push.intervalSeconds
        (items.map (Option.map TapItem.toIfaceItem))).map fun row =>
          if Selector.vm node vm role.bridge row.node row.vmUuid row.bridge then row.deltas.bytes dir else 0).sum =
      if node = push.node then
        sumBy (fun row => row.onBridge role (row.delta dir))
          (((namedTaps items).map fun item => tapRow (sec item) item).filter fun row => row.vmUuid = vm)
      else 0 := by
  unfold ifaceRows namedTaps sumBy
  induction items with
  | nil => simp
  | cons element rest ih =>
      cases element with
      | none => simpa using ih
      | some item =>
          by_cases hnamed : strip item.vmUuid = "" ∨ strip item.vmUuid = "-"
          · simpa [stageRow, hnamed] using ih
          · -- A named item is one row of either stage, with the same bridge and deltas.
            simp only [List.map_cons, Option.map_some, List.filterMap_cons, Option.bind_some, stageRow, hnamed, if_false,
              List.sum_cons, ih]
            by_cases hnode : node = push.node
            · by_cases hvm : strip item.vmUuid = vm
              · cases dir <;>
                  by_cases hbridge : item.bridge = role.bridge <;>
                    simp [Selector.vm, hnode, hvm, hbridge, tapRow, TapRow.onBridge, TapRow.delta, Counters.bytes]
              · simp [Selector.vm, hnode, hvm, tapRow]
            · simp [Selector.vm, hnode, Ne.symm hnode]

/-- **What a push reports is what its current rows hold.** -/
theorem ChartPush.bytes_eq (push : ChartPush) (off : Int) (node vm : String) (role : Role) (dir : Direction) :
    push.bytes off node vm role dir =
      if node = push.node then (push.fastRow vm).ints (byteColumn role dir) else 0 := by
  refine (stage_bytes off node vm role dir push.toFastPush
    (fun item => clamp 1 86400 (safeInt item.intervalSeconds push.intervalSeconds)) push.interfaces).trans ?_
  congr 1
  refine congrArg List.sum (List.map_congr_left fun row _ => ?_)
  exact (int_byteColumn row role dir).symm

/-! ## What one push does -/

section Step

variable (push : ChartPush) (st : ChartState)

/-- The current row that a push charts for a VM. -/
def ChartPush.charts (push : ChartPush) (fast : FastTable) (vm : String) : Option FastRow :=
  (fast.get? (push.node, vm)).filter fun row => row.lastSeen = push.dataTime

theorem mem_currentRows {fast : FastTable} {row : (String × String) × FastRow} :
    row ∈ currentRows push fast ↔ row.1.1 = push.node ∧ push.charts fast row.1.2 = some row.2 := by
  obtain ⟨⟨node, vm⟩, current⟩ := row
  unfold currentRows ChartPush.charts
  rw [List.mem_filter, ← KeyedTable.get?_eq_some_iff, Option.filter_eq_some_iff]
  simp only [Bool.and_eq_true, decide_eq_true_eq]
  constructor
  · rintro ⟨hrow, rfl, htime⟩
    exact ⟨rfl, hrow, htime⟩
  · rintro ⟨rfl, hrow, htime⟩
    exact ⟨hrow, rfl, htime⟩

/-- The rows are of one node, so each has a key of its own in the chart. -/
theorem currentRows_nodup (fast : FastTable) : ((currentRows push fast).map fun row => push.key row.1.2).Nodup := by
  refine List.Nodup.map_on ?_ (List.Nodup.filter _ (List.Nodup.of_map _ fast.nodupKeys))
  intro row hrow row' hrow' hkey
  obtain ⟨hnode, hcurrent⟩ := (mem_currentRows push).mp hrow
  obtain ⟨hnode', hcurrent'⟩ := (mem_currentRows push).mp hrow'
  have hvm : row.1.2 = row'.1.2 := congrArg ChartKey.vmUuid hkey
  rw [hvm, hcurrent'] at hcurrent
  exact Prod.ext (Prod.ext (hnode.trans hnode'.symm) hvm) (Option.some.inj hcurrent).symm

/-- **The chart after a push**, row by row. -/
theorem get?_writeStorageV2 (fast : FastTable) (chart : ChartTable) (k : ChartKey) :
    (writeStorageV2 push fast chart).get? k =
      if k = push.key k.vmUuid then
        ((push.charts fast k.vmUuid).map (push.chartRow k.vmUuid)).or (chart.get? k)
      else chart.get? k := by
  unfold writeStorageV2
  by_cases hrow : ∃ row ∈ currentRows push fast, k = push.key row.1.2
  · obtain ⟨row, hmem, rfl⟩ := hrow
    have hcharts := ((mem_currentRows push).mp hmem).2
    rw [KeyedTable.get?_foldl_upsert_of_mem (fun row : (String × String) × FastRow => push.key row.1.2)
      (currentRows_nodup push fast) hmem (fun row => push.chartRow row.1.2 row.2)]
    show _ = if push.key row.1.2 = push.key row.1.2 then
      ((push.charts fast row.1.2).map (push.chartRow row.1.2)).or (chart.get? (push.key row.1.2)) else _
    rw [if_pos rfl, hcharts]
    cases chart.get? (push.key row.1.2) <;> rfl
  · refine (KeyedTable.get?_foldl_upsert_of_ne (fun row : (String × String) × FastRow => push.chartRow row.1.2 row.2) _
      chart fun row hmem hk => hrow ⟨row, hmem, hk⟩).trans ?_
    split
    · next hk =>
        cases hcharts : push.charts fast k.vmUuid with
        | none => rfl
        | some current =>
            exact absurd ⟨((push.node, k.vmUuid), current), (mem_currentRows push).mpr ⟨rfl, hcharts⟩, hk⟩ hrow
    · rfl

/-- The native writer leaves the rows of other nodes alone. -/
theorem get?_v5052CurrentWriter_of_ne (push : FastPush) (fast : FastTable) {node : String} (hnode : node ≠ push.node)
    (vm : String) : (v5052CurrentWriter push fast).get? (node, vm) = fast.get? (node, vm) := by
  unfold v5052CurrentWriter FastPush.deleteOlder
  have hupserts : (push.vmUuids.foldl (fun table vm => table.upsert (push.node, vm) (push.fastRow vm)
      (KeyedTable.guarded FastRow.lastSeen)) fast).get? (node, vm) = fast.get? (node, vm) :=
    KeyedTable.get?_foldl_upsert_of_ne push.fastRow _ fast fun vm' _ hkey => hnode (Prod.mk.inj hkey).1
  split
  · rw [KeyedTable.get?_deleteRows, hupserts]
    cases fast.get? (node, vm) <;> simp [hnode]
  · exact hupserts

theorem get?_refresh_of_ne (fast : FastTable) {node : String} (hnode : node ≠ push.node) (vm : String) :
    (push.refresh fast).get? (node, vm) = fast.get? (node, vm) := by
  unfold ChartPush.refresh
  split
  · exact get?_v5052CurrentWriter_of_ne push.toFastPush fast hnode vm
  · rfl

/-- A current row after a push is the push's, or it was there before. -/
theorem get?_refresh_cases {fast : FastTable} {vm : String} {current : FastRow}
    (h : (push.refresh fast).get? (push.node, vm) = some current) :
    current.lastSeen = push.dataTime ∨ fast.get? (push.node, vm) = some current := by
  unfold ChartPush.refresh at h
  split at h
  · rw [push.get?_v5052CurrentWriter, Option.filter_eq_some_iff] at h
    obtain ⟨h, -⟩ := h
    split at h
    · cases hold : fast.get? (push.node, vm) with
      | none =>
          rw [hold] at h
          obtain rfl := Option.some.inj h
          exact .inl rfl
      | some old =>
          rw [hold, Option.elim_some, KeyedTable.guarded] at h
          split at h
          · obtain rfl := Option.some.inj h
            exact .inl rfl
          · exact .inr h
    · exact .inr h
  · exact .inr h

/-- **What a push charts of a VM**: the row it has just written, unless it is late for it; and of a VM it does not
    write, a row of its own time. -/
theorem charts_refresh (fast : FastTable) (vm : String) :
    push.charts (push.refresh fast) vm =
      if push.vmMetricsPresent = true ∧ vm ∈ push.vmUuids then
        if push.lateFor fast vm then none else some (push.fastRow vm)
      else push.charts fast vm := by
  unfold ChartPush.charts ChartPush.refresh ChartPush.lateFor
  by_cases hpresent : push.vmMetricsPresent = true
  · rw [if_pos hpresent, push.get?_v5052CurrentWriter]
    by_cases hvm : vm ∈ push.vmUuids
    · rw [if_pos hvm, if_pos ⟨hpresent, hvm⟩]
      cases hold : fast.get? (push.node, vm) with
      | none => simp [Option.filter, FastPush.fastRow]
      | some old =>
          by_cases hlate : push.dataTime < old.lastSeen
          · have hnot : ¬ push.dataTime ≥ old.lastSeen := by omega
            have hne : ¬ old.lastSeen = push.dataTime := by omega
            have hkept : ¬ old.lastSeen < push.dataTime := by omega
            simp [KeyedTable.guarded, FastPush.fastRow, Option.filter, hlate, hnot, hne, hkept]
          · have hle : old.lastSeen ≤ push.dataTime := by omega
            simp [KeyedTable.guarded, FastPush.fastRow, Option.filter, hlate, hle]
    · rw [if_neg hvm, if_neg fun h => hvm h.2]
      -- The delete of a complete inventory spares the rows of the push's time.
      cases fast.get? (push.node, vm) with
      | none => rfl
      | some old =>
          by_cases htime : old.lastSeen = push.dataTime
          · simp [Option.filter, htime]
          · cases hgone : (push.inventoryComplete && decide (old.lastSeen < push.dataTime)) <;>
              simp only [Option.filter, hgone, htime, decide_false, Bool.not_false, Bool.not_true, if_true, if_false,
                Bool.false_eq_true]
  · rw [if_neg hpresent, if_neg fun h => hpresent h.1]

/-! ## The run -/

/-- **The chart row of a VM's newest push holds its current row.** -/
def Mirrored (st : ChartState) : Prop :=
  ∀ node vm current, st.fast.get? (node, vm) = some current →
    ∃ row, st.chart.get? ⟨bucketFor current.lastSeen, node, vm⟩ = some row ∧ row.current = current

theorem Mirrored.init : Mirrored .init := fun _ _ _ h => nomatch h

/-- A chart row of another node, or of a VM that the push does not chart, stays. -/
theorem get?_chart_of_ne {k : ChartKey} (h : k.node = push.node → push.charts (push.refresh st.fast) k.vmUuid = none) :
    (st.push push).chart.get? k = st.chart.get? k := by
  show (writeStorageV2 push (push.refresh st.fast) st.chart).get? k = _
  rw [get?_writeStorageV2]
  split
  · next hk =>
      rw [h (congrArg ChartKey.node hk)]
      rfl
  · rfl

theorem get?_chart_of_charts {vm : String} {current : FastRow}
    (h : push.charts (push.refresh st.fast) vm = some current) :
    (st.push push).chart.get? (push.key vm) = some (push.chartRow vm current) := by
  show (writeStorageV2 push (push.refresh st.fast) st.chart).get? (push.key vm) = _
  rw [get?_writeStorageV2]
  show (if push.key vm = push.key vm then ((push.charts (push.refresh st.fast) vm).map (push.chartRow vm)).or _ else _) = _
  rw [if_pos rfl, h]
  rfl

theorem Mirrored.step (h : Mirrored st) : Mirrored (st.push push) := by
  intro node vm current hcurrent
  by_cases hnode : node = push.node
  · subst hnode
    have hrow : (push.refresh st.fast).get? (push.node, vm) = some current := hcurrent
    by_cases htime : current.lastSeen = push.dataTime
    · have hcharts : push.charts (push.refresh st.fast) vm = some current := by
        unfold ChartPush.charts
        rw [hrow]
        simp [Option.filter, htime]
      refine ⟨push.chartRow vm current, ?_, rfl⟩
      rw [htime]
      exact get?_chart_of_charts push st hcharts
    · -- An older or newer row is charted by the push that wrote it.
      have hcharts : push.charts (push.refresh st.fast) vm = none := by
        unfold ChartPush.charts
        rw [hrow]
        simp [Option.filter, htime]
      obtain ⟨row, hstored, heq⟩ := h _ _ _ ((get?_refresh_cases push hrow).resolve_left htime)
      refine ⟨row, ?_, heq⟩
      rw [get?_chart_of_ne push st fun _ => hcharts]
      exact hstored
  · have hrow : st.fast.get? (node, vm) = some current := by
      rw [← get?_refresh_of_ne push st.fast hnode]
      exact hcurrent
    obtain ⟨row, hstored, heq⟩ := h _ _ _ hrow
    refine ⟨row, ?_, heq⟩
    rw [get?_chart_of_ne push st fun hk => absurd hk hnode]
    exact hstored

/-- The bytes of one VM that a push does not chart or takes from the chart. -/
def lost (st : ChartState) (push : ChartPush) (node vm : String) (role : Role) (dir : Direction) : Nat :=
  if node = push.node then
    if (push.vmMetricsPresent = true ∧ vm ∈ push.vmUuids) ∧ push.lateFor st.fast vm = false
    then push.stored vm role dir st.chart
    else (push.fastRow vm).ints (byteColumn role dir)
  else 0

/-- A VM that stages no row and has no `vms` entry reports no bytes. -/
theorem ints_of_not_mem {vm : String} (h : vm ∉ push.vmUuids) (column : IntColumn) : (push.fastRow vm).ints column = 0 := by
  have hgroup : push.group vm = [] := by
    refine List.filter_eq_nil_iff.mpr fun row hrow hvm => h ?_
    rw [← of_decide_eq_true hvm]
    exact List.mem_dedup.mpr (List.mem_append_left _ (List.mem_map_of_mem hrow))
  show sumBy (fun row => row.int column) (push.group vm) = 0
  rw [hgroup]
  rfl

/-- A push changes at most one chart row of a VM. -/
theorem chartBytes_change (node vm : String) (role : Role) (dir : Direction) :
    let k : ChartKey := ⟨bucketFor push.dataTime, node, vm⟩
    let at_k := fun chart : ChartTable => ((chart.get? k).map fun row => row.current.ints (byteColumn role dir)).getD 0
    chartBytes node vm role dir (st.push push).chart + at_k st.chart =
      chartBytes node vm role dir st.chart + at_k (st.push push).chart := by
  have hk : decide (node = node ∧ vm = vm) = true := decide_eq_true ⟨rfl, rfl⟩
  refine KeyedTable.sumOf_change_row (p := fun key : ChartKey => key.node = node ∧ key.vmUuid = vm) hk
    (fun k' hk' hne => ?_) fun row : ChartRow => row.current.ints (byteColumn role dir)
  obtain ⟨rfl, rfl⟩ := of_decide_eq_true hk'
  show (writeStorageV2 push (push.refresh st.fast) st.chart).get? k' = _
  rw [get?_writeStorageV2, if_neg]
  intro hkey
  apply hne
  rw [hkey]
  rfl

/-- **One push**: what it reports is what the chart gains, but for what is lost. -/
theorem chartBytes_push (h : Mirrored st) (off : Int) (node vm : String) (role : Role) (dir : Direction) :
    chartBytes node vm role dir (st.push push).chart + lost st push node vm role dir =
      chartBytes node vm role dir st.chart + push.bytes off node vm role dir := by
  have hchange := chartBytes_change push st node vm role dir
  dsimp only at hchange
  rw [push.bytes_eq]
  unfold lost
  by_cases hnode : node = push.node
  · subst hnode
    rw [if_pos rfl, if_pos rfl]
    have hcharts := charts_refresh push st.fast vm
    by_cases hwrites : (push.vmMetricsPresent = true ∧ vm ∈ push.vmUuids) ∧ push.lateFor st.fast vm = false
    · -- The new row replaces what the bucket held of the VM.
      rw [if_pos hwrites.1, hwrites.2, if_neg Bool.false_ne_true] at hcharts
      have hrow := get?_chart_of_charts push st hcharts
      have hstored : push.stored vm role dir st.chart =
          ((st.chart.get? (push.key vm)).map fun row => row.current.ints (byteColumn role dir)).getD 0 := rfl
      rw [if_pos hwrites, hstored]
      rw [show (⟨bucketFor push.dataTime, push.node, vm⟩ : ChartKey) = push.key vm from rfl, hrow] at hchange
      exact hchange
    · rw [if_neg hwrites]
      suffices hsame : (st.push push).chart.get? (push.key vm) = st.chart.get? (push.key vm) ∨
          ∃ row row', st.chart.get? (push.key vm) = some row ∧ (st.push push).chart.get? (push.key vm) = some row' ∧
            row.current = row'.current by
        rw [show (⟨bucketFor push.dataTime, push.node, vm⟩ : ChartKey) = push.key vm from rfl] at hchange
        rcases hsame with hsame | ⟨row, row', hrow, hrow', heq⟩
        · rw [hsame] at hchange
          omega
        · rw [hrow, hrow', Option.map_some, Option.map_some, heq] at hchange
          omega
      cases hcurrent : push.charts (push.refresh st.fast) vm with
      | none => exact .inl (get?_chart_of_ne push st fun _ => hcurrent)
      | some current =>
          -- A row of the push's own time that the push has not written: the chart holds it already.
          rw [hcurrent] at hcharts
          split at hcharts
          · next hin =>
              have hlate : push.lateFor st.fast vm = true := by
                by_contra htimely
                exact hwrites ⟨hin, by simpa using htimely⟩
              rw [if_pos hlate] at hcharts
              cases hcharts
          · obtain ⟨hold, htime⟩ := Option.filter_eq_some_iff.mp hcharts.symm
            obtain ⟨row, hrow, heq⟩ := h _ _ _ hold
            rw [of_decide_eq_true htime] at hrow
            exact .inr ⟨row, _, hrow, get?_chart_of_charts push st hcurrent, heq⟩
  · rw [if_neg hnode, if_neg hnode]
    have hsame : (st.push push).chart.get? ⟨bucketFor push.dataTime, node, vm⟩ =
        st.chart.get? ⟨bucketFor push.dataTime, node, vm⟩ := get?_chart_of_ne push st fun hk => absurd hk hnode
    rw [hsame] at hchange
    omega

/-- Nothing is lost by a push that is charted. -/
theorem lost_eq_zero_iff : (∀ vm role dir, lost st push push.node vm role dir = 0) ↔ Charted st push := by
  have hbytes : ∀ vm role dir, push.bytes 0 push.node vm role dir = (push.fastRow vm).ints (byteColumn role dir) := by
    intro vm role dir
    rw [push.bytes_eq, if_pos rfl]
  unfold lost
  constructor
  · intro hlost
    refine ⟨fun habsent vm role dir => ?_, fun vm hlate role dir => ?_, fun hpresent vm hvm htimely role dir => ?_⟩
    · have := hlost vm role dir
      rw [if_pos rfl, if_neg (by simp [habsent])] at this
      rw [hbytes, this]
    · have := hlost vm role dir
      rw [if_pos rfl, if_neg (by simp [hlate])] at this
      rw [hbytes, this]
    · have := hlost vm role dir
      rwa [if_pos rfl, if_pos ⟨⟨hpresent, hvm⟩, htimely⟩] at this
  · intro hcharted vm role dir
    rw [if_pos rfl]
    split
    · next hwrites => exact hcharted.alone hwrites.1.1 vm hwrites.1.2 hwrites.2 role dir
    · next hnot =>
        by_cases hpresent : push.vmMetricsPresent = true
        · by_cases hvm : vm ∈ push.vmUuids
          · have hlate : push.lateFor st.fast vm = true := by
              by_contra htimely
              exact hnot ⟨⟨hpresent, hvm⟩, by simpa using htimely⟩
            rw [← hbytes]
            exact hcharted.timely vm hlate role dir
          · exact ints_of_not_mem push hvm _
        · rw [← hbytes]
          exact hcharted.present (by simpa using hpresent) vm role dir

end Step

/-! ## When the chart keeps every byte -/

/-- What a run loses of a VM. -/
def lostIn (node vm : String) (role : Role) (dir : Direction) : ChartState → List ChartPush → Nat
  | _, [] => 0
  | st, push :: rest => lost st push node vm role dir + lostIn node vm role dir (st.push push) rest

/-- **What the chart holds and what is lost is what was accepted.** -/
theorem chartBytes_run (off : Int) (node vm : String) (role : Role) (dir : Direction) :
    ∀ (pushes : List ChartPush) (st : ChartState), Mirrored st →
      chartBytes node vm role dir (st.run pushes).chart + lostIn node vm role dir st pushes =
        chartBytes node vm role dir st.chart + (pushes.map fun push => push.bytes off node vm role dir).sum := by
  intro pushes
  induction pushes with
  | nil => intro st _; rfl
  | cons push rest ih =>
      intro st hmirrored
      have hstep := chartBytes_push push st hmirrored off node vm role dir
      have hrest := ih (st.push push) (hmirrored.step push st)
      rw [show st.run (push :: rest) = (st.push push).run rest from rfl, lostIn, List.map_cons, List.sum_cons]
      omega

/-- Nothing is lost over a run exactly when no push of it loses any. -/
theorem lostIn_eq_zero_iff : ∀ (pushes : List ChartPush) (st : ChartState),
    (∀ node vm role dir, lostIn node vm role dir st pushes = 0) ↔
      ∀ (before : List ChartPush) (push : ChartPush) (rest : List ChartPush), pushes = before ++ push :: rest →
        Charted (st.run before) push := by
  intro pushes
  induction pushes with
  | nil =>
      intro st
      refine iff_of_true (fun _ _ _ _ => rfl) fun before push rest heq => ?_
      cases before <;> cases heq
  | cons push rest ih =>
      intro st
      constructor
      · intro hlost before next after heq
        cases before with
        | nil =>
            obtain ⟨rfl, rfl⟩ := List.cons.inj heq
            refine (lost_eq_zero_iff push st).mp fun vm role dir => ?_
            exact (Nat.add_eq_zero_iff.mp (hlost push.node vm role dir)).1
        | cons first before =>
            obtain ⟨rfl, hrest⟩ := List.cons.inj heq
            refine (ih (st.push push)).mp (fun node vm role dir => ?_) before next after hrest
            exact (Nat.add_eq_zero_iff.mp (hlost node vm role dir)).2
      · intro hcharted node vm role dir
        have hfirst : lost st push node vm role dir = 0 := by
          by_cases hnode : node = push.node
          · rw [hnode]
            exact (lost_eq_zero_iff push st).mpr (hcharted [] push rest rfl) vm role dir
          · exact if_neg hnode
        have hrest := (ih (st.push push)).mpr fun before next after heq =>
          hcharted (push :: before) next after (by rw [heq]; rfl)
        rw [lostIn, hfirst, hrest]

/-- **Charts and consumption agree exactly when every push of the run is charted**: over every run, of every VM and role,
    the byte columns over all buckets are the bytes of the accepted pushes if and only if each push reports bytes only
    with `vms`, of VMs for which it is not late, and in buckets that hold none of theirs. -/
theorem chart_conserves_iff (off : Int) (pushes : List ChartPush) :
    (∀ node vm role dir, chartBytes node vm role dir (ChartState.init.run pushes).chart =
      (pushes.map fun push => push.bytes off node vm role dir).sum) ↔
      ∀ (before : List ChartPush) (push : ChartPush) (rest : List ChartPush), pushes = before ++ push :: rest →
        Charted (ChartState.init.run before) push := by
  rw [← lostIn_eq_zero_iff]
  refine forall_congr' fun node => forall_congr' fun vm => forall_congr' fun role => forall_congr' fun dir => ?_
  have hrun := chartBytes_run off node vm role dir pushes .init .init
  have hinit : chartBytes node vm role dir ChartState.init.chart = 0 := rfl
  omega

/-- A push of one VM that received `rx` bytes on the public bridge. -/
def chartedPush (time rx : Int) : ChartPush :=
  { node := "n1", dataTime := time, intervalSeconds := 60, synced := fun _ => true, inventoryComplete := true
    interfaces := [some { vmUuid := "vm-1", bridge := "br0", iface := "tap0", rxDelta := some rx }]
    vms := [some { vmUuid := "vm-1" }], interval_mem := by decide
    vmMetricsPresent := true, vms_eq := fun h => nomatch h }

/-- **Two pushes of one bucket**: the chart keeps the bytes of the second. -/
theorem chart_keeps_last_push : ¬ ∀ (off : Int) (pushes : List ChartPush) (node vm : String) (role : Role) (dir : Direction),
    chartBytes node vm role dir (ChartState.init.run pushes).chart =
      (pushes.map fun push => push.bytes off node vm role dir).sum := by
  intro hclaim
  have hbytes := hclaim 0 [chartedPush 1200 500, chartedPush 1260 30] "n1" "vm-1" .pub .rx
  revert hbytes
  decide +kernel

end VirtInfra.Current
