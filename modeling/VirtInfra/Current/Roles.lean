import Mathlib.Algebra.Order.BigOperators.Group.List
import Mathlib.Tactic.Positivity
import VirtInfra.Current.Chart

/-!
# `Roles` — which traffic the chart and the current row call public and private

A chart row takes its bytes and peaks from `vm_current_fast`, but the packets and rates of each role from
`_interface_aggregates`, which classifies the interfaces a second time. `_role` means to do it exactly like the current
writer. It strips the bridge first, where the statement of `_v5052_current_writer` compares what the agent sent: an
interface on `" br0"` is public for the one and other for the other. The two agree exactly if no such interface of the VM
has traffic (`classified_alike_iff`).
-/

namespace VirtInfra.Current

open Lib Python Consumption

/-! ## The rates of a chart row -/

/-- The columns that `_interface_aggregates` adds up of the rates. -/
inductive RoleRateColumn
  | publicRxMbps | publicTxMbps | privateRxMbps | privateTxMbps
  | publicRxPps | publicTxPps | privateRxPps | privateTxPps
  deriving DecidableEq, Repr

namespace FastPush

variable (push : FastPush)

/-- `rx_mbps`, `tx_mbps`, `rx_pps` and `tx_pps` of an item. -/
def rxMbps (item : TapItem) : ℚ := mbps (counter item.rxDelta) (push.tapSeconds item)

def txMbps (item : TapItem) : ℚ := mbps (counter item.txDelta) (push.tapSeconds item)

def rxPps (item : TapItem) : ℚ := counter item.rxPacketsDelta / push.tapSeconds item

def txPps (item : TapItem) : ℚ := counter item.txPacketsDelta / push.tapSeconds item

/-- What one interface adds to the rates of its VM: `if prefix: rec[f"\x7bprefix}_rx_mbps"] += rx_mbps`, and so on. -/
def chartRate (item : TapItem) : RoleRateColumn → ℚ
  | .publicRxMbps => if chartRole item = some .pub then push.rxMbps item else 0
  | .publicTxMbps => if chartRole item = some .pub then push.txMbps item else 0
  | .privateRxMbps => if chartRole item = some .priv then push.rxMbps item else 0
  | .privateTxMbps => if chartRole item = some .priv then push.txMbps item else 0
  | .publicRxPps => if chartRole item = some .pub then push.rxPps item else 0
  | .publicTxPps => if chartRole item = some .pub then push.txPps item else 0
  | .privateRxPps => if chartRole item = some .priv then push.rxPps item else 0
  | .privateTxPps => if chartRole item = some .priv then push.txPps item else 0

/-- `by_vm` of `_interface_aggregates`, its rates. -/
def interfaceRates : KeyedTable String (RoleRateColumn → ℚ) :=
  (namedTaps push.interfaces).foldl
    (fun table item => table.accumulate item.vmUuid 0 fun rates column => rates column + push.chartRate item column) .empty

/-- `_f(agg.get("public_rx_mbps"), 0)`, …: the rates of each role in the chart row of a VM. -/
def roleRates (vm : String) : RoleRateColumn → ℚ := (push.interfaceRates.get? vm).getD 0

end FastPush

/-! ## The claim -/

/-- The role for which `CASE WHEN i.bridge=? THEN … ELSE 0 END` counts an interface. -/
def currentRole (item : TapItem) : Option Role :=
  if item.bridge = publicBridge then some .pub else if item.bridge = privateBridge then some .priv else none

/-- What an interface counts for a role, by either reading of its bridge. -/
def share {M : Type} [Zero M] (roleOf : TapItem → Option Role) (role : Role) (w : TapItem → M) (item : TapItem) : M :=
  if roleOf item = some role then w item else 0

/-- The packets of an interface, by either reading. -/
def packetsBy (roleOf : TapItem → Option Role) (item : TapItem) : PacketColumn → Nat
  | .publicRxPackets => share roleOf .pub (fun item => counter item.rxPacketsDelta) item
  | .publicTxPackets => share roleOf .pub (fun item => counter item.txPacketsDelta) item
  | .privateRxPackets => share roleOf .priv (fun item => counter item.rxPacketsDelta) item
  | .privateTxPackets => share roleOf .priv (fun item => counter item.txPacketsDelta) item
  | .rxPackets => counter item.rxPacketsDelta
  | .txPackets => counter item.txPacketsDelta

/-- `public_rx_mbps`, …, `private_tx_mbps`, and the column that holds both directions in the current row. -/
def mbpsColumn : Role → Direction → RoleRateColumn
  | .pub, .rx => .publicRxMbps
  | .pub, .tx => .publicTxMbps
  | .priv, .rx => .privateRxMbps
  | .priv, .tx => .privateTxMbps

def currentMbpsColumn : Role → RateColumn
  | .pub => .publicMbps
  | .priv => .privateMbps

/-- `public_rx_pps`, …, `private_tx_pps`, and the column that holds both directions in the current row. -/
def ppsColumn : Role → Direction → RoleRateColumn
  | .pub, .rx => .publicRxPps
  | .pub, .tx => .publicTxPps
  | .priv, .rx => .privateRxPps
  | .priv, .tx => .privateTxPps

def currentPpsColumn : Role → RateColumn
  | .pub => .publicPps
  | .priv => .privatePps

/-- **The chart row of a VM and its current row agree**: on bytes and peaks, on the rates of each role, which the current
    row has for both directions together, and on the packets behind these. -/
structure ClassifiedAlike (push : ChartPush) (vm : String) (row : ChartRow) (current : FastRow) : Prop where
  bytes : row.current.ints = current.ints
  peaks : row.current.peaks = current.peaks
  mbps : ∀ role, push.roleRates vm (mbpsColumn role .rx) + push.roleRates vm (mbpsColumn role .tx) =
    current.rates (currentMbpsColumn role)
  pps : ∀ role, push.roleRates vm (ppsColumn role .rx) + push.roleRates vm (ppsColumn role .tx) =
    current.rates (currentPpsColumn role)
  packets : ∀ column, row.packets column = sumBy (fun item => packetsBy currentRole item column) (push.taps vm)

/-- The bridge of an interface is one of the two with blanks around it. -/
def TapItem.Padded (item : TapItem) : Prop :=
  strip item.bridge ≠ item.bridge ∧ (strip item.bridge = publicBridge ∨ strip item.bridge = privateBridge)

/-- An interface reports no traffic. -/
def TapItem.Idle (item : TapItem) : Prop :=
  (counter item.rxDelta = 0 ∧ counter item.txDelta = 0) ∧
    counter item.rxPacketsDelta = 0 ∧ counter item.txPacketsDelta = 0

/-! ## The two readings of a bridge -/

section Bridges

variable {item : TapItem} {role : Role}

theorem strip_publicBridge : strip publicBridge = publicBridge := by decide

theorem strip_privateBridge : strip privateBridge = privateBridge := by decide

/-- What is public or private as it came is so when stripped. -/
theorem chartRole_of_currentRole (h : currentRole item = some role) : chartRole item = some role := by
  unfold currentRole at h
  split at h
  · next hbridge =>
      unfold chartRole
      rw [hbridge, strip_publicBridge]
      exact h
  · next hpublic =>
      split at h
      · next hbridge =>
          unfold chartRole
          rw [hbridge, strip_privateBridge]
          exact h
      · exact absurd h (by simp)

/-- A padded bridge is public or private only when stripped. -/
theorem roles_of_padded (h : item.Padded) : currentRole item = none ∧ ∃ role, chartRole item = some role := by
  obtain ⟨hne, hconfigured⟩ := h
  have hpublic : item.bridge ≠ publicBridge := by
    intro hbridge
    apply hne
    rw [hbridge, strip_publicBridge]
  have hprivate : item.bridge ≠ privateBridge := by
    intro hbridge
    apply hne
    rw [hbridge, strip_privateBridge]
  refine ⟨?_, ?_⟩
  · unfold currentRole
    rw [if_neg hpublic, if_neg hprivate]
  · unfold chartRole
    obtain hstrip | hstrip := hconfigured
    · exact ⟨.pub, if_pos hstrip⟩
    · rw [hstrip]
      exact ⟨.priv, by decide⟩

/-- **Of every other bridge both readings are the same.** -/
theorem chartRole_eq (h : ¬ item.Padded) : chartRole item = currentRole item := by
  by_cases hstrip : strip item.bridge = item.bridge
  · unfold chartRole currentRole
    rw [hstrip]
  · have hconfigured : ¬ (strip item.bridge = publicBridge ∨ strip item.bridge = privateBridge) := fun h' => h ⟨hstrip, h'⟩
    obtain ⟨hpublic, hprivate⟩ := not_or.mp hconfigured
    have hchart : chartRole item = none := by
      unfold chartRole
      rw [if_neg hpublic, if_neg hprivate]
    cases hcurrent : currentRole item with
    | none => exact hchart
    | some role =>
        rw [chartRole_of_currentRole hcurrent] at hchart
        exact absurd hchart (by simp)

/-- The statement's `CASE`. -/
theorem onBridge_eq_share {α : Type} [Zero α] (sec : Int) (w : TapItem → α) :
    (tapRow sec item).onBridge role (w item) = share currentRole role w item := by
  unfold TapRow.onBridge share currentRole tapRow
  dsimp only
  by_cases hpublic : item.bridge = publicBridge
  · cases role with
    | pub => simp [Role.bridge, hpublic]
    | priv => simp [Role.bridge, hpublic, bridges_ne]
  · by_cases hprivate : item.bridge = privateBridge
    · cases role with
      | pub => simp [Role.bridge, hprivate, bridges_ne.symm]
      | priv => simp [Role.bridge, hprivate, bridges_ne.symm]
    · cases role with
      | pub => simp [Role.bridge, hpublic, hprivate]
      | priv => simp [Role.bridge, hpublic, hprivate]

end Bridges

/-! ## Sums over the interfaces of a VM -/

section Sums

variable {M : Type} [AddCommMonoid M] [PartialOrder M] {w : TapItem → M} {items : List TapItem}

theorem share_le {role : Role} (hw : ∀ item, 0 ≤ w item) (item : TapItem) :
    share currentRole role w item ≤ share chartRole role w item := by
  unfold share
  by_cases hcurrent : currentRole item = some role
  · rw [if_pos hcurrent, if_pos (chartRole_of_currentRole hcurrent)]
  · rw [if_neg hcurrent]
    split
    · exact hw item
    · exact le_refl 0

variable [IsOrderedCancelAddMonoid M]

/-- Sums of terms in order are equal only if the terms are. -/
theorem eq_of_sumBy_eq {f g : TapItem → M} (hle : ∀ item ∈ items, f item ≤ g item)
    (hsum : sumBy f items = sumBy g items) : ∀ item ∈ items, f item = g item := by
  intro item hitem
  by_contra hne
  have hlt : (items.map f).sum < (items.map g).sum :=
    List.sum_lt_sum f g hle ⟨item, hitem, lt_of_le_of_ne (hle item hitem) hne⟩
  exact absurd hsum (ne_of_lt hlt)

/-- **The two readings give every role the same sum exactly if the padded bridges have none of it.** -/
theorem sum_share_eq_iff (hw : ∀ item, 0 ≤ w item) :
    (∀ role, sumBy (share chartRole role w) items = sumBy (share currentRole role w) items) ↔
      ∀ item ∈ items, item.Padded → w item = 0 := by
  constructor
  · intro hsum item hitem hpadded
    obtain ⟨hcurrent, role, hchart⟩ := roles_of_padded hpadded
    have heq := eq_of_sumBy_eq (fun item _ => share_le hw item) (hsum role).symm item hitem
    unfold share at heq
    rw [hcurrent, hchart, if_pos rfl, if_neg (by simp)] at heq
    exact heq.symm
  · intro hzero role
    unfold sumBy
    congr 1
    apply List.map_congr_left
    intro item hitem
    unfold share
    by_cases hpadded : item.Padded
    · rw [hzero item hitem hpadded, ite_self, ite_self]
    · rw [chartRole_eq hpadded]

end Sums

/-! ## The columns -/

namespace FastPush

variable (push : FastPush) (vm : String)

theorem tapSeconds_pos (item : TapItem) : 0 < push.tapSeconds item := by
  unfold tapSeconds clamp
  omega

end FastPush

/-- What the loop of `_interface_aggregates` adds up under each key. -/
theorem foldl_add_apply {α ι M : Type} [AddMonoid M] (w : α → ι → M) (l : List α) (f : ι → M) (i : ι) :
    l.foldl (fun f a i => f i + w a i) f i = f i + sumBy (fun a => w a i) l := by
  induction l generalizing f with
  | nil => exact (add_zero _).symm
  | cons a rest ih =>
      rw [List.foldl_cons, ih]
      unfold sumBy
      rw [List.map_cons, List.sum_cons, add_assoc]

/-- **`by_vm` adds up the interfaces of each VM.** -/
theorem byVm_eq {ι M : Type} [AddMonoid M] (push : FastPush) (w : TapItem → ι → M) (vm : String) (i : ι) :
    ((((namedTaps push.interfaces).foldl
      (fun (table : KeyedTable String (ι → M)) item => table.accumulate item.vmUuid 0 fun sums i => sums i + w item i)
      .empty).get? vm).getD 0) i = sumBy (fun item => w item i) (push.taps vm) := by
  rw [KeyedTable.get?_foldl_accumulate (namedTaps push.interfaces) (fun item => item.vmUuid) 0
    fun item (sums : ι → M) i => sums i + w item i]
  show ((if push.taps vm = [] then none
    else some ((push.taps vm).foldl (fun sums item i => sums i + w item i) 0)).getD (0 : ι → M)) i = _
  by_cases hnone : push.taps vm = []
  · rw [if_pos hnone, hnone]
    rfl
  · rw [if_neg hnone]
    exact (foldl_add_apply w (push.taps vm) 0 i).trans (zero_add _)

section Columns

variable (push : ChartPush) (vm : String)

theorem roleRates_eq (column : RoleRateColumn) :
    push.roleRates vm column = sumBy (fun item => push.chartRate item column) (push.taps vm) :=
  byVm_eq push.toFastPush push.chartRate vm column

theorem chartRow_packets (current : FastRow) (column : PacketColumn) :
    (push.chartRow vm current).packets column = sumBy (fun item => packetsBy chartRole item column) (push.taps vm) := by
  have hitem : ∀ item, chartPackets item column = packetsBy chartRole item column := by
    intro item
    cases column <;> rfl
  simp only [← hitem]
  exact byVm_eq push.toFastPush chartPackets vm column

theorem sumBy_share_add (roleOf : TapItem → Option Role) (role : Role) (f g : TapItem → ℚ) (items : List TapItem) :
    sumBy (share roleOf role f) items + sumBy (share roleOf role g) items =
      sumBy (share roleOf role fun item => f item + g item) items := by
  unfold sumBy
  rw [← List.sum_map_add]
  congr 1
  apply List.map_congr_left
  intro item _
  unfold share
  split
  · rfl
  · exact add_zero 0

/-- The megabits of both directions in the chart row, and in the current row. -/
theorem roleRates_mbps (role : Role) :
    push.roleRates vm (mbpsColumn role .rx) + push.roleRates vm (mbpsColumn role .tx) =
      sumBy (share chartRole role fun item => push.rxMbps item + push.txMbps item) (push.taps vm) := by
  rw [roleRates_eq, roleRates_eq, ← sumBy_share_add]
  cases role <;> rfl

theorem current_mbps (role : Role) : (push.fastRow vm).rates (currentMbpsColumn role) =
    sumBy (share currentRole role fun item => push.rxMbps item + push.txMbps item) (push.taps vm) := by
  show sumBy (fun row => row.rate (currentMbpsColumn role)) (push.group vm) = _
  rw [FastPush.group_eq]
  unfold sumBy
  rw [List.map_map]
  congr 1
  apply List.map_congr_left
  intro item _
  rw [← onBridge_eq_share (push.tapSeconds item)]
  cases role <;> rfl

/-- The packets of both directions per second. -/
theorem roleRates_pps (role : Role) :
    push.roleRates vm (ppsColumn role .rx) + push.roleRates vm (ppsColumn role .tx) =
      sumBy (share chartRole role fun item => push.rxPps item + push.txPps item) (push.taps vm) := by
  rw [roleRates_eq, roleRates_eq, ← sumBy_share_add]
  cases role <;> rfl

theorem current_pps (role : Role) : (push.fastRow vm).rates (currentPpsColumn role) =
    sumBy (share currentRole role fun item => push.rxPps item + push.txPps item) (push.taps vm) := by
  show sumBy (fun row => row.rate (currentPpsColumn role)) (push.group vm) = _
  rw [FastPush.group_eq]
  unfold sumBy
  rw [List.map_map]
  congr 1
  apply List.map_congr_left
  intro item _
  rw [← onBridge_eq_share (push.tapSeconds item)]
  cases role <;> rfl

/-! ## Rates that are 0 -/

theorem tapSeconds_cast_pos (item : TapItem) : (0 : ℚ) < push.tapSeconds item := by
  exact_mod_cast push.tapSeconds_pos item

theorem mbps_nonneg {seconds : Int} (hseconds : (0 : ℚ) < seconds) (bytes : Nat) : 0 ≤ mbps bytes seconds := by
  unfold mbps
  positivity

theorem mbps_eq_zero {seconds : Int} (hseconds : (0 : ℚ) < seconds) {bytes : Nat} : mbps bytes seconds = 0 ↔ bytes = 0 := by
  unfold mbps
  have hne : (seconds : ℚ) ≠ 0 := ne_of_gt hseconds
  simp [hne]

theorem bothMbps_eq_zero (item : TapItem) : push.rxMbps item + push.txMbps item = 0 ↔
    counter item.rxDelta = 0 ∧ counter item.txDelta = 0 := by
  have hseconds := tapSeconds_cast_pos push item
  unfold FastPush.rxMbps FastPush.txMbps
  rw [add_eq_zero_iff_of_nonneg (mbps_nonneg hseconds _) (mbps_nonneg hseconds _), mbps_eq_zero hseconds,
    mbps_eq_zero hseconds]

theorem bothPps_eq_zero (item : TapItem) : push.rxPps item + push.txPps item = 0 ↔
    counter item.rxPacketsDelta = 0 ∧ counter item.txPacketsDelta = 0 := by
  have hseconds := tapSeconds_cast_pos push item
  have hne : (push.tapSeconds item : ℚ) ≠ 0 := ne_of_gt hseconds
  have hnonneg : ∀ packets : Nat, (0 : ℚ) ≤ packets / push.tapSeconds item := by
    intro packets
    positivity
  unfold FastPush.rxPps FastPush.txPps
  rw [add_eq_zero_iff_of_nonneg (hnonneg _) (hnonneg _)]
  simp [hne]

/-- **Where the two readings of the bridges lead to the same rows.** -/
theorem classifiedAlike_fastRow :
    ClassifiedAlike push vm (push.chartRow vm (push.fastRow vm)) (push.fastRow vm) ↔
      ∀ item ∈ push.taps vm, item.Padded → item.Idle := by
  have hmbps : ∀ item, 0 ≤ push.rxMbps item + push.txMbps item := by
    intro item
    have hseconds := tapSeconds_cast_pos push item
    exact add_nonneg (mbps_nonneg hseconds _) (mbps_nonneg hseconds _)
  have hpps : ∀ item, 0 ≤ push.rxPps item + push.txPps item := by
    intro item
    have hseconds := tapSeconds_cast_pos push item
    unfold FastPush.rxPps FastPush.txPps
    positivity
  constructor
  · intro h item hitem hpadded
    have hbytes : push.rxMbps item + push.txMbps item = 0 := by
      refine (sum_share_eq_iff hmbps).mp ?_ item hitem hpadded
      intro role
      rw [← roleRates_mbps, h.mbps, current_mbps]
    have hpackets : push.rxPps item + push.txPps item = 0 := by
      refine (sum_share_eq_iff hpps).mp ?_ item hitem hpadded
      intro role
      rw [← roleRates_pps, h.pps, current_pps]
    exact ⟨(bothMbps_eq_zero push item).mp hbytes, (bothPps_eq_zero push item).mp hpackets⟩
  · intro h
    refine ⟨rfl, rfl, ?_, ?_, ?_⟩
    · intro role
      rw [roleRates_mbps, current_mbps]
      refine (sum_share_eq_iff hmbps).mpr ?_ role
      intro item hitem hpadded
      exact (bothMbps_eq_zero push item).mpr (h item hitem hpadded).1
    · intro role
      rw [roleRates_pps, current_pps]
      refine (sum_share_eq_iff hpps).mpr ?_ role
      intro item hitem hpadded
      exact (bothPps_eq_zero push item).mpr (h item hitem hpadded).2
    · intro column
      rw [chartRow_packets]
      have hrx : ∀ role, sumBy (share chartRole role fun item => counter item.rxPacketsDelta) (push.taps vm) =
          sumBy (share currentRole role fun item => counter item.rxPacketsDelta) (push.taps vm) :=
        (sum_share_eq_iff fun _ => Nat.zero_le _).mpr fun item hitem hpadded => (h item hitem hpadded).2.1
      have htx : ∀ role, sumBy (share chartRole role fun item => counter item.txPacketsDelta) (push.taps vm) =
          sumBy (share currentRole role fun item => counter item.txPacketsDelta) (push.taps vm) :=
        (sum_share_eq_iff fun _ => Nat.zero_le _).mpr fun item hitem hpadded => (h item hitem hpadded).2.2
      cases column with
      | publicRxPackets => exact hrx .pub
      | publicTxPackets => exact htx .pub
      | privateRxPackets => exact hrx .priv
      | privateTxPackets => exact htx .priv
      | rxPackets => rfl
      | txPackets => rfl

/-- **The chart and the current writer classify traffic alike**, for the VMs that the push writes and charts, if and only
    if no interface of the VM with blanks around a configured bridge has traffic. -/
theorem classified_alike_iff (push : ChartPush) (st : ChartState) {vm : String} (hpresent : push.vmMetricsPresent = true)
    (hvm : vm ∈ push.vmUuids) (htimely : push.lateFor st.fast vm = false) :
    ∃ row current, (st.push push).chart.get? (push.key vm) = some row ∧
      (st.push push).fast.get? (push.node, vm) = some current ∧
        (ClassifiedAlike push vm row current ↔ ∀ item ∈ push.taps vm, item.Padded → item.Idle) := by
  have hcharts : push.charts (push.refresh st.fast) vm = some (push.fastRow vm) := by
    rw [charts_refresh, if_pos ⟨hpresent, hvm⟩, htimely]
    rfl
  have hcurrent : (push.refresh st.fast).get? (push.node, vm) = some (push.fastRow vm) := by
    unfold ChartPush.charts at hcharts
    exact (Option.filter_eq_some_iff.mp hcharts).1
  exact ⟨_, _, get?_chart_of_charts push st hcharts, hcurrent, classifiedAlike_fastRow push vm⟩

/-- A push of one VM that received 10 packets on a bridge. -/
def bridgedPush (bridge : String) : ChartPush :=
  { chartedPush 1200 0 with
    interfaces := [some { vmUuid := "vm-1", bridge, iface := "tap0", rxDelta := some 6000, rxPacketsDelta := some 10 }] }

theorem classified_alike_br0 : ∃ row current, (ChartState.init.push (bridgedPush "br0")).chart.get? ⟨1200, "n1", "vm-1"⟩ = some row ∧
    (ChartState.init.push (bridgedPush "br0")).fast.get? ("n1", "vm-1") = some current ∧
      (ClassifiedAlike (bridgedPush "br0") "vm-1" row current ↔
        ∀ item ∈ (bridgedPush "br0").taps "vm-1", item.Padded → item.Idle) :=
  classified_alike_iff (bridgedPush "br0") .init rfl (by decide) (by decide)

/-- A blank after the bridge makes the packets public in the chart and other in the current row. -/
theorem padded_bridge_classified_apart : ¬ ∀ (push : ChartPush) (st : ChartState) (vm : String),
    push.vmMetricsPresent = true → vm ∈ push.vmUuids → push.lateFor st.fast vm = false →
      ∀ row current, (st.push push).chart.get? (push.key vm) = some row →
        (st.push push).fast.get? (push.node, vm) = some current → ClassifiedAlike push vm row current := by
  intro hclaim
  have hchart : ((ChartState.init.push (bridgedPush "br0 ")).chart.get? ⟨1200, "n1", "vm-1"⟩).isSome := by decide +kernel
  have hfast : ((ChartState.init.push (bridgedPush "br0 ")).fast.get? ("n1", "vm-1")).map
      (fun current => current.rates (currentPpsColumn .pub)) = some 0 := by decide +kernel
  have hrates : (bridgedPush "br0 ").roleRates "vm-1" (ppsColumn .pub .rx) +
      (bridgedPush "br0 ").roleRates "vm-1" (ppsColumn .pub .tx) = 1 / 6 := by decide +kernel
  obtain ⟨row, hrow⟩ := Option.isSome_iff_exists.mp hchart
  obtain ⟨current, hstored, hzero⟩ := Option.map_eq_some_iff.mp hfast
  have halike := hclaim (bridgedPush "br0 ") .init "vm-1" rfl (by decide) (by decide) row current hrow hstored
  have hpps := halike.pps .pub
  rw [hrates, hzero] at hpps
  exact absurd hpps (by simp)

end Columns

end VirtInfra.Current
