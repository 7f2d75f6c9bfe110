import VirtInfra.Abuse.Refresh
import VirtInfra.Current.NoRewind

/-!
# `MissingMetrics` — a push without metrics for a VM

The payload's `vms` may be missing, empty or partial. Without the list nothing is written. With it, a VM that only has
interface rows gets a `vm_current_fast` row whose CPU, RAM and disk columns are zeros, and is evaluated on them; the disk
writer deletes every disk row of the node that the push did not refresh; and a complete inventory deletes the rows of the
VMs it does not report.
-/

namespace VirtInfra.Current

open Lib Python Consumption Abuse

/-- **The push has no perf row for the VM**, and so none of its disks. -/
def Payload.OmitsMetrics (p : Payload) (vm : String) : Prop :=
  (∀ vms, p.vms = some vms → vm ∉ vms.map Prod.fst) ∧ ∀ item ∈ p.disks, strip item.vmUuid ≠ vm

/-- The rules over the metrics of `vms`. -/
def metricRules : List Rule := [.cpu, .ram, .disk]

/-- **The last valid state of a VM is kept**: the columns from its metrics, its disks, and the streaks and flags of the
    rules over the metrics. -/
structure StateKept (node vm : String) (d d' : Database) : Prop where
  columns : ∀ row, d.store.current.get? (node, vm) = some row →
    ∃ row', d'.store.current.get? (node, vm) = some row' ∧ row'.perf = row.perf
  disks : ∀ key, key.node = node → key.vmUuid = vm → d'.tables.disk.get? key = d.tables.disk.get? key
  abuse : ∀ state, d.store.abuse.get? (node, vm) = some state → ∃ state', d'.store.abuse.get? (node, vm) = some state' ∧
    ∀ rule ∈ metricRules, state'.streakCycles rule = state.streakCycles rule ∧
      (flagOf rule ∈ state'.abuseFlags ↔ flagOf rule ∈ state.abuseFlags)

/-! ## When that is so -/

/-- The VM has interface rows in the push. -/
def Payload.reports (p : Payload) (s : Sample) (vm : String) : Bool := vm ∈ (p.vmPush s).vmUuids []

/-- A row of `vm_current_fast` with these metrics and no traffic. -/
def rowOf (perf : VmPerf) : VmCurrent :=
  { lastSeen := 0, rxMbps := 0, txMbps := 0, rxPps := 0, txPps := 0, secondsOverRxPps := 0, secondsOverTxPps := 0, perf }

/-- **An evaluation of the metrics does not move the rule.** Where the condition holds, the streak has begun in this bucket,
    or it is 1 and starts again; where it does not, there is none. -/
def Steady (policy : Policy) (time : Int) (state : AbuseState) (perf : VmPerf) (rule : Rule) : Prop :=
  if isOver policy (rowOf perf) rule then
    (if state.lastEvalBucket = bucketFor time then 1 ≤ state.streakCycles rule
      else state.streakCycles rule = 1 ∧ ¬ (state.policySame policy = true ∧ state.lastEvalBucket ≠ 0 ∧
        bucketFor time - state.lastEvalBucket = 300)) ∧
    (flagOf rule ∈ state.abuseFlags ↔ policy.requiredCycles rule ≤ state.streakCycles rule)
  else state.streakCycles rule = 0 ∧ flagOf rule ∉ state.abuseFlags

section Conditions

variable (d : Database) (p : Payload) (s : Sample) (vm : String)

/-- The metrics that the push evaluates the VM on, if it does: zeros for a VM with interface rows. -/
def evaluatedPerf : Option VmPerf :=
  let stored := d.store.current.get? (s.node, vm)
  if p.reports s vm then (if stored.all fun row => row.lastSeen ≤ s.dataTime then some {} else none)
  else (stored.filter fun row => row.lastSeen = s.dataTime).map VmCurrent.perf

/-- Its columns: they are newer than the push, or zeros already; without interface rows, they are not dropped. -/
def ColumnsStay : Prop := ∀ row, d.store.current.get? (s.node, vm) = some row →
  if p.reports s vm then s.dataTime < row.lastSeen ∨ row.perf = {} else (p.vmPush s).drops row.lastSeen = false

/-- Its disks: none is older than the push. -/
def DisksStay : Prop := ∀ key row, key.node = s.node → key.vmUuid = vm → d.tables.disk.get? key = some row →
  s.dataTime ≤ row.lastSeen

/-- Its abuse state: it is newer than the push, or the evaluation does not move it, or there is none and it is not
    dropped. -/
def AbuseStays : Prop := ∀ state, d.store.abuse.get? (s.node, vm) = some state → s.dataTime < state.lastSeen ∨
  match evaluatedPerf d p s vm with
  | some perf => ∀ rule ∈ metricRules, Steady d.store.policy s.dataTime state perf rule
  | none => (p.vmPush s).drops state.lastSeen = false

end Conditions

/-! ## One evaluation -/

section Evaluation

variable {policy : Policy} {push : Push} {vm : String} {state : AbuseState} {row : VmCurrent} {rule : Rule}

/-- The rules over the metrics look at nothing else. -/
theorem over_metricRules (h : rule ∈ metricRules) : isOver policy row rule = isOver policy (rowOf row.perf) rule := by
  unfold metricRules at h
  cases rule <;> first | rfl | simp at h

/-- **What it means that an evaluation leaves streak and flag as they are.** -/
theorem steady_iff (h : rule ∈ metricRules) : Steady policy push.time state row.perf rule ↔
    (evaluate policy push vm (some state) row).streakCycles rule = state.streakCycles rule ∧
      (flagOf rule ∈ (evaluate policy push vm (some state) row).abuseFlags ↔ flagOf rule ∈ state.abuseFlags) := by
  have hstreak : (evaluate policy push vm (some state) row).streakCycles rule =
      nextStreak (max 0 (state.streakCycles rule)) (isOver policy row rule) (state.policySame policy)
        (state.lastEvalBucket ≠ 0 && bucketFor push.time - state.lastEvalBucket = 300)
        (state.lastEvalBucket ≠ bucketFor push.time) := rfl
  rw [flagOf_mem_evaluate, hstreak, over_metricRules h]
  unfold Steady
  cases hover : isOver policy (rowOf row.perf) rule with
  | false =>
      have hnew : ∀ same contiguous advance, nextStreak (max 0 (state.streakCycles rule)) false same contiguous advance = 0 :=
        fun _ _ _ => rfl
      simp only [hnew, Bool.false_eq_true, if_false, false_and, false_iff]
      exact and_congr_left' eq_comm
  | true =>
      -- What the new streak is says when it is the old one.
      have hnew : (if state.lastEvalBucket = bucketFor push.time then 1 ≤ state.streakCycles rule
          else state.streakCycles rule = 1 ∧ ¬ (state.policySame policy = true ∧ state.lastEvalBucket ≠ 0 ∧
            bucketFor push.time - state.lastEvalBucket = 300)) ↔
          nextStreak (max 0 (state.streakCycles rule)) true (state.policySame policy)
            (state.lastEvalBucket ≠ 0 && bucketFor push.time - state.lastEvalBucket = 300)
            (state.lastEvalBucket ≠ bucketFor push.time) = state.streakCycles rule := by
        unfold nextStreak
        by_cases hbucket : state.lastEvalBucket = bucketFor push.time
        · simp only [hbucket, if_true, ne_eq, not_true_eq_false, decide_false, Bool.not_true, Bool.not_false,
            Bool.false_eq_true, if_false]
          omega
        · by_cases hnext : state.policySame policy = true ∧ state.lastEvalBucket ≠ 0 ∧
            bucketFor push.time - state.lastEvalBucket = 300
          · have hcond : (state.policySame policy && (decide (state.lastEvalBucket ≠ 0) &&
                decide (bucketFor push.time - state.lastEvalBucket = 300))) = true := by
              simpa using hnext
            rw [if_neg hbucket]
            refine ⟨fun h => absurd hnext h.2, fun h => ?_⟩
            simp only [hbucket, hcond, ne_eq, not_false_eq_true, decide_true, Bool.not_true, Bool.false_eq_true,
              if_false, if_true] at h
            omega
          · have hcond : (state.policySame policy && (decide (state.lastEvalBucket ≠ 0) &&
                decide (bucketFor push.time - state.lastEvalBucket = 300))) = false := by
              simpa using hnext
            simp only [hbucket, hcond, if_false, hnext, not_false_eq_true, and_true, ne_eq, decide_true,
              Bool.not_true, Bool.false_eq_true]
            exact eq_comm
      rw [if_pos rfl, hnew]
      refine and_congr_right fun hsame => ?_
      rw [hsame]
      simp [iff_comm]

end Evaluation

/-! ## One push -/

section Push

variable {d : Database} {p : Payload} {s : Sample} {vm : String} {vms : List (String × VmPerf)}

/-- What the push reads at its start. -/
def reading (d : Database) (p : Payload) (s : Sample) : InFlight :=
  { push := p.vmPush s, policy := d.store.policy, before := d.store.abuse }

theorem reports_iff (hvm : vm ∉ vms.map Prod.fst) : vm ∈ (p.vmPush s).vmUuids vms ↔ p.reports s vm = true := by
  unfold Payload.reports Push.vmUuids
  simp [hvm, List.mem_filter]

/-- Without metrics the row of the writer has zeros. -/
theorem perf_currentRow {policy : Policy} {push : Push} (hvm : vm ∉ vms.map Prod.fst) :
    (currentRow policy push vms vm).perf = {} := by
  have hnone : (vms.filter fun entry => entry.1 = vm) = [] := by
    refine List.filter_eq_nil_iff.mpr fun entry hentry heq => hvm ?_
    exact List.mem_map.mpr ⟨entry, hentry, of_decide_eq_true heq⟩
  unfold currentRow
  dsimp only
  rw [hnone]
  rfl

theorem drops_of_le {push : Push} {lastSeen : Int} (h : push.time ≤ lastSeen) : push.drops lastSeen = false := by
  unfold Push.drops
  rw [Bool.and_eq_false_iff]
  exact .inr (decide_eq_false (Int.not_lt.mpr h))

/-- The row of a VM that is reported without metrics. -/
theorem currentAfter_reported (hvm : vm ∉ vms.map Prod.fst) (h : p.reports s vm = true) (stored : Option VmCurrent) :
    ∃ new, new.perf = {} ∧ new.lastSeen = s.dataTime ∧
      currentAfter (reading d p s) vms vm stored = some (mergeCurrent stored new) := by
  refine ⟨currentRow (reading d p s).policy (reading d p s).push vms vm, perf_currentRow hvm, rfl, ?_⟩
  have hmem : vm ∈ (reading d p s).push.vmUuids vms := (reports_iff hvm).mpr h
  unfold currentAfter
  rw [if_pos hmem, Option.filter_eq_some_iff]
  refine ⟨rfl, ?_⟩
  rw [Bool.not_eq_true']
  apply drops_of_le
  -- It carries the time of the push, or is newer.
  cases stored with
  | none => exact le_refl _
  | some row =>
      show s.dataTime ≤ (KeyedTable.guarded VmCurrent.lastSeen row _).lastSeen
      unfold KeyedTable.guarded
      split
      · exact le_refl _
      · rename_i hnewer
        exact Int.le_of_lt (Int.not_le.mp hnewer)

/-- The row of one that is not reported. -/
theorem currentAfter_unreported (hvm : vm ∉ vms.map Prod.fst) (h : ¬ p.reports s vm = true) (stored : Option VmCurrent) :
    currentAfter (reading d p s) vms vm stored = stored.filter fun row => !(p.vmPush s).drops row.lastSeen := by
  have hnot : vm ∉ (reading d p s).push.vmUuids vms := fun hmem => h ((reports_iff hvm).mp hmem)
  unfold currentAfter
  rw [if_neg hnot]
  rfl

theorem columns_iff (hvm : vm ∉ vms.map Prod.fst) :
    (∀ row, d.store.current.get? (s.node, vm) = some row →
      ∃ row', currentAfter (reading d p s) vms vm (some row) = some row' ∧ row'.perf = row.perf) ↔
        ColumnsStay d p s vm := by
  refine forall_congr' fun row => imp_congr_right fun _ => ?_
  by_cases hreports : p.reports s vm = true
  · obtain ⟨new, hperf, htime, hafter⟩ := currentAfter_reported (d := d) hvm hreports (some row)
    rw [hafter, if_pos hreports]
    simp only [Option.some.injEq, exists_eq_left', mergeCurrent, Option.elim_some, KeyedTable.guarded, htime]
    by_cases hnewer : s.dataTime < row.lastSeen
    · simp [hnewer, Int.not_le.mpr hnewer]
    · simp [hnewer, Int.not_lt.mp hnewer, hperf, eq_comm]
  · rw [currentAfter_unreported hvm hreports, if_neg hreports]
    cases hdrops : (p.vmPush s).drops row.lastSeen <;> simp [hdrops]

/-- The metrics that the evaluation sees. -/
theorem evaluatedPerf_eq (hvm : vm ∉ vms.map Prod.fst) :
    ((currentAfter (reading d p s) vms vm (d.store.current.get? (s.node, vm))).filter
      fun row => row.lastSeen = s.dataTime).map VmCurrent.perf = evaluatedPerf d p s vm := by
  unfold evaluatedPerf
  dsimp only
  by_cases hreports : p.reports s vm = true
  · obtain ⟨new, hperf, htime, hafter⟩ :=
      currentAfter_reported (d := d) hvm hreports (d.store.current.get? (s.node, vm))
    rw [hafter, if_pos hreports]
    cases d.store.current.get? (s.node, vm) with
    | none => simp [mergeCurrent, htime, hperf]
    | some row =>
        simp only [mergeCurrent, Option.elim_some, KeyedTable.guarded, htime, Option.all_some]
        by_cases hnewer : s.dataTime < row.lastSeen
        · simp [Int.not_le.mpr hnewer, (ne_of_lt hnewer).symm]
        · simp [Int.not_lt.mp hnewer, htime, hperf]
  · rw [currentAfter_unreported hvm hreports, if_neg hreports]
    cases d.store.current.get? (s.node, vm) with
    | none => rfl
    | some row =>
        by_cases htime : row.lastSeen = s.dataTime
        · have hdrops : (p.vmPush s).drops row.lastSeen = false := drops_of_le (le_of_eq htime.symm)
          simp [Option.filter_some, hdrops]
        · simp [Option.filter_some, htime]

theorem abuse_iff (hvm : vm ∉ vms.map Prod.fst) :
    (∀ state, d.store.abuse.get? (s.node, vm) = some state →
      ∃ state', abuseAfter (reading d p s) vm
        (currentAfter (reading d p s) vms vm (d.store.current.get? (s.node, vm))) (some state) = some state' ∧
        ∀ rule ∈ metricRules, state'.streakCycles rule = state.streakCycles rule ∧
          (flagOf rule ∈ state'.abuseFlags ↔ flagOf rule ∈ state.abuseFlags)) ↔ AbuseStays d p s vm := by
  refine forall_congr' fun state => imp_congr_right fun hstate => ?_
  rw [← evaluatedPerf_eq hvm]
  unfold abuseAfter
  have hbefore : (reading d p s).before.get? ((reading d p s).push.node, vm) = some state := hstate
  have htime : (reading d p s).push.time = s.dataTime := rfl
  rw [hbefore, htime]
  dsimp only
  cases hrow : (currentAfter (reading d p s) vms vm (d.store.current.get? (s.node, vm))).filter
      fun row => row.lastSeen = s.dataTime with
  | none =>
      show (∃ state', (some state).filter (fun state => !(p.vmPush s).drops state.lastSeen) = some state' ∧ _) ↔
        _ ∨ (p.vmPush s).drops state.lastSeen = false
      by_cases hnewer : s.dataTime < state.lastSeen
      · have hdrops : (p.vmPush s).drops state.lastSeen = false := drops_of_le (Int.le_of_lt hnewer)
        simp [hdrops]
      · cases hdrops : (p.vmPush s).drops state.lastSeen <;> simp [hdrops, hnewer]
  | some row =>
      have htime : row.lastSeen = s.dataTime := by
        have hsome := (Option.filter_eq_some_iff.mp hrow).2
        exact of_decide_eq_true hsome
      have hnew : (evaluate (reading d p s).policy (reading d p s).push vm (some state) row).lastSeen = s.dataTime := htime
      show (∃ state', some (((some state).filter fun state => !(p.vmPush s).drops state.lastSeen).elim _ _) =
        some state' ∧ _) ↔ _ ∨ ∀ rule ∈ metricRules, Steady d.store.policy s.dataTime state row.perf rule
      by_cases hnewer : s.dataTime < state.lastSeen
      · -- The upsert leaves a newer state alone.
        have hdrops : (p.vmPush s).drops state.lastSeen = false := drops_of_le (Int.le_of_lt hnewer)
        simp [Option.filter_some, hdrops, hnewer, KeyedTable.guarded, hnew, Int.not_le.mpr hnewer]
      · -- It is replaced, or deleted and inserted again.
        have hreplaced : (((some state).filter fun state => !(p.vmPush s).drops state.lastSeen).elim
            (evaluate (reading d p s).policy (reading d p s).push vm (some state) row)
            fun old => KeyedTable.guarded AbuseState.lastSeen old
              (evaluate (reading d p s).policy (reading d p s).push vm (some state) row)) =
            evaluate (reading d p s).policy (reading d p s).push vm (some state) row := by
          cases hdrops : (p.vmPush s).drops state.lastSeen with
          | true => simp [Option.filter_some, hdrops]
          | false => simp [Option.filter_some, hdrops, KeyedTable.guarded, hnew, Int.not_lt.mp hnewer]
        rw [hreplaced]
        simp only [Option.some.injEq, exists_eq_left', hnewer, false_or]
        exact forall₂_congr fun rule hrule => (steady_iff hrule).symm

/-- The disk writer on the rows of a VM without disks in the push. -/
theorem get?_disk_ingestDiskIoCurrent {t t' : Tables} (hdisks : ∀ item ∈ p.disks, strip item.vmUuid ≠ vm)
    (h : ingestDiskIoCurrent p s t = some t') {key : DiskKey} (hnode : key.node = s.node) (hkey : key.vmUuid = vm) :
    t'.disk.get? key = (t.disk.get? key).filter fun row => !decide (row.lastSeen < s.dataTime) := by
  unfold ingestDiskIoCurrent at h
  obtain ⟨disk, hdisk, h⟩ := Option.bind_eq_some_iff.mp h
  obtain ⟨storage, -, h⟩ := Option.bind_eq_some_iff.mp h
  obtain rfl := Option.some.inj h
  have hsame : disk.get? key = t.disk.get? key := by
    rw [copyUpsertRows_eq_foldl hdisk]
    refine KeyedTable.get?_foldl_upsert_of_ne Prod.snd _ _ fun row hrow heq => ?_
    obtain ⟨item, hitem, hrow⟩ := List.mem_filterMap.mp hrow
    unfold diskRow at hrow
    dsimp only at hrow
    split at hrow
    · cases hrow
    · obtain rfl := Option.some.inj hrow
      rw [heq] at hkey
      exact hdisks item hitem hkey
  show (KeyedTable.deleteRows _ _).get? key = _
  rw [KeyedTable.get?_deleteRows, hsame]
  congr 1
  funext row
  simp [hnode]

theorem disks_iff {t t' : Tables} (hdisks : ∀ item ∈ p.disks, strip item.vmUuid ≠ vm)
    (h : ingestDiskIoCurrent p s t = some t') (hbefore : t.disk = d.tables.disk) :
    (∀ key, key.node = s.node → key.vmUuid = vm → t'.disk.get? key = d.tables.disk.get? key) ↔ DisksStay d s vm := by
  constructor
  · intro hall key row hnode hkey hrow
    have hsame := hall key hnode hkey
    rw [get?_disk_ingestDiskIoCurrent hdisks h hnode hkey, hbefore, hrow, Option.filter_eq_some_iff] at hsame
    exact Int.not_lt.mp (by simpa using hsame.2)
  · intro hall key hnode hkey
    rw [get?_disk_ingestDiskIoCurrent hdisks h hnode hkey, hbefore]
    cases hrow : d.tables.disk.get? key with
    | none => rfl
    | some row =>
        rw [Option.filter_eq_some_iff]
        exact ⟨rfl, by simpa using hall key row hnode hkey hrow⟩

/-- **A push without metrics for a VM keeps the last valid state** exactly if it has no `vms` list, or the columns, the
    disks and the abuse state of the VM all stay. -/
theorem metrics_kept_iff {m : Inventory.Migration} {cfg : Config} {receivedNow : Int} {p : Payload} {s : Sample}
    {d d' : Database} {vm : String} (hs : acceptedSample cfg receivedNow p.request d.monitor = some s)
    (hpush : push m cfg receivedNow p d = some d')
    (homits : p.OmitsMetrics vm) :
    StateKept s.node vm d d' ↔ p.vms = none ∨ ColumnsStay d p s vm ∧ DisksStay d s vm ∧ AbuseStays d p s vm := by
  obtain ⟨hperf, hdisks⟩ := homits
  unfold push at hpush
  rw [hs] at hpush
  obtain ⟨⟨presence, purged⟩, -, hpush⟩ := Option.bind_eq_some_iff.mp hpush
  have hendpoint := @writeEndpoint_guarded s p d.tables (confirmedMoves s.node d.presence presence) purged
  cases hvms : p.vms with
  | none =>
      rw [hvms] at hpush
      obtain rfl := Option.some.inj hpush
      simp only [true_or, iff_true]
      refine ⟨fun row hrow => ⟨row, hrow, rfl⟩, fun key _ _ => ?_, fun state hstate => ⟨state, hstate, ?_⟩⟩
      · exact congrArg (KeyedTable.get? · key) hendpoint.2.1
      · exact fun rule _ => ⟨rfl, Iff.rfl⟩
  | some vms =>
      have hvm := hperf vms hvms
      rw [hvms] at hpush
      obtain ⟨t, ht, hpush⟩ := Option.bind_eq_some_iff.mp hpush
      obtain rfl := Option.some.inj hpush
      simp only [reduceCtorEq, false_or]
      rw [← columns_iff hvm, ← disks_iff hdisks ht hendpoint.2.1, ← abuse_iff hvm]
      obtain ⟨-, -, hdiskW, -⟩ := @writeIfaceCurrent_other s p t d.store.policy.toPpsPolicy
      have hcurrent : ∀ row, d.store.current.get? (s.node, vm) = some row →
          (refreshFastCurrentState (reading d p s) vms d.store).current.get? (s.node, vm) =
            currentAfter (reading d p s) vms vm (some row) := by
        intro row hrow
        rw [← hrow]
        exact get?_currentWriter (reading d p s) vms d.store vm
      have habuse : ∀ state, d.store.abuse.get? (s.node, vm) = some state →
          (refreshFastCurrentState (reading d p s) vms d.store).abuse.get? (s.node, vm) = abuseAfter (reading d p s) vm
            (currentAfter (reading d p s) vms vm (d.store.current.get? (s.node, vm))) (some state) := by
        intro state hstate
        rw [← hstate]
        exact get?_refreshFastCurrentState (reading d p s) vms d.store vm
      constructor
      · rintro ⟨hcolumns, hdisk, hstate⟩
        refine ⟨fun row hrow => ?_, fun key hnode hkey => ?_, fun state hold => ?_⟩
        · rw [← hcurrent row hrow]
          exact hcolumns row hrow
        · rw [← hdiskW]
          exact hdisk key hnode hkey
        · rw [← habuse state hold]
          exact hstate state hold
      · rintro ⟨hcolumns, hdisk, hstate⟩
        refine ⟨fun row hrow => ?_, fun key hnode hkey => ?_, fun state hold => ?_⟩
        · obtain ⟨row', hrow', hsame⟩ := hcolumns row hrow
          exact ⟨row', (hcurrent row hrow).trans hrow', hsame⟩
        · show (writeIfaceCurrent d.store.policy.toPpsPolicy p s t).disk.get? key = _
          rw [hdiskW]
          exact hdisk key hnode hkey
        · obtain ⟨state', hstate', hsame⟩ := hstate state hold
          exact ⟨state', (habuse state hold).trans hstate', hsame⟩

end Push

/-! ## A push with metrics and one without -/

/-- `vm1` at 95 percent. -/
def busyPayload : Payload := { time := some 72000, node := "node1", vms := some [("vm1", { cpuFullPercent := 95 })] }

theorem strip_vm1 : strip "vm1" = "vm1" := by decide +kernel

/-- The next push has an interface of `vm1`, and the list of a collection that failed. -/
def barePayload (vms : Option (List (String × VmPerf))) : Payload :=
  { time := some 72300, node := "node1", vms
    interfaces := [{ vmUuid := "vm1", bridge := "br0", iface := "tap0", deltas := 0, vm_stripped := strip_vm1
                     intervalSeconds := 300, ppsWarnThreshold := 0, seconds := fun _ => 0, scans := [] }] }

theorem omitsMetrics_barePayload {vms : Option (List (String × VmPerf))} (h : vms = none ∨ vms = some []) :
    (barePayload vms).OmitsMetrics "vm1" := by
  refine ⟨fun list hlist => ?_, fun item hitem => by cases hitem⟩
  rcases h with rfl | rfl
  · cases hlist
  · obtain rfl := Option.some.inj hlist
    exact List.not_mem_nil

/-- The state after the first push, and what the second one does. -/
def barePush (vms : Option (List (String × VmPerf))) : Option (Database × Sample × Database) :=
  ((currentSystem .standard {}).step (Database.init Policy.sample) (.push 72000 busyPayload)).bind fun d =>
    (acceptedSample {} 72300 (barePayload vms).request d.monitor).bind fun s =>
      (push .standard {} 72300 (barePayload vms) d).map fun d' => (d, s, d')

theorem barePush_eq {vms : Option (List (String × VmPerf))} {d d' : Database} {s : Sample}
    (h : barePush vms = some (d, s, d')) : (currentSystem .standard {}).Reachable System.AnyStep d ∧
      acceptedSample {} 72300 (barePayload vms).request d.monitor = some s ∧
      push .standard {} 72300 (barePayload vms) d = some d' := by
  obtain ⟨d₀, hd, h⟩ := Option.bind_eq_some_iff.mp h
  obtain ⟨s₀, hs, h⟩ := Option.bind_eq_some_iff.mp h
  obtain ⟨d₁, hd', h⟩ := Option.map_eq_some_iff.mp h
  obtain ⟨rfl, rfl, rfl⟩ : d₀ = d ∧ s₀ = s ∧ d₁ = d' := by simpa using h
  exact ⟨.step (.init ⟨_, rfl⟩) trivial hd, hs, hd'⟩

/-- Without the list everything stays. -/
theorem metrics_kept_missing : ∃ (d : Database) (s : Sample) (d' : Database), (currentSystem .standard {}).Reachable System.AnyStep d ∧
    push .standard {} 72300 (barePayload none) d = some d' ∧ StateKept s.node "vm1" d d' := by
  have hrun : (barePush none).isSome := by decide +kernel
  obtain ⟨⟨d, s, d'⟩, hrun⟩ := Option.isSome_iff_exists.mp hrun
  obtain ⟨hreach, hs, hpush⟩ := barePush_eq hrun
  exact ⟨d, s, d', hreach, hpush,
    (metrics_kept_iff hs hpush (omitsMetrics_barePayload (.inl rfl))).mpr (.inl rfl)⟩

/-- **With an empty list the columns of a VM that has interface rows become zeros.** -/
theorem metrics_lost_empty : ¬ ∀ (m : Inventory.Migration) (cfg : Config) (d : Database),
    (currentSystem m cfg).Reachable System.AnyStep d → ∀ (receivedNow : Int) (p : Payload) (s : Sample) (d' : Database)
      (vm : String), acceptedSample cfg receivedNow p.request d.monitor = some s → push m cfg receivedNow p d = some d' →
        p.OmitsMetrics vm → StateKept s.node vm d d' := by
  intro hclaim
  have hrun : (barePush (some [])).map (fun run => (run.2.1.node,
      (run.1.store.current.get? ("node1", "vm1")).map (fun row => row.perf.cpuFullPercent),
      (run.2.2.store.current.get? ("node1", "vm1")).map fun row => row.perf.cpuFullPercent)) =
        some ("node1", some 95, some 0) := by decide +kernel
  obtain ⟨⟨d, s, d'⟩, hrun, hvalues⟩ := Option.map_eq_some_iff.mp hrun
  obtain ⟨hreach, hs, hpush⟩ := barePush_eq hrun
  simp only [Prod.mk.injEq] at hvalues
  obtain ⟨hnode, hbefore, hafter⟩ := hvalues
  have hkept := hclaim .standard {} d hreach 72300 _ s d' "vm1" hs hpush (omitsMetrics_barePayload (.inr rfl))
  rw [hnode] at hkept
  obtain ⟨row, hrow, hcpu⟩ := Option.map_eq_some_iff.mp hbefore
  obtain ⟨row', hrow', hsame⟩ := hkept.columns row hrow
  rw [hrow', Option.map_some, hsame, hcpu] at hafter
  exact absurd (Option.some.inj hafter) (by norm_num)

end VirtInfra.Current
