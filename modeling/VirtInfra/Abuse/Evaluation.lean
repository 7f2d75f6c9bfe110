import VirtInfra.Agent.Threshold
import VirtInfra.Lib.Lookup

/-!
# `Evaluation` — the abuse state of a VM after a push

A push writes one `vm_current_fast` row for every VM it reports, and evaluates those rows under the policy read at its
start. Five rules need their condition to hold over consecutive cycles and keep a streak each; the two PPS rules look at
the seconds the synchronised check let through. A streak only continues under the policy revision it was started under.

Rates, percentages and severities are rationals here.
-/

namespace VirtInfra.Abuse

open Lib Python Consumption Agent

/-! ## Policy and flags -/

/-- `ABUSE_ENGINE_VERSION`. -/
def engineVersion : String := "cycles-v3-ram"

/-- The rules that need a streak of cycles. -/
inductive Rule | rxMbps | txMbps | cpu | ram | disk
  deriving DecidableEq, Repr

inductive Flag
  | networkRxPps
  | networkTxPps
  | networkRxAvgMbps
  | networkTxAvgMbps
  | cpuSustained
  | ramSustained
  | diskSustained
  deriving DecidableEq, Repr

/-- The policy of `get_abuse_settings`. -/
structure Policy extends PpsPolicy where
  revision : Int
  networkRequiredSeconds : Int
  networkMbpsEnabled : Bool
  networkAvgMbps : ℚ
  networkMbpsRequiredSeconds : Int
  cpuEnabled : Bool
  cpuFullPercent : ℚ
  cpuRequiredSeconds : Int
  ramEnabled : Bool
  ramRssPercent : ℚ
  ramGuestUsedPercent : ℚ
  ramLowUsablePercent : ℚ
  ramRequiredSeconds : Int
  diskEnabled : Bool
  diskReadBps : ℚ
  diskWriteBps : ℚ
  diskBps : ℚ
  diskIops : ℚ
  diskRequiredSeconds : Int

/-- `_v4810_required_cycles`, with the division rounded up. -/
def requiredCyclesOf (requiredSeconds : Int) : Int := max 1 ((max 1 requiredSeconds + 299) / 300)

def Policy.requiredCycles (policy : Policy) : Rule → Int
  | .rxMbps | .txMbps => requiredCyclesOf policy.networkMbpsRequiredSeconds
  | .cpu => requiredCyclesOf policy.cpuRequiredSeconds
  | .ram => requiredCyclesOf policy.ramRequiredSeconds
  | .disk => requiredCyclesOf policy.diskRequiredSeconds

/-- `_v48126_flag_union`, and on a single value `_v4810_canonical_flags`: the flags in order of their first use. -/
def flagUnion (values : List (List Flag)) : List Flag :=
  values.flatten.foldl (fun result flag => if result.contains flag then result else result ++ [flag]) []

inductive PrimaryType | network | cpu | ram | disk | other
  deriving DecidableEq, Repr

/-- `_v48126_primary_type`. -/
def primaryType (flags : List Flag) : PrimaryType :=
  if flags.any fun flag => [Flag.networkRxPps, .networkTxPps, .networkRxAvgMbps, .networkTxAvgMbps].contains flag then
    .network
  else if flags.contains .cpuSustained then .cpu
  else if flags.contains .ramSustained then .ram
  else if flags.contains .diskSustained then .disk
  else .other

/-! ## What a push reports -/

/-- The metrics of one VM in the payload's `vms`. -/
structure VmPerf where
  cpuFullPercent : ℚ := 0
  diskReadBps : ℚ := 0
  diskWriteBps : ℚ := 0
  diskReadIops : ℚ := 0
  diskWriteIops : ℚ := 0
  ramCurrentKib : Int := 0
  ramRssKib : Int := 0
  ramAvailableKib : Int := 0
  ramUnusedKib : Int := 0
  ramUsableKib : Int := 0

/-- A push as far as the evaluation reads it. `vms` is `none` when the payload has no such list; then the current tables
    and the abuse state are left alone. -/
structure Push where
  node : String
  time : Int
  interfaces : List PayloadRow
  vms : Option (List (String × VmPerf))
  inventoryComplete : Bool

/-- The columns of `vm_current_fast` that the evaluation reads. -/
structure VmCurrent where
  lastSeen : Int
  rxMbps : ℚ
  txMbps : ℚ
  rxPps : ℚ
  txPps : ℚ
  secondsOverRxPps : Int
  secondsOverTxPps : Int
  perf : VmPerf

/-- The VMs a push reports; `"-"` stands for none. -/
def Push.vmUuids (push : Push) (vms : List (String × VmPerf)) : List String :=
  ((push.interfaces.map fun row => row.vmUuid) ++ vms.map Prod.fst).dedup.filter fun vm => vm ≠ "" && vm ≠ "-"

/-- The `vm_current_fast` row of a VM, from its interfaces and the last of its `vms` entries. -/
def currentRow (policy : Policy) (push : Push) (vms : List (String × VmPerf)) (vm : String) : VmCurrent :=
  let rows := vmRows push.interfaces vm
  let total := fun (f : Counters → Nat) => (rows.map fun row => (f row.deltas : ℚ) / row.intervalSeconds).sum
  { lastSeen := push.time
    rxMbps := total Counters.rx * 8 / 1000000, txMbps := total Counters.tx * 8 / 1000000
    rxPps := total Counters.rxPackets, txPps := total Counters.txPackets
    secondsOverRxPps := fedSeconds policy.toPpsPolicy push.interfaces vm .rxPps
    secondsOverTxPps := fedSeconds policy.toPpsPolicy push.interfaces vm .txPps
    perf := (((vms.filter fun entry => entry.1 = vm).getLast?).map Prod.snd).getD {} }

/-! ## The conditions of the rules -/

/-- `_v48126_ram_metrics`; the guest's percentages are -1 when the balloon statistics are not valid. -/
structure RamMetrics where
  rssPercent : ℚ
  guestUsedPercent : ℚ
  usablePercent : ℚ
  guestValid : Bool

def ramMetrics (perf : VmPerf) : RamMetrics :=
  let current := max 0 perf.ramCurrentKib
  let rss := max 0 perf.ramRssKib
  let available := max 0 perf.ramAvailableKib
  let unused := max 0 perf.ramUnusedKib
  let usable := max 0 perf.ramUsableKib
  let guestValid := available > 0 && (usable > 0 || unused > 0) && (usable : ℚ) ≤ available * (105 / 100)
  { rssPercent := if current > 0 then rss * 100 / current else 0
    guestUsedPercent := if guestValid then max 0 (min 100 ((available - usable) * 100 / available)) else -1
    usablePercent := if guestValid then max 0 (min 100 (usable * 100 / available)) else -1
    guestValid }

/-- `_v48128_low_usable_ratio`: 1 at the threshold, 2 with nothing usable. -/
def lowUsableRatio (threshold actual : ℚ) : ℚ :=
  let threshold := max 0 threshold
  let actual := max 0 actual
  if threshold ≤ 0 ∨ actual > threshold then 0 else min 2 (max 1 (1 + (threshold - actual) / threshold))

/-- The ratio to a threshold that is set and reached. -/
def reached (threshold actual : ℚ) : List ℚ := if threshold > 0 ∧ actual ≥ threshold then [actual / threshold] else []

/-- `_v4810_disk_hit`. -/
def diskHit (policy : Policy) (perf : VmPerf) : List ℚ :=
  if policy.diskEnabled then
    reached policy.diskReadBps perf.diskReadBps ++ reached policy.diskWriteBps perf.diskWriteBps ++
      reached policy.diskBps (perf.diskReadBps + perf.diskWriteBps) ++
      reached policy.diskIops (perf.diskReadIops + perf.diskWriteIops)
  else []

/-- `_v48126_ram_hit`. -/
def ramHit (policy : Policy) (metrics : RamMetrics) : List ℚ :=
  if policy.ramEnabled then
    reached policy.ramRssPercent metrics.rssPercent ++ reached policy.ramGuestUsedPercent metrics.guestUsedPercent ++
      if policy.ramLowUsablePercent > 0 ∧ metrics.guestValid ∧ metrics.usablePercent ≤ policy.ramLowUsablePercent then
        [lowUsableRatio policy.ramLowUsablePercent metrics.usablePercent]
      else []
  else []

/-- The average-rate rule, for either direction. -/
def mbpsHit (policy : Policy) (rate : ℚ) : List ℚ :=
  if policy.networkMbpsEnabled ∧ policy.networkAvgMbps > 0 ∧ rate ≥ policy.networkAvgMbps then
    [rate / max policy.networkAvgMbps (1 / 1000)]
  else []

/-- The ratios by which a row meets the condition of a rule; none when it does not. -/
def ruleHit (policy : Policy) (row : VmCurrent) : Rule → List ℚ
  | .rxMbps => mbpsHit policy row.rxMbps
  | .txMbps => mbpsHit policy row.txMbps
  | .cpu =>
      if policy.cpuEnabled ∧ row.perf.cpuFullPercent ≥ policy.cpuFullPercent then
        [row.perf.cpuFullPercent / max policy.cpuFullPercent (1 / 1000)]
      else []
  | .ram => ramHit policy (ramMetrics row.perf)
  | .disk => diskHit policy row.perf

/-- `_v4810_next_streak`. -/
def nextStreak (oldCycles : Int) (hit policySame contiguous advanceCycle : Bool) : Int :=
  if !hit then 0
  else if !advanceCycle then max 1 oldCycles
  else if policySame && contiguous then oldCycles + 1
  else 1

/-! ## The abuse state -/

/-- A row of `vm_abuse_state`. -/
structure AbuseState where
  lastSeen : Int
  isAbuse : Bool
  abuseSince : Int
  abuseFlags : List Flag
  severity : ℚ
  streakCycles : Rule → Int
  policyRevision : Int
  policyAppliedAt : Int
  lastEvalBucket : Int
  engineVersion : String

/-- `policy_same`: the row was evaluated under this revision by this engine. -/
def AbuseState.policySame (state : AbuseState) (policy : Policy) : Bool :=
  state.policyRevision = policy.revision && state.engineVersion = Abuse.engineVersion

/-- Whether a row is active. -/
def active (state : Option AbuseState) : Bool := state.any AbuseState.isAbuse

/-- Whether a row is active under a policy: `old_active`. -/
def activeUnder (policy : Policy) (state : Option AbuseState) : Bool :=
  state.any fun state => state.isAbuse && state.policySame policy

/-- A row that does not exist reads as zeros. -/
def AbuseState.blank : AbuseState :=
  { lastSeen := 0, isAbuse := false, abuseSince := 0, abuseFlags := [], severity := 0, streakCycles := fun _ => 0
    policyRevision := 0, policyAppliedAt := 0, lastEvalBucket := 0, engineVersion := "" }

def flagOf : Rule → Flag
  | .rxMbps => .networkRxAvgMbps
  | .txMbps => .networkTxAvgMbps
  | .cpu => .cpuSustained
  | .ram => .ramSustained
  | .disk => .diskSustained

/-- **The evaluation of one row**, with the old state of the VM. -/
def evaluate (policy : Policy) (push : Push) (vm : String) (stored : Option AbuseState) (row : VmCurrent) : AbuseState :=
  let old := stored.getD AbuseState.blank
  let currentBucket := bucketFor push.time
  let policySame := old.policySame policy
  let advanceCycle := old.lastEvalBucket ≠ currentBucket
  let contiguous := old.lastEvalBucket ≠ 0 && currentBucket - old.lastEvalBucket = 300
  let cycles := fun rule => nextStreak (max 0 (old.streakCycles rule)) (!(ruleHit policy row rule).isEmpty) policySame
    contiguous advanceCycle
  let ppsSynced := policy.networkEnabled && ppsSynced policy.toPpsPolicy push.interfaces vm
  let pps := fun (seconds : Int) (rate : ℚ) (flag : Flag) =>
    if ppsSynced && seconds ≥ policy.networkRequiredSeconds then [(flag, max 1 (rate / max policy.networkPps 1))] else []
  let sustained := fun rule =>
    let ratios := ruleHit policy row rule
    if !ratios.isEmpty && cycles rule ≥ policy.requiredCycles rule then [(flagOf rule, ratios.foldl max 1)] else []
  let hits := pps row.secondsOverRxPps row.rxPps .networkRxPps ++ pps row.secondsOverTxPps row.txPps .networkTxPps ++
    [Rule.rxMbps, .txMbps, .cpu, .ram, .disk].flatMap sustained
  let finalActive := !hits.isEmpty
  let oldActive := old.isAbuse && policySame
  { lastSeen := row.lastSeen
    isAbuse := finalActive
    abuseSince :=
      if finalActive then (if oldActive && old.abuseSince ≠ 0 then old.abuseSince else push.time) else 0
    abuseFlags := hits.map Prod.fst
    severity := (hits.map Prod.snd).foldl max 0
    streakCycles := cycles
    policyRevision := policy.revision
    policyAppliedAt := if policySame then old.policyAppliedAt else push.time
    lastEvalBucket := currentBucket
    engineVersion := Abuse.engineVersion }

end VirtInfra.Abuse
