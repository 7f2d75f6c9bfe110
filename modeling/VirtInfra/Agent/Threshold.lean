import VirtInfra.Agent.Delivery

/-!
# `Threshold` — under which threshold seconds were measured

A payload row reports one threshold and seconds over it. The sampler adds up seconds under the threshold in force at
each scan, and `apply_monitor_config` changes that threshold while a window is open or carried over, so a row can report
a threshold its seconds were not measured under (`seconds_dishonest`). A window stays honest exactly as long as old and
new threshold judge its scans alike (`Alike`); in a run where they always do, every payload is honest, and what the
monitor's synchronised check feeds into the abuse rule was measured under the policy's own threshold.
-/

namespace VirtInfra.Agent

open Lib Python Consumption

/-! ## The synchronised check of the monitor -/

/-- `tolerance`. -/
def PpsPolicy.tolerance (policy : PpsPolicy) : ℚ := max 1 (policy.networkPps * (1 / 1000))

/-- Whether a row reports the threshold of the policy. -/
def PpsPolicy.matches (policy : PpsPolicy) (row : PayloadRow) : Bool :=
  let reported := max 0 row.ppsWarnThreshold
  if policy.networkEnabled then ¬ |reported - policy.networkPps| > policy.tolerance else ¬ reported > 0

/-- The rows of one VM. -/
def vmRows (interfaces : List PayloadRow) (vm : String) : List PayloadRow :=
  interfaces.filter fun row => row.vmUuid = vm

/-- `_v4810_pps_sync_map(interfaces, cfg)[vm]["synced"]`. -/
def ppsSynced (policy : PpsPolicy) (interfaces : List PayloadRow) (vm : String) : Bool :=
  !(vmRows interfaces vm).isEmpty && (vmRows interfaces vm).all policy.matches

/-- The seconds of a row after `normalized_interfaces`: none unless the VM is synchronised. -/
def normalizedSeconds (policy : PpsPolicy) (interfaces : List PayloadRow) (row : PayloadRow) (timer : Timer) : Int :=
  if policy.networkEnabled && ppsSynced policy interfaces row.vmUuid then row.seconds timer else 0

/-- **What the PPS rule is fed for a VM**: the maximum over its interfaces. -/
def fedSeconds (policy : PpsPolicy) (interfaces : List PayloadRow) (vm : String) (timer : Timer) : Int :=
  ((vmRows interfaces vm).map fun row => max 0 (normalizedSeconds policy interfaces row timer)).foldr max 0

/-! ## Honest rows -/

/-- The seconds over `warn` in some scans, evaluated scan by scan. -/
def secondsUnder (warn : ℚ) (timer : Timer) (scans : List Scan) : ℚ := (scans.map (overSeconds warn timer)).sum

/-- The seconds a row would carry had its scans been evaluated under `warn`. -/
def PayloadRow.secondsAt (row : PayloadRow) (warn : ℚ) (timer : Timer) : Int :=
  pyRound (max 0 (secondsUnder warn timer row.scans))

/-- **The seconds of a row were measured under the threshold it reports.** -/
def PayloadRow.Honest (row : PayloadRow) : Prop := ∀ timer, row.seconds timer = row.secondsAt row.ppsWarnThreshold timer

def Pending.Honest (q : Pending) : Prop := ∀ row ∈ q.payload.interfaces, row.Honest

/-- What the PPS rule would be fed for a VM had all its scans been evaluated under the policy's threshold. -/
def measuredSeconds (policy : PpsPolicy) (interfaces : List PayloadRow) (vm : String) (timer : Timer) : Int :=
  ((vmRows interfaces vm).map fun row => max 0 (row.secondsAt policy.networkPps timer)).foldr max 0

/-- What was fed, if anything, was measured under the policy's threshold. -/
def FedHonestly (policy : PpsPolicy) (interfaces : List PayloadRow) : Prop :=
  ∀ vm timer, fedSeconds policy interfaces vm timer = 0 ∨
    fedSeconds policy interfaces vm timer = measuredSeconds policy interfaces vm timer

/-- **Threshold honesty of a state**: of every payload sent and of everything the monitor evaluated. -/
structure ThresholdHonest (s : World) : Prop where
  sent : ∀ m ∈ s.sent, m.Honest
  fed : ∀ entry ∈ s.evaluated, FedHonestly entry.1 entry.2.interfaces

/-- Two thresholds judge every scan alike: whether it is over, under each timer. -/
def Alike (a b : ℚ) (scans : List Scan) : Prop :=
  ∀ timer, ∀ scan ∈ scans, overSeconds a timer scan = overSeconds b timer scan

theorem Alike.secondsUnder {a b : ℚ} {scans : List Scan} (h : Alike a b scans) (timer : Timer) :
    secondsUnder a timer scans = secondsUnder b timer scans := by
  unfold Agent.secondsUnder
  rw [List.map_congr_left (h timer)]

/-! ## Windows -/

/-- The seconds of a window are those of its scans under `warn`. -/
def NetWindow.Measured (warn : ℚ) (w : NetWindow) : Prop :=
  ∀ iface timer, (w iface).seconds timer = secondsUnder warn timer (w iface).scans

theorem measured_empty (warn : ℚ) : NetWindow.empty.Measured warn := fun _ _ => rfl

theorem NetWindow.Measured.merge {warn : ℚ} {left right : NetWindow} (hl : left.Measured warn)
    (hr : right.Measured warn) : (mergeNetworkWindows left right).Measured warn := by
  intro iface timer
  simp only [mergeNetworkWindows, secondsUnder, List.map_append, List.sum_append]
  rw [hl iface timer, hr iface timer]
  rfl

theorem NetWindow.Measured.congr {a b : ℚ} {w : NetWindow} (h : w.Measured a)
    (halike : ∀ iface, Alike a b (w iface).scans) : w.Measured b := by
  intro iface timer
  rw [h iface timer, (halike iface).secondsUnder]

/-- One scan adds its own seconds. -/
theorem Summary.record_measured {warn : ℚ} {summary : Summary} (scan : Scan)
    (h : ∀ timer, summary.seconds timer = secondsUnder warn timer summary.scans) (timer : Timer) :
    (summary.record warn scan).seconds timer = secondsUnder warn timer (summary.record warn scan).scans := by
  unfold Summary.record
  split
  · simp only [secondsUnder, List.map_append, List.sum_append, List.map_singleton, List.sum_singleton]
    rw [h timer]
    rfl
  · exact h timer

theorem NetWindow.Measured.scanIface {warn : ℚ} {active : NetWindow} (h : active.Measured warn)
    (entry : String × Scan) : NetWindow.Measured warn (scanIface warn active entry) := by
  intro iface timer
  unfold Agent.scanIface
  split
  · exact Summary.record_measured entry.2 (h iface) timer
  · exact h iface timer

/-- The sampler measures under the threshold in force. -/
theorem NetWindow.Measured.sample {warn : ℚ} {active : NetWindow} (h : active.Measured warn)
    (scans : List (String × Scan)) (stale : List String) : (sampleWindow warn scans stale active).Measured warn := by
  have hscanned : NetWindow.Measured warn (scans.foldl (Agent.scanIface warn) active) := by
    induction scans generalizing active with
    | nil => exact h
    | cons entry rest ih => exact ih (h.scanIface entry)
  intro iface timer
  unfold sampleWindow
  split
  · rfl
  · exact hscanned iface timer

/-- A hydrated row is honest when the reported threshold judges the window's scans like the one in force. -/
theorem hydrate_honest {warn : ℚ} {window : NetWindow} (h : window.Measured warn)
    (hround : ∀ iface, Alike warn (round3 warn) (window iface).scans) (interval : Int) (rows : List NetRow) :
    ∀ row ∈ hydrateNetworkRows warn window interval rows, row.Honest := by
  intro row hrow timer
  obtain ⟨source, -, rfl⟩ := List.mem_map.mp hrow
  simp only [PayloadRow.secondsAt]
  rw [h source.iface timer, (hround source.iface).secondsUnder]

/-! ## The invariant of one agent -/

/-- The memory of a running agent: both windows were measured under the threshold in force, which is the one its
    runtime restores. -/
structure Process.Measured (defaultWarn : ℚ) (p : Process) : Prop where
  warn : p.ppsWarn = p.runtime.threshold defaultWarn
  active : p.active.Measured p.ppsWarn
  carry : p.runtime.carry.Measured p.ppsWarn

/-- The carried window on disk was measured under the threshold a restart restores. -/
def Disk.Measured (defaultWarn : ℚ) (disk : Disk) : Prop :=
  disk.runtime.carry.Measured (disk.runtime.threshold defaultWarn)

/-- **The steps that keep thresholds honest.** A configuration is applied while no outstanding scan is judged
    otherwise under it; the threshold that is reported, rounded to three places, judges the carried scans like the one
    in force; and a payload is evaluated under a policy that judges its scans like the threshold it reports, whenever
    the monitor's tolerance takes the two for one. -/
def Judged (s : World) : Label → Prop
  | .agent n (.run (.answer w)) => ∀ p ∈ (s.agents n).process, ∀ iface,
      Alike p.ppsWarn (max 0 w) (p.active iface).scans ∧ Alike p.ppsWarn (max 0 w) (p.runtime.carry iface).scans
  | .agent n (.run (.collect _)) => ∀ p ∈ (s.agents n).process, ∀ iface,
      Alike p.ppsWarn (round3 p.ppsWarn) (p.runtime.carry iface).scans
  | .deliver i _ => ∀ m ∈ s.sent[i]?, ∀ row ∈ m.payload.interfaces,
      s.policy.networkEnabled = true → s.policy.matches row = true →
      Alike row.ppsWarnThreshold s.policy.networkPps row.scans
  | _ => True

variable {n : NodeName} {defaultWarn : ℚ} {disk disk' : Disk} {p : Process}

theorem Process.Measured.rotate (h : p.Measured defaultWarn) (scans : List (String × Scan)) (stale : List String) :
    (p.rotate scans stale).Measured defaultWarn where
  warn := h.warn
  active := measured_empty _
  carry := h.carry.merge (h.active.sample scans stale)

theorem Process.Measured.saved (h : p.Measured defaultWarn) (state : MetricState) :
    Disk.Measured defaultWarn { state, runtime := p.runtime } := by
  unfold Disk.Measured
  rw [← h.warn]
  exact h.carry

theorem Process.step_measured {op : Op} {next : Option Process} (hdisk : disk.Measured defaultWarn)
    (hp : p.Measured defaultWarn)
    (hanswer : ∀ w, op = .answer w → ∀ iface,
      Alike p.ppsWarn (max 0 w) (p.active iface).scans ∧ Alike p.ppsWarn (max 0 w) (p.runtime.carry iface).scans)
    (hstep : p.step n disk op = some (disk', next)) :
    disk'.Measured defaultWarn ∧ ∀ p', next = some p' → p'.Measured defaultWarn := by
  unfold Process.step at hstep
  cases op <;> dsimp only at hstep
  case sample scans stale =>
    cases hstep
    refine ⟨hdisk, ?_⟩
    rintro p' ⟨rfl⟩
    exact ⟨hp.warn, hp.active.sample scans stale, hp.carry⟩
  case rotate scans stale =>
    split at hstep <;> cases hstep
    refine ⟨hdisk, ?_⟩
    rintro p' ⟨rfl⟩
    exact hp.rotate scans stale
  case answer w =>
    split at hstep <;> cases hstep
    refine ⟨hdisk, ?_⟩
    rintro p' ⟨rfl⟩
    have halike := hanswer w rfl
    refine ⟨?_, hp.active.congr fun iface => (halike iface).1, hp.carry.congr fun iface => (halike iface).2⟩
    exact (max_eq_right (le_max_left 0 w)).symm
  case collect reading =>
    split at hstep <;> cases hstep
    refine ⟨hdisk, ?_⟩
    rintro p' ⟨rfl⟩
    exact ⟨hp.warn, hp.active, measured_empty _⟩
  case stop scans stale =>
    split at hstep <;> cases hstep
    refine ⟨(hp.rotate scans stale).saved disk.state, ?_⟩
    rintro p' ⟨⟩
  case clearPending =>
    split at hstep <;> cases hstep
    have hcleared : Process.Measured defaultWarn { p with runtime := { p.runtime with pending := none } } :=
      ⟨hp.warn, hp.active, hp.carry⟩
    refine ⟨hcleared.saved disk.state, ?_⟩
    rintro p' ⟨rfl⟩
    exact ⟨hp.warn, hp.active, hp.carry⟩
  case saveRotated | saveConfig | savePending =>
    split at hstep <;> cases hstep
    refine ⟨hp.saved disk.state, ?_⟩
    rintro p' ⟨rfl⟩
    exact ⟨hp.warn, hp.active, hp.carry⟩
  case post | noAnswer | saveState =>
    split at hstep <;> cases hstep
    refine ⟨hdisk, ?_⟩
    rintro p' ⟨rfl⟩
    exact ⟨hp.warn, hp.active, hp.carry⟩

/-- **The invariant of an agent**: its windows are measured under the threshold in force, and what is pending is
    honest. -/
structure AgentState.Honest (defaultWarn : ℚ) (a : AgentState) : Prop where
  disk : a.disk.Measured defaultWarn
  process : ∀ p, a.process = some p → p.Measured defaultWarn
  durable : ∀ q, a.disk.runtime.pending = some q → q.Honest
  memory : ∀ p q, a.process = some p → p.runtime.pending = some q → q.Honest

theorem Process.Measured.newPending (h : p.Measured defaultWarn) {reading : Reading}
    (hround : ∀ iface, Alike p.ppsWarn (round3 p.ppsWarn) (p.runtime.carry iface).scans) :
    (p.newPending n reading).Honest :=
  hydrate_honest h.carry hround _ _

theorem AgentState.Honest.posted {a : AgentState} (h : a.Honest defaultWarn) (act : Act) :
    ∀ q ∈ posted a act, q.Honest := by
  unfold Agent.posted
  split
  · intro q hq
    obtain ⟨p, hproc, hpending⟩ := Option.bind_eq_some_iff.mp (Option.mem_toList.mp hq)
    exact h.memory p q hproc hpending
  · exact fun q hq => absurd hq List.not_mem_nil

theorem AgentState.Honest.step {s : World} {a' : AgentState} {act : Act} (h : (s.agents n).Honest defaultWarn)
    (hjudged : Judged s (.agent n act)) (hstep : (s.agents n).step n defaultWarn act = some a') :
    a'.Honest defaultWarn := by
  cases act with
  | boot =>
      dsimp only [AgentState.step] at hstep
      split at hstep <;> cases hstep
      refine ⟨h.disk, ?_, h.durable, ?_⟩
      · rintro p ⟨rfl⟩
        exact ⟨rfl, measured_empty _, h.disk⟩
      · rintro p q ⟨rfl⟩ hq
        exact h.durable q hq
  | crash =>
      cases hstep
      exact ⟨h.disk, by rintro p ⟨⟩, h.durable, by rintro p q ⟨⟩⟩
  | run op =>
      obtain ⟨p, hproc, hmap⟩ := Option.bind_eq_some_iff.mp hstep
      obtain ⟨⟨disk', next⟩, hop, rfl⟩ := Option.map_eq_some_iff.mp hmap
      have hp := h.process p hproc
      obtain ⟨hdisk', hnext⟩ := Process.step_measured h.disk hp
        (by
          rintro w rfl
          exact hjudged p hproc)
        hop
      obtain ⟨hdurable, hmemory⟩ := Process.step_pending hop
      refine ⟨hdisk', hnext, ?_, ?_⟩
      · intro q hq
        exact (hdurable q hq).elim (h.durable q) (h.memory p q hproc)
      · intro p' q hp' hq
        rcases hmemory p' q hp' hq with hold | ⟨reading, rfl, rfl⟩
        · exact h.memory p q hproc hold
        · exact hp.newPending (hjudged p hproc)

/-! ## The invariant of the system -/

/-- An honest payload evaluated under a policy that judges its scans alike is fed honestly. -/
theorem fed_honestly {policy : PpsPolicy} {q : Pending} (hq : q.Honest)
    (hjudged : ∀ row ∈ q.payload.interfaces, policy.networkEnabled = true → policy.matches row = true →
      Alike row.ppsWarnThreshold policy.networkPps row.scans) : FedHonestly policy q.payload.interfaces := by
  intro vm timer
  have hvm : ∀ row ∈ vmRows q.payload.interfaces vm, row ∈ q.payload.interfaces ∧ row.vmUuid = vm := by
    simp [vmRows]
  unfold fedSeconds measuredSeconds
  by_cases hsync : (policy.networkEnabled && ppsSynced policy q.payload.interfaces vm) = true
  · right
    obtain ⟨henabled, hsynced⟩ := Bool.and_eq_true_iff.mp hsync
    have hmatch := List.all_eq_true.mp (Bool.and_eq_true_iff.mp hsynced).2
    congr 1
    apply List.map_congr_left
    intro row hrow
    obtain ⟨hmem, rfl⟩ := hvm row hrow
    have hsame : row.seconds timer = row.secondsAt policy.networkPps timer := by
      rw [hq row hmem timer]
      unfold PayloadRow.secondsAt
      rw [(hjudged row hmem henabled (hmatch row hrow)).secondsUnder]
    rw [normalizedSeconds, if_pos hsync, hsame]
  · left
    have hzero : ∀ row ∈ vmRows q.payload.interfaces vm,
        max 0 (normalizedSeconds policy q.payload.interfaces row timer) = (fun _ => (0 : Int)) row := by
      intro row hrow
      obtain ⟨-, rfl⟩ := hvm row hrow
      rw [normalizedSeconds, if_neg hsync]
      rfl
    rw [List.map_congr_left hzero]
    induction vmRows q.payload.interfaces vm with
    | nil => rfl
    | cons row rest ih =>
        show max 0 _ = 0
        rw [ih]
        rfl

variable {d : Deployment}

structure HonestInv (d : Deployment) (s : World) : Prop where
  agents : ∀ n, (s.agents n).Honest (d.defaultWarn n)
  honest : ThresholdHonest s

theorem honestInv_init (policy : PpsPolicy) : HonestInv d (World.init policy) where
  agents n := ⟨measured_empty _, by rintro p ⟨⟩, by rintro q ⟨⟩, by rintro p q ⟨⟩⟩
  honest := ⟨fun m hm => absurd hm List.not_mem_nil, fun entry hentry => absurd hentry List.not_mem_nil⟩

theorem HonestInv.step {s s' : World} {label : Label} (hinv : HonestInv d s) (hjudged : Judged s label)
    (hstep : s.step d label = some s') : HonestInv d s' := by
  cases label with
  | agent m act =>
      dsimp only [World.step] at hstep
      split at hstep
      case isFalse => cases hstep
      obtain ⟨a', ha', rfl⟩ := Option.map_eq_some_iff.mp hstep
      refine ⟨?_, ⟨?_, hinv.honest.fed⟩⟩
      · intro n
        dsimp only
        by_cases hn : n = m
        · subst hn
          rw [Function.update_self]
          exact (hinv.agents n).step hjudged ha'
        · rw [Function.update_of_ne hn]
          exact hinv.agents n
      · intro q hq
        rcases List.mem_append.mp hq with hq | hq
        · exact hinv.honest.sent q hq
        · exact (hinv.agents m).posted act q hq
  | deliver i now =>
      obtain ⟨m, hm, rfl⟩ := Option.map_eq_some_iff.mp hstep
      have hmsent := List.mem_of_getElem? hm
      unfold World.receive
      dsimp only
      split
      · exact ⟨hinv.agents, hinv.honest.sent, hinv.honest.fed⟩
      · refine ⟨hinv.agents, hinv.honest.sent, ?_⟩
        intro entry hentry
        rcases List.mem_append.mp hentry with hold | hnew
        · exact hinv.honest.fed entry hold
        · obtain rfl := List.mem_singleton.mp hnew
          exact fed_honestly (hinv.honest.sent m hmsent) (hjudged m hm)
  | respond node time =>
      dsimp only [World.step] at hstep
      split at hstep <;> cases hstep
      exact ⟨hinv.agents, hinv.honest.sent, hinv.honest.fed⟩
  | setPolicy policy =>
      cases hstep
      exact ⟨hinv.agents, hinv.honest.sent, hinv.honest.fed⟩

/-- **Thresholds stay honest while no outstanding scan is judged anew.** In every state of a run whose steps are all
    `Judged`, each payload sent carries seconds measured under the threshold it reports, and whatever the monitor's
    check fed was measured under the policy it was evaluated under. -/
theorem threshold_honest {s : World} (h : (system d).Reachable Judged s) : ThresholdHonest s := by
  have hinv : HonestInv d s := by
    apply h.invariant
    · rintro s ⟨policy, rfl⟩
      exact honestInv_init policy
    · intro s label s' _ hinv hok hstep
      exact hinv.step hok hstep
  exact hinv.honest

/-- The steps under which every threshold stays the same: the simplest runs of that kind. -/
def Unchanged (s : World) : Label → Prop
  | .agent n (.run (.answer w)) => ∀ p ∈ (s.agents n).process, p.ppsWarn = max 0 w
  | .agent n (.run (.collect _)) => ∀ p ∈ (s.agents n).process, p.ppsWarn = round3 p.ppsWarn
  | .deliver i _ => ∀ m ∈ s.sent[i]?, ∀ row ∈ m.payload.interfaces, row.ppsWarnThreshold = s.policy.networkPps
  | _ => True

instance (s : World) : (label : Label) → Decidable (Unchanged s label)
  | .agent n (.run (.answer w)) => inferInstanceAs (Decidable (∀ p ∈ (s.agents n).process, p.ppsWarn = max 0 w))
  | .agent n (.run (.collect _)) =>
      inferInstanceAs (Decidable (∀ p ∈ (s.agents n).process, p.ppsWarn = round3 p.ppsWarn))
  | .deliver i _ =>
      inferInstanceAs (Decidable (∀ m ∈ s.sent[i]?, ∀ row ∈ m.payload.interfaces, row.ppsWarnThreshold = s.policy.networkPps))
  | .agent _ (.run (.sample ..)) | .agent _ (.run (.rotate ..)) | .agent _ (.run .saveRotated) | .agent _ (.run .post)
  | .agent _ (.run .noAnswer) | .agent _ (.run .saveConfig) | .agent _ (.run .saveState)
  | .agent _ (.run .clearPending) | .agent _ (.run .savePending) | .agent _ (.run (.stop ..))
  | .agent _ .boot | .agent _ .crash | .respond .. | .setPolicy .. => .isTrue trivial

theorem alike_of_eq {a b : ℚ} (h : a = b) (scans : List Scan) : Alike a b scans := by
  subst h
  exact fun _ _ _ => rfl

theorem Unchanged.judged {s : World} {label : Label} (h : Unchanged s label) : Judged s label := by
  unfold Judged
  split
  · exact fun p hp iface => ⟨alike_of_eq (h p hp) _, alike_of_eq (h p hp) _⟩
  · exact fun p hp iface => alike_of_eq (h p hp) _
  · exact fun m hm row hrow _ _ => alike_of_eq (h m hm row hrow) _
  · trivial

theorem strip_vm1 : strip "vm1" = "vm1" := by decide

/-- One VM with one interface. -/
def Reading.oneNic (now : Int) : Reading :=
  { now, heavyCollectionSkipped := false, inventoryComplete := true
    nics := [⟨"vm1", "tap0", "br0", some 0, strip_vm1⟩] }

/-- Fifteen seconds at 250000 received packets a second. -/
def Scan.at250k : Scan := ⟨15, 3750000, 0⟩

/-- A cycle from the scan before it to the request of its payload, with nothing pending. -/
def cycleSteps (now : Int) : List Label :=
  [.run (.sample [("tap0", .at250k)] []), .run (.rotate [] []), .run .saveRotated, .run (.collect (.oneNic now)),
    .run .savePending, .run .post].map (.agent NodeName.sample)

theorem threshold_honest_cycle : ∃ s,
    (system Deployment.sample).Reachable Judged s ∧ s.evaluated.length = 1 ∧ ThresholdHonest s := by
  have hrun : (((system Deployment.sample).exec Unchanged (World.init PpsPolicy.sample)
      ([.agent NodeName.sample .boot] ++ cycleSteps 72000 ++ [.deliver 0 72001])).map
      fun s => s.evaluated.length) = some 1 := by decide +kernel
  obtain ⟨s, hexec, hlength⟩ := Option.map_eq_some_iff.mp hrun
  have hreach : (system Deployment.sample).Reachable Unchanged s := .exec (.init ⟨_, rfl⟩) hexec
  have hjudged := hreach.mono fun _ _ => Unchanged.judged
  exact ⟨s, hjudged, hlength, threshold_honest hjudged⟩

/-- The policy after its threshold was raised. -/
def PpsPolicy.raised : PpsPolicy := ⟨true, 300000, by norm_num, by norm_num⟩

/-- A payload stays pending over a change of the threshold. The scan at 250000 packets a second is judged under
    200000, then the retry is answered, and the next payload reports 300000. -/
def raisedRun : List Label :=
  [.agent NodeName.sample .boot] ++
  [.run (.rotate [] []), .run .saveRotated, .run (.collect (.oneNic 72000)), .run .savePending, .run .post,
    .run .noAnswer, .run (.sample [("tap0", .at250k)] []), .run (.rotate [] []), .run .saveRotated,
    .run .post].map (.agent NodeName.sample) ++
  [.setPolicy .raised, .deliver 1 72301, .respond "node1" 72000] ++
  [.run (.answer 300000), .run .saveConfig, .run .saveState, .run .clearPending, .run (.collect (.oneNic 72302)),
    .run .savePending, .run .post].map (.agent NodeName.sample) ++
  [.deliver 2 72303]

/-- The row reports 15 seconds over 300000, and the monitor feeds them; there were none. -/
theorem seconds_dishonest : ∃ s, (system Deployment.sample).Reachable System.AnyStep s ∧ ¬ ThresholdHonest s ∧
    (∃ m ∈ s.sent, ¬ m.Honest) ∧ ∃ entry ∈ s.evaluated, ¬ FedHonestly entry.1 entry.2.interfaces := by
  have hrun : (((system Deployment.sample).exec System.AnyStep (World.init PpsPolicy.sample) raisedRun).map fun s =>
      (s.sent[2]?.map fun m => m.payload.interfaces.map fun row =>
        (row.seconds .rxPps, row.secondsAt row.ppsWarnThreshold .rxPps),
      s.evaluated[1]?.map fun entry => (fedSeconds entry.1 entry.2.interfaces "vm1" .rxPps,
        measuredSeconds entry.1 entry.2.interfaces "vm1" .rxPps))) =
      some (some [(15, 0)], some (15, 0)) := by decide +kernel
  obtain ⟨s, hexec, hvalues⟩ := Option.map_eq_some_iff.mp hrun
  obtain ⟨hsent, hevaluated⟩ := Prod.mk.inj hvalues
  obtain ⟨m, hm, hrows⟩ := Option.map_eq_some_iff.mp hsent
  obtain ⟨entry, hentry, hfed⟩ := Option.map_eq_some_iff.mp hevaluated
  obtain ⟨hfed15, hmeasured0⟩ := Prod.mk.inj hfed
  have hmem := List.mem_of_getElem? hm
  have hdishonest : ¬ m.Honest := by
    intro h
    obtain ⟨row, hrow, hpair⟩ := List.mem_map.mp (hrows ▸ List.mem_singleton_self (15, 0))
    obtain ⟨h15, h0⟩ := Prod.mk.inj hpair
    have := h row hrow .rxPps
    rw [h15, h0] at this
    cases this
  have hunfed : ¬ FedHonestly entry.1 entry.2.interfaces := by
    intro h
    rcases h "vm1" .rxPps with hzero | hsame
    · rw [hfed15] at hzero
      cases hzero
    · rw [hfed15, hmeasured0] at hsame
      cases hsame
  exact ⟨s, .exec (.init ⟨_, rfl⟩) hexec, fun h => hdishonest (h.sent m hmem), ⟨m, hmem, hdishonest⟩,
    entry, List.mem_of_getElem? hentry, hunfed⟩

end VirtInfra.Agent
