import VirtInfra.Agent.Metrics
import VirtInfra.Consumption.Ingest
import VirtInfra.Lib.Transition

/-!
# `Delivery` — agents and the monitor as one system

An agent keeps two files: the metric state it last committed, and `runtime.json` with the pending payload, the carried
window and the monitor's configuration. `run_push_cycle` is broken up at every durable write, every send and every
response, so that a crash can fall between any two of them. Requests stay in flight for ever: a request that is
never delivered is lost, one that is delivered twice is duplicated, and the same goes for responses.

The monitor takes a payload as the consumption model has it (`ingest`), and in the same transaction evaluates the
packet rates under the abuse policy it reads.
-/

namespace VirtInfra.Agent

open Lib Python Consumption

/-! ## What the agent keeps -/

/-- `runtime["pending"]`. `reading` is a ghost: what the host showed when the payload was collected. -/
structure Pending where
  payload : Payload
  stateAfter : MetricState
  reading : Reading

/-- `runtime.json`; `monitorConfig` is the `pps_warn` of the last configuration the monitor returned. -/
structure Runtime where
  pending : Option Pending
  carry : NetWindow
  monitorConfig : Option ℚ

/-- The two files. Both are replaced atomically. -/
structure Disk where
  state : MetricState
  runtime : Runtime

/-- `stage=retry` and `stage=current` of the agent's log: which of the two `send_pending` calls of a cycle runs. -/
inductive Stage | retry | current
  deriving DecidableEq, Repr

/-- Where `run_push_cycle` stands. -/
inductive Phase
  | idle
  | rotated
  | sending (stage : Stage)
  | waiting (stage : Stage)
  | answered (stage : Stage)
  | configured (stage : Stage)
  | stateSaved (stage : Stage)
  | collecting
  | collected
  deriving DecidableEq, Repr

/-- The memory of a running agent: `runtime`, `committed_state`, `PPS_WARN` and the sampler's open window. -/
structure Process where
  runtime : Runtime
  committed : MetricState
  ppsWarn : ℚ
  active : NetWindow
  phase : Phase

structure AgentState where
  disk : Disk
  process : Option Process

/-- An agent that never ran. -/
def AgentState.fresh : AgentState :=
  { disk := ⟨MetricState.empty, { pending := none, carry := NetWindow.empty, monitorConfig := none }⟩
    process := none }

/-! ## One step of an agent -/

/-- The steps of a running agent. `sample` is the sampler thread's and can come at any time. -/
inductive Op
  | sample (scans : List (String × Scan)) (stale : List String)
  | rotate (scans : List (String × Scan)) (stale : List String)
  | saveRotated
  | post
  | noAnswer
  | answer (ppsWarn : ℚ)
  | saveConfig
  | saveState
  | clearPending
  | collect (reading : Reading)
  | savePending
  | stop (scans : List (String × Scan)) (stale : List String)

/-- The threshold in force under a runtime: `restore_monitor_config`, over the configured default. -/
def Runtime.threshold (defaultWarn : ℚ) (r : Runtime) : ℚ := r.monitorConfig.elim defaultWarn (max 0)

/-- The start of `main`: `load_runtime`, `restore_monitor_config`, `load_state`, a new sampler. -/
def Disk.boot (defaultWarn : ℚ) (disk : Disk) : Process :=
  { runtime := disk.runtime, committed := disk.state, ppsWarn := disk.runtime.threshold defaultWarn
    active := NetWindow.empty, phase := .idle }

/-- `sampler.rotate()` and the merge of the frozen window into the carry; nothing is durable yet. -/
def Process.rotate (p : Process) (scans : List (String × Scan)) (stale : List String) : Process :=
  { p with
    runtime := { p.runtime with
      carry := mergeNetworkWindows p.runtime.carry (sampleWindow p.ppsWarn scans stale p.active) }
    active := NetWindow.empty
    phase := .rotated }

/-- `apply_monitor_config` before its `save_runtime`. -/
def Process.applyMonitorConfig (p : Process) (ppsWarn : ℚ) (stage : Stage) : Process :=
  { p with
    ppsWarn := max 0 ppsWarn
    runtime := { p.runtime with monitorConfig := some (max 0 ppsWarn) }
    phase := .answered stage }

/-- What a collection makes pending. -/
def Process.newPending (n : NodeName) (p : Process) (reading : Reading) : Pending :=
  let (payload, stateAfter) := collectCyclePayload n p.ppsWarn p.committed p.runtime.carry reading
  { payload, stateAfter, reading }

/-- `collect_cycle_payload`, with the payload made pending and the carry emptied in memory. -/
def Process.collect (n : NodeName) (p : Process) (reading : Reading) : Process :=
  { p with
    runtime := { p.runtime with pending := some (p.newPending n reading), carry := NetWindow.empty }
    phase := .collected }

/-- One step of a running agent, with what it leaves on disk; a process that ended is `none`. -/
def Process.step (n : NodeName) (disk : Disk) (p : Process) : Op → Option (Disk × Option Process)
  | .sample scans stale => some (disk, some { p with active := sampleWindow p.ppsWarn scans stale p.active })
  | .rotate scans stale =>
      match p.phase with
      | .idle => some (disk, some (p.rotate scans stale))
      | _ => none
  | .saveRotated =>
      match p.phase with
      | .rotated => some
          ({ disk with runtime := p.runtime },
            some { p with phase := if p.runtime.pending.isSome then .sending .retry else .collecting })
      | _ => none
  | .post =>
      match p.phase with
      | .sending stage => some (disk, some { p with phase := .waiting stage })
      | _ => none
  -- the request raised or timed out: the payload is retained and the cycle ends
  | .noAnswer =>
      match p.phase with
      | .waiting _ => some (disk, some { p with phase := .idle })
      | _ => none
  | .answer ppsWarn =>
      match p.phase with
      | .waiting stage => some (disk, some (p.applyMonitorConfig ppsWarn stage))
      | _ => none
  | .saveConfig =>
      match p.phase with
      | .answered stage => some ({ disk with runtime := p.runtime }, some { p with phase := .configured stage })
      | _ => none
  | .saveState =>
      match p.phase, p.runtime.pending with
      | .configured stage, some pending =>
          some ({ disk with state := pending.stateAfter }, some { p with phase := .stateSaved stage })
      | _, _ => none
  | .clearPending =>
      match p.phase, p.runtime.pending with
      | .stateSaved stage, some pending =>
          let runtime := { p.runtime with pending := none }
          some
            ({ disk with runtime },
              some { p with
                runtime, committed := pending.stateAfter
                phase := if stage = .retry then .collecting else .idle })
      | _, _ => none
  | .collect reading =>
      match p.phase with
      | .collecting => some (disk, some (p.collect n reading))
      | _ => none
  | .savePending =>
      match p.phase with
      | .collected => some ({ disk with runtime := p.runtime }, some { p with phase := .sending .current })
      | _ => none
  | .stop scans stale =>
      match p.phase with
      | .idle => some ({ disk with runtime := (p.rotate scans stale).runtime }, none)
      | _ => none

/-- Where the pending payload of a step comes from: it was pending before, or it is newly collected. -/
theorem Process.step_pending {n : NodeName} {disk disk' : Disk} {p : Process} {op : Op} {next : Option Process}
    (hstep : p.step n disk op = some (disk', next)) :
    (∀ q, disk'.runtime.pending = some q → disk.runtime.pending = some q ∨ p.runtime.pending = some q) ∧
    ∀ p' q, next = some p' → p'.runtime.pending = some q →
      p.runtime.pending = some q ∨ ∃ reading, op = .collect reading ∧ q = p.newPending n reading := by
  unfold Process.step at hstep
  cases op <;> dsimp only at hstep
  case sample =>
    cases hstep
    exact ⟨fun q hq => .inl hq, by rintro p' q ⟨rfl⟩ hq; exact .inl hq⟩
  case collect reading =>
    split at hstep <;> cases hstep
    exact ⟨fun q hq => .inl hq, by rintro p' q ⟨rfl⟩ ⟨rfl⟩; exact .inr ⟨reading, rfl, rfl⟩⟩
  case clearPending =>
    split at hstep <;> cases hstep
    exact ⟨by rintro q ⟨⟩, by rintro p' q ⟨rfl⟩ ⟨⟩⟩
  case stop =>
    split at hstep <;> cases hstep
    exact ⟨fun q hq => .inr hq, by rintro p' q ⟨⟩⟩
  case saveRotated | saveConfig | savePending =>
    split at hstep <;> cases hstep
    exact ⟨fun q hq => .inr hq, by rintro p' q ⟨rfl⟩ hq; exact .inl hq⟩
  case rotate | post | noAnswer | answer | saveState =>
    split at hstep <;> cases hstep
    exact ⟨fun q hq => .inl hq, by rintro p' q ⟨rfl⟩ hq; exact .inl hq⟩

inductive Act
  | boot
  | crash
  | run (op : Op)

def AgentState.step (n : NodeName) (defaultWarn : ℚ) (a : AgentState) : Act → Option AgentState
  | .boot => if a.process.isNone then some { a with process := some (a.disk.boot defaultWarn) } else none
  | .crash => some { a with process := none }
  | .run op => a.process.bind fun p => (p.step n a.disk op).map fun (disk, process) => { disk, process }

/-- The payload a running agent is sending. -/
def AgentState.pending (a : AgentState) : Option Pending := a.process.bind fun p => p.runtime.pending

/-! ## The monitor -/

/-- The PPS rule of the abuse policy, as `get_abuse_settings` clamps it. -/
structure PpsPolicy where
  networkEnabled : Bool
  networkPps : ℚ
  lower : 1000 ≤ networkPps
  upper : networkPps ≤ 100000000

/-- The `pps_warn` of `get_agent_runtime_config`. -/
def PpsPolicy.ppsWarn (policy : PpsPolicy) : ℚ := if policy.networkEnabled then policy.networkPps else 0

/-- The interface dict of a row, as `/push` reads it. -/
def PayloadRow.item (row : PayloadRow) : IfaceItem :=
  { vmUuid := row.vmUuid, bridge := row.bridge, iface := row.iface
    intervalSeconds := some row.intervalSeconds
    rxDelta := some row.deltas.rx, txDelta := some row.deltas.tx
    rxPacketsDelta := some row.deltas.rxPackets, txPacketsDelta := some row.deltas.txPackets
    rxDropDelta := some row.deltas.rxDrop, txDropDelta := some row.deltas.txDrop
    rxErrorDelta := some row.deltas.rxError, txErrorDelta := some row.deltas.txError }

/-- The request that carries a payload; the host's physical interfaces, which no VM row depends on, are left out. -/
def Payload.request (p : Payload) : PushRequest :=
  { time := some p.time, node := p.node.val, interval := some p.interval
    interfaces := some (p.interfaces.map fun row => some row.item), physicalInterfaces := [] }

/-- The counters staged rows add for one interface of a VM. -/
def stagedTotal (vm iface : String) (rows : List StageRow) : Counters :=
  ((rows.filter fun row => row.vmUuid = vm && row.iface = iface).map StageRow.deltas).sum

/-! ## The system -/

structure World where
  agents : NodeName → AgentState
  /-- The requests posted so far; on the wire each is its payload. -/
  sent : List Pending
  /-- The responses sent so far: the payload's node and time, and the `pps_warn` returned. -/
  responses : List (String × Int × ℚ)
  monitor : Monitor
  /-- The deltas applied so far, by node, VM and interface. -/
  applied : String → String → String → Counters
  policy : PpsPolicy
  /-- The payloads accepted so far, in order (ghost). -/
  accepted : List Pending
  /-- The payloads evaluated so far, each with the policy it was evaluated under (ghost). -/
  evaluated : List (PpsPolicy × Payload)

inductive Label
  | agent (n : NodeName) (act : Act)
  | deliver (i : Nat) (receivedNow : Int)
  | respond (node : String) (time : Int)
  | setPolicy (policy : PpsPolicy)

/-- What the deployment fixes: the monitor's time zone and its bound on future times, and the agents' `PPS_WARN`. -/
structure Deployment where
  tzOffset : Int
  maxFutureSeconds : Int
  defaultWarn : NodeName → ℚ

/-- The configuration of the endpoint; no operational reset has set an acceptance epoch. -/
def Deployment.config (d : Deployment) : Config := { tzOffset := d.tzOffset, maxFutureSeconds := d.maxFutureSeconds }

variable (d : Deployment)

/-- The transaction of an accepted payload. -/
def World.accept (s : World) (m : Pending) (sample : Sample) : World :=
  { s with
    applied := fun node vm iface =>
      if node = sample.node then s.applied node vm iface + stagedTotal vm iface (sample.stage d.tzOffset)
      else s.applied node vm iface
    accepted := s.accepted ++ [m]
    evaluated := s.evaluated ++ [(s.policy, m.payload)] }

/-- `/push` on a delivered request. -/
def World.receive (s : World) (receivedNow : Int) (m : Pending) : World :=
  let after := { s with monitor := (ingest d.config receivedNow m.payload.request s.monitor).1 }
  match acceptedSample d.config receivedNow m.payload.request s.monitor with
  | none => after
  | some sample => after.accept d m sample

/-- What an agent's step posts. -/
def posted (a : AgentState) : Act → List Pending
  | .run .post => a.pending.toList
  | _ => []

/-- An agent takes an answer only when the monitor sent one for its payload. -/
def World.answers (s : World) (a : AgentState) : Act → Bool
  | .run (.answer ppsWarn) =>
      match a.pending with
      | some m => s.responses.contains (m.payload.node.val, m.payload.time, ppsWarn)
      | none => false
  | _ => true

def World.step (s : World) : Label → Option World
  | .agent n act =>
      if s.answers (s.agents n) act then
        ((s.agents n).step n (d.defaultWarn n) act).map fun agent =>
          { s with agents := Function.update s.agents n agent, sent := s.sent ++ posted (s.agents n) act }
      else none
  | .deliver i receivedNow => s.sent[i]?.map fun m => s.receive d receivedNow m
  -- a response is written from the policy stored at that moment, for a payload that has its receipt
  | .respond node time =>
      if s.monitor.receipts.any fun r => r.node = node && r.pushTime = time then
        some { s with responses := s.responses ++ [(node, time, s.policy.ppsWarn)] }
      else none
  | .setPolicy policy => some { s with policy }

/-- Before anything happened, under some policy. -/
def World.init (policy : PpsPolicy) : World :=
  { agents := fun _ => AgentState.fresh, sent := [], responses := [], monitor := Monitor.init
    applied := fun _ _ _ => 0, policy, accepted := [], evaluated := [] }

/-- **The delivery system.** -/
def system : System World Label where
  init s := ∃ policy, s = World.init policy
  step := World.step d

/-! ## A deployment to run things on -/

def Deployment.sample : Deployment := { tzOffset := 25200, maxFutureSeconds := 600, defaultWarn := fun _ => 200000 }

def NodeName.sample : NodeName := ⟨"node1", by decide⟩

/-- The policy of `ABUSE_SETTING_DEFAULTS`. -/
def PpsPolicy.sample : PpsPolicy := ⟨true, 200000, by norm_num, by norm_num⟩

end VirtInfra.Agent
