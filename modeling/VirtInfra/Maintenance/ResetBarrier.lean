import VirtInfra.Consumption.Clear
import VirtInfra.Lib.RowLocks
import VirtInfra.Lib.Transition

/-!
# `ResetBarrier` — the acceptance epoch, and the payloads from before a reset

`clear_monitoring_data` truncates in one transaction and writes the acceptance epoch in a later one; `reset_app_data`
does both in one. A web worker reads the epoch once, when it imports the app, and ignores the payloads from before it.
So what holds old payloads off is the epoch of the workers that run, and that is up to when they started.
-/

namespace VirtInfra.ResetBarrier

open Lib Consumption

/-! ## The push, around its transaction -/

/-- The transaction of `push` for a payload that passed the checks. -/
def accept (off receivedAt : Int) (sample : Sample) (m : Monitor) : Monitor :=
  if m.hasReceipt sample then m
  else
    { receipts := ⟨sample.node, sample.dataTime, bucketFor sample.dataTime, receivedAt⟩ :: m.receipts
      tables := writeSample off sample m.tables }

/-- The checks and the transaction together are the endpoint. -/
theorem ingest_eq_accept (cfg : Config) (receivedNow : Int) (req : PushRequest) (m : Monitor) :
    (ingest cfg receivedNow req m).1 = match validatePush cfg receivedNow req with
      | .error _ => m
      | .ok sample => accept cfg.tzOffset receivedNow sample m := by
  unfold ingest accept
  cases validatePush cfg receivedNow req with
  | error reply => rfl
  | ok sample =>
      dsimp only
      split <;> rfl

/-- **No worker accepts a payload from before its epoch.** -/
theorem acceptAfter_le_of_validatePush {cfg : Config} {receivedNow : Int} {req : PushRequest} {sample : Sample}
    (h : validatePush cfg receivedNow req = .ok sample) (hepoch : 0 < cfg.acceptAfter) :
    cfg.acceptAfter ≤ sample.dataTime := by
  simp only [validatePush] at h
  split at h
  · cases h
  · split at h
    · cases h
    · split at h
      · cases h
      · next hcheck =>
          rw [not_and, not_lt] at hcheck
          split at h
          · cases h
          · obtain rfl := Except.ok.inj h
            exact hcheck hepoch.ne'

/-! ## The job and the web service -/

/-- The two actions that truncate the monitoring tables. -/
inductive Action
  | clearMonitoringData
  | resetAppData
  deriving DecidableEq

/-- Where `execute_action` stands: before `stop_service`, inside it (the service is active), after it, and then in the
    transactions of the action. `cutAt` is when `TRUNCATE` ran, `epoch` what `int(time.time())` gave. -/
inductive JobPhase
  | idle
  | begun (action : Action)
  | stopping (action : Action)
  | offline (action : Action) (wasActive : Bool)
  | truncating (action : Action) (wasActive : Bool) (cutAt : Int)
  | resetting (wasActive : Bool) (cutAt epoch : Int)
  | truncated (wasActive : Bool)
  | marking (wasActive : Bool) (epoch : Int)
  | starting
  deriving DecidableEq

namespace JobPhase

/-- The transaction holds the tables that it has truncated. -/
def locked : JobPhase → Bool
  | truncating _ _ _ | resetting _ _ _ => true
  | _ => false

/-- The monitoring tables are truncated for good, and the epoch is not written. -/
def unfinished : JobPhase → Bool
  | truncated _ | marking _ _ => true
  | _ => false

/-- `was_active`, as the `finally` block finds it. -/
def wasActive : JobPhase → Bool
  | offline _ w | truncating _ w _ | resetting w _ _ | truncated w | marking w _ => w
  | _ => false

/-- Between `stop_service` and the `finally` block. -/
def inside : JobPhase → Bool
  | offline _ _ | truncating _ _ _ | resetting _ _ _ | truncated _ | marking _ _ => true
  | _ => false

/-- The `finally` block. -/
def leave (phase : JobPhase) : JobPhase := if phase.wasActive then .starting else .idle

end JobPhase

/-- A payload that was written: its time, and the truncations that had committed. -/
structure Written where
  dataTime : Int
  after : List Int
  deriving DecidableEq

/-- `acceptAfter` is the row `operational_push_accept_after`, `workers` the epoch that each web worker has read, and
    `accepted` the payloads past the checks, with their worker. `unmarked`: a truncation has committed, and no epoch has
    been written since. -/
structure State where
  clock : Int
  acceptAfter : Option Int := none
  monitor : Monitor := Monitor.init
  service : Bool := false
  workers : KeyedTable Nat Int := .empty
  accepted : KeyedTable Nat (Nat × Sample) := .empty
  job : JobPhase := .idle
  truncations : List Int := []
  unmarked : Bool := false
  written : List Written := []

namespace State

/-- No process of the web service is left. -/
def down (s : State) : State := { s with service := false, workers := .empty, accepted := .empty }

/-- A worker ends, and its open transactions with it. -/
def exit (s : State) (worker : Nat) : State :=
  { s with
    workers := s.workers.deleteWhere (· = worker)
    accepted := s.accepted.deleteRows fun _ push => push.1 = worker }

/-- **`V5057_OPERATIONAL_PUSH_ACCEPT_AFTER`**, computed when a worker imports the app. -/
def boot (s : State) (worker : Nat) : State :=
  { s with workers := s.workers.put worker (max 0 (s.acceptAfter.getD 0)) }

/-- A push commits. -/
def write (s : State) (off : Int) (id : Nat) (sample : Sample) : State :=
  { s with
    monitor := accept off s.clock sample s.monitor
    accepted := s.accepted.deleteWhere (· = id)
    written := if s.monitor.hasReceipt sample then s.written else ⟨sample.dataTime, s.truncations⟩ :: s.written }

/-- `TRUNCATE` of `MONITORING_TABLES` commits. -/
def clear (s : State) (wasActive : Bool) (cutAt : Int) : State :=
  { s with
    monitor :=
      { receipts := if "push_receipts" ∈ monitoringTables then [] else s.monitor.receipts
        tables := (clearMonitoringData ⟨s.monitor.tables, .empty, .empty⟩).rollups }
    truncations := cutAt :: s.truncations
    unmarked := true
    job := .truncated wasActive }

/-- `set_reset_acceptance_epochs` commits. -/
def mark (s : State) (epoch : Int) : State := { s with acceptAfter := some (max 0 epoch), unmarked := false }

/-- `reset_app_data` commits: every table is empty, and the epoch is written. -/
def reset (s : State) (cutAt epoch : Int) : State :=
  { s with
    monitor := Monitor.init
    acceptAfter := some epoch
    truncations := cutAt :: s.truncations
    unmarked := false }

end State

/-- `serviceUp` and `serviceDown` are systemd and the operator: a restart after a crash, the safety net of the
    maintenance unit, a manual start. `fail true` is an exception at any point of the job, `fail false` its process being
    killed. -/
inductive Label
  | tick (seconds : Nat)
  | serviceUp
  | serviceDown
  | boot (worker : Nat)
  | exit (worker : Nat)
  | receive (id worker : Nat) (request : PushRequest)
  | commitPush (id : Nat)
  | begin (action : Action)
  | checkService
  | stopUnit
  | truncate
  | readClock
  | commit
  | fail (handled : Bool)
  | startService

/-- The steps of the job itself. -/
def jobStep (s : State) : Label → Option State
  | .checkService =>
      match s.job with
      | .begun action => some { s with job := if s.service then .stopping action else .offline action false }
      | _ => none
  | .stopUnit =>
      match s.job with
      | .stopping action => some { s.down with job := .offline action true }
      | _ => none
  | .truncate =>
      match s.job with
      | .offline action wasActive => some { s with job := .truncating action wasActive s.clock }
      | _ => none
  | .readClock =>
      match s.job with
      | .truncating .resetAppData wasActive cutAt => some { s with job := .resetting wasActive cutAt s.clock }
      | .truncated wasActive => some { s with job := .marking wasActive s.clock }
      | _ => none
  | .commit =>
      match s.job with
      | .truncating .clearMonitoringData wasActive cutAt => some (s.clear wasActive cutAt)
      | .resetting _ cutAt epoch => some { s.reset cutAt epoch with job := s.job.leave }
      | .marking _ epoch => some { s.mark epoch with job := s.job.leave }
      | _ => none
  | .startService =>
      match s.job with
      | .starting => some { s with job := .idle, service := true }
      | _ => none
  | _ => none

def step (cfg : Config) (s : State) : Label → Option State
  | .tick seconds => some { s with clock := s.clock + seconds }
  | .serviceUp => some { s with service := true }
  | .serviceDown => some s.down
  | .boot worker => if s.service ∧ s.workers.get? worker = none then some (s.boot worker) else none
  | .exit worker => some (s.exit worker)
  | .receive id worker request => do
      let epoch ← s.workers.get? worker
      match validatePush { cfg with acceptAfter := epoch } s.clock request with
      | .error _ => some s
      | .ok sample => some { s with accepted := s.accepted.put id (worker, sample) }
  -- The inserts of a push wait for a transaction that has truncated their tables, and `TRUNCATE` for theirs.
  | .commitPush id => do
      let push ← s.accepted.get? id
      if s.job.locked then none else some (s.write cfg.tzOffset id push.2)
  | .begin action => if s.job = .idle then some { s with job := .begun action } else none
  | .fail handled => some { s with job := if handled then s.job.leave else .idle }
  | label => jobStep s label

/-- **Pushes, web workers and destructive jobs.** -/
def system (cfg : Config) : System State Label where
  init s := ∃ clock, 0 < clock ∧ s = { clock }
  step := step cfg

/-! ## The condition and the invariant -/

/-- **A worker imports the app only when the epoch of every committed truncation is written, and a truncation commits only
    when no worker runs.** -/
def Guarded (s : State) : Label → Prop
  | .boot _ => s.unmarked = false
  | .commit => s.job.locked = true → s.workers.rows = []
  | _ => True

instance : ∀ s l, Decidable (Guarded s l)
  | s, .boot _ => inferInstanceAs (Decidable (s.unmarked = false))
  | s, .commit => inferInstanceAs (Decidable (s.job.locked = true → s.workers.rows = []))
  | _, .tick _ | _, .serviceUp | _, .serviceDown | _, .exit _ | _, .receive _ _ _ | _, .commitPush _ | _, .begin _
  | _, .checkService | _, .stopUnit | _, .truncate | _, .readClock | _, .fail _ | _, .startService => .isTrue trivial

/-- What a transaction of the job knows of the clock. -/
def JobPhase.Timed (s : State) : JobPhase → Prop
  | truncating _ _ cutAt => 0 < cutAt ∧ cutAt ≤ s.clock
  | resetting _ cutAt epoch => 0 < cutAt ∧ cutAt ≤ epoch ∧ epoch ≤ s.clock ∧ ∀ t ∈ s.truncations, t ≤ epoch
  | marking _ epoch => ∀ t ∈ s.truncations, t ≤ epoch
  | _ => True

/-- **The invariant.** The epoch that is written covers every truncation, unless one is waiting for its epoch, and what a
    worker has read covers every truncation. -/
structure Barred (s : State) : Prop where
  clock : 0 < s.clock
  past : ∀ t ∈ s.truncations, 0 < t ∧ t ≤ s.clock
  job : s.job.Timed s
  marked : s.unmarked = false → ∀ t ∈ s.truncations, t ≤ s.acceptAfter.getD 0
  workers : ∀ id epoch, s.workers.get? id = some epoch → ∀ t ∈ s.truncations, t ≤ epoch
  owned : ∀ id push, s.accepted.get? id = some push → (s.workers.get? push.1).isSome
  accepted : ∀ id push, s.accepted.get? id = some push → ∀ t ∈ s.truncations, t ≤ push.2.dataTime
  written : ∀ x ∈ s.written, ∀ t ∈ x.after, t ≤ x.dataTime

section

variable {s s' : State} {cfg : Config}

theorem Barred.init {clock : Int} (h : 0 < clock) : Barred { clock } where
  clock := h
  past := by simp
  job := trivial
  marked := by simp
  workers := by simp
  owned := by simp
  accepted := by simp
  written := by simp

/-- What the clock knew, it knows later. -/
theorem Timed.mono {phase : JobPhase} (h : phase.Timed s) (hclock : s.clock ≤ s'.clock)
    (htruncations : s'.truncations = s.truncations) : phase.Timed s' := by
  cases phase with
  | truncating _ _ cutAt => exact ⟨h.1, h.2.trans hclock⟩
  | resetting _ cutAt epoch =>
      obtain ⟨hpos, hle, hnow, hall⟩ := h
      refine ⟨hpos, hle, hnow.trans hclock, ?_⟩
      rw [htruncations]
      exact hall
  | marking _ epoch =>
      intro t ht
      rw [htruncations] at ht
      exact h t ht
  | _ => trivial

/-- **A step of the job that commits nothing.** -/
theorem Barred.goto (hs : Barred s) {phase : JobPhase} (hphase : phase.Timed s) : Barred { s with job := phase } :=
  { hs with job := Timed.mono hphase le_rfl rfl }

theorem timed_leave (phase : JobPhase) (s : State) : phase.leave.Timed s := by
  unfold JobPhase.leave
  split <;> trivial

theorem Barred.down (hs : Barred s) : Barred s.down :=
  { hs with
    job := Timed.mono hs.job le_rfl rfl
    workers := by simp [State.down]
    owned := by simp [State.down]
    accepted := by simp [State.down] }

theorem Barred.tick (hs : Barred s) (seconds : Nat) : Barred { s with clock := s.clock + seconds } := by
  have hle : s.clock ≤ s.clock + seconds := by omega
  exact
    { hs with
      clock := hs.clock.trans_le hle
      past := fun t ht => ⟨(hs.past t ht).1, (hs.past t ht).2.trans hle⟩
      job := Timed.mono hs.job hle rfl }

theorem Barred.exit (hs : Barred s) (worker : Nat) : Barred (s.exit worker) := by
  have haccepted : ∀ id push, (s.exit worker).accepted.get? id = some push →
      s.accepted.get? id = some push ∧ push.1 ≠ worker := by
    intro id push h
    simp only [State.exit, KeyedTable.get?_deleteRows, Option.filter_eq_some_iff] at h
    simpa using h
  constructor
  case clock => exact hs.clock
  case past => exact hs.past
  case job => exact Timed.mono hs.job le_rfl rfl
  case marked => exact hs.marked
  case workers =>
    intro id epoch h
    exact hs.workers id epoch (KeyedTable.get?_deleteWhere_eq_some.mp h).2
  case owned =>
    -- The transactions of the worker end with it; those of another keep theirs.
    intro id push h
    obtain ⟨hold, hne⟩ := haccepted id push h
    have hget : (s.exit worker).workers.get? push.1 = s.workers.get? push.1 := by
      simp [State.exit, KeyedTable.get?_deleteWhere, hne]
    rw [hget]
    exact hs.owned id push hold
  case accepted =>
    intro id push h
    exact hs.accepted id push (haccepted id push h).1
  case written => exact hs.written

/-- **A worker that starts when nothing is unmarked has read an epoch past every truncation.** -/
theorem Barred.boot (hs : Barred s) (hmarked : s.unmarked = false) (worker : Nat) : Barred (s.boot worker) := by
  constructor
  case clock => exact hs.clock
  case past => exact hs.past
  case job => exact Timed.mono hs.job le_rfl rfl
  case marked => exact hs.marked
  case workers =>
    intro id epoch h t ht
    rw [State.boot, KeyedTable.get?_put] at h
    split at h
    · obtain rfl := Option.some.inj h
      exact (hs.marked hmarked t ht).trans (le_max_right _ _)
    · exact hs.workers id epoch h t ht
  case owned =>
    intro id push h
    have := hs.owned id push h
    simp only [State.boot, KeyedTable.get?_put]
    split
    · rfl
    · exact this
  case accepted => exact hs.accepted
  case written => exact hs.written

/-- **A worker lets no payload through that a truncation should hold off.** -/
theorem Barred.receive (hs : Barred s) {worker : Nat} {epoch : Int} (hworker : s.workers.get? worker = some epoch)
    {request : PushRequest} {sample : Sample}
    (hsample : validatePush { cfg with acceptAfter := epoch } s.clock request = .ok sample) (id : Nat) :
    Barred { s with accepted := s.accepted.put id (worker, sample) } := by
  constructor
  case clock => exact hs.clock
  case past => exact hs.past
  case job => exact Timed.mono hs.job le_rfl rfl
  case marked => exact hs.marked
  case workers => exact hs.workers
  case owned =>
    intro i push h
    rw [KeyedTable.get?_put] at h
    split at h
    · obtain rfl := Option.some.inj h
      simp [hworker]
    · exact hs.owned i push h
  case accepted =>
    intro i push h t ht
    rw [KeyedTable.get?_put] at h
    split at h
    · obtain rfl := Option.some.inj h
      have hle : t ≤ epoch := hs.workers worker epoch hworker t ht
      have hpos : 0 < epoch := (hs.past t ht).1.trans_le hle
      exact hle.trans (acceptAfter_le_of_validatePush hsample hpos)
    · exact hs.accepted i push h t ht
  case written => exact hs.written

theorem Barred.write (hs : Barred s) {id : Nat} {push : Nat × Sample} (h : s.accepted.get? id = some push) (off : Int) :
    Barred (s.write off id push.2) := by
  constructor
  case clock => exact hs.clock
  case past => exact hs.past
  case job => exact Timed.mono hs.job le_rfl rfl
  case marked => exact hs.marked
  case workers => exact hs.workers
  case owned =>
    intro i q hq
    exact hs.owned i q (KeyedTable.get?_deleteWhere_eq_some.mp hq).2
  case accepted =>
    intro i q hq
    exact hs.accepted i q (KeyedTable.get?_deleteWhere_eq_some.mp hq).2
  case written =>
    intro x hx
    simp only [State.write] at hx
    split at hx
    · exact hs.written x hx
    · rcases List.mem_cons.mp hx with rfl | hold
      · exact hs.accepted id push h
      · exact hs.written x hold

/-- Without workers, no push is past its checks. -/
theorem Barred.no_push (hs : Barred s) (hempty : s.workers.rows = []) (id : Nat) (push : Nat × Sample) :
    s.accepted.get? id ≠ some push := by
  intro h
  have := hs.owned id push h
  simp [KeyedTable.get?, hempty] at this

/-- **A truncation that meets no worker leaves nothing to hold off but what starts later.** -/
theorem Barred.clear (hs : Barred s) (hempty : s.workers.rows = []) {wasActive : Bool} {cutAt : Int} (hpos : 0 < cutAt)
    (hpast : cutAt ≤ s.clock) : Barred (s.clear wasActive cutAt) where
  clock := hs.clock
  past := by
    intro t ht
    rcases List.mem_cons.mp ht with rfl | hold
    · exact ⟨hpos, hpast⟩
    · exact hs.past t hold
  job := trivial
  marked := nofun
  workers := by simp [State.clear, KeyedTable.get?, hempty]
  owned := hs.owned
  accepted := fun id push h => absurd h (hs.no_push hempty id push)
  written := hs.written

theorem Barred.mark (hs : Barred s) {epoch : Int} (hepoch : ∀ t ∈ s.truncations, t ≤ epoch) {phase : JobPhase}
    (hphase : phase.Timed s) : Barred { s.mark epoch with job := phase } :=
  { hs with
    job := Timed.mono hphase le_rfl rfl
    marked := fun _ t ht => (hepoch t ht).trans (le_max_right _ _) }

theorem Barred.reset (hs : Barred s) (hempty : s.workers.rows = []) {cutAt epoch : Int} (hpos : 0 < cutAt)
    (hle : cutAt ≤ epoch) (hnow : epoch ≤ s.clock) (hepoch : ∀ t ∈ s.truncations, t ≤ epoch) (phase : JobPhase) :
    Barred { s.reset cutAt epoch with job := phase.leave } where
  clock := hs.clock
  past := by
    intro t ht
    rcases List.mem_cons.mp ht with rfl | hold
    · exact ⟨hpos, hle.trans hnow⟩
    · exact hs.past t hold
  job := timed_leave phase _
  marked := by
    intro _ t ht
    rcases List.mem_cons.mp ht with rfl | hold
    · exact hle
    · exact hepoch t hold
  workers := by simp [State.reset, KeyedTable.get?, hempty]
  owned := hs.owned
  accepted := fun id push h => absurd h (hs.no_push hempty id push)
  written := hs.written

/-- **The steps of the job keep the invariant.** -/
theorem Barred.jobStep (hs : Barred s) {l : Label} (hok : Guarded s l) (h : jobStep s l = some s') : Barred s' := by
  have hjob := hs.job
  cases l with
  | checkService =>
      simp only [ResetBarrier.jobStep] at h
      split at h
      · obtain rfl := Option.some.inj h
        apply hs.goto
        split <;> trivial
      · cases h
  | stopUnit =>
      simp only [ResetBarrier.jobStep] at h
      split at h
      · obtain rfl := Option.some.inj h
        exact hs.down.goto trivial
      · cases h
  | truncate =>
      simp only [ResetBarrier.jobStep] at h
      split at h
      · obtain rfl := Option.some.inj h
        exact hs.goto ⟨hs.clock, le_rfl⟩
      · cases h
  | readClock =>
      have hpast : ∀ t ∈ s.truncations, t ≤ s.clock := fun t ht => (hs.past t ht).2
      simp only [ResetBarrier.jobStep] at h
      split at h
      · next hphase =>
          rw [hphase] at hjob
          obtain rfl := Option.some.inj h
          exact hs.goto ⟨hjob.1, hjob.2, le_rfl, hpast⟩
      · obtain rfl := Option.some.inj h
        exact hs.goto hpast
      · cases h
  | commit =>
      simp only [ResetBarrier.jobStep] at h
      split at h
      · next hphase =>
          rw [hphase] at hjob
          obtain rfl := Option.some.inj h
          exact hs.clear (hok (by rw [hphase]; rfl)) hjob.1 hjob.2
      · next hphase =>
          rw [hphase] at hjob
          obtain rfl := Option.some.inj h
          obtain ⟨hpos, hle, hnow, hepoch⟩ := hjob
          exact hs.reset (hok (by rw [hphase]; rfl)) hpos hle hnow hepoch s.job
      · next hphase =>
          rw [hphase] at hjob
          obtain rfl := Option.some.inj h
          exact hs.mark hjob (timed_leave s.job s)
      · cases h
  | startService =>
      simp only [ResetBarrier.jobStep] at h
      split at h
      · obtain rfl := Option.some.inj h
        exact { hs with job := trivial }
      · cases h
  | _ => cases h

/-- **Each step keeps the invariant.** -/
theorem Barred.step (hs : Barred s) {l : Label} (hok : Guarded s l) (h : step cfg s l = some s') : Barred s' := by
  cases l with
  | tick seconds => exact Option.some.inj h ▸ hs.tick seconds
  | serviceUp =>
      obtain rfl := Option.some.inj h
      exact { hs with job := Timed.mono hs.job le_rfl rfl }
  | serviceDown => exact Option.some.inj h ▸ hs.down
  | boot worker =>
      simp only [ResetBarrier.step] at h
      split at h
      · exact Option.some.inj h ▸ hs.boot hok worker
      · cases h
  | exit worker => exact Option.some.inj h ▸ hs.exit worker
  | receive id worker request =>
      obtain ⟨epoch, hworker, h⟩ := Option.bind_eq_some_iff.mp h
      split at h
      · exact Option.some.inj h ▸ hs
      · next sample hsample =>
          obtain rfl := Option.some.inj h
          exact hs.receive hworker hsample id
  | commitPush id =>
      obtain ⟨push, hpush, h⟩ := Option.bind_eq_some_iff.mp h
      split at h
      · cases h
      · exact Option.some.inj h ▸ hs.write hpush cfg.tzOffset
  | begin action =>
      simp only [ResetBarrier.step] at h
      split at h
      · obtain rfl := Option.some.inj h
        exact hs.goto trivial
      · cases h
  | fail handled =>
      obtain rfl := Option.some.inj h
      apply hs.goto
      split
      · exact timed_leave s.job s
      · trivial
  | checkService => exact hs.jobStep hok h
  | stopUnit => exact hs.jobStep hok h
  | truncate => exact hs.jobStep hok h
  | readClock => exact hs.jobStep hok h
  | commit => exact hs.jobStep hok h
  | startService => exact hs.jobStep hok h

theorem barred_of_reachable (h : (system cfg).Reachable Guarded s) : Barred s := by
  apply h.invariant
  · rintro s ⟨clock, hclock, rfl⟩
    exact Barred.init hclock
  · intro s l s' _ hs hok hstep
    exact hs.step hok hstep

end

/-- **A reset is a barrier**: what was written after a truncation is not from before it. -/
theorem reset_barrier (cfg : Config) {s : State} (h : (system cfg).Reachable Guarded s) {x : Written}
    (hx : x ∈ s.written) {cutAt : Int} (hcut : cutAt ∈ x.after) : cutAt ≤ x.dataTime :=
  (barred_of_reachable h).written x hx cutAt hcut

/-! ## Jobs that nothing disturbs -/

/-- **Only the job starts the service while it is under way, and it does not fail between its truncation and its
    epoch.** -/
def Undisturbed (s : State) : Label → Prop
  | .serviceUp => s.job = .idle
  | .fail _ => s.job.unfinished = false
  | _ => True

/-- The service is down while the job is inside, and what is unmarked is the job's own truncation. -/
structure Quiet (s : State) : Prop where
  down : s.service = false → s.workers.rows = []
  inside : s.job.inside = true → s.service = false
  unmarked : s.unmarked = true → s.job.unfinished = true

namespace Quiet

variable {s s' : State} {cfg : Config}

theorem inside_of_unfinished {phase : JobPhase} (h : phase.unfinished = true) : phase.inside = true := by
  cases phase <;> first | rfl | cases h

theorem inside_of_locked {phase : JobPhase} (h : phase.locked = true) : phase.inside = true := by
  cases phase <;> first | rfl | cases h

theorem not_unfinished_leave (phase : JobPhase) : phase.leave.inside = false := by
  unfold JobPhase.leave
  split <;> rfl

/-- **What an undisturbed run has done so far meets the condition of the barrier at every next step.** -/
theorem guarded (hs : Quiet s) {l : Label} (h : step cfg s l = some s') : Guarded s l := by
  cases l with
  | boot worker =>
      -- A worker starts only under the service, which is down until the epoch is written.
      simp only [step] at h
      split at h
      · next hup =>
          by_contra hmarked
          have hinside := inside_of_unfinished (hs.unmarked (by simpa [Guarded] using hmarked))
          rw [hs.inside hinside] at hup
          cases hup.1
      · cases h
  | commit => exact fun hlocked => hs.down (hs.inside (inside_of_locked hlocked))
  | _ => trivial

/-- Changes of the job's phase, while the service stays as it is. -/
theorem goto (hs : Quiet s) {phase : JobPhase} (hinside : phase.inside = true → s.service = false)
    (hmarked : s.unmarked = true → phase.unfinished = true) : Quiet { s with job := phase } :=
  { hs with
    inside := hinside
    unmarked := hmarked }

theorem down_state (hs : Quiet s) : Quiet s.down :=
  { hs with
    down := fun _ => rfl
    inside := fun _ => rfl }

theorem jobStep (hs : Quiet s) {l : Label} (h : jobStep s l = some s') : Quiet s' := by
  have hjob := hs.inside
  have hmark := hs.unmarked
  cases l with
  | checkService =>
      simp only [ResetBarrier.jobStep] at h
      split at h
      · next hphase =>
          rw [hphase] at hmark
          obtain rfl := Option.some.inj h
          have hmarked : s.unmarked = false := by simpa [JobPhase.unfinished] using hmark
          apply hs.goto
          · cases hservice : s.service <;> simp [JobPhase.inside]
          · simp [hmarked]
      · cases h
  | stopUnit =>
      simp only [ResetBarrier.jobStep] at h
      split at h
      · next hphase =>
          rw [hphase] at hmark
          obtain rfl := Option.some.inj h
          exact hs.down_state.goto (fun _ => rfl) fun hunmarked => absurd (hmark hunmarked) (by simp [JobPhase.unfinished])
      · cases h
  | truncate =>
      simp only [ResetBarrier.jobStep] at h
      split at h
      · next hphase =>
          rw [hphase] at hjob hmark
          obtain rfl := Option.some.inj h
          exact hs.goto (fun _ => hjob rfl) fun hunmarked => absurd (hmark hunmarked) (by simp [JobPhase.unfinished])
      · cases h
  | readClock =>
      simp only [ResetBarrier.jobStep] at h
      split at h
      · next hphase =>
          rw [hphase] at hjob hmark
          obtain rfl := Option.some.inj h
          exact hs.goto (fun _ => hjob rfl) fun hunmarked => absurd (hmark hunmarked) (by simp [JobPhase.unfinished])
      · next hphase =>
          rw [hphase] at hjob
          obtain rfl := Option.some.inj h
          exact hs.goto (fun _ => hjob rfl) fun _ => rfl
      · cases h
  | commit =>
      simp only [ResetBarrier.jobStep] at h
      split at h
      · next hphase =>
          rw [hphase] at hjob
          obtain rfl := Option.some.inj h
          exact ⟨hs.down, fun _ => hjob rfl, fun _ => rfl⟩
      · obtain rfl := Option.some.inj h
        refine ⟨hs.down, fun hinside => ?_, nofun⟩
        rw [not_unfinished_leave] at hinside
        cases hinside
      · obtain rfl := Option.some.inj h
        refine ⟨hs.down, fun hinside => ?_, nofun⟩
        rw [not_unfinished_leave] at hinside
        cases hinside
      · cases h
  | startService =>
      simp only [ResetBarrier.jobStep] at h
      split at h
      · next hphase =>
          rw [hphase] at hmark
          obtain rfl := Option.some.inj h
          exact ⟨nofun, nofun, hmark⟩
      · cases h
  | _ => cases h

theorem step (hs : Quiet s) {l : Label} (hok : Undisturbed s l) (h : step cfg s l = some s') : Quiet s' := by
  cases l with
  | serviceUp =>
      obtain rfl := Option.some.inj h
      refine ⟨by simp, fun hinside => ?_, hs.unmarked⟩
      dsimp only [Undisturbed] at hok hinside
      rw [hok] at hinside
      cases hinside
  | serviceDown => exact Option.some.inj h ▸ hs.down_state
  | boot worker =>
      simp only [ResetBarrier.step] at h
      split at h
      · next hup =>
          obtain rfl := Option.some.inj h
          refine ⟨fun hdown => ?_, hs.inside, hs.unmarked⟩
          rw [show s.service = false from hdown] at hup
          cases hup.1
      · cases h
  | exit worker =>
      obtain rfl := Option.some.inj h
      refine ⟨fun hdown => ?_, hs.inside, hs.unmarked⟩
      simp [State.exit, KeyedTable.deleteWhere, hs.down hdown]
  | receive id worker request =>
      obtain ⟨epoch, hworker, h⟩ := Option.bind_eq_some_iff.mp h
      split at h
      · exact Option.some.inj h ▸ hs
      · obtain rfl := Option.some.inj h
        exact ⟨hs.down, hs.inside, hs.unmarked⟩
  | commitPush id =>
      obtain ⟨push, hpush, h⟩ := Option.bind_eq_some_iff.mp h
      split at h
      · cases h
      · obtain rfl := Option.some.inj h
        exact ⟨hs.down, hs.inside, hs.unmarked⟩
  | begin action =>
      simp only [ResetBarrier.step] at h
      split at h
      · next hidle =>
          obtain rfl := Option.some.inj h
          have hmark := hs.unmarked
          rw [hidle] at hmark
          exact hs.goto (by simp [JobPhase.inside]) fun hunmarked => absurd (hmark hunmarked) (by simp [JobPhase.unfinished])
      · cases h
  | fail handled =>
      obtain rfl := Option.some.inj h
      apply hs.goto
      · split
        · simp [not_unfinished_leave]
        · simp [JobPhase.inside]
      · intro hunmarked
        dsimp only [Undisturbed] at hok
        rw [hs.unmarked hunmarked] at hok
        cases hok
  | tick seconds => exact Option.some.inj h ▸ ⟨hs.down, hs.inside, hs.unmarked⟩
  | checkService => exact hs.jobStep (l := .checkService) h
  | stopUnit => exact hs.jobStep (l := .stopUnit) h
  | truncate => exact hs.jobStep (l := .truncate) h
  | readClock => exact hs.jobStep (l := .readClock) h
  | commit => exact hs.jobStep (l := .commit) h
  | startService => exact hs.jobStep (l := .startService) h

end Quiet

/-- **A run whose jobs nothing disturbs is a run of the barrier**, whatever fails elsewhere. -/
theorem guarded_of_undisturbed {cfg : Config} {s : State} (h : (system cfg).Reachable Undisturbed s) :
    (system cfg).Reachable Guarded s ∧ Quiet s := by
  apply h.invariant (I := fun s => (system cfg).Reachable Guarded s ∧ Quiet s)
  · rintro s ⟨clock, hclock, rfl⟩
    exact ⟨.init ⟨clock, hclock, rfl⟩, ⟨fun _ => rfl, nofun, nofun⟩⟩
  · intro s l s' _ hs hok hstep
    exact ⟨.step hs.1 (hs.2.guarded hstep) hstep, hs.2.step hok hstep⟩

/-! ## A reset, undisturbed and not -/

/-- One interface payload from second 100. -/
def oldPush : PushRequest where
  time := some 100
  node := "node1"
  interval := some 60
  interfaces := some []
  physicalInterfaces := []

/-- The first start, and a payload that is counted as it arrives. -/
def countsOnce : List Label := [.serviceUp, .boot 0, .receive 0 0 oldPush, .commitPush 0, .tick 100]

def truncates : List Label := [.begin .clearMonitoringData, .checkService, .stopUnit, .truncate, .commit]

/-- The agent retries its payload on the worker that has started. -/
def retries : List Label := [.boot 1, .receive 1 1 oldPush, .commitPush 1]

/-- A whole reset; a payload from before it is retried, and one from after it arrives. -/
def resetRun : List Label :=
  countsOnce ++ truncates ++ [.tick 5, .readClock, .commit, .startService, .boot 1, .receive 1 1 oldPush,
    .receive 2 1 { oldPush with time := some 205 }, .commitPush 2]

theorem reset_barrier_retry :
    ∃ s, (system {}).exec Guarded { clock := 100 } resetRun = some s ∧ s.written = [⟨205, [200]⟩, ⟨100, []⟩] ∧
      ∀ x ∈ s.written, ∀ cutAt ∈ x.after, cutAt ≤ x.dataTime := by
  have hrun : ((system {}).exec Guarded { clock := 100 } resetRun).map State.written =
      some [⟨205, [200]⟩, ⟨100, []⟩] := by decide +kernel
  obtain ⟨s, hs, hwritten⟩ := Option.map_eq_some_iff.mp hrun
  have hreach : (system {}).Reachable Guarded s := .exec (.init ⟨100, by decide, rfl⟩) hs
  exact ⟨s, hs, hwritten, fun x hx cutAt hcut => reset_barrier {} hreach hx hcut⟩

/-- The job fails after its truncation, and the service is started again with the epoch of before. -/
def failingRun : List Label := countsOnce ++ truncates ++ [.fail true, .startService] ++ retries

/-- The service is not active when the job looks, and comes up while the job truncates; the job succeeds. -/
def crashedServiceRun : List Label :=
  countsOnce ++ [.serviceDown, .begin .clearMonitoringData, .checkService, .serviceUp, .boot 1, .truncate, .commit,
    .readClock, .commit, .receive 1 1 oldPush, .commitPush 1]

/-- **A payload from before the truncation, counted then, is counted again after it.** -/
theorem retry_counted_after_reset :
    (∃ s, (system {}).Reachable System.AnyStep s ∧ ∃ x ∈ s.written, ∃ cutAt ∈ x.after, x.dataTime < cutAt) ∧
    ((system {}).exec System.AnyStep { clock := 100 } failingRun).map State.written = some [⟨100, [200]⟩, ⟨100, []⟩] ∧
    ((system {}).exec System.AnyStep { clock := 100 } crashedServiceRun).map (fun s => (s.written, s.acceptAfter)) =
      some ([⟨100, [200]⟩, ⟨100, []⟩], some 200) := by
  have hrun : ((system {}).exec System.AnyStep { clock := 100 } failingRun).map State.written =
      some [⟨100, [200]⟩, ⟨100, []⟩] := by decide +kernel
  obtain ⟨s, hs, hwritten⟩ := Option.map_eq_some_iff.mp hrun
  have hmem : (⟨100, [200]⟩ : Written) ∈ s.written := by
    rw [hwritten]
    exact List.mem_cons_self
  have hreach : (system {}).Reachable System.AnyStep s := .exec (.init ⟨100, by decide, rfl⟩) hs
  exact ⟨⟨s, hreach, ⟨100, [200]⟩, hmem, 200, List.mem_cons_self, by decide⟩, hrun, by decide +kernel⟩

end VirtInfra.ResetBarrier
