import VirtInfra.Lib.Transition
import Mathlib.Data.List.Basic

/-!
# `Offline` — actions that stop the web service (`maintenance.py`, `bw-monitor-maintenance@.service`)

Clearing the monitoring data, restoring a configuration and the nuclear reset stop the dashboard, change the database and
start the dashboard again. Any instruction on the way may raise, a signal among the reasons, and the worker may be killed at
any time. What starts the dashboard then is the unit of the worker: its `ExecStopPost` reads a marker that `stop_service`
writes before it stops anything, and that goes away only once the dashboard is seen to be up.

`offlineWorker` has the instructions one by one, with what the world may answer and what may happen in between: the
dashboard goes down or comes up by itself, and the `ExecStopPost` of another unit finds the marker.
-/

namespace VirtInfra.Maintenance

open Lib

/-- The actions that `execute_action` takes the web service down for. -/
inductive OfflineAction
  | clearMonitoringData
  | configurationRestore
  | resetAppData (createConfigurationBackup createFullBackup : Bool)
  deriving DecidableEq

/-- What is created or verified while the dashboard is still up. -/
inductive Safeguard | verifyConfigurationBackup | configurationBackup | fullBackup
  deriving DecidableEq

/-- **The safeguards of an action**, in their order. -/
def OfflineAction.safeguards : OfflineAction → List Safeguard
  | .clearMonitoringData => []
  | .configurationRestore => [.verifyConfigurationBackup, .configurationBackup]
  | .resetAppData createConfigurationBackup createFullBackup =>
      (if createConfigurationBackup then [.configurationBackup] else []) ++ if createFullBackup then [.fullBackup] else []

/-- The next instruction of the worker, or of `ExecStopPost` once the worker is gone. -/
inductive Instruction
  | safeguard (left : List Safeguard)
  -- `stop_service`
  | loadState | isActive | writeMarker | stop
  /-- The call that changes the database. -/
  | act
  -- `_start_service_reliably`: the attempts that are left, and the polls of one attempt
  | start (attempts : Nat) | poll (attempts polls : Nat) | clearMarker
  | health
  /-- The audit row and the end of the job. -/
  | report
  -- `ExecStopPost`
  | stopPost | stopPostStart | stopPostRemove
  | gone
  deriving DecidableEq

/-- **The worker and the host.** -/
structure Offline where
  next : Instruction
  /-- `was_active`, once `stop_service` has returned. -/
  wasActive : Bool
  active : Bool
  marker : Bool
  safeguarded : List Safeguard
  /-- The database was changed. -/
  acted : Bool
  /-- It was changed while the dashboard was up. -/
  actedOnline : Bool
  /-- The dashboard was up when the worker began. -/
  upBefore : Bool
  /-- Something else than the worker brought the dashboard up. -/
  startedOutside : Bool
  /-- The dashboard went down by itself, did not come up when it was started, or the host is shutting down. -/
  excused : Bool
  /-- Another unit took the marker away when the dashboard was about to be stopped. -/
  taken : Bool
  deriving DecidableEq

/-- What happens next. -/
inductive OfflineStep
  /-- The instruction succeeds. -/
  | succeed
  /-- It raises; `effect` is whether it had its effect all the same. -/
  | raise (effect : Bool)
  /-- `systemctl start` returns. -/
  | started (up returnsZero : Bool)
  /-- The worker is killed in the middle of the instruction. -/
  | kill (effect : Bool)
  /-- `ExecStopPost` finds the host shutting down. -/
  | shutdown
  /-- The dashboard goes down by itself. -/
  | crash
  /-- The dashboard is started by `Restart=always` or by hand. -/
  | comeUp
  /-- The `ExecStopPost` of another maintenance unit, one that found the lock taken. -/
  | otherUnit (up : Bool)
  deriving DecidableEq

namespace Offline

/-- `systemctl start`, after which the dashboard is up or not. -/
def started (s : Offline) (up : Bool) : Offline := { s with active := s.active || up, excused := !(s.active || up) }

/-- After the `try`: `was_active` is set only if `stop_service` has returned. -/
def afterAct (s : Offline) : Offline := { s with next := if s.wasActive then .start 3 else .report }

/-- What an instruction leaves when it does not return. -/
def interrupted (s : Offline) (effect : Bool) : Offline :=
  match s.next with
  -- The file is truncated before it is written.
  | .writeMarker => { s with marker := effect }
  | .stop => { s with active := s.active && !effect }
  | .act => { s with acted := s.acted || effect, actedOnline := s.actedOnline || (effect && s.active) }
  | .start _ => { s with active := s.active || effect, excused := s.excused && !effect }
  | .clearMarker => { s with marker := s.marker && !effect }
  | _ => s

/-- **An instruction succeeds.** -/
def succeed (s : Offline) : Option Offline :=
  match s.next with
  | .safeguard [] => some { s with next := .loadState }
  | .safeguard (safeguard :: left) =>
      some { s with next := .safeguard left, safeguarded := s.safeguarded ++ [safeguard] }
  | .loadState => some { s with next := .isActive }
  | .isActive => some { s with next := if s.active then .writeMarker else .act }
  | .writeMarker => some { s with next := .stop, marker := true }
  | .stop => some { s with next := .act, active := false, wasActive := true }
  | .act => some (s.interrupted true).afterAct
  | .poll attempts polls =>
      some { s with
        next := if s.active then .clearMarker else if polls = 0 then .start attempts else .poll attempts (polls - 1) }
  | .clearMarker => some { s with next := .health, marker := false }
  | .health => some { s with next := .report }
  | .report => some { s with next := .stopPost }
  | .stopPost => some { s with next := if s.marker then .stopPostStart else .gone }
  | .stopPostRemove => some { s with next := .gone, marker := false }
  | .start _ | .stopPostStart | .gone => none

/-- **An instruction raises.** What raises before the `try` ends the job; what raises in it is kept for later. -/
def raise (s : Offline) (effect : Bool) : Option Offline :=
  match s.next with
  | .safeguard _ | .loadState | .isActive | .writeMarker | .stop | .start _ | .poll _ _ | .health =>
      some { s.interrupted effect with next := .report }
  | .act => some (s.interrupted effect).afterAct
  -- An `OSError` of `unlink` is passed over; a signal skips the health check.
  | .clearMarker => some { s.interrupted effect with next := .health }
  | .report => some { s with next := .stopPost }
  | .stopPost | .stopPostStart | .stopPostRemove | .gone => none

end Offline

/-- Whether the process of the worker is there. -/
def Instruction.isWorker : Instruction → Bool
  | .stopPost | .stopPostStart | .stopPostRemove | .gone => false
  | _ => true

/-- **`execute_action` of an offline action**, and the unit it runs in. -/
def offlineWorker (action : OfflineAction) : System Offline OfflineStep where
  init s := s.next = .safeguard action.safeguards ∧ s.wasActive = false ∧ s.safeguarded = [] ∧ s.acted = false ∧
    s.actedOnline = false ∧ s.upBefore = s.active ∧ s.startedOutside = false ∧ s.excused = false ∧ s.taken = false
  step s
    | .succeed => s.succeed
    | .raise effect => s.raise effect
    | .started up returnsZero =>
        match s.next with
        | .start (attempts + 1) =>
            some { s.started up with next := if returnsZero then .poll attempts 19 else .start attempts }
        | .stopPostStart => some { s.started up with next := .stopPostRemove }
        | _ => none
    | .kill effect => if s.next.isWorker then some { s.interrupted effect with next := .stopPost } else none
    | .shutdown => if s.next = .stopPostStart then some { s with next := .stopPostRemove, excused := true } else none
    | .crash => if s.active then some { s with active := false, excused := true } else none
    | .comeUp => some { s with active := true, startedOutside := true, excused := false }
    | .otherUnit up =>
        -- It starts the dashboard and takes the marker away, also one that this worker is about to need.
        if s.marker then
          some { s.started up with
            marker := false
            startedOutside := true
            taken := s.taken || decide (s.next = .stop) }
        else none

/-! ## The dashboard comes back -/

/-- The dashboard is up, or something else than the worker has it down. -/
def Offline.accounted (s : Offline) : Bool := s.active || s.excused || s.taken

/-- The instructions before the dashboard is stopped. -/
@[simp] def Instruction.isEarly : Instruction → Bool
  | .safeguard _ | .loadState | .isActive | .writeMarker | .stop => true
  | _ => false

/-- The instructions after which no marker is needed. -/
@[simp] def Instruction.isLast : Instruction → Bool
  | .clearMarker | .stopPostRemove | .gone => true
  | _ => false

/-- **A dashboard that was up is accounted for, or its marker is there.** -/
structure Offline.Recoverable (s : Offline) : Prop where
  back : s.upBefore = true → s.accounted = true ∨ s.marker = true
  early : s.next.isEarly = true → s.upBefore = true → s.accounted = true
  marked : s.next = .stop → s.marker = true ∨ s.taken = true
  last : s.next.isLast = true → s.upBefore = true → s.accounted = true

namespace Offline

variable {s s' : Offline} {effect : Bool}

@[simp] theorem upBefore_interrupted : (s.interrupted effect).upBefore = s.upBefore := by
  unfold interrupted
  split <;> rfl

@[simp] theorem safeguarded_interrupted : (s.interrupted effect).safeguarded = s.safeguarded := by
  unfold interrupted
  split <;> rfl

@[simp] theorem startedOutside_interrupted : (s.interrupted effect).startedOutside = s.startedOutside := by
  unfold interrupted
  split <;> rfl

/-- Another instruction is next. -/
theorem Recoverable.goto (h : s.Recoverable) {next : Instruction}
    (hearly : next.isEarly = true → s.next.isEarly = true) (hstop : next ≠ .stop)
    (hlast : next.isLast = true → s.upBefore = true → s.accounted = true) : { s with next := next }.Recoverable where
  back := h.back
  early hnext := h.early (hearly hnext)
  marked hnext := absurd hnext hstop
  last := hlast

/-- Once the dashboard was stopped, its marker stays until it is accounted for. -/
theorem Recoverable.of_back (hback : s.upBefore = true → s.accounted = true ∨ s.marker = true)
    (hearly : s.next.isEarly = false) (hlast : s.next.isLast = true → s.upBefore = true → s.accounted = true) :
    s.Recoverable where
  back := hback
  early hnext := by rw [hearly] at hnext; cases hnext
  marked hnext := by rw [hnext] at hearly; cases hearly
  last := hlast

/-- A dashboard that is accounted for needs no marker, except for a stop that is under way. -/
theorem Recoverable.of_accounted (haccounted : s.accounted = true)
    (hmarked : s.next = .stop → s.marker = true ∨ s.taken = true) : s.Recoverable :=
  ⟨fun _ => .inl haccounted, fun _ _ => haccounted, hmarked, fun _ _ => haccounted⟩

theorem accounted_started (up : Bool) : (s.started up).accounted = true := by
  cases hup : s.active || up <;> simp [accounted, started, hup]

/-- What an instruction leaves that does not return. -/
theorem Recoverable.back_interrupted (h : s.Recoverable) (effect : Bool) (hup : s.upBefore = true) :
    (s.interrupted effect).accounted = true ∨ (s.interrupted effect).marker = true := by
  unfold Offline.interrupted
  split
  · next hnext => exact .inl (h.early (by simp [hnext]) hup)
  · next hnext =>
      rcases h.marked hnext with hmarker | htaken
      · exact .inr hmarker
      · exact .inl (by simp [accounted, htaken])
  · exact h.back hup
  · cases effect with
    | false => simpa only [accounted, Bool.or_false, Bool.not_false, Bool.and_true] using h.back hup
    | true => exact .inl (by simp [accounted])
  · next hnext => exact .inl (h.last (by simp [hnext]) hup)
  · exact h.back hup

/-- **Wherever the unit goes on after an interruption, the dashboard is recoverable.** -/
theorem Recoverable.interrupted (h : s.Recoverable) {next : Instruction} (hearly : next.isEarly = false)
    (hlast : next.isLast = false) : { s.interrupted effect with next := next }.Recoverable :=
  .of_back (fun hup => h.back_interrupted effect (by simpa using hup)) hearly
    fun hnext => absurd (hlast.symm.trans hnext) (by decide)

/-- **An instruction that succeeds keeps the dashboard recoverable.** -/
theorem Recoverable.succeed (h : s.Recoverable) (hs : s.succeed = some s') : s'.Recoverable := by
  cases hnext : s.next <;> simp only [Offline.succeed, hnext, Option.some.injEq, reduceCtorEq] at hs
  case safeguard left =>
    cases left with
    | nil =>
        obtain rfl := Option.some.inj hs
        exact h.goto (by simp [hnext]) (by simp) (by simp)
    | cons safeguard left =>
        obtain rfl := Option.some.inj hs
        exact ⟨h.back, fun _ => h.early (by simp [hnext]), nofun, nofun⟩
  case loadState =>
    subst hs
    exact h.goto (by simp [hnext]) (by simp) (by simp)
  case isActive =>
    subst hs
    split <;> exact h.goto (by simp [hnext]) (by simp) (by simp)
  case writeMarker =>
    subst hs
    exact ⟨fun _ => .inr rfl, fun _ => h.early (by simp [hnext]), fun _ => .inl rfl, nofun⟩
  case stop =>
    -- The marker was written before, unless another unit took it.
    subst hs
    refine .of_back (fun _ => ?_) rfl nofun
    rcases h.marked hnext with hmarker | htaken
    · exact .inr hmarker
    · exact .inl (by simp [accounted, htaken])
  case act =>
    subst hs
    unfold Offline.afterAct
    split <;> exact h.interrupted rfl rfl
  case poll attempts polls =>
    -- The marker is no longer needed if the dashboard is seen to be up.
    subst hs
    split
    · next hactive => exact h.goto (by simp) (by simp) (by simp [accounted, hactive])
    · split <;> exact h.goto (by simp) (by simp) (by simp)
  case clearMarker =>
    subst hs
    exact .of_back (fun hup => .inl (h.last (by simp [hnext]) hup)) rfl nofun
  case health | report =>
    subst hs
    exact h.goto (by simp) (by simp) (by simp)
  case stopPost =>
    -- Without a marker `ExecStopPost` starts nothing.
    subst hs
    split
    · exact h.goto (by simp) (by simp) (by simp)
    · next hmarker => exact h.goto (by simp) (by simp) fun _ hup => (h.back hup).resolve_right hmarker
  case stopPostRemove =>
    subst hs
    have haccounted := h.last (by simp [hnext])
    exact .of_back (fun hup => .inl (haccounted hup)) rfl fun _ => haccounted

theorem Recoverable.raise (h : s.Recoverable) (hs : s.raise effect = some s') : s'.Recoverable := by
  cases hnext : s.next <;> simp only [Offline.raise, hnext, Option.some.injEq, reduceCtorEq] at hs
  case act =>
    subst hs
    unfold Offline.afterAct
    split <;> exact h.interrupted rfl rfl
  case report =>
    subst hs
    exact h.goto (by simp) (by simp) (by simp)
  all_goals
    subst hs
    exact h.interrupted rfl rfl

/-- **Every step keeps the dashboard recoverable.** -/
theorem Recoverable.step {action : OfflineAction} {step : OfflineStep} (h : s.Recoverable)
    (hs : (offlineWorker action).step s step = some s') : s'.Recoverable := by
  cases step with
  | succeed => exact h.succeed hs
  | raise effect => exact h.raise hs
  | started up returnsZero =>
      have haccounted := accounted_started (s := s) up
      simp only [offlineWorker] at hs
      split at hs
      · obtain rfl := Option.some.inj hs
        exact .of_accounted haccounted fun hnext => by cases returnsZero <;> cases hnext
      · obtain rfl := Option.some.inj hs
        exact .of_accounted haccounted nofun
      · cases hs
  | kill effect =>
      obtain ⟨-, hs⟩ := Option.ite_none_right_eq_some.mp hs
      obtain rfl := Option.some.inj hs
      exact h.interrupted rfl rfl
  | shutdown =>
      obtain ⟨-, hs⟩ := Option.ite_none_right_eq_some.mp hs
      obtain rfl := Option.some.inj hs
      exact .of_accounted (by simp [accounted]) nofun
  | crash =>
      obtain ⟨-, hs⟩ := Option.ite_none_right_eq_some.mp hs
      obtain rfl := Option.some.inj hs
      exact .of_accounted (by simp [accounted]) h.marked
  | comeUp =>
      obtain rfl := Option.some.inj hs
      exact .of_accounted (by simp [accounted]) h.marked
  | otherUnit up =>
      obtain ⟨-, hs⟩ := Option.ite_none_right_eq_some.mp hs
      obtain rfl := Option.some.inj hs
      refine .of_accounted ?_ fun hnext => .inr ?_
      · have haccounted := accounted_started (s := s) up
        simp only [accounted, started, Bool.or_eq_true] at haccounted ⊢
        exact haccounted.imp_right fun htaken => .inl htaken
      · have hstop : s.next = .stop := hnext
        simp [hstop]

theorem Recoverable.init {action : OfflineAction} (h : (offlineWorker action).init s) : s.Recoverable := by
  obtain ⟨hnext, -, -, -, -, hup, -, -, -⟩ := h
  have haccounted : s.upBefore = true → s.accounted = true := fun h => by simp [accounted, hup.symm.trans h]
  refine ⟨fun h => .inl (haccounted h), fun _ => haccounted, fun hstop => ?_, fun _ => haccounted⟩
  cases hnext.symm.trans hstop

end Offline

/-! ## The database is changed behind the safeguards -/

/-- The safeguards that are left before the database is changed. -/
def Instruction.safeguardsLeft : Instruction → Option (List Safeguard)
  | .safeguard left => some left
  | .loadState | .isActive | .writeMarker | .stop | .act => some []
  | _ => none

/-- **Safeguards come first, and the dashboard is down when the database is changed.** -/
structure Offline.Guarded (action : OfflineAction) (s : Offline) : Prop where
  safeguards : ∀ left, s.next.safeguardsLeft = some left → s.safeguarded ++ left = action.safeguards
  acted : s.acted = true → s.safeguarded = action.safeguards
  down : s.next = .act → s.active = true → s.startedOutside = true
  offline : s.actedOnline = true → s.startedOutside = true

namespace Offline

variable {s s' : Offline} {effect : Bool} {action : OfflineAction}

/-- Another instruction is next. -/
theorem Guarded.goto (h : s.Guarded action) {next : Instruction}
    (hleft : ∀ left, next.safeguardsLeft = some left → s.next.safeguardsLeft = some left)
    (hdown : next = .act → s.active = true → s.startedOutside = true) : ({ s with next := next }).Guarded action where
  safeguards left hnext := h.safeguards left (hleft left hnext)
  acted := h.acted
  down := hdown
  offline := h.offline

/-- **What does not return has changed the database behind the safeguards, or not at all.** -/
theorem Guarded.interrupted (h : s.Guarded action) {next : Instruction} (hleft : next.safeguardsLeft = none) :
    ({ s.interrupted effect with next := next }).Guarded action where
  safeguards left hnext := by cases hleft.symm.trans hnext
  down hnext := by
    have hnext : next = .act := hnext
    subst hnext
    cases hleft
  acted hacted := by
    rw [safeguarded_interrupted]
    cases hnext : s.next <;> simp only [Offline.interrupted, hnext] at hacted
    case act => simpa using h.safeguards [] (by rw [hnext]; rfl)
    all_goals exact h.acted hacted
  offline honline := by
    rw [startedOutside_interrupted]
    cases hnext : s.next <;> simp only [Offline.interrupted, hnext] at honline
    case act =>
      rcases Bool.or_eq_true_iff.mp honline with honline | honline
      · exact h.offline honline
      · exact h.down hnext (Bool.and_eq_true_iff.mp honline).2
    all_goals exact h.offline honline

theorem Guarded.succeed (h : s.Guarded action) (hs : s.succeed = some s') : s'.Guarded action := by
  cases hnext : s.next <;> simp only [Offline.succeed, hnext, Option.some.injEq, reduceCtorEq] at hs
  case safeguard left =>
    have hleft := h.safeguards left (by rw [hnext]; rfl)
    cases left with
    | nil =>
        obtain rfl := Option.some.inj hs
        exact h.goto (fun left h => by rw [hnext]; exact h) nofun
    | cons safeguard left =>
        obtain rfl := Option.some.inj hs
        -- What was acted on before the safeguards are done would have one safeguard too few.
        refine ⟨?_, fun hacted => ?_, nofun, h.offline⟩
        · rintro _ ⟨⟩
          rw [← hleft, List.append_assoc, List.singleton_append]
        · have hall := h.acted hacted
          rw [hall] at hleft
          simp at hleft
  case loadState =>
    subst hs
    exact h.goto (fun left h => by rw [hnext]; exact h) nofun
  case isActive =>
    subst hs
    split
    · exact h.goto (fun left h => by rw [hnext]; exact h) nofun
    · next hactive => exact h.goto (fun left h => by rw [hnext]; exact h) fun _ hup => absurd hup hactive
  case writeMarker =>
    subst hs
    exact ⟨fun left hleft => h.safeguards left (by rw [hnext]; exact hleft), h.acted, nofun, h.offline⟩
  case stop =>
    subst hs
    exact ⟨fun left hleft => h.safeguards left (by rw [hnext]; exact hleft), h.acted, nofun, h.offline⟩
  case act =>
    subst hs
    unfold Offline.afterAct
    split <;> exact h.interrupted rfl
  case poll attempts polls =>
    subst hs
    split
    · exact h.goto nofun nofun
    · split <;> exact h.goto nofun nofun
  case clearMarker | stopPostRemove =>
    subst hs
    exact ⟨nofun, h.acted, nofun, h.offline⟩
  case health | report =>
    subst hs
    exact h.goto nofun nofun
  case stopPost =>
    subst hs
    split <;> exact h.goto nofun nofun

theorem Guarded.raise (h : s.Guarded action) (hs : s.raise effect = some s') : s'.Guarded action := by
  cases hnext : s.next <;> simp only [Offline.raise, hnext, Option.some.injEq, reduceCtorEq] at hs
  case act =>
    subst hs
    unfold Offline.afterAct
    split <;> exact h.interrupted rfl
  case report =>
    subst hs
    exact h.goto nofun nofun
  all_goals
    subst hs
    exact h.interrupted rfl

/-- **Every step keeps the safeguards first.** -/
theorem Guarded.step {step : OfflineStep} (h : s.Guarded action)
    (hs : (offlineWorker action).step s step = some s') : s'.Guarded action := by
  cases step with
  | succeed => exact h.succeed hs
  | raise effect => exact h.raise hs
  | started up returnsZero =>
      simp only [offlineWorker] at hs
      split at hs
      · obtain rfl := Option.some.inj hs
        refine ⟨?_, h.acted, ?_, h.offline⟩ <;> cases returnsZero <;> nofun
      · obtain rfl := Option.some.inj hs
        exact ⟨nofun, h.acted, nofun, h.offline⟩
      · cases hs
  | kill effect =>
      obtain ⟨-, hs⟩ := Option.ite_none_right_eq_some.mp hs
      obtain rfl := Option.some.inj hs
      exact h.interrupted rfl
  | shutdown =>
      obtain ⟨-, hs⟩ := Option.ite_none_right_eq_some.mp hs
      obtain rfl := Option.some.inj hs
      exact ⟨nofun, h.acted, nofun, h.offline⟩
  | crash =>
      obtain ⟨-, hs⟩ := Option.ite_none_right_eq_some.mp hs
      obtain rfl := Option.some.inj hs
      exact ⟨h.safeguards, h.acted, nofun, h.offline⟩
  | comeUp =>
      obtain rfl := Option.some.inj hs
      exact ⟨h.safeguards, h.acted, fun _ _ => rfl, fun _ => rfl⟩
  | otherUnit up =>
      obtain ⟨-, hs⟩ := Option.ite_none_right_eq_some.mp hs
      obtain rfl := Option.some.inj hs
      exact ⟨h.safeguards, h.acted, fun _ _ => rfl, fun _ => rfl⟩

theorem Guarded.init (h : (offlineWorker action).init s) : s.Guarded action := by
  obtain ⟨hnext, -, hsafeguarded, hacted, honline, -, -, -, -⟩ := h
  refine ⟨fun left hleft => ?_, fun h => ?_, fun h => ?_, fun h => ?_⟩
  · rw [hnext] at hleft
    cases hleft
    rw [hsafeguarded, List.nil_append]
  · cases hacted.symm.trans h
  · cases hnext.symm.trans h
  · cases honline.symm.trans h

end Offline

/-! ## The unit ends -/

/-- The most instructions that are left. -/
def Instruction.left : Instruction → Nat
  | .safeguard left => 75 + left.length
  | .loadState => 74
  | .isActive => 73
  | .writeMarker => 72
  | .stop => 71
  | .act => 70
  | .start attempts => 6 + 21 * attempts
  | .poll attempts polls => 7 + 21 * attempts + polls
  | .clearMarker => 6
  | .health => 5
  | .report => 4
  | .stopPost => 3
  | .stopPostStart => 2
  | .stopPostRemove => 1
  | .gone => 0

/-- Whether it is the unit that goes on. -/
def OfflineStep.isUnit : OfflineStep → Bool
  | .crash | .comeUp | .otherUnit _ => false
  | _ => true

namespace Offline

variable {s s' : Offline} {action : OfflineAction} {step : OfflineStep}

theorem left_succeed (hs : s.succeed = some s') : s'.next.left < s.next.left := by
  cases hnext : s.next <;> simp only [Offline.succeed, hnext, Option.some.injEq, reduceCtorEq] at hs
  case safeguard left =>
    cases left <;> obtain rfl := Option.some.inj hs <;> simp [Instruction.left]
  case act =>
    subst hs
    unfold Offline.afterAct
    split <;> simp [Instruction.left]
  case poll attempts polls =>
    subst hs
    split
    · simp only [Instruction.left]
      omega
    · split <;> simp only [Instruction.left] <;> omega
  case isActive | stopPost =>
    subst hs
    split <;> simp [Instruction.left]
  all_goals
    subst hs
    simp [Instruction.left]

theorem left_raise {effect : Bool} (hs : s.raise effect = some s') : s'.next.left < s.next.left := by
  cases hnext : s.next <;> simp only [Offline.raise, hnext, Option.some.injEq, reduceCtorEq] at hs
  case act =>
    subst hs
    unfold Offline.afterAct
    split <;> simp [Instruction.left]
  all_goals
    subst hs
    simp only [Instruction.left]
    omega

/-- The unit comes closer to its end with every instruction, and what else happens does not set it back. -/
theorem left_step (hs : (offlineWorker action).step s step = some s') :
    s'.next.left + (if step.isUnit = true then 1 else 0) ≤ s.next.left := by
  cases step with
  | succeed => exact left_succeed hs
  | raise effect => exact left_raise hs
  | started up returnsZero =>
      simp only [offlineWorker] at hs
      split at hs
      · next hnext =>
          obtain rfl := Option.some.inj hs
          cases returnsZero <;> simp only [hnext, Instruction.left, OfflineStep.isUnit] <;> grind
      · next hnext =>
          obtain rfl := Option.some.inj hs
          simp [hnext, Instruction.left, OfflineStep.isUnit]
      · cases hs
  | kill effect =>
      obtain ⟨hworker, hs⟩ := Option.ite_none_right_eq_some.mp hs
      obtain rfl := Option.some.inj hs
      cases hnext : s.next <;> simp only [hnext, Instruction.isWorker, Bool.false_eq_true] at hworker <;>
        simp only [Instruction.left, OfflineStep.isUnit] <;> grind
  | shutdown =>
      obtain ⟨hnext, hs⟩ := Option.ite_none_right_eq_some.mp hs
      obtain rfl := Option.some.inj hs
      simp [hnext, Instruction.left, OfflineStep.isUnit]
  | crash =>
      obtain ⟨-, hs⟩ := Option.ite_none_right_eq_some.mp hs
      obtain rfl := Option.some.inj hs
      exact Nat.le_refl _
  | comeUp =>
      obtain rfl := Option.some.inj hs
      exact Nat.le_refl _
  | otherUnit up =>
      obtain ⟨-, hs⟩ := Option.ite_none_right_eq_some.mp hs
      obtain rfl := Option.some.inj hs
      exact Nat.le_refl _

/-- A unit takes no more steps than its instructions. -/
theorem left_exec {steps : List OfflineStep} (hrun : (offlineWorker action).exec System.AnyStep s steps = some s') :
    s'.next.left + steps.countP OfflineStep.isUnit ≤ s.next.left := by
  induction steps generalizing s with
  | nil =>
      obtain rfl := Option.some.inj hrun
      exact Nat.le_refl _
  | cons step rest ih =>
      rw [System.exec, if_pos trivial] at hrun
      obtain ⟨mid, hmid, hrest⟩ := Option.bind_eq_some_iff.mp hrun
      have hstep := left_step hmid
      have hrest := ih hrest
      rw [List.countP_cons]
      omega

/-- The unit can always go on until it is gone. -/
theorem exists_step (action : OfflineAction) (hnext : s.next ≠ .gone) :
    ∃ step s', step.isUnit = true ∧ (offlineWorker action).step s step = some s' := by
  cases h : s.next
  case safeguard left => cases left <;> exact ⟨.succeed, _, rfl, by simp only [offlineWorker, succeed, h]; rfl⟩
  case start attempts =>
    cases attempts with
    | zero => exact ⟨.raise false, _, rfl, by simp only [offlineWorker, raise, h]; rfl⟩
    | succ attempts => exact ⟨.started true true, _, rfl, by simp only [offlineWorker, h]; rfl⟩
  case stopPostStart => exact ⟨.started true true, _, rfl, by simp only [offlineWorker, h]; rfl⟩
  case gone => exact absurd h hnext
  all_goals exact ⟨.succeed, _, rfl, by simp only [offlineWorker, succeed, h]; rfl⟩

end Offline

/-- **An offline action**: whatever raises or is killed, the database is changed only when every safeguard of the action is
there, and only while the dashboard is down unless something else started it. The unit always ends, after a bounded number of
instructions. A dashboard that was up is then up, unless it fails by itself or another unit took the marker away between its
writing and the stop. -/
theorem offline_action_safe {action : OfflineAction} {s : Offline}
    (h : System.Reachable (offlineWorker action) System.AnyStep s) :
    (s.acted = true → s.safeguarded = action.safeguards ∧ (s.actedOnline = true → s.startedOutside = true)) ∧
      (s.next = .gone → s.upBefore = true → s.active = true ∨ s.excused = true ∨ s.taken = true) ∧
      (s.next ≠ .gone → ∃ step s', step.isUnit = true ∧ (offlineWorker action).step s step = some s') ∧
      ∀ steps s', (offlineWorker action).exec System.AnyStep s steps = some s' →
        steps.countP OfflineStep.isUnit ≤ s.next.left := by
  have hguarded : s.Guarded action := h.invariant (fun _ => Offline.Guarded.init) fun _ _ _ _ h _ hs => h.step hs
  have hrecoverable : s.Recoverable := h.invariant (fun _ => Offline.Recoverable.init) fun _ _ _ _ h _ hs => h.step hs
  refine ⟨fun hacted => ⟨hguarded.acted hacted, hguarded.offline⟩, fun hgone hup => ?_, Offline.exists_step action,
    fun steps s' hrun => ?_⟩
  · have haccounted := hrecoverable.last (by rw [hgone]; rfl) hup
    simpa [Offline.accounted, or_assoc] using haccounted
  · exact Nat.le_of_add_left_le (Offline.left_exec hrun)

/-- A dashboard that is up, and a worker about to begin. -/
def aboutToReset : Offline :=
  ⟨.safeguard [.configurationBackup], false, true, false, [], false, false, true, false, false, false⟩

/-- The worker is killed when the reset is written, and `ExecStopPost` starts the dashboard. -/
def killedReset : List OfflineStep :=
  [.succeed, .succeed, .succeed, .succeed, .succeed, .succeed, .kill true, .succeed, .started true true, .succeed]

theorem killed_reset_safe :
    ∃ s, (offlineWorker (.resetAppData true false)).exec System.AnyStep aboutToReset killedReset = some s ∧
      s.next = .gone ∧ s.acted = true ∧ s.safeguarded = [.configurationBackup] ∧
      (s.active = true ∨ s.excused = true ∨ s.taken = true) := by
  have hruns : ((offlineWorker (.resetAppData true false)).exec System.AnyStep aboutToReset killedReset).map
      (fun s => (s.next, s.acted, s.upBefore)) = some (.gone, true, true) := by
    decide
  obtain ⟨s, hs, hends⟩ := Option.map_eq_some_iff.mp hruns
  simp only [Prod.mk.injEq] at hends
  obtain ⟨hgone, hacted, hup⟩ := hends
  have hsafe := offline_action_safe (System.Reachable.exec (.init ⟨rfl, rfl, rfl, rfl, rfl, rfl, rfl, rfl, rfl⟩) hs)
  exact ⟨s, hs, hgone, hacted, (hsafe.1 hacted).1, hsafe.2.1 hgone hup⟩

end VirtInfra.Maintenance
