import VirtInfra.Maintenance.Effect

/-!
# `Serial` — one job at a time, in the order of the queue

A dispatcher counts the active jobs before it claims one, but a late worker may still report progress over a job that has
ended. What keeps the jobs apart in every run is the unique index over the active rows: of all row versions, committed or
not, those of one job at most are `starting` or `running`. The order of the queue is kept up to `SKIP LOCKED`: a claim
passes over a queued job only while another transaction holds its row (`queued_job_overtaken`).
-/

namespace VirtInfra.Maintenance

open Lib

/-- The job is starting or running. -/
def State.Active (s : State) (id : Nat) : Prop := ∃ status, s.status? id = some status ∧ status.active = true

/-- **The invariant.** The index allows one active job. -/
def Serial (s : State) : Prop := s.db.OneActive fun job => job.status.active

theorem Serial.init (now : Int) : Serial (State.init now) := by
  rintro i k (⟨r, hr, -⟩ | ⟨p, w, r, hw, -, -⟩) -
  · cases hr
  · cases hw

section

variable {s s' : State} {l : Label} {p : Nat}

theorem active_iff {id : Nat} : s.Active id ↔ ∃ job, s.db.rows.get? id = some job ∧ job.status.active = true := by
  unfold State.Active State.status? State.job?
  simp only [Option.map_eq_some_iff]
  constructor
  · rintro ⟨_, ⟨job, hjob, rfl⟩, hactive⟩
    exact ⟨job, hjob, hactive⟩
  · rintro ⟨job, hjob, hactive⟩
    exact ⟨_, ⟨job, hjob, rfl⟩, hactive⟩

/-- **Every step keeps it**, a failed write, a crash and a heartbeat included. -/
theorem Serial.preserved (hs : Serial s) (hstep : step s l = some s') : Serial s' := by
  cases step_effect hstep with
  | stay hpending hstatus =>
      refine hs.of_le fun k hk => ?_
      rcases hk with hrow | ⟨q, w, r, hw, hr⟩
      · have hactive : s'.Active k := active_iff.mpr hrow
        unfold State.Active at hactive
        rw [hstatus] at hactive
        exact .inl (active_iff.mp hactive)
      · rw [hpending] at hw
        exact .inr ⟨q, w, r, hw, hr⟩
  | move p phase hdb =>
      unfold Serial
      rw [hdb]
      exact hs
  | write p rows phase hrows hpending hindex => exact Transactional.OneActive.write hs hrows hpending hindex
  | commit p phase _ hdb =>
      unfold Serial
      rw [hdb]
      exact Transactional.OneActive.commit hs p
  | rollback p phase hdb =>
      unfold Serial
      rw [hdb]
      exact Transactional.OneActive.rollback hs p

theorem serial_of_reachable {ok : State → Label → Prop} (h : maintenance.Reachable ok s) : Serial s := by
  apply h.invariant
  · rintro s ⟨now, rfl⟩
    exact Serial.init now
  · intro s l s' _ hs _ hstep
    exact hs.preserved hstep

/-- What a dispatcher claims is what the queue names; after a claim that fails it claims nothing. -/
theorem claimNext_picks {i : Nat} (h : claimNext s p = some s') (hphase : s'.procs p = .claiming i) :
    nextJob s p = some i := by
  have hidle : ∀ phase : Phase, phase ≠ .claiming i → (s.abandon p phase).procs p ≠ .claiming i := by
    intro phase hne heq
    change Function.update s.procs p phase p = .claiming i at heq
    rw [Function.update_self] at heq
    exact hne heq
  unfold claimNext at h
  split at h
  · split at h
    · obtain rfl := Option.some.inj h
      exact absurd hphase (hidle .idle nofun)
    · next id hnext =>
        rcases write_cases h with ⟨db, -, -, rfl⟩ | ⟨-, phase, hrollback, rfl⟩
        · have hclaiming : (s.goto p (.claiming id)).procs p = .claiming id := Function.update_self p _ s.procs
          rw [hnext, Phase.claiming.inj (hclaiming.symm.trans hphase)]
        · obtain rfl := Option.some.inj hrollback
          exact absurd hphase (hidle .idle nofun)
  · cases h

end

/-- **One job at a time, in the order of the queue.** In every run at most one job is starting or running; and when a
    dispatcher takes a job, each queued job with a smaller id that is not to be cancelled is locked by another process's
    open transaction. -/
theorem dispatcher_serial_fair :
    (∀ s, maintenance.Reachable System.AnyStep s → ∀ i k, s.Active i → s.Active k → i = k) ∧
    (∀ s s' p i, maintenance.Reachable System.AnyStep s → maintenance.step s (.claimNext p) = some s' →
      s'.procs p = .claiming i →
      ∀ k job, k < i → s.job? k = some job → job.status = .queued → job.cancelRequested = false →
        ∃ q, q ≠ p ∧ s.db.Holds q k) := by
  constructor
  · intro s h i k hi hk
    exact serial_of_reachable h i k (.inl (active_iff.mp hi)) (.inl (active_iff.mp hk))
  · intro s s' p i _ hstep hphase k job hlt hjob hqueued hcancel
    obtain ⟨-, hskipped⟩ := nextJob_eq_some (claimNext_picks hstep hphase)
    have hclaimable : job.claimable = true := by
      unfold Job.claimable
      rw [hqueued, hcancel]
      rfl
    exact Transactional.lockedFor_iff.mp (hskipped k job hjob hclaimable hlt)

/-- A dispatcher up to its claim. -/
def dispatchRun (p : Nat) : List Label := [.recover p, .readActive p, .lockDispatch p, .checkActive p]

/-- Job 1 is queued, and the enqueue is noting that its wake failed, when job 2 is enqueued and a dispatcher runs. -/
def overtakingRun : List Label :=
  [.enqueue 0 "vacuum" false, .commit 0, .noteWakeFailure 0 "", .enqueue 4 "vacuum" false, .commit 4] ++ dispatchRun 1

/-- **A queued job is overtaken**: the dispatcher takes job 2 while job 1 is queued and not to be cancelled. -/
theorem queued_job_overtaken : ∃ s s', maintenance.Reachable System.AnyStep s ∧
    maintenance.step s (.claimNext 1) = some s' ∧ s'.procs 1 = .claiming 2 ∧
    ∃ job, s.job? 1 = some job ∧ job.status = .queued ∧ job.cancelRequested = false := by
  have hrun : ((maintenance.exec System.AnyStep (State.init 72000) overtakingRun).bind fun s =>
      (maintenance.step s (.claimNext 1)).map fun s' =>
        (s'.procs 1, (s.job? 1).map fun job => (job.status, job.cancelRequested))) =
          some (.claiming 2, some (.queued, false)) := by decide +kernel
  obtain ⟨s, hexec, hlast⟩ := Option.bind_eq_some_iff.mp hrun
  obtain ⟨s', hstep, hvalues⟩ := Option.map_eq_some_iff.mp hlast
  obtain ⟨hpicked, hjob⟩ := Prod.mk.inj hvalues
  obtain ⟨job, hjob, hcols⟩ := Option.map_eq_some_iff.mp hjob
  obtain ⟨hqueued, hcancel⟩ := Prod.mk.inj hcols
  have hstart : maintenance.Reachable System.AnyStep (State.init 72000) := .init ⟨72000, rfl⟩
  exact ⟨s, s', hstart.exec hexec, hstep, hpicked, job, hjob, hqueued, hcancel⟩

/-- The claim order is not the order of the ids. -/
theorem claims_out_of_order : ¬ ∀ s s' p i, maintenance.Reachable System.AnyStep s →
    maintenance.step s (.claimNext p) = some s' → s'.procs p = .claiming i →
    ∀ k job, k < i → s.job? k = some job → ¬ (job.status = .queued ∧ job.cancelRequested = false) := by
  intro hfair
  obtain ⟨s, s', hreach, hstep, hpicked, job, hjob, hcols⟩ := queued_job_overtaken
  exact hfair s s' 1 2 hreach hstep hpicked 1 job (by decide) hjob hcols

/-- The heartbeats of job 1's worker fail for 300 seconds and `is-active` says no; recovery ends the job, the next one
    is claimed, and then the worker reports its progress. -/
def revivedRun : List Label :=
  [.enqueue 0 "vacuum" false, .commit 0, .leave 0, .enqueue 0 "vacuum" false, .commit 0] ++ dispatchRun 1 ++
    [.claimNext 1, .commit 1, .startUnit 1 none, .spawn 2 1, .acquireLock 2, .readJob 2, .claimJob 2 "app.py", .commit 2,
      .tick 300, .recover 3, .readActive 3, .recoverRow 3 false, .commit 3, .lockDispatch 3, .checkActive 3,
      .claimNext 3, .commit 3, .reportProgress 2 "" none]

/-- The report fails by the index, and job 2 is the only active one; an overtaken job is locked. -/
theorem dispatcher_serial_fair_sample :
    (∃ s, maintenance.Reachable System.AnyStep s ∧ s.status? 1 = some .error ∧ s.Active 2 ∧ ∀ k, s.Active k → k = 2) ∧
    ∃ s, maintenance.Reachable System.AnyStep s ∧ ∃ q, q ≠ 1 ∧ s.db.Holds q 1 := by
  constructor
  · have hrun : ((maintenance.exec System.AnyStep (State.init 72000) revivedRun).map fun s =>
        (s.status? 1, s.status? 2)) = some (some .error, some .starting) := by decide +kernel
    obtain ⟨s, hexec, hvalues⟩ := Option.map_eq_some_iff.mp hrun
    obtain ⟨hfirst, hsecond⟩ := Prod.mk.inj hvalues
    have hstart : maintenance.Reachable System.AnyStep (State.init 72000) := .init ⟨72000, rfl⟩
    have hreach := hstart.exec hexec
    have hactive : s.Active 2 := ⟨.starting, hsecond, rfl⟩
    exact ⟨s, hreach, hfirst, hactive, fun k hk => dispatcher_serial_fair.1 s hreach k 2 hk hactive⟩
  · obtain ⟨s, s', hreach, hstep, hpicked, job, hjob, hqueued, hcancel⟩ := queued_job_overtaken
    exact ⟨s, hreach, dispatcher_serial_fair.2 s s' 1 2 hreach hstep hpicked 1 job (by decide) hjob hqueued hcancel⟩

end VirtInfra.Maintenance
