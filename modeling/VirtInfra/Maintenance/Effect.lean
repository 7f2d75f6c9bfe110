import VirtInfra.Maintenance.System

/-!
# `Effect` — what a step can do

Every step is of one of five kinds, and an invariant is a claim about each of them. `Changes` lists the ten updates of
the program: who writes, in which phase, and from which status to which.
-/

namespace VirtInfra.Maintenance

open Lib

/-- **The updates of a job's status**, with the label and the phase of the transaction they open. -/
inductive Changes (s : State) (p : Nat) : Label → Phase → Nat → Status → Status → Prop
  | note {detail : String} {k : Nat} : Changes s p (.noteWakeFailure p detail) .noting k .queued .queued
  | cancel {id k : Nat} {actor : String} : Changes s p (.cancel p id actor) .cancelling k .queued .cancelled
  | sweep {k : Nat} {old : Status} {now : Int} (hpending : old.pending = true)
      (hmark : ((legacyMarks s s.now).get? k).isSome) : Changes s p (.recover p) (.sweeping now) k old .cancelled
  | mark {k : Nat} {seen : Job} {rest : List (Nat × Job)} {now : Int}
      (hphase : s.procs p = .recovering now ((k, seen) :: rest)) (hstale : stale now seen = true)
      (hmark : ((staleMarks s now k seen).get? k).isSome) :
      Changes s p (.recoverRow p false) (.marking now rest) k seen.status .error
  | claim {k : Nat} {now : Int} (hphase : s.procs p = .checked now) :
      Changes s p (.claimNext p) (.claiming k) k .queued .starting
  | startError {k : Nat} : Changes s p (.markStartError p) .markingStart k .starting .error
  | take {k : Nat} {status : Status} {action appFile : String} {unclaimed : status = .starting ∨ status = .queued}
      (hphase : s.procs p = .read k status action unclaimed) :
      Changes s p (.claimJob p appFile) (.taking k true) k status .running
  | report {k : Nat} {old : Status} {message : String} {progress : Option Int} (hphase : s.procs p = .running k) :
      Changes s p (.reportProgress p message progress) (.reporting k) k old .running
  | finish {k : Nat} {old : Status} {result : String} (hphase : s.procs p = .running k) :
      Changes s p (.finish p result) (.finishing k) k old .ok
  | fail {k : Nat} {old : Status} {owns : Bool} {message : String} (hphase : s.procs p = .failing k owns message) :
      Changes s p (.reportError p) (.erring k owns) k old .error

/-- What a row version in a new transaction is: a new job, or one of the updates. -/
inductive Writes (s s' : State) (p : Nat) (l : Label) (phase : Phase) (k : Nat) (new : Job) : Prop
  | insert (hphase : phase = .enqueuing k) (hk : k = s.nextId) (hnext : k < s'.nextId) (hnew : new.status = .queued)
  | update (old : Job) (hold : s.job? k = some old) (hchange : Changes s p l phase k old.status new.status)

/-- **The effect of a step** on the rows, the transactions and the phases. -/
inductive Effect (s : State) (l : Label) (s' : State) : Prop
  /-- Time passes, a heartbeat is written, or a request is refused. -/
  | stay (hpending : s'.db.pending = s.db.pending) (hstatus : ∀ id, s'.status? id = s.status? id)
      (hprocs : s'.procs = s.procs) (hnext : s'.nextId = s.nextId)
  /-- The process goes to another phase without a write. -/
  | move (p : Nat) (phase : Phase) (hdb : s'.db = s.db) (hprocs : s'.procs = Function.update s.procs p phase)
      (hnext : s'.nextId = s.nextId) (hruns : phase.runs = none) (hplain : phase.afterCommit = none)
  /-- The process opens a transaction on `rows`. -/
  | write (p : Nat) (rows : Jobs) (phase : Phase) (hrows : s'.db.rows = s.db.rows)
      (hpending : ∀ q, s'.db.pending.get? q = if q = p then some rows else s.db.pending.get? q)
      (hindex : s.db.checkIndex (fun job => job.status.active) p rows = .free)
      (hprocs : s'.procs = Function.update s.procs p phase) (hnext : s.nextId ≤ s'.nextId)
      (hruns : phase.runs = (s.procs p).runs) (hwrote : ∀ id, phase.wrote = some id → (rows.get? id).isSome)
      (hwrites : ∀ k new, rows.get? k = some new → Writes s s' p l phase k new)
  | commit (p : Nat) (phase : Phase) (hprocess : l.process = some p) (hdb : s'.db = s.db.commit p)
      (hprocs : s'.procs = Function.update s.procs p phase) (hnext : s'.nextId = s.nextId)
      (hplain : phase.afterCommit = none) (hphase : (s.procs p).afterCommit = some phase ∨ phase.runs = none)
  | rollback (p : Nat) (phase : Phase) (hdb : s'.db = s.db.rollback p)
      (hprocs : s'.procs = Function.update s.procs p phase) (hnext : s'.nextId = s.nextId)
      (hruns : phase.runs = none ∨ phase.runs = (s.procs p).runs) (hplain : phase.afterCommit = none)

theorem mem_updated {s : State} {id k : Nat} {cond : Job → Bool} {f : Job → Job} {new : Job} :
    (s.updated id cond f).get? k = some new ↔
      k = id ∧ ∃ old, s.job? k = some old ∧ cond old = true ∧ f old = new := by
  unfold State.updated State.job?
  rw [KeyedTable.get?_updateWhere_eq_some]
  constructor
  · rintro ⟨old, hold, hcond, hnew⟩
    rw [Bool.and_eq_true, decide_eq_true_eq] at hcond
    exact ⟨hcond.1, old, hold, hcond.2, hnew⟩
  · rintro ⟨rfl, old, hold, hcond, hnew⟩
    exact ⟨old, hold, by simpa using hcond, hnew⟩

theorem abandon_effect {s : State} {l : Label} {p : Nat} {phase : Phase}
    (hruns : phase.runs = none ∨ phase.runs = (s.procs p).runs) (hplain : phase.afterCommit = none) :
    Effect s l (s.abandon p phase) := .rollback p phase rfl rfl rfl hruns hplain

theorem Phase.afterRollback_spec {message : String} {old new : Phase} (h : old.afterRollback message = some new) :
    (new.runs = none ∨ new.runs = old.runs) ∧ new.afterCommit = none := by
  cases old <;> simp only [afterRollback, Option.some.injEq, reduceCtorEq] at h <;> subst h <;>
    simp [runs, afterCommit]

/-- What a writing statement does: it opens the transaction, or the index lets it fail. -/
theorem write_cases {s s' : State} {p : Nat} {rows : Jobs} {phase : Phase} (h : s.write p rows phase = some s') :
    (∃ db, s.db.write p rows = some db ∧ s.db.checkIndex (fun job => job.status.active) p rows = .free ∧
      s' = { s.goto p phase with db }) ∨
    (s.db.checkIndex (fun job => job.status.active) p rows = .duplicate ∧
      ∃ next, phase.afterRollback State.duplicateKey = some next ∧ s' = s.abandon p next) := by
  obtain ⟨db, hdb, h⟩ := Option.bind_eq_some_iff.mp h
  split at h
  · next hfree => exact .inl ⟨db, hdb, hfree, (Option.some.inj h).symm⟩
  · cases h
  · next hduplicate =>
      obtain ⟨next, hnext, rfl⟩ := Option.map_eq_some_iff.mp h
      exact .inr ⟨hduplicate, next, hnext, rfl⟩

/-- A statement that makes no job active does not fail by the index. -/
theorem write_of_inactive {s s' : State} {p : Nat} {rows : Jobs} {phase : Phase} (h : s.write p rows phase = some s')
    (hinactive : ∀ k new, rows.get? k = some new → new.status.active = false) :
    ∃ db, s.db.write p rows = some db ∧ s.db.checkIndex (fun job => job.status.active) p rows = .free ∧
      s' = { s.goto p phase with db } := by
  have hfree : s.db.checkIndex (fun job => job.status.active) p rows = .free :=
    Transactional.checkIndex_of_inactive fun row hrow => hinactive row.1 row.2 (KeyedTable.get?_of_mem_rows hrow)
  rcases write_cases h with hwrite | ⟨hduplicate, -⟩
  · exact hwrite
  · rw [hfree] at hduplicate
    cases hduplicate

/-- The effect of a statement that updates one row. -/
theorem Effect.of_update {s s' : State} {p id : Nat} {l : Label} {phase : Phase} {cond : Job → Bool} {f : Job → Job}
    (h : s.write p (s.updated id cond f) phase = some s') (hruns : phase.runs = (s.procs p).runs)
    (hwrote : ∀ k, phase.wrote = some k → k = id ∧ ∃ old, s.job? id = some old ∧ cond old = true)
    (hchange : ∀ old, s.job? id = some old → cond old = true → Changes s p l phase id old.status (f old).status) :
    Effect s l s' := by
  rcases write_cases h with ⟨db, hdb, hindex, rfl⟩ | ⟨-, next, hnext, rfl⟩
  · obtain ⟨hrows, hpending⟩ := Transactional.write_eq_some hdb
    refine .write p _ phase hrows hpending hindex rfl le_rfl hruns (fun k hk => ?_) fun k new hnew => ?_
    · obtain ⟨rfl, old, hold, hcond⟩ := hwrote k hk
      exact Option.isSome_iff_exists.mpr ⟨f old, mem_updated.mpr ⟨rfl, old, hold, hcond, rfl⟩⟩
    · obtain ⟨rfl, old, hold, hcond, rfl⟩ := mem_updated.mp hnew
      exact .update old hold (hchange old hold hcond)
  · obtain ⟨hruns', hplain⟩ := Phase.afterRollback_spec hnext
    exact abandon_effect (hruns ▸ hruns') hplain

/-! ### The web process -/

theorem enqueueJob_effect {s s' : State} {l : Label} {p : Nat} {action : String} {exclusive : Bool}
    (h : enqueueJob s p action exclusive = some s') : Effect s l s' := by
  unfold enqueueJob at h
  split at h
  · next hidle =>
      dsimp only at h
      split at h
      · cases h
        exact .stay rfl (fun _ => rfl) rfl rfl
      · obtain ⟨mid, hmid, rfl⟩ := Option.map_eq_some_iff.mp h
        obtain ⟨db, hdb, hindex, rfl⟩ := write_of_inactive hmid fun k new hnew => by
          rw [KeyedTable.get?_put] at hnew
          split at hnew
          · obtain rfl := Option.some.inj hnew
            rfl
          · cases hnew
        obtain ⟨hrows, hpending⟩ := Transactional.write_eq_some hdb
        refine .write p _ _ hrows hpending hindex rfl (Nat.le_succ _) ?_ nofun ?_
        · rw [hidle.1]
          rfl
        · intro k new hnew
          rw [KeyedTable.get?_put] at hnew
          split at hnew
          · next hk =>
              obtain rfl := Option.some.inj hnew
              exact .insert (by rw [hk]) hk (by simp [hk]) rfl
          · cases hnew
  · cases h

theorem noteWakeFailure_effect {s s' : State} {p : Nat} {detail : String} (h : noteWakeFailure s p detail = some s') :
    Effect s (.noteWakeFailure p detail) s' := by
  unfold noteWakeFailure at h
  split at h
  · next id hphase =>
      refine .of_update h (by rw [hphase]; rfl) nofun fun old _ hcond => ?_
      have hqueued : old.status = .queued := by simpa using hcond
      show Changes s p _ _ id old.status old.status
      rw [hqueued]
      exact .note
  · cases h

theorem cancelQueuedJob_effect {s s' : State} {p id : Nat} {actor : String} (h : cancelQueuedJob s p id actor = some s') :
    Effect s (.cancel p id actor) s' := by
  unfold cancelQueuedJob at h
  split at h
  · next hidle =>
      refine .of_update h (by rw [hidle]; rfl) nofun fun old _ hcond => ?_
      have hqueued : old.status = .queued := by simpa using hcond
      rw [hqueued]
      exact .cancel
  · cases h

/-! ### Dispatchers -/

theorem recoverStaleRows_effect {s s' : State} {p : Nat} (h : recoverStaleRows s p = some s') :
    Effect s (.recover p) s' := by
  unfold recoverStaleRows at h
  split at h
  · next hidle =>
      obtain ⟨db, hdb, hindex, rfl⟩ := write_of_inactive h fun k new hnew => by
        obtain ⟨old, -, -, rfl⟩ := KeyedTable.get?_updateWhere_eq_some.mp hnew
        rfl
      obtain ⟨hrows, hpending⟩ := Transactional.write_eq_some hdb
      refine .write p _ _ hrows hpending hindex rfl le_rfl (by rw [hidle]; rfl) nofun ?_
      intro k new hnew
      obtain ⟨old, hold, hcond, rfl⟩ := KeyedTable.get?_updateWhere_eq_some.mp hnew
      rw [Bool.and_eq_true] at hcond
      exact .update old hold (.sweep hcond.2 (Option.isSome_iff_exists.mpr ⟨_, hnew⟩))
  · cases h

theorem readActive_effect {s s' : State} {p : Nat} (h : readActive s p = some s') : Effect s (.readActive p) s' := by
  unfold readActive at h
  split at h
  · cases h
    exact .commit p _ rfl rfl rfl rfl rfl (.inr rfl)
  · cases h

theorem recoverRow_effect {s s' : State} {p : Nat} {unitActive : Bool} (h : recoverRow s p unitActive = some s') :
    Effect s (.recoverRow p unitActive) s' := by
  unfold recoverRow at h
  split at h
  · next now id seen rest hphase =>
      split at h
      · cases h
        exact .move p _ rfl rfl rfl rfl rfl
      · next hcond =>
          obtain ⟨rfl, hstale⟩ : unitActive = false ∧ stale now seen = true := by simpa using hcond
          refine .of_update h (by rw [hphase]; rfl) nofun fun old hold hcond => ?_
          have hmark : ((staleMarks s now id seen).get? id).isSome :=
            Option.isSome_iff_exists.mpr ⟨_, mem_updated.mpr ⟨rfl, old, hold, hcond, rfl⟩⟩
          have hseen : old.status = seen.status := by simpa using hcond
          rw [hseen]
          exact .mark hphase hstale hmark
  · cases h

theorem lockDispatch_effect {s s' : State} {l : Label} {p : Nat} (h : lockDispatch s p = some s') : Effect s l s' := by
  unfold lockDispatch at h
  split at h
  · next now hphase =>
      split at h
      · next hfree =>
          cases h
          exact .move p _ rfl rfl rfl rfl rfl
      · cases h
  · cases h

theorem checkActive_effect {s s' : State} {l : Label} {p : Nat} (h : checkActive s p = some s') : Effect s l s' := by
  unfold checkActive at h
  split at h
  · split at h
    · cases h
      exact .move p .idle rfl rfl rfl rfl rfl
    · cases h
      exact .move p _ rfl rfl rfl rfl rfl
  · cases h

/-- What `claim_next` picks is claimable, free, and the first such job. -/
theorem nextJob_eq_some {s : State} {p i : Nat} (h : nextJob s p = some i) :
    (∃ job, s.job? i = some job ∧ job.claimable = true) ∧
    ∀ k job, s.job? k = some job → job.claimable = true → k < i → s.db.lockedFor p k = true := by
  obtain ⟨⟨job, hjob, hcond⟩, hleast⟩ := KeyedTable.firstKey_eq_some h
  rw [Bool.and_eq_true] at hcond
  refine ⟨⟨job, hjob, hcond.1⟩, fun k other hother hclaimable hlt => ?_⟩
  by_contra hfree
  have hle := hleast k other hother (by simpa [hclaimable] using hfree)
  omega

theorem claimNext_effect {s s' : State} {p : Nat} (h : claimNext s p = some s') : Effect s (.claimNext p) s' := by
  unfold claimNext at h
  split at h
  · next now hphase =>
      split at h
      · cases h
        exact .move p .idle rfl rfl rfl rfl rfl
      · next id hnext =>
          obtain ⟨⟨job, hjob, hclaimable⟩, -⟩ := nextJob_eq_some hnext
          refine .of_update h (by rw [hphase]; rfl) ?_ ?_
          · rintro k ⟨⟩
            exact ⟨rfl, job, hjob, rfl⟩
          · intro old hold _
            rw [hjob] at hold
            cases hold
            have hqueued : job.status = .queued := by
              unfold Job.claimable at hclaimable
              simp only [Bool.and_eq_true, decide_eq_true_eq] at hclaimable
              exact hclaimable.1
            rw [hqueued]
            exact .claim hphase
  · cases h

theorem startUnit_effect {s s' : State} {l : Label} {p : Nat} {failure : Option String}
    (h : startUnit s p failure = some s') : Effect s l s' := by
  unfold startUnit at h
  split at h
  · next id hphase =>
      cases failure with
      | none =>
          cases h
          exact .move p .idle rfl rfl rfl rfl rfl
      | some output =>
          cases h
          exact .move p _ rfl rfl rfl rfl rfl
  · cases h

theorem markStartError_effect {s s' : State} {p : Nat} (h : markStartError s p = some s') :
    Effect s (.markStartError p) s' := by
  unfold markStartError at h
  split at h
  · next id output hphase =>
      refine .of_update h (by rw [hphase]; rfl) nofun fun old _ hcond => ?_
      have hstarting : old.status = .starting := by simpa using hcond
      rw [hstarting]
      exact .startError
  · cases h

/-! ### Workers -/

theorem spawnWorker_effect {s s' : State} {l : Label} {p id : Nat} (h : spawnWorker s p id = some s') :
    Effect s l s' := by
  unfold spawnWorker at h
  split at h
  · next hspawn =>
      cases h
      exact .move p _ rfl rfl rfl rfl rfl
  · cases h

theorem acquireLock_effect {s s' : State} {l : Label} {p : Nat} (h : acquireLock s p = some s') : Effect s l s' := by
  unfold acquireLock at h
  split at h
  · next id hphase =>
      split at h
      · cases h
        exact .move p _ rfl rfl rfl rfl rfl
      · cases h
        exact .move p _ rfl rfl rfl rfl rfl
  · cases h

theorem readJob_effect {s s' : State} {l : Label} {p : Nat} (h : readJob s p = some s') : Effect s l s' := by
  unfold readJob at h
  split at h
  · next id hphase =>
      split at h
      · cases h
        exact .move p _ rfl rfl rfl rfl rfl
      · split at h
        · cases h
          exact .move p _ rfl rfl rfl rfl rfl
        · cases h
          exact .move p _ rfl rfl rfl rfl rfl
  · cases h

theorem claimJob_effect {s s' : State} {p : Nat} {appFile : String} (h : claimJob s p appFile = some s') :
    Effect s (.claimJob p appFile) s' := by
  unfold claimJob at h
  split at h
  · next id status action unclaimed hphase =>
      -- The row count `update_job` returns is the truth of the phase's flag.
      dsimp only at h
      cases hempty : (updateJob s id (claimReport action appFile) (some status)).rows.isEmpty with
      | true =>
          rw [hempty] at h
          refine .of_update h (by rw [hphase]; rfl) nofun fun old hold hcond => ?_
          have hrow : (updateJob s id (claimReport action appFile) (some status)).get? id =
              some ((claimReport action appFile).apply s.now old) := mem_updated.mpr ⟨rfl, old, hold, hcond, rfl⟩
          have hmem := KeyedTable.mem_rows_of_get? hrow
          rw [List.isEmpty_iff.mp hempty] at hmem
          cases hmem
      | false =>
          rw [hempty] at h
          refine .of_update h (by rw [hphase]; rfl) ?_ fun old _ hcond => ?_
          · rintro k ⟨⟩
            obtain ⟨row, hrow⟩ := List.exists_mem_of_ne_nil _ (List.isEmpty_eq_false_iff.mp hempty)
            obtain ⟨hk, old, hold, hcond, -⟩ := mem_updated.mp (KeyedTable.get?_of_mem_rows hrow)
            exact ⟨rfl, old, hk ▸ hold, hcond⟩
          · have hstatus : old.status = status := by simpa using hcond
            rw [hstatus]
            exact .take hphase
  · cases h

theorem reportProgress_effect {s s' : State} {p : Nat} {message : String} {progress : Option Int}
    (h : reportProgress s p message progress = some s') : Effect s (.reportProgress p message progress) s' := by
  unfold reportProgress at h
  split at h
  · next id hphase =>
      exact .of_update h (by rw [hphase]; rfl) nofun fun _ _ _ => .report hphase
  · cases h

theorem heartbeatJob_effect {s s' : State} {l : Label} {p : Nat} (h : heartbeatJob s p = some s') : Effect s l s' := by
  have hbeat : ∀ id, ((s.db.autocommit p id fun job =>
      if job.status = .running then { job with heartbeatAt := some s.now } else job).map
        fun db => { s with db }) = some s' → Effect s l s' := by
    intro id h
    obtain ⟨db, hdb, rfl⟩ := Option.map_eq_some_iff.mp h
    obtain ⟨hpending, hrows⟩ := Transactional.autocommit_eq_some hdb
    refine .stay hpending (fun k => ?_) rfl rfl
    show (db.rows.get? k).map Job.status = (s.db.rows.get? k).map Job.status
    rw [hrows, Option.map_map]
    congr 1
    funext job
    dsimp only [Function.comp]
    split
    · split <;> rfl
    · rfl
  unfold heartbeatJob at h
  split at h
  · exact hbeat _ h
  · exact hbeat _ h
  · cases h

theorem finishJob_effect {s s' : State} {p : Nat} {result : String} (h : finishJob s p result = some s') :
    Effect s (.finish p result) s' := by
  unfold finishJob at h
  split at h
  · next id hphase =>
      exact .of_update h (by rw [hphase]; rfl) nofun fun _ _ _ => .finish hphase
  · cases h

theorem reportError_effect {s s' : State} {p : Nat} (h : reportError s p = some s') : Effect s (.reportError p) s' := by
  unfold reportError at h
  split at h
  · next id owns message hphase =>
      refine .of_update h ?_ nofun fun _ _ _ => .fail hphase
      rw [hphase]
      cases owns <;> rfl
  · cases h

theorem leave_effect {s s' : State} {l : Label} {p : Nat} (h : leave s p = some s') : Effect s l s' := by
  unfold leave at h
  split at h
  all_goals cases h
  all_goals exact .move p .idle rfl rfl rfl rfl rfl

/-! ### The end of a transaction -/

theorem Phase.afterCommit_plain {old new : Phase} (h : old.afterCommit = some new) : new.afterCommit = none := by
  cases old with
  | taking id updated =>
      cases updated <;> simp only [afterCommit, Option.some.injEq] at h <;> subst h <;> rfl
  | _ =>
      simp only [afterCommit, Option.some.injEq, reduceCtorEq] at h
      all_goals
        subst h
        rfl

theorem Phase.afterRaise_spec {message : String} {old new : Phase} (h : old.afterRaise message = some new) :
    (new.runs = none ∨ new.runs = old.runs) ∧ new.afterCommit = none := by
  cases old <;> simp only [afterRaise, Option.some.injEq, reduceCtorEq] at h <;> subst h <;>
    simp [runs, afterCommit]

/-- **Every step has an effect of the list.** -/
theorem step_effect {s s' : State} {l : Label} (h : step s l = some s') : Effect s l s' := by
  cases l with
  | tick seconds =>
      obtain rfl := Option.some.inj h
      exact .stay rfl (fun _ => rfl) rfl rfl
  | enqueue p action exclusive =>
      have h : enqueueJob s p action exclusive = some s' := h
      exact enqueueJob_effect h
  | noteWakeFailure p detail => exact noteWakeFailure_effect h
  | cancel p id actor => exact cancelQueuedJob_effect h
  | recover p => exact recoverStaleRows_effect h
  | readActive p => exact readActive_effect h
  | recoverRow p unitActive => exact recoverRow_effect h
  | lockDispatch p => exact lockDispatch_effect h
  | checkActive p => exact checkActive_effect h
  | claimNext p => exact claimNext_effect h
  | startUnit p failure => exact startUnit_effect h
  | markStartError p => exact markStartError_effect h
  | spawn p id => exact spawnWorker_effect h
  | acquireLock p => exact acquireLock_effect h
  | readJob p => exact readJob_effect h
  | claimJob p appFile => exact claimJob_effect h
  | reportProgress p message progress => exact reportProgress_effect h
  | heartbeat p => exact heartbeatJob_effect h
  | finish p result => exact finishJob_effect h
  | throws p message =>
      obtain ⟨phase, hphase, rfl⟩ := Option.map_eq_some_iff.mp h
      obtain ⟨hruns, hplain⟩ := Phase.afterRaise_spec hphase
      exact abandon_effect hruns hplain
  | reportError p => exact reportError_effect h
  | leave p => exact leave_effect h
  | commit p =>
      obtain ⟨phase, hphase, rfl⟩ := Option.map_eq_some_iff.mp h
      exact .commit p phase rfl rfl rfl rfl (Phase.afterCommit_plain hphase) (.inl hphase)
  | rollback p message =>
      obtain ⟨phase, hphase, rfl⟩ := Option.map_eq_some_iff.mp h
      obtain ⟨hruns, hplain⟩ := Phase.afterRollback_spec hphase
      exact abandon_effect hruns hplain
  | crash p =>
      obtain rfl := Option.some.inj h
      exact .rollback p .idle rfl rfl rfl (.inl rfl) rfl

section

variable {s s' : State} {l : Label} {p q id : Nat} {w : Jobs}

/-! ## Statuses after a commit -/

theorem status?_commit (hw : s.db.pending.get? p = some w) (hdb : s'.db = s.db.commit p) (id : Nat) :
    s'.status? id = ((w.get? id).map Job.status).or (s.status? id) := by
  unfold State.status? State.job?
  rw [hdb, Transactional.get?_commit hw]
  cases w.get? id <;> rfl

theorem status?_commit_of_holds (hdb : s'.db = s.db.commit p) (hq : s.db.Holds q id) (hne : q ≠ p) :
    s'.status? id = s.status? id := by
  unfold State.status? State.job?
  rw [hdb, Transactional.get?_commit_of_holds hq hne]

theorem status?_commit_none (hw : s.db.pending.get? p = none) (hdb : s'.db = s.db.commit p) (id : Nat) :
    s'.status? id = s.status? id := by
  unfold State.status? State.job?
  rw [hdb]
  unfold Transactional.commit
  rw [hw]
  exact congrArg (Option.map Job.status) (KeyedTable.get?_overlay s.db.rows .empty id)

theorem status?_eq (hrows : s'.db.rows = s.db.rows) (id : Nat) : s'.status? id = s.status? id := by
  unfold State.status? State.job?
  rw [hrows]

/-- A process that is in a phase with a transaction did not get there by a move. -/
theorem procs_of_plain {phase old : Phase} (hprocs : s'.procs = Function.update s.procs p phase)
    (hplain : phase.afterCommit = none) (hq : s'.procs q = old) (hold : old.afterCommit ≠ none) :
    q ≠ p ∧ s.procs q = old := by
  rw [hprocs, Function.update_apply] at hq
  split at hq
  · rw [← hq] at hold
    exact absurd hplain hold
  · next hne => exact ⟨hne, hq⟩

/-! ## Fresh ids -/

/-- The ids from `nextId` on have no row, committed or pending. -/
structure Fresh (s : State) : Prop where
  committed : ∀ id, s.nextId ≤ id → s.status? id = none
  pending : ∀ p w id, s.db.pending.get? p = some w → (w.get? id).isSome → id < s.nextId

theorem Fresh.init (now : Int) : Fresh (State.init now) := by
  refine ⟨fun _ _ => rfl, fun p _ _ h => ?_⟩
  have hnone : (State.init now).db.pending.get? p = none := rfl
  rw [hnone] at h
  cases h

theorem Fresh.preserved (hs : Fresh s) (hstep : step s l = some s') : Fresh s' := by
  have hless : (∀ id, s'.status? id = s.status? id) → s'.nextId = s.nextId →
      (∀ q w, s'.db.pending.get? q = some w → s.db.pending.get? q = some w) → Fresh s' := by
    intro hstatus hnext hpending
    refine ⟨fun id h => ?_, fun q w id hw hid => ?_⟩
    · rw [hstatus]
      exact hs.committed id (hnext ▸ h)
    · rw [hnext]
      exact hs.pending q w id (hpending q w hw) hid
  cases step_effect hstep with
  | stay hpending hstatus _ hnext => exact hless hstatus hnext fun q w h => hpending ▸ h
  | move p phase hdb _ hnext =>
      exact hless (status?_eq (by rw [hdb])) hnext fun q w h => by rwa [hdb] at h
  | write p rows phase hrows hpending _ _ hnext _ _ hwrites =>
      refine ⟨fun id h => (status?_eq hrows id).trans (hs.committed id (hnext.trans h)), fun q w id hw hid => ?_⟩
      rw [hpending] at hw
      split at hw
      · cases hw
        obtain ⟨new, hnew⟩ := Option.isSome_iff_exists.mp hid
        cases hwrites id new hnew with
        | insert _ _ hlt _ => exact hlt
        | update old hold _ =>
            -- The row of an update exists, so its id was given out.
            by_contra hge
            have hnone := hs.committed id (by omega)
            rw [State.status?, hold] at hnone
            cases hnone
      · exact (hs.pending q w id hw hid).trans_le hnext
  | commit p phase _ hdb _ hnext =>
      refine ⟨fun id h => ?_, fun q w id hw hid => ?_⟩
      · have hnone := hs.committed id (hnext ▸ h)
        cases hw : s.db.pending.get? p with
        | none => exact (status?_commit_none hw hdb id).trans hnone
        | some w =>
            rw [status?_commit hw hdb, hnone]
            cases hnew : w.get? id with
            | none => rfl
            | some new =>
                have hlt := hs.pending p w id hw (Option.isSome_iff_exists.mpr ⟨new, hnew⟩)
                omega
      · rw [hdb, Transactional.pending_commit] at hw
        split at hw
        · cases hw
        · rw [hnext]
          exact hs.pending q w id hw hid
  | rollback p phase hdb _ hnext =>
      refine hless (status?_eq (by rw [hdb]; rfl)) hnext fun q w h => ?_
      rw [hdb, Transactional.pending_rollback] at h
      split at h
      · cases h
      · exact h

theorem fresh_of_reachable {ok : State → Label → Prop} (h : maintenance.Reachable ok s) : Fresh s := by
  apply h.invariant
  · rintro s ⟨now, rfl⟩
    exact Fresh.init now
  · intro s l s' _ hs _ hstep
    exact hs.preserved hstep

end

end VirtInfra.Maintenance
