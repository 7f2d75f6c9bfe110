import VirtInfra.Maintenance.Effect

/-!
# `StateMachine` — a job's status over any interleaving

`update_job` guards a worker's claim by the status the worker read, and nothing else it writes. A second worker of a
finished or running job therefore fails its check or its lock and then reports `error` over the job
(`finished_job_reopened`). Where a worker without the job reports an error only over a job that nobody has finished,
cancelled or is running, and recovery marks no job whose worker is alive, every step of every run is `Orderly`.
-/

namespace VirtInfra.Maintenance

open Lib

/-- **What the status machine asks of a step**: terminal statuses are final, a job that a live worker runs is written by
    that worker only, and a job starts running only out of the queue. -/
structure Orderly (s : State) (l : Label) (s' : State) : Prop where
  terminal : ∀ id status, s.status? id = some status → status.terminal = true → s'.status? id = some status
  owned : ∀ q id, (s.procs q).runs = some id → s'.status? id ≠ s.status? id → l.process = some q
  running : ∀ id, s'.status? id = some .running → s.status? id ≠ some .running →
    s.status? id = some .queued ∨ s.status? id = some .starting

/-- **The steps on which the code keeps to it.** A worker that does not run the job (its lock, its check or its claim
    failed, or it had already finished) reports an error only over a job that is neither `ok` nor `cancelled` nor run by
    a live worker, and recovery marks only jobs that no live worker runs. -/
def Careful (s : State) : Label → Prop
  | .recover _ => ∀ id, ((legacyMarks s s.now).get? id).isSome → ∀ q, (s.procs q).runs ≠ some id
  | .recoverRow p _ => ∀ now id seen rest, s.procs p = .recovering now ((id, seen) :: rest) → stale now seen = true →
      ((staleMarks s now id seen).get? id).isSome → ∀ q, (s.procs q).runs ≠ some id
  | .reportError p => ∀ id message, s.procs p = .failing id false message →
      s.status? id ≠ some .ok ∧ s.status? id ≠ some .cancelled ∧ ∀ q, (s.procs q).runs ≠ some id
  | _ => True

/-- A row version that process `p` may publish. -/
structure Safe (s : State) (p id : Nat) (new : Status) : Prop where
  insert : s.status? id = none → new ≠ .running
  terminal : ∀ old, s.status? id = some old → old.terminal = true → new = old
  running : ∀ old, s.status? id = some old → new = .running → old.pending = true
  owned : ∀ q, q ≠ p → (s.procs q).runs = some id → new = .running

/-- **The invariant.** A job that a live worker runs is `running` and has no second worker running it; every open
    transaction holds only row versions that are safe to publish. -/
structure Inv (s : State) : Prop where
  own : ∀ p id, (s.procs p).runs = some id → s.status? id = some .running
  unique : ∀ p q id, (s.procs p).runs = some id → (s.procs q).runs = some id → p = q
  safe : ∀ p w id new, s.db.pending.get? p = some w → w.get? id = some new → Safe s p id new.status
  taking : ∀ p id, s.procs p = .taking id true → s.status? id ≠ some .running ∧
    ∃ w new, s.db.pending.get? p = some w ∧ w.get? id = some new ∧ new.status = .running
  reporting : ∀ p id, s.procs p = .reporting id →
    ∀ w new, s.db.pending.get? p = some w → w.get? id = some new → new.status = .running

theorem Inv.init (now : Int) : Inv (State.init now) := by
  have hpending : ∀ p, (State.init now).db.pending.get? p = none := fun _ => rfl
  refine ⟨fun _ _ h => ?_, fun _ _ _ h => ?_, fun p _ _ _ h => ?_, fun _ _ h => ?_, fun _ _ h => ?_⟩
  · cases h
  · cases h
  · rw [hpending p] at h
    cases h
  · cases h
  · cases h

theorem stale_active {now : Int} {job : Job} (h : stale now job = true) : job.status.active = true := by
  unfold stale at h
  simp only [Bool.or_eq_true, Bool.and_eq_true, decide_eq_true_eq] at h
  rcases h with ⟨h, -⟩ | ⟨h, -⟩ <;> rw [h] <;> rfl

section

variable {s s' : State} {l : Label} {p q id : Nat} {w : Jobs}

/-- A transaction that the program opens is safe to publish. -/
theorem Inv.safe_of_writes (hs : Inv s) (hfresh : Fresh s) (hok : Careful s l) {phase : Phase} {new : Job}
    (hwrites : Writes s s' p l phase id new) : Safe s p id new.status := by
  -- A job that somebody runs is `running`, so an update guarded by another status has no owner to disturb.
  have hidle : ∀ old, s.status? id = some old → old ≠ .running → ∀ q, (s.procs q).runs ≠ some id := by
    intro old hold hne q hruns
    rw [hs.own q id hruns] at hold
    exact hne (Option.some.inj hold).symm
  have hmine : s.status? id = some .running → (s.procs p).runs = some id → Safe s p id new.status := by
    intro hold hruns
    refine ⟨fun h => ?_, fun old h hterm => ?_, fun old h _ => ?_, fun q hne hq => absurd (hs.unique q p id hq hruns) hne⟩
    · rw [hold] at h
      cases h
    · rw [hold] at h
      cases h
      cases hterm
    · rw [hold] at h
      cases h
      rfl
  cases hwrites with
  | insert hphase hk hnext hnew =>
      have hnone : s.status? id = none := hfresh.committed id hk.ge
      rw [hnew]
      refine ⟨fun _ => nofun, fun old h => ?_, nofun, fun q _ hruns => ?_⟩
      · rw [hnone] at h
        cases h
      · rw [hs.own q id hruns] at hnone
        cases hnone
  | update old hold hchange =>
      have hstatus : s.status? id = some old.status := congrArg (Option.map Job.status) hold
      have hguarded : ∀ (new : Status), old.status.terminal = false → (new = .running → old.status.pending = true) →
          (∀ q, (s.procs q).runs ≠ some id) → Safe s p id new := by
        intro new hterm hrunning hfree
        refine ⟨fun h => ?_, fun st h hst => ?_, fun st h hnew => ?_, fun q _ hq => absurd hq (hfree q)⟩
        · rw [hstatus] at h
          cases h
        · rw [hstatus] at h
          cases h
          rw [hterm] at hst
          cases hst
        · rw [hstatus] at h
          cases h
          exact hrunning hnew
      generalize hold' : old.status = before at *
      generalize new.status = after at *
      cases hchange with
      | note => exact hguarded _ rfl (fun _ => rfl) (hidle _ hstatus nofun)
      | cancel => exact hguarded _ rfl (fun _ => rfl) (hidle _ hstatus nofun)
      | sweep hpending hmark =>
          refine hguarded _ ?_ nofun (hok id hmark)
          rw [Status.terminal_eq_not_pending, hpending]
          rfl
      | mark hphase hstale hmark =>
          refine hguarded _ ?_ nofun (hok _ _ _ _ hphase hstale hmark)
          rw [Status.terminal_eq_not_pending, Status.pending, stale_active hstale, Bool.or_true]
          rfl
      | claim => exact hguarded _ rfl nofun (hidle _ hstatus nofun)
      | startError => exact hguarded _ rfl nofun (hidle _ hstatus nofun)
      | @take _ _ _ _ unclaimed _ =>
          have hne : before ≠ .running := by
            rcases unclaimed with rfl | rfl <;> nofun
          have hpending : before.pending = true := by
            rcases unclaimed with rfl | rfl <;> rfl
          refine hguarded _ ?_ (fun _ => hpending) (hidle _ hstatus hne)
          rw [Status.terminal_eq_not_pending, hpending]
          rfl
      | report hphase =>
          have hruns : (s.procs p).runs = some id := by
            rw [hphase]
            rfl
          exact hmine (hs.own p id hruns) hruns
      | finish hphase =>
          have hruns : (s.procs p).runs = some id := by
            rw [hphase]
            rfl
          exact hmine (hs.own p id hruns) hruns
      | @fail _ _ owns message hphase =>
          cases owns with
          | true =>
              have hruns : (s.procs p).runs = some id := by
                rw [hphase]
                rfl
              exact hmine (hs.own p id hruns) hruns
          | false =>
              -- The `except` path of a worker that does not run the job: the case the guard is missing for.
              obtain ⟨hok, hcancelled, hfree⟩ := hok id message hphase
              refine ⟨nofun, fun st h hterm => ?_, nofun, fun q _ hq => absurd hq (hfree q)⟩
              rw [h] at hok hcancelled
              cases st with
              | error => rfl
              | ok => exact absurd rfl hok
              | cancelled => exact absurd rfl hcancelled
              | _ => cases hterm

/-! ### The invariant over one step -/

theorem runs_update {phase : Phase} (hprocs : s'.procs = Function.update s.procs p phase)
    (hruns : phase.runs = none ∨ phase.runs = (s.procs p).runs) (h : (s'.procs q).runs = some id) :
    (s.procs q).runs = some id := by
  rw [hprocs, Function.update_apply] at h
  split at h
  · next hq =>
      subst hq
      rcases hruns with hruns | hruns
      · rw [hruns] at h
        cases h
      · rwa [← hruns]
  · exact h

/-- A step that publishes nothing and opens no transaction. -/
theorem Inv.quiet (hs : Inv s) (hstatus : ∀ id, s'.status? id = s.status? id)
    (hpending : ∀ q w, s'.db.pending.get? q = some w → s.db.pending.get? q = some w)
    (hruns : ∀ q id, (s'.procs q).runs = some id → (s.procs q).runs = some id)
    (hphase : ∀ q old, s'.procs q = old → old.afterCommit ≠ none →
      s.procs q = old ∧ s'.db.pending.get? q = s.db.pending.get? q) : Inv s' where
  own q id h := (hstatus id).trans (hs.own q id (hruns q id h))
  unique q r id hq hr := hs.unique q r id (hruns q id hq) (hruns r id hr)
  safe q w id new hw hnew := by
    have hsafe := hs.safe q w id new (hpending q w hw) hnew
    refine ⟨fun h => hsafe.insert ((hstatus id).symm.trans h), fun old h => hsafe.terminal old ((hstatus id).symm.trans h),
      fun old h => hsafe.running old ((hstatus id).symm.trans h), fun r hne hr => hsafe.owned r hne (hruns r id hr)⟩
  taking q id h := by
    obtain ⟨hold, heq⟩ := hphase q _ h nofun
    rw [hstatus, heq]
    exact hs.taking q id hold
  reporting q id h := by
    obtain ⟨hold, heq⟩ := hphase q _ h nofun
    rw [heq]
    exact hs.reporting q id hold

/-- A step that opens a transaction. -/
theorem Inv.write (hs : Inv s) (hfresh : Fresh s) (hok : Careful s l) {phase : Phase} (hrows : s'.db.rows = s.db.rows)
    (hpending : ∀ q, s'.db.pending.get? q = if q = p then some w else s.db.pending.get? q)
    (hprocs : s'.procs = Function.update s.procs p phase)
    (hruns : phase.runs = (s.procs p).runs) (hwrote : ∀ id, phase.wrote = some id → (w.get? id).isSome)
    (hwrites : ∀ id new, w.get? id = some new → Writes s s' p l phase id new) : Inv s' := by
  have hstatus := status?_eq hrows
  have hruns' : ∀ q id, (s'.procs q).runs = some id → (s.procs q).runs = some id :=
    fun q id h => runs_update hprocs (.inr hruns) h
  have hsafe : ∀ q w' id new, s'.db.pending.get? q = some w' → w'.get? id = some new → Safe s q id new.status := by
    intro q w' id new hw' hnew
    rw [hpending] at hw'
    split at hw'
    · next hq =>
        cases hw'
        rw [hq]
        exact hs.safe_of_writes hfresh hok (hwrites id new hnew)
    · exact hs.safe q w' id new hw' hnew
  refine ⟨fun q id h => (hstatus id).trans (hs.own q id (hruns' q id h)),
    fun q r id hq hr => hs.unique q r id (hruns' q id hq) (hruns' r id hr), ?_, ?_, ?_⟩
  · intro q w' id new hw' hnew
    obtain ⟨hinsert, hterminal, hrunning, howned⟩ := hsafe q w' id new hw' hnew
    exact ⟨fun h => hinsert ((hstatus id).symm.trans h), fun old h => hterminal old ((hstatus id).symm.trans h),
      fun old h => hrunning old ((hstatus id).symm.trans h), fun r hne hr => howned r hne (hruns' r id hr)⟩
  · intro q id h
    rw [hprocs, Function.update_apply] at h
    rw [hstatus, hpending]
    split at h
    · next hq =>
        rw [if_pos hq]
        subst h
        obtain ⟨new, hnew⟩ := Option.isSome_iff_exists.mp (hwrote id rfl)
        obtain ⟨hne, hrunning⟩ : s.status? id ≠ some .running ∧ new.status = .running := by
          cases hwrites id new hnew with
          | insert hphase _ _ _ => cases hphase
          | update old hold hchange =>
              rw [State.status?, hold, Option.map_some]
              generalize old.status = before at hchange ⊢
              generalize new.status = after at hchange ⊢
              cases hchange with
              | @take _ _ _ _ unclaimed _ =>
                  refine ⟨fun h => ?_, rfl⟩
                  obtain rfl : before = .running := Option.some.inj h
                  rcases unclaimed with h | h <;> cases h
        exact ⟨hne, w, new, rfl, hnew, hrunning⟩
    · next hq =>
        rw [if_neg hq]
        exact hs.taking q id h
  · intro q id h w' new hw' hnew
    rw [hprocs, Function.update_apply] at h
    rw [hpending] at hw'
    split at h
    · next hq =>
        rw [if_pos hq] at hw'
        cases hw'
        subst h
        cases hwrites _ new hnew with
        | insert hphase _ _ _ => cases hphase
        | update old hold hchange =>
            generalize old.status = before at hchange
            generalize new.status = after at hchange
            cases hchange with
            | report _ => rfl
    · next hq =>
        rw [if_neg hq] at hw'
        exact hs.reporting q id h w' new hw' hnew

/-- Where a commit leads a process to run a job, it ran the job before or it is the commit of its claim. -/
theorem runs_afterCommit {old new : Phase} (h : old.afterCommit = some new) (hruns : new.runs = some id) :
    old = .taking id true ∨ old = .reporting id := by
  cases old with
  | taking k updated =>
      cases updated with
      | true =>
          cases h
          cases hruns
          exact .inl rfl
      | false =>
          obtain rfl := Option.some.inj h
          cases hruns
  | reporting k =>
      cases h
      cases hruns
      exact .inr rfl
  | _ =>
      simp only [Phase.afterCommit, Option.some.injEq, reduceCtorEq] at h
      all_goals
        subst h
        cases hruns

/-- A step that publishes a transaction. -/
theorem Inv.commit (hs : Inv s) {phase : Phase} (hdb : s'.db = s.db.commit p)
    (hprocs : s'.procs = Function.update s.procs p phase) (hplain : phase.afterCommit = none)
    (hphase : (s.procs p).afterCommit = some phase ∨ phase.runs = none) : Inv s' := by
  have hpending : ∀ q w, s'.db.pending.get? q = some w → q ≠ p ∧ s.db.pending.get? q = some w := by
    intro q w hw
    rw [hdb, Transactional.pending_commit] at hw
    split at hw
    · cases hw
    · next hne => exact ⟨hne, hw⟩
  -- What another process has locked stays as it was.
  have hkeep : ∀ q w id, s'.db.pending.get? q = some w → (w.get? id).isSome → s'.status? id = s.status? id := by
    intro q w id hw hid
    obtain ⟨hne, hw⟩ := hpending q w hw
    exact status?_commit_of_holds hdb ⟨w, hw, hid⟩ hne
  have hmine : ∀ id, phase.runs = some id → s.procs p = .taking id true ∨ s.procs p = .reporting id := by
    intro id hruns
    rcases hphase with h | hnone
    · exact runs_afterCommit h hruns
    · rw [hnone] at hruns
      cases hruns
  have hruns : ∀ q id, (s'.procs q).runs = some id →
      (s.procs q).runs = some id ∨ (q = p ∧ s.procs p = .taking id true) := by
    intro q id h
    rw [hprocs, Function.update_apply] at h
    split at h
    · next hq =>
        subst hq
        rcases hmine id h with htaking | hreporting
        · exact .inr ⟨rfl, htaking⟩
        · exact .inl (by rw [hreporting]; rfl)
    · exact .inl h
  -- A job somebody runs keeps its status: its own worker published `running`, and nobody else published anything.
  have hrunning : ∀ q id, (s'.procs q).runs = some id → (s.procs q).runs = some id → s'.status? id = some .running := by
    intro q id h' h
    have hown := hs.own q id h
    cases hw : s.db.pending.get? p with
    | none => exact (status?_commit_none hw hdb id).trans hown
    | some w =>
        rw [status?_commit hw hdb]
        cases hnew : w.get? id with
        | none => exact hown
        | some new =>
            have hnewRunning : new.status = .running := by
              by_cases hq : q = p
              · subst hq
                rw [hprocs, Function.update_self] at h'
                rcases hmine id h' with htaking | hreporting
                · rw [htaking] at h
                  cases h
                · exact hs.reporting q id hreporting w new hw hnew
              · exact (hs.safe p w id new hw hnew).owned q hq h
            show some new.status = some .running
            rw [hnewRunning]
  refine ⟨fun q id h => ?_, fun q r id hq hr => ?_, ?_, ?_, ?_⟩
  · rcases hruns q id h with hold | ⟨rfl, htaking⟩
    · exact hrunning q id h hold
    · obtain ⟨-, w, new, hw, hnew, hnewRunning⟩ := hs.taking q id htaking
      rw [status?_commit hw hdb, hnew, Option.map_some, hnewRunning]
      rfl
  · rcases hruns q id hq with hq' | ⟨rfl, htaking⟩ <;> rcases hruns r id hr with hr' | ⟨rfl, htaking'⟩
    · exact hs.unique q r id hq' hr'
    · exact absurd (hs.own q id hq') (hs.taking r id htaking').1
    · exact absurd (hs.own r id hr') (hs.taking q id htaking).1
    · rfl
  · intro q w id new hw hnew
    have hid : (w.get? id).isSome := Option.isSome_iff_exists.mpr ⟨new, hnew⟩
    obtain ⟨hne, hw'⟩ := hpending q w hw
    obtain ⟨hinsert, hterminal, hpend, howned⟩ := hs.safe q w id new hw' hnew
    rw [← hkeep q w id hw hid] at hinsert
    refine ⟨hinsert, fun old h => hterminal old ((hkeep q w id hw hid).symm.trans h),
      fun old h => hpend old ((hkeep q w id hw hid).symm.trans h), fun r hr h => ?_⟩
    rcases hruns r id h with hold | ⟨rfl, htaking⟩
    · exact howned r hr hold
    · -- The claim that was just published and the row that is still pending would hold the same lock.
      obtain ⟨-, w', new', hw₂, hnew₂, -⟩ := hs.taking r id htaking
      have hid₂ : (w'.get? id).isSome := Option.isSome_iff_exists.mpr ⟨new', hnew₂⟩
      exact absurd (s.db.exclusive q r w w' hw' hw₂ id hid hid₂) hne
  · intro q id h
    obtain ⟨hne, hold⟩ := procs_of_plain hprocs hplain h nofun
    obtain ⟨hstatus, w, new, hw, hnew, hnewRunning⟩ := hs.taking q id hold
    have hid : (w.get? id).isSome := Option.isSome_iff_exists.mpr ⟨new, hnew⟩
    rw [status?_commit_of_holds hdb ⟨w, hw, hid⟩ hne]
    refine ⟨hstatus, w, new, ?_, hnew, hnewRunning⟩
    rw [hdb, Transactional.pending_commit, if_neg hne]
    exact hw
  · intro q id h w new hw hnew
    obtain ⟨-, hold⟩ := procs_of_plain hprocs hplain h nofun
    exact hs.reporting q id hold w new (hpending q w hw).2 hnew

theorem Inv.preserved (hs : Inv s) (hfresh : Fresh s) (hok : Careful s l) (hstep : step s l = some s') : Inv s' := by
  cases step_effect hstep with
  | stay hpending hstatus hprocs =>
      refine hs.quiet hstatus (fun q w h => hpending ▸ h) (fun q id h => hprocs ▸ h) fun q old hq _ => ?_
      rw [hpending, ← hprocs]
      exact ⟨hq, rfl⟩
  | move p phase hdb hprocs _ hruns hplain =>
      refine hs.quiet (status?_eq (by rw [hdb])) (fun q w h => by rwa [hdb] at h)
        (fun q id h => runs_update hprocs (.inl hruns) h) fun q old hq hold => ?_
      rw [hdb]
      exact ⟨(procs_of_plain hprocs hplain hq hold).2, rfl⟩
  | write p rows phase hrows hpending _ hprocs _ hruns hwrote hwrites =>
      exact hs.write hfresh hok hrows hpending hprocs hruns hwrote hwrites
  | commit p phase _ hdb hprocs _ hplain hphase => exact hs.commit hdb hprocs hplain hphase
  | rollback p phase hdb hprocs _ hruns hplain =>
      have hpending : ∀ q, s'.db.pending.get? q = if q = p then none else s.db.pending.get? q := by
        intro q
        rw [hdb]
        exact Transactional.pending_rollback s.db p q
      refine hs.quiet (status?_eq (by rw [hdb]; rfl)) (fun q w h => ?_) (fun q id h => runs_update hprocs hruns h)
        fun q old hq hold => ?_
      · rw [hpending] at h
        split at h
        · cases h
        · exact h
      · obtain ⟨hne, hold⟩ := procs_of_plain hprocs hplain hq hold
        rw [hpending, if_neg hne]
        exact ⟨hold, rfl⟩

/-- From a state that satisfies the invariant, every step is orderly. -/
theorem Inv.orderly (hs : Inv s) (hstep : step s l = some s') : Orderly s l s' := by
  have hsame : (∀ id, s'.status? id = s.status? id) → Orderly s l s' := by
    intro hstatus
    refine ⟨fun id st h _ => (hstatus id).trans h, fun q id _ hne => absurd (hstatus id) hne, fun id h hne => ?_⟩
    exact absurd ((hstatus id).symm.trans h) hne
  cases step_effect hstep with
  | stay _ hstatus => exact hsame hstatus
  | move p phase hdb => exact hsame (status?_eq (by rw [hdb]))
  | write p rows phase hrows => exact hsame (status?_eq hrows)
  | rollback p phase hdb => exact hsame (status?_eq (by rw [hdb]; rfl))
  | commit p phase hprocess hdb =>
      cases hw : s.db.pending.get? p with
      | none => exact hsame (status?_commit_none hw hdb)
      | some w =>
          have hstatus := status?_commit hw hdb
          have hcase : ∀ id, s'.status? id = s.status? id ∨ ∃ new, s'.status? id = some new ∧ Safe s p id new := by
            intro id
            rw [hstatus id]
            cases hnew : w.get? id with
            | none => exact .inl rfl
            | some new => exact .inr ⟨new.status, rfl, hs.safe p w id new hw hnew⟩
          refine ⟨fun id st h hterm => ?_, fun q id hruns hne => ?_, fun id h hne => ?_⟩
          · rcases hcase id with heq | ⟨new, heq, hsafe⟩
            · rw [heq, h]
            · rw [heq, hsafe.terminal st h hterm]
          · rcases hcase id with heq | ⟨new, heq, hsafe⟩
            · exact absurd heq hne
            · by_cases hq : q = p
              · rw [hq]
                exact hprocess
              · rw [heq, hsafe.owned q hq hruns, hs.own q id hruns] at hne
                exact absurd rfl hne
          · rcases hcase id with heq | ⟨new, heq, hsafe⟩
            · exact absurd (heq.symm.trans h) hne
            · rw [heq] at h
              obtain rfl := Option.some.inj h
              cases hold : s.status? id with
              | none => exact absurd rfl (hsafe.insert hold)
              | some old =>
                  have hpend := hsafe.running old hold rfl
                  rw [hold] at hne
                  cases old with
                  | queued => exact .inl rfl
                  | starting => exact .inr rfl
                  | running => exact absurd rfl hne
                  | _ => cases hpend

end

/-- **The status machine.** In every run whose steps are careful, every step is orderly. The last step may be any: it
    takes a commit to publish what a careless step wrote. -/
theorem job_status_machine {s s' : State} {l : Label} (h : maintenance.Reachable Careful s)
    (hstep : maintenance.step s l = some s') : Orderly s l s' := by
  have hinv : Inv s := by
    apply h.invariant
    · rintro s ⟨now, rfl⟩
      exact Inv.init now
    · intro s l s' hreach hs hok hstep
      exact hs.preserved (fresh_of_reachable hreach) hok hstep
  exact hinv.orderly hstep

/-- One job from its enqueue to the start of its worker, process 2. -/
def startedRun : List Label :=
  [.enqueue 0 "vacuum" false, .commit 0, .leave 0, .recover 1, .readActive 1, .lockDispatch 1, .checkActive 1,
    .claimNext 1, .commit 1, .startUnit 1 none, .spawn 2 1]

/-- The worker takes the job and finishes it, up to the commit of its last update. -/
def finishedRun : List Label :=
  startedRun ++ [.acquireLock 2, .readJob 2, .claimJob 2 "app.py", .commit 2, .finish 2 "{}"]

/-- No error is reported and no row recovered. -/
def uneventful (s : State) : Label → Bool
  | .recover _ => (legacyMarks s s.now).rows.isEmpty
  | .recoverRow _ _ | .reportError _ => false
  | _ => true

theorem careful_of_uneventful (s : State) (l : Label) (h : uneventful s l = true) : Careful s l := by
  cases l with
  | recover p =>
      intro id hmark
      obtain ⟨new, hnew⟩ := Option.isSome_iff_exists.mp hmark
      have hmem := KeyedTable.mem_rows_of_get? hnew
      rw [List.isEmpty_iff.mp h] at hmem
      cases hmem
  | recoverRow p unitActive => cases h
  | reportError p => cases h
  | _ => trivial

theorem job_status_machine_finished : ∃ s s', maintenance.Reachable Careful s ∧
    maintenance.step s (.commit 2) = some s' ∧ s.status? 1 = some .running ∧ s'.status? 1 = some .ok ∧
    Orderly s (.commit 2) s' := by
  have hrun : ((maintenance.exec (fun s l => uneventful s l = true) (State.init 72000) finishedRun).bind fun s =>
      (maintenance.step s (.commit 2)).map fun s' => (s.status? 1, s'.status? 1)) =
        some (some .running, some .ok) := by decide +kernel
  obtain ⟨s, hexec, hlast⟩ := Option.bind_eq_some_iff.mp hrun
  obtain ⟨s', hstep, hvalues⟩ := Option.map_eq_some_iff.mp hlast
  obtain ⟨hbefore, hafter⟩ := Prod.mk.inj hvalues
  have hstart : maintenance.Reachable (fun s l => uneventful s l = true) (State.init 72000) := .init ⟨72000, rfl⟩
  have hreach : maintenance.Reachable Careful s := (hstart.exec hexec).mono careful_of_uneventful
  exact ⟨s, s', hreach, hstep, hbefore, hafter, job_status_machine hreach hstep⟩

/-- The unit of the finished job is started once more: the second worker finds the job `ok` and reports an error. -/
def reopenedRun : List Label :=
  finishedRun ++ [.commit 2, .leave 2, .spawn 3 1, .acquireLock 3, .readJob 3, .reportError 3]

/-- **A finished job changes its status**: a job that ended `ok` becomes `error`. -/
theorem finished_job_reopened : ∃ s s', maintenance.Reachable System.AnyStep s ∧
    maintenance.step s (.commit 3) = some s' ∧ ¬ Orderly s (.commit 3) s' := by
  have hrun : ((maintenance.exec System.AnyStep (State.init 72000) reopenedRun).bind fun s =>
      (maintenance.step s (.commit 3)).map fun s' => (s.status? 1, s'.status? 1)) =
        some (some .ok, some .error) := by decide +kernel
  obtain ⟨s, hexec, hlast⟩ := Option.bind_eq_some_iff.mp hrun
  obtain ⟨s', hstep, hvalues⟩ := Option.map_eq_some_iff.mp hlast
  obtain ⟨hbefore, hafter⟩ := Prod.mk.inj hvalues
  have hstart : maintenance.Reachable System.AnyStep (State.init 72000) := .init ⟨72000, rfl⟩
  have hreach : maintenance.Reachable System.AnyStep s := hstart.exec hexec
  refine ⟨s, s', hreach, hstep, fun horderly => ?_⟩
  have hfinal := horderly.terminal 1 .ok hbefore rfl
  rw [hafter] at hfinal
  cases hfinal

end VirtInfra.Maintenance
