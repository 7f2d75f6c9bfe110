import VirtInfra.Snapshot.Batches

/-!
# `Ready` — a ready snapshot stays ready, unless a failure handler overwrites it

The advisory lock makes the builders of one period exclusive, and a builder that finds its batch ready leaves it alone;
so among the builds only the cleanup removes a ready batch, and only when `R2212_KEEP_GENERATIONS` later ones are ready.
The failure handler has no lock and asks no question: where another builder has made the batch ready in between, the
handler's upsert makes it `failed` again.
-/

namespace VirtInfra.Snapshot

open Lib Python

/-- The batch is ready, as committed. -/
def State.Ready (s : State) (key : Key) : Prop := ∃ batch, s.batch? key = some batch ∧ batch.isReady = true

/-- What `_r2212_cleanup_generations` has fetched: ready windows, and every other ready window is earlier. -/
structure Kept (n : Nat) (ready : Key → Prop) (build : Build) (kept : List Int) : Prop where
  nodup : kept.Nodup
  fetched : ∀ e ∈ kept, e = build.windowEnd ∨ ready (build.periodKey, e)
  all : ∀ e, ready (build.periodKey, e) → e ∈ kept ∨ (kept.length = n ∧ ∀ x ∈ kept, e < x)

/-- What a phase knows of the committed batches. -/
def Phase.Sound (n : Nat) (ready : Key → Prop) : Phase → Prop
  | completed _ _ _ batch => batch.isReady = true
  | selected build _ _ batch kept => batch.isReady = true ∧ Kept n ready build kept
  | pruned build _ _ batch kept dropped =>
      batch.isReady = true ∧ Kept n ready build kept ∧
        (∀ key ∈ dropped, outdated build.periodKey kept key = true) ∧
        ∀ key, ready key → outdated build.periodKey kept key = true → key ∈ dropped
  | marked _ batch => batch.isReady = false
  | _ => True

/-- **The invariant of the builders.** -/
structure Inv (cfg : Config) (s : State) : Prop where
  lock : ∀ p build, (s.procs p).holder = some build → s.lock build.periodKey = some p
  versions : ∀ p, s.db.pending.get? p = (s.procs p).versions
  cleared : ∀ p build, (s.procs p).cleared = some build → ¬ s.Ready build.key
  sound : ∀ p, (s.procs p).Sound cfg.keep s.Ready

theorem Inv.init (cfg : Config) : Inv cfg .init where
  lock _ _ h := nomatch h
  versions _ := rfl
  cleared _ _ h := nomatch h
  sound _ := trivial

/-! ## The latest window ends -/

theorem mem_latest {n : Nat} {ends : List Int} {e : Int} (h : e ∈ latest n ends) : e ∈ ends :=
  List.mem_mergeSort.mp (List.mem_of_mem_take h)

theorem latest_nodup {n : Nat} {ends : List Int} (h : ends.Nodup) : (latest n ends).Nodup :=
  (List.take_sublist n _).nodup ((List.mergeSort_perm ends _).nodup_iff.mpr h)

/-- What is not among the latest `n` is earlier than each of them, and they are `n`. -/
theorem lt_of_not_mem_latest {n : Nat} {ends : List Int} {e : Int} (he : e ∈ ends) (h : e ∉ latest n ends) :
    (latest n ends).length = n ∧ ∀ x ∈ latest n ends, e < x := by
  unfold latest at h ⊢
  set sorted := ends.mergeSort fun a b => decide (b ≤ a)
  have hmem : e ∈ sorted.drop n := by
    have hall : e ∈ sorted.take n ++ sorted.drop n := by
      rw [List.take_append_drop]
      exact List.mem_mergeSort.mpr he
    exact (List.mem_append.mp hall).resolve_left h
  constructor
  · have hlen := List.length_pos_of_mem hmem
    rw [List.length_drop] at hlen
    exact List.length_take_of_le (by omega)
  · intro x hx
    have hpairs : sorted.Pairwise fun a b => decide (b ≤ a) = true :=
      List.pairwise_mergeSort (by simp only [decide_eq_true_eq]; omega)
        (by simp only [Bool.or_eq_true, decide_eq_true_eq]; omega) ends
    rw [← List.take_append_drop n sorted, List.pairwise_append] at hpairs
    have hle : e ≤ x := of_decide_eq_true (hpairs.2.2 x hx e hmem)
    have hne : e ≠ x := fun heq => h (heq ▸ hx)
    omega

theorem mem_readyEnds {versions : Versions} {periodKey : String} {e : Int} :
    e ∈ readyEnds versions periodKey ↔ ∃ batch, versions.get? (periodKey, e) = some (some batch) ∧
      batch.isReady = true := by
  unfold readyEnds
  rw [List.mem_map]
  constructor
  · rintro ⟨⟨⟨period, e'⟩, version⟩, hrow, rfl⟩
    obtain ⟨hmem, hcond⟩ := List.mem_filter.mp hrow
    rw [Bool.and_eq_true, decide_eq_true_eq] at hcond
    obtain ⟨rfl, hready⟩ := hcond
    cases version with
    | none => cases hready
    | some batch => exact ⟨batch, KeyedTable.get?_of_mem_rows hmem, hready⟩
  · rintro ⟨batch, hget, hready⟩
    refine ⟨((periodKey, e), some batch), List.mem_filter.mpr ⟨KeyedTable.mem_rows_of_get? hget, ?_⟩, rfl⟩
    simpa using hready

theorem readyEnds_nodup (versions : Versions) (periodKey : String) : (readyEnds versions periodKey).Nodup := by
  unfold readyEnds
  apply List.Nodup.map_on
  · rintro ⟨⟨period, e⟩, version⟩ hrow ⟨⟨period', e'⟩, version'⟩ hrow' heq
    obtain ⟨hmem, hcond⟩ := List.mem_filter.mp hrow
    obtain ⟨hmem', hcond'⟩ := List.mem_filter.mp hrow'
    simp only [Bool.and_eq_true, decide_eq_true_eq] at hcond hcond' heq
    obtain ⟨rfl, -⟩ := hcond
    obtain ⟨rfl, -⟩ := hcond'
    subst heq
    have hsame := (KeyedTable.get?_of_mem_rows hmem).symm.trans (KeyedTable.get?_of_mem_rows hmem')
    rw [Option.some.inj hsame]
  · exact (List.Nodup.of_map Prod.fst versions.nodupKeys).filter _

/-! ## What a step can do -/

variable {cfg : Config} {s s' : State} {l : Label} {p q : Nat} {key : Key}

theorem get?_dropped (versions : Versions) (dropped : List Key) (key : Key) :
    (dropped.foldl (fun versions key => versions.put key none) versions).get? key =
      if key ∈ dropped then some none else versions.get? key := by
  induction dropped generalizing versions with
  | nil => rfl
  | cons first rest ih =>
      rw [List.foldl_cons, ih, KeyedTable.get?_put]
      by_cases hrest : key ∈ rest
      · rw [if_pos hrest, if_pos (List.mem_cons_of_mem first hrest)]
      · simp [hrest]

theorem get?_view (h : s.db.pending.get? p = some versions) (key : Key) :
    (s.view p).get? key = (versions.get? key).or (s.db.rows.get? key) := by
  unfold State.view
  rw [h]
  exact KeyedTable.get?_overlay s.db.rows versions key

/-- **The effect of a step.** -/
inductive Effect (cfg : Config) (s : State) (l : Label) (s' : State) : Prop
  /-- The process goes on with its transaction, begins one, or gives it up. -/
  | move (p : Nat) (phase : Phase) (hrows : s'.db.rows = s.db.rows) (hsnapshots : s'.rows = s.rows)
      (hprocs : s'.procs = Function.update s.procs p phase)
      (hpending : ∀ q, s'.db.pending.get? q = if q = p then phase.versions else s.db.pending.get? q)
      (hlock : ∀ q period, q ≠ p → s.lock period = some q → s'.lock period = some q)
      (hholder : ∀ build, phase.holder = some build → s'.lock build.periodKey = some p)
      (hcleared : ∀ build, phase.cleared = some build → ¬ s.Ready build.key)
      (hsound : phase.Sound cfg.keep s.Ready)
  /-- A build commits. -/
  | publish (p : Nat) (build : Build) (builtAt : Int) (vms : List VmRow) (batch : Batch) (kept : List Int)
      (dropped : List Key) (hphase : s.procs p = .pruned build builtAt vms batch kept dropped)
      (hs' : s' = { s.rollback p .idle with db := s.db.commit p, rows := publish s.rows build builtAt vms kept })
  /-- A failure handler commits. -/
  | record (p : Nat) (build : Build) (batch : Batch) (hl : l = .commit p) (hphase : s.procs p = .marked build batch)
      (hs' : s' = { s.rollback p .idle with db := s.db.commit p })

/-- A move that leaves the database and the locks alone. -/
theorem Effect.of_goto {phase : Phase} (hs : Inv cfg s) (hversions : phase.versions = (s.procs p).versions)
    (hholder : ∀ build, phase.holder = some build → (s.procs p).holder = some build)
    (hcleared : ∀ build, phase.cleared = some build → ¬ s.Ready build.key)
    (hsound : phase.Sound cfg.keep s.Ready) : Effect cfg s l (s.goto p phase) := by
  refine .move p phase rfl rfl rfl (fun q => ?_) (fun _ _ _ h => h) ?_ hcleared hsound
  · show s.db.pending.get? q = _
    split
    · next hq => rw [hq, hs.versions, hversions]
    · rfl
  · intro build h
    exact hs.lock p build (hholder build h)

/-- A write within the transaction. -/
theorem Effect.of_write {phase : Phase} (hs : Inv cfg s) (h : s.write p phase = some s')
    (hversions : phase.versions.isSome) (hholder : ∀ build, phase.holder = some build → (s.procs p).holder = some build)
    (hcleared : ∀ build, phase.cleared = some build → ¬ s.Ready build.key)
    (hsound : phase.Sound cfg.keep s.Ready) : Effect cfg s l s' := by
  obtain ⟨versions, hphase⟩ := Option.isSome_iff_exists.mp hversions
  unfold State.write at h
  rw [hphase] at h
  obtain ⟨db, hdb, rfl⟩ := Option.map_eq_some_iff.mp h
  obtain ⟨hrows, hpending⟩ := Transactional.write_eq_some hdb
  refine .move p phase hrows rfl rfl ?_ (fun _ _ _ h => h) ?_ hcleared hsound
  · intro q
    rw [hphase]
    exact hpending q
  · intro build h
    exact hs.lock p build (hholder build h)

/-- The end of a transaction that publishes nothing. -/
theorem Effect.of_rollback {phase : Phase} (hversions : phase.versions = none) (hholder : phase.holder = none)
    (hcleared : phase.cleared = none) (hsound : phase.Sound cfg.keep s.Ready) :
    Effect cfg s l (s.rollback p phase) := by
  refine .move p phase rfl rfl rfl (fun q => ?_) (fun q period hne h => ?_) ?_ ?_ hsound
  · rw [hversions]
    exact Transactional.pending_rollback s.db p q
  · show (s.lock period).filter (· ≠ p) = some q
    rw [h, Option.filter_some, if_pos (by simpa using hne)]
  · intro build h
    rw [hholder] at h
    cases h
  · intro build h
    rw [hcleared] at h
    cases h

theorem ready_iff : s.Ready key ↔ ∃ batch, s.db.rows.get? key = some (some batch) ∧ batch.isReady = true := by
  unfold State.Ready State.batch?
  simp only [Option.join_eq_some_iff]

/-- What a completed build sees as ready: its own window, and the committed ones. -/
theorem mem_readyEnds_view {build : Build} {batch : Batch} {e : Int} (hready : batch.isReady = true)
    (hview : s.db.pending.get? p = some (KeyedTable.empty.put build.key (some batch))) :
    e ∈ readyEnds (s.view p) build.periodKey ↔ e = build.windowEnd ∨ s.Ready (build.periodKey, e) := by
  rw [mem_readyEnds, ready_iff, get?_view hview, KeyedTable.get?_put]
  by_cases he : e = build.windowEnd
  · subst he
    simpa [Build.key] using hready
  · have hne : (build.periodKey, e) ≠ build.key := fun h => he (congrArg Prod.snd h)
    simp [hne, he]

theorem kept_latest {build : Build} {batch : Batch} (n : Nat) (hready : batch.isReady = true)
    (hview : s.db.pending.get? p = some (KeyedTable.empty.put build.key (some batch))) :
    Kept n s.Ready build (latest n (readyEnds (s.view p) build.periodKey)) where
  nodup := latest_nodup (readyEnds_nodup _ _)
  fetched _ he := (mem_readyEnds_view hready hview).mp (mem_latest he)
  all e he := by
    have hmem := (mem_readyEnds_view hready hview).mpr (.inr he)
    exact Classical.or_iff_not_imp_left.mpr (lt_of_not_mem_latest hmem)

theorem tryLock_effect (hs : Inv cfg s) (h : tryLock s p = some s') : Effect cfg s l s' := by
  unfold tryLock at h
  split at h
  · next build hphase =>
      split at h
      · next hfree =>
          cases h
          refine .move p (.locked build) rfl rfl rfl (fun q => ?_) ?_ ?_ nofun trivial
          · show s.db.pending.get? q = _
            rw [hs.versions]
            split
            · next hq => rw [hq, hphase]; rfl
            · rfl
          · -- The lock was free, so no other process loses it.
            intro q period _ hq
            have hne : period ≠ build.periodKey := by
              rintro rfl
              rw [hfree] at hq
              cases hq
            show Function.update s.lock _ _ period = some q
            rw [Function.update_of_ne hne, hq]
          · rintro build' ⟨⟩
            exact Function.update_self ..
      · cases h
        exact .of_rollback rfl rfl rfl trivial
  · cases h

theorem checkReady_effect (hs : Inv cfg s) (h : checkReady s p = some s') : Effect cfg s l s' := by
  unfold checkReady at h
  split at h
  · next build hphase =>
      split at h
      · cases h
        exact .of_rollback rfl rfl rfl trivial
      · next hnot =>
          cases h
          refine .of_goto hs (by rw [hphase]; rfl) (by rw [hphase]; exact fun _ h => h) ?_ trivial
          rintro build' ⟨⟩ ⟨batch, hbatch, hready⟩
          apply hnot
          rw [hbatch]
          exact hready
  · cases h

theorem selectKeep_effect (hs : Inv cfg s) (h : selectKeep cfg s p = some s') : Effect cfg s l s' := by
  unfold selectKeep at h
  split at h
  · next build builtAt vms batch hphase =>
      cases h
      have hsound := hs.sound p
      have hview := hs.versions p
      have hcleared := hs.cleared p build
      rw [hphase] at hsound hview hcleared
      refine .of_goto hs (by rw [hphase]; rfl) (by rw [hphase]; exact fun _ h => h) ?_ ⟨hsound, kept_latest _ hsound hview⟩
      rintro build' ⟨⟩
      exact hcleared rfl
  · cases h

theorem prune_effect (hs : Inv cfg s) (h : prune s p = some s') : Effect cfg s l s' := by
  unfold prune at h
  split at h
  · next build builtAt vms batch kept hphase =>
      have hsound := hs.sound p
      have hview := hs.versions p
      have hcleared := hs.cleared p build
      rw [hphase] at hsound hview hcleared
      refine .of_write hs h rfl (by rw [hphase]; exact fun _ h => h) ?_ ⟨hsound.1, hsound.2, ?_, ?_⟩
      · rintro build' ⟨⟩
        exact hcleared rfl
      · intro key hkey
        exact (List.mem_filter.mp hkey).2
      · -- A ready batch is committed, so the statement sees it.
        intro key hready hout
        obtain ⟨old, hold, -⟩ := ready_iff.mp hready
        have hsome : ∃ seen, (s.view p).get? key = some (some seen) := by
          rw [get?_view hview, KeyedTable.get?_put]
          by_cases hk : key = build.key
          · exact ⟨batch, by rw [if_pos hk]; rfl⟩
          · exact ⟨old, by rw [if_neg hk]; exact hold⟩
        obtain ⟨seen, hseen⟩ := hsome
        refine List.mem_filter.mpr ⟨List.mem_map.mpr ⟨(key, some seen), ?_, rfl⟩, hout⟩
        exact List.mem_filter.mpr ⟨KeyedTable.mem_rows_of_get? hseen, rfl⟩
  · cases h

/-- A statement of the build keeps what the phase before it knew of its batch. -/
theorem cleared_of {build : Build} {phase old : Phase} (hs : Inv cfg s) (hphase : s.procs p = old)
    (hold : old.cleared = some build) (hnew : phase.cleared = some build) :
    ∀ build', phase.cleared = some build' → ¬ s.Ready build'.key := by
  intro build' hbuild'
  rw [hnew] at hbuild'
  obtain rfl := Option.some.inj hbuild'
  exact hs.cleared p build (by rw [hphase, hold])

theorem Build.completed_isReady (build : Build) (rowCount : Nat) (now : Int) :
    (build.completed rowCount now).isReady = true := rfl

theorem Build.failed_isReady (build : Build) (error : String) (now : Int) (old : Option Batch) :
    (build.failed error now old).isReady = false := by
  cases old <;> rfl

/-- **What any step does.** -/
theorem step_effect (hs : Inv cfg s) (h : step cfg s l = some s') : Effect cfg s l s' := by
  cases l with
  | start p periodKey windowEnd now =>
      change start cfg s p periodKey windowEnd now = some s' at h
      unfold start at h
      split at h
      · next hphase =>
          obtain ⟨build, -, rfl⟩ := Option.map_eq_some_iff.mp h
          exact .of_goto hs (by rw [hphase]; rfl) nofun nofun trivial
      · cases h
  | tryLock p => exact tryLock_effect hs h
  | checkReady p => exact checkReady_effect hs h
  | openBatch p =>
      change openBatch s p = some s' at h
      unfold openBatch at h
      split at h
      · next build hphase =>
          exact .of_write hs h rfl (by rw [hphase]; exact fun _ h => h) (cleared_of hs hphase rfl rfl) trivial
      · cases h
  | fill p builtAt vms =>
      change fill s p builtAt vms = some s' at h
      unfold fill at h
      split at h
      · next build hphase =>
          split at h
          · cases h
            exact .of_goto hs (by rw [hphase]; rfl) (by rw [hphase]; exact fun _ h => h) (cleared_of hs hphase rfl rfl)
              trivial
          · cases h
      · cases h
  | complete p now =>
      change complete s p now = some s' at h
      unfold complete at h
      split at h
      · next build builtAt vms hphase =>
          exact .of_write hs h rfl (by rw [hphase]; exact fun _ h => h) (cleared_of hs hphase rfl rfl)
            (build.completed_isReady _ now)
      · cases h
  | selectKeep p => exact selectKeep_effect hs h
  | prune p => exact prune_effect hs h
  | commit p =>
      change commit s p = some s' at h
      unfold commit at h
      split at h
      · next build builtAt vms batch kept dropped hphase =>
          exact .publish p build builtAt vms batch kept dropped hphase (Option.some.inj h).symm
      · next build batch hphase => exact .record p build batch rfl hphase (Option.some.inj h).symm
      · cases h
  | fail p error =>
      obtain ⟨build, -, rfl⟩ := Option.map_eq_some_iff.mp h
      exact .of_rollback rfl rfl rfl trivial
  | mark p now =>
      change mark s p now = some s' at h
      unfold mark at h
      split at h
      · next build error hphase => exact .of_write hs h rfl nofun nofun (build.failed_isReady error now _)
      · cases h
  | stop p =>
      obtain rfl := Option.some.inj h
      exact .of_rollback rfl rfl rfl trivial

/-! ## The invariant over a run -/

theorem outdated_period {periodKey : String} {kept : List Int} (h : outdated periodKey kept key = true) :
    key.1 = periodKey := by
  unfold outdated at h
  rw [Bool.and_eq_true] at h
  exact of_decide_eq_true h.1

/-- What a phase knows is about the windows of its period only. -/
theorem Phase.Sound.congr {n : Nat} {ready ready' : Key → Prop} {phase : Phase} (hs : phase.Sound n ready)
    (h : ∀ build, phase.holder = some build → ∀ key : Key, key.1 = build.periodKey → (ready' key ↔ ready key)) :
    phase.Sound n ready' := by
  have hkept : ∀ {build kept}, phase.holder = some build → Kept n ready build kept → Kept n ready' build kept := by
    intro build kept hholder hkept
    refine ⟨hkept.nodup, fun e he => ?_, fun e he => ?_⟩
    · exact (hkept.fetched e he).imp_right (h build hholder _ rfl).mpr
    · exact hkept.all e ((h build hholder _ rfl).mp he)
  cases phase with
  | selected build builtAt vms batch kept => exact ⟨hs.1, hkept rfl hs.2⟩
  | pruned build builtAt vms batch kept dropped =>
      refine ⟨hs.1, hkept rfl hs.2.1, hs.2.2.1, fun key hready hout => ?_⟩
      exact hs.2.2.2 key ((h build rfl key (outdated_period hout)).mp hready) hout
  | completed _ _ _ _ => exact hs
  | marked _ _ => exact hs
  | idle | started _ | locked _ | unready _ | opened _ | filled _ _ _ | failing _ _ => trivial

theorem Phase.holder_of_cleared {phase : Phase} {build : Build} (h : phase.cleared = some build) :
    phase.holder = some build := by
  cases phase <;> first | exact h | cases h

section Commit

variable {build : Build} {builtAt : Int} {vms : List VmRow} {batch : Batch} {kept : List Int} {dropped : List Key}

/-- The committed batches after the commit of a build. -/
theorem batch?_publish (hs : Inv cfg s) (hphase : s.procs p = .pruned build builtAt vms batch kept dropped)
    (hs' : s' = { s.rollback p .idle with db := s.db.commit p, rows := publish s.rows build builtAt vms kept })
    (key : Key) : s'.batch? key =
      if key ∈ dropped then none else if key = build.key then some batch else s.batch? key := by
  have hversions := hs.versions p
  rw [hphase] at hversions
  subst hs'
  unfold State.batch?
  rw [show (s.db.commit p).rows.get? key = _ from Transactional.get?_commit hversions key, get?_dropped,
    KeyedTable.get?_put]
  by_cases hdropped : key ∈ dropped
  · simp [hdropped]
  · rw [if_neg hdropped, if_neg hdropped]
    by_cases hkey : key = build.key <;> simp [hkey]

/-- The committed batches after the commit of a failure handler. -/
theorem batch?_record (hs : Inv cfg s) (hphase : s.procs p = .marked build batch)
    (hs' : s' = { s.rollback p .idle with db := s.db.commit p }) (key : Key) :
    s'.batch? key = if key = build.key then some batch else s.batch? key := by
  have hversions := hs.versions p
  rw [hphase] at hversions
  subst hs'
  unfold State.batch?
  rw [show (s.db.commit p).rows.get? key = _ from Transactional.get?_commit hversions key, KeyedTable.get?_put]
  by_cases hkey : key = build.key <;> simp [hkey]

/-- What the end of a transaction of `p` leaves to the invariant: the others' view of the ready windows. -/
theorem Inv.of_end (hs : Inv cfg s) (hprocs : s'.procs = Function.update s.procs p .idle)
    (hpending : ∀ q, s'.db.pending.get? q = if q = p then none else s.db.pending.get? q)
    (hlock : ∀ period, s'.lock period = (s.lock period).filter (· ≠ p))
    (hready : ∀ q build, q ≠ p → (s.procs q).holder = some build → ∀ key : Key, key.1 = build.periodKey →
      (s'.Ready key ↔ s.Ready key)) : Inv cfg s' where
  lock q build h := by
    rw [hprocs] at h
    by_cases hq : q = p
    · subst hq
      rw [Function.update_self] at h
      cases h
    · rw [Function.update_of_ne hq] at h
      rw [hlock, hs.lock q build h, Option.filter_some, if_pos (by simpa using hq)]
  versions q := by
    rw [hprocs, hpending]
    by_cases hq : q = p
    · subst hq
      rw [if_pos rfl, Function.update_self]
      rfl
    · rw [if_neg hq, Function.update_of_ne hq, hs.versions]
  cleared q build h := by
    rw [hprocs] at h
    by_cases hq : q = p
    · subst hq
      rw [Function.update_self] at h
      cases h
    · rw [Function.update_of_ne hq] at h
      rw [hready q build hq (Phase.holder_of_cleared h) build.key rfl]
      exact hs.cleared q build h
  sound q := by
    rw [hprocs]
    by_cases hq : q = p
    · subst hq
      rw [Function.update_self]
      trivial
    · rw [Function.update_of_ne hq]
      exact (hs.sound q).congr (hready q · hq)

/-- The commit of a build changes the windows of its own period only. -/
theorem ready_publish_of_ne (hs : Inv cfg s) (hphase : s.procs p = .pruned build builtAt vms batch kept dropped)
    (hs' : s' = { s.rollback p .idle with db := s.db.commit p, rows := publish s.rows build builtAt vms kept })
    (hne : key.1 ≠ build.periodKey) : s'.Ready key ↔ s.Ready key := by
  have hsound := hs.sound p
  rw [hphase] at hsound
  have hdropped : key ∉ dropped := fun h => hne (outdated_period (hsound.2.2.1 key h))
  have hkey : key ≠ build.key := fun h => hne (congrArg Prod.fst h)
  unfold State.Ready
  rw [batch?_publish hs hphase hs', if_neg hdropped, if_neg hkey]

theorem Inv.publish (hs : Inv cfg s) (hphase : s.procs p = .pruned build builtAt vms batch kept dropped)
    (hs' : s' = { s.rollback p .idle with db := s.db.commit p, rows := publish s.rows build builtAt vms kept }) :
    Inv cfg s' := by
  refine hs.of_end (p := p) (by rw [hs']; rfl) (fun q => ?_) (fun _ => by rw [hs']; rfl) ?_
  · rw [hs']
    exact Transactional.pending_commit s.db p q
  · -- Another process inside its transaction has the lock of another period.
    intro q other hq hholder key hkey
    refine ready_publish_of_ne hs hphase hs' ?_
    intro hperiod
    have hmine := hs.lock p build (by rw [hphase]; rfl)
    have hother := hs.lock q other hholder
    rw [← hkey, hperiod, hmine] at hother
    exact hq (Option.some.inj hother).symm

/-- A failure handler that finds no ready batch changes no ready batch. -/
theorem ready_record (hs : Inv cfg s) (hphase : s.procs p = .marked build batch)
    (hs' : s' = { s.rollback p .idle with db := s.db.commit p }) (hspares : ¬ s.Ready build.key) (key : Key) :
    s'.Ready key ↔ s.Ready key := by
  have hsound := hs.sound p
  rw [hphase] at hsound
  unfold State.Ready
  rw [batch?_record hs hphase hs']
  by_cases hkey : key = build.key
  · subst hkey
    rw [if_pos rfl]
    constructor
    · rintro ⟨_, ⟨⟩, hready⟩
      rw [show batch.isReady = false from hsound] at hready
      cases hready
    · intro h
      exact absurd h hspares
  · rw [if_neg hkey]

theorem Inv.record (hs : Inv cfg s) (hphase : s.procs p = .marked build batch)
    (hs' : s' = { s.rollback p .idle with db := s.db.commit p }) (hspares : ¬ s.Ready build.key) : Inv cfg s' := by
  refine hs.of_end (p := p) (by rw [hs']; rfl) (fun q => ?_) (fun _ => by rw [hs']; rfl) ?_
  · rw [hs']
    exact Transactional.pending_commit s.db p q
  · exact fun _ _ _ _ key _ => ready_record hs hphase hs' hspares key

end Commit

/-- **No failure handler commits over a ready batch.** -/
def sparesReady (s : State) : Label → Bool
  | .commit p =>
      match s.procs p with
      | .marked build _ => !(s.batch? build.key).any Batch.isReady
      | _ => true
  | _ => true

abbrev Spares (s : State) (l : Label) : Prop := sparesReady s l = true

theorem not_ready_of_spares {build : Build} {batch : Batch} (hok : Spares s (.commit p))
    (hphase : s.procs p = .marked build batch) : ¬ s.Ready build.key := by
  unfold Spares sparesReady at hok
  dsimp only at hok
  rw [hphase] at hok
  rintro ⟨old, hold, hready⟩
  simp [hold, hready] at hok

/-- **A step that spares the ready batches keeps the invariant.** -/
theorem Inv.preserved (hs : Inv cfg s) (hok : Spares s l) (h : step cfg s l = some s') : Inv cfg s' := by
  cases step_effect hs h with
  | move p phase hrows _ hprocs hpending hlock hholder hcleared hsound =>
      have hready : ∀ key, s'.Ready key ↔ s.Ready key := by
        intro key
        rw [ready_iff, ready_iff, hrows]
      constructor
      · intro q build hq
        rw [hprocs] at hq
        by_cases hqp : q = p
        · subst hqp
          rw [Function.update_self] at hq
          exact hholder build hq
        · rw [Function.update_of_ne hqp] at hq
          exact hlock q _ hqp (hs.lock q build hq)
      · intro q
        rw [hprocs, hpending]
        by_cases hqp : q = p
        · subst hqp
          rw [if_pos rfl, Function.update_self]
        · rw [if_neg hqp, Function.update_of_ne hqp, hs.versions]
      · intro q build hq
        rw [hready]
        rw [hprocs] at hq
        by_cases hqp : q = p
        · subst hqp
          rw [Function.update_self] at hq
          exact hcleared build hq
        · rw [Function.update_of_ne hqp] at hq
          exact hs.cleared q build hq
      · intro q
        rw [hprocs]
        by_cases hqp : q = p
        · subst hqp
          rw [Function.update_self]
          exact hsound.congr fun _ _ key _ => hready key
        · rw [Function.update_of_ne hqp]
          exact (hs.sound q).congr fun _ _ key _ => hready key
  | publish p build builtAt vms batch kept dropped hphase hs' => exact hs.publish hphase hs'
  | record p build batch hl hphase hs' =>
      subst hl
      exact hs.record hphase hs' (not_ready_of_spares hok hphase)

theorem inv_of_reachable (h : (snapshots cfg).Reachable Spares s) : Inv cfg s := by
  refine h.invariant ?_ fun s l s' _ hs hok hstep => hs.preserved hok hstep
  rintro s rfl
  exact Inv.init cfg

/-! ## A ready snapshot -/

/-- The state has the batch under its key, with the snapshot rows it had. -/
structure State.Serves (s : State) (key : Key) (batch : Batch) (rows : SnapshotRows) : Prop where
  batch : s.batch? key = some batch
  rows : ∀ node vmUuid, s.rows.get? (key, node, vmUuid) = rows.get? (key, node, vmUuid)

/-- The snapshot is gone, and the configured number of later ones of its period are ready. -/
structure State.Expired (cfg : Config) (s : State) (key : Key) : Prop where
  batch : s.batch? key = none
  rows : ∀ node vmUuid, s.rows.get? (key, node, vmUuid) = none
  later : ∃ ends : List Int, ends.Nodup ∧ ends.length = cfg.keep ∧ ∀ e ∈ ends, key.2 < e ∧ s.Ready (key.1, e)

section Publish

variable {build : Build} {builtAt : Int} {vms : List VmRow} {batch : Batch} {kept : List Int} {dropped : List Key}

/-- A commit replaces the rows of its own window and deletes the outdated ones. -/
theorem get?_publish (rows : SnapshotRows) (hkey : key ≠ build.key) (node vmUuid : String) :
    (publish rows build builtAt vms kept).get? (key, node, vmUuid) =
      if outdated build.periodKey kept key then none else rows.get? (key, node, vmUuid) := by
  unfold publish
  rw [KeyedTable.get?_deleteWhere]
  split
  · rfl
  · unfold KeyedTable.put
    rw [KeyedTable.get?_foldl_upsert_of_ne]
    · rw [KeyedTable.get?_deleteWhere, if_neg (by simpa using hkey)]
    · intro vm _ heq
      exact hkey (congrArg Prod.fst heq)

theorem le_of_mem_kept {e x : Int} {periodKey : String} (hkey : outdated periodKey kept (periodKey, e) = true)
    (hx : x ∈ kept) : e < x := by
  unfold outdated at hkey
  rw [Bool.and_eq_true] at hkey
  cases hmin : kept.min? with
  | none =>
      rw [hmin] at hkey
      cases hkey.2
  | some cutoff =>
      rw [hmin] at hkey
      have hlt : e < cutoff := of_decide_eq_true hkey.2
      have hle : cutoff ≤ x := (List.min?_eq_some_iff.mp hmin).2 x hx
      omega

/-- **The commit of a build keeps a ready snapshot, or removes it as outdated.** -/
theorem serves_publish (hs : Inv cfg s) (hphase : s.procs p = .pruned build builtAt vms batch kept dropped)
    (hs' : s' = { s.rollback p .idle with db := s.db.commit p, rows := publish s.rows build builtAt vms kept })
    {old : Batch} (hold : s.batch? key = some old) (hready : old.isReady = true) :
    s'.Serves key old s.rows ∨ s'.Expired cfg key := by
  have hsound := hs.sound p
  have hnot := hs.cleared p build
  rw [hphase] at hsound hnot
  obtain ⟨hbatch, hkept, hdrop, hall⟩ := hsound
  have hne : ∀ {key}, s.Ready key → key ≠ build.key := fun hkey heq => hnot rfl (heq ▸ hkey)
  have hrows : ∀ key', s.Ready key' → ∀ node vmUuid, s'.rows.get? (key', node, vmUuid) =
      if outdated build.periodKey kept key' then none else s.rows.get? (key', node, vmUuid) := by
    intro key' hkey' node vmUuid
    rw [hs']
    exact get?_publish s.rows (hne hkey') node vmUuid
  have hbatch? : ∀ key', s'.batch? key' = _ := batch?_publish hs hphase hs'
  have hkey : s.Ready key := ⟨old, hold, hready⟩
  by_cases hout : outdated build.periodKey kept key = true
  · refine .inr ⟨?_, fun node vmUuid => ?_, ?_⟩
    · rw [hbatch?, if_pos (hall key hkey hout)]
    · rw [hrows key hkey, if_pos hout]
    · obtain ⟨period, e⟩ := key
      obtain rfl : period = build.periodKey := outdated_period hout
      have hlater : ∀ x ∈ kept, e < x := fun x hx => le_of_mem_kept hout hx
      -- The window was not fetched, so the query's limit was reached.
      have hfull := (hkept.all e hkey).resolve_left fun hmem => lt_irrefl e (hlater e hmem)
      refine ⟨kept, hkept.nodup, hfull.1, fun x hx => ⟨hlater x hx, ?_⟩⟩
      have hfresh : (build.periodKey, x) ∉ dropped := fun hmem => lt_irrefl x (le_of_mem_kept (hdrop _ hmem) hx)
      unfold State.Ready
      rw [hbatch?, if_neg hfresh]
      rcases hkept.fetched x hx with rfl | hx
      · exact ⟨batch, if_pos rfl, hbatch⟩
      · rw [if_neg (hne hx)]
        exact hx
  · refine .inl ⟨?_, fun node vmUuid => ?_⟩
    · rw [hbatch?, if_neg fun hmem => hout (hdrop key hmem), if_neg (hne hkey), hold]
    · rw [hrows key hkey, if_neg hout]

end Publish

/-- **One step keeps a ready snapshot, or the cleanup removes it.** -/
theorem serves_step {batch : Batch} {rows : SnapshotRows} (hs : Inv cfg s) (hok : Spares s l)
    (h : step cfg s l = some s') (hready : batch.isReady = true) (hserves : s.Serves key batch rows) :
    s'.Serves key batch rows ∨ s'.Expired cfg key := by
  cases step_effect hs h with
  | move p phase hrows hsnapshots _ _ _ _ _ _ =>
      refine .inl ⟨?_, fun node vmUuid => ?_⟩
      · rw [← hserves.batch]
        unfold State.batch?
        rw [hrows]
      · rw [hsnapshots]
        exact hserves.rows node vmUuid
  | publish p build builtAt vms batch' kept dropped hphase hs' =>
      refine (serves_publish hs hphase hs' hserves.batch hready).imp_left fun h => ⟨h.batch, fun node vmUuid => ?_⟩
      rw [h.rows]
      exact hserves.rows node vmUuid
  | record p build batch' hl hphase hs' =>
      subst hl
      have hspares := not_ready_of_spares hok hphase
      have hne : key ≠ build.key := by
        rintro rfl
        exact hspares ⟨batch, hserves.batch, hready⟩
      refine .inl ⟨?_, fun node vmUuid => ?_⟩
      · rw [batch?_record hs hphase hs', if_neg hne]
        exact hserves.batch
      · rw [hs']
        exact hserves.rows node vmUuid

/-- **A ready snapshot stays ready**, with its batch and its rows, until the cleanup removes it by age: in every run in
    which no failure handler commits over a ready batch. -/
theorem ready_snapshot_stays {batch : Batch} {labels : List Label} (h : (snapshots cfg).Reachable Spares s)
    (hbatch : s.batch? key = some batch) (hready : batch.isReady = true)
    (hrun : (snapshots cfg).exec Spares s labels = some s') :
    s'.Serves key batch s.rows ∨ ∃ before l after mid mid', labels = before ++ l :: after ∧
      (snapshots cfg).exec Spares s before = some mid ∧ mid.Serves key batch s.rows ∧ step cfg mid l = some mid' ∧
      mid'.Expired cfg key := by
  have hserves : s.Serves key batch s.rows := ⟨hbatch, fun _ _ => rfl⟩
  have hone : ∀ mid l mid', (snapshots cfg).Reachable Spares mid → mid.Serves key batch s.rows → Spares mid l →
      (snapshots cfg).step mid l = some mid' → mid'.Serves key batch s.rows ∨ mid'.Expired cfg key := by
    intro mid l mid' hmid hserves hok hstep
    exact serves_step (inv_of_reachable hmid) hok hstep hready hserves
  exact h.kept_until hone hserves hrun

/-- The environment of a default installation. -/
def defaults : Config := { cacheBucketSeconds := 300, settleSeconds := none, keepGenerations := none }

/-- A build of an empty window that gets to its commit. -/
def buildRun (p : Nat) (windowEnd : Int) : List Label :=
  [.start p "1h" (some windowEnd) 72090, .tryLock p, .checkReady p, .openBatch p, .fill p 72091 [], .complete p 72092,
    .selectKeep p, .prune p]

/-- A build that fails at its query, after its rollback. -/
def failedRun (p : Nat) (windowEnd : Int) : List Label :=
  [.start p "1h" (some windowEnd) 72080, .tryLock p, .checkReady p, .openBatch p,
    .fail p "canceling statement due to statement timeout"]

/-- The batch of 72000 is ready, and stays so while the build of the next window fails. -/
theorem ready_snapshot_stays_beside_failure : ∃ s s' batch, (snapshots defaults).Reachable Spares s ∧
    s.batch? ("1h", 72000) = some batch ∧ batch.isReady = true ∧
    (snapshots defaults).exec Spares s (failedRun 2 72300 ++ [.mark 2 72095, .commit 2]) = some s' ∧
    (s'.Serves ("1h", 72000) batch s.rows ∨ ∃ before l after mid mid',
      failedRun 2 72300 ++ [.mark 2 72095, .commit 2] = before ++ l :: after ∧
      (snapshots defaults).exec Spares s before = some mid ∧ mid.Serves ("1h", 72000) batch s.rows ∧
      step defaults mid l = some mid' ∧ mid'.Expired defaults ("1h", 72000)) := by
  have hrun : (((snapshots defaults).exec Spares .init (buildRun 1 72000 ++ [.commit 1])).bind fun s =>
      (s.batch? ("1h", 72000)).bind fun batch =>
        ((snapshots defaults).exec Spares s (failedRun 2 72300 ++ [.mark 2 72095, .commit 2])).map fun _ =>
          batch.isReady) = some true := by decide +kernel
  obtain ⟨s, hexec, hrest⟩ := Option.bind_eq_some_iff.mp hrun
  obtain ⟨batch, hbatch, hlast⟩ := Option.bind_eq_some_iff.mp hrest
  obtain ⟨s', hrun', hready⟩ := Option.map_eq_some_iff.mp hlast
  have hinit : (snapshots defaults).Reachable Spares .init := .init rfl
  have hreach : (snapshots defaults).Reachable Spares s := hinit.exec hexec
  exact ⟨s, s', batch, hreach, hbatch, hready, hrun', ready_snapshot_stays hreach hbatch hready hrun'⟩

/-- **A failure handler overwrites a ready batch**: process 1 fails and gives its lock up, process 2 builds the same
    window, and then process 1 records its failure. -/
theorem failure_overwrites_ready : ¬ ∀ (cfg : Config) (s s' : State) (key : Key) (batch : Batch) (labels : List Label),
    (snapshots cfg).Reachable System.AnyStep s → s.batch? key = some batch → batch.isReady = true →
    (snapshots cfg).exec System.AnyStep s labels = some s' →
    s'.Serves key batch s.rows ∨ ∃ before l after mid mid', labels = before ++ l :: after ∧
      (snapshots cfg).exec System.AnyStep s before = some mid ∧ mid.Serves key batch s.rows ∧
      step cfg mid l = some mid' ∧ mid'.Expired cfg key := by
  intro hclaim
  have hrun : (((snapshots defaults).exec System.AnyStep .init
      (failedRun 1 72000 ++ buildRun 2 72000 ++ [.commit 2, .mark 1 72095])).bind fun s =>
        (s.batch? ("1h", 72000)).bind fun batch => (step defaults s (.commit 1)).map fun s' =>
          (batch.isReady, (s'.batch? ("1h", 72000)).map Batch.isReady)) = some (true, some false) := by decide +kernel
  obtain ⟨s, hexec, hrest⟩ := Option.bind_eq_some_iff.mp hrun
  obtain ⟨batch, hbatch, hlast⟩ := Option.bind_eq_some_iff.mp hrest
  obtain ⟨s', hstep, hvalues⟩ := Option.map_eq_some_iff.mp hlast
  obtain ⟨hready, hfinal⟩ := Prod.mk.inj hvalues
  obtain ⟨after, hafter, hnot⟩ := Option.map_eq_some_iff.mp hfinal
  have hinit : (snapshots defaults).Reachable System.AnyStep .init := .init rfl
  have hone : (snapshots defaults).exec System.AnyStep s [.commit 1] = some s' := by
    rw [System.exec, if_pos trivial]
    show (step defaults s (.commit 1)).bind _ = _
    rw [hstep]
    rfl
  rcases hclaim defaults s s' _ batch _ (hinit.exec hexec) hbatch hready hone with
    hserves | ⟨before, l, rest, mid, mid', hlabels, hbefore, -, hlast, hexpired⟩
  · rw [hserves.batch] at hafter
    obtain rfl := Option.some.inj hafter
    rw [hready] at hnot
    cases hnot
  · -- The only step of the run is the commit, and the batch is still there after it.
    cases before with
    | nil =>
        obtain ⟨rfl, -⟩ := List.cons.inj hlabels
        obtain rfl := Option.some.inj hbefore
        rw [hstep] at hlast
        obtain rfl := Option.some.inj hlast
        rw [hexpired.batch] at hafter
        cases hafter
    | cons first more => simp at hlabels

end VirtInfra.Snapshot
