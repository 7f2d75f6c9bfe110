import VirtInfra.Abuse.Refresh
import VirtInfra.Lib.Streak

/-!
# `Sustained` — what a sustained flag says about the pushes

Under one policy revision the pushes of a node come in any order, twice, late, or several to a five-minute bucket. A VM
is evaluated by every push that reports it and is not older than its row; the flag of a rule is set exactly if the
condition of the rule held at all of these evaluations through the required number of buckets, up to the bucket of the
last one (`abuse_sustained_iff`). A late push evaluates nothing, so the bucket that counts need not be its own
(`late_push_keeps_flag`).
-/

namespace VirtInfra.Abuse

open Lib Agent Python Consumption

/-! ## Pushes, one after another -/

/-- `/push`, from its start to its commit. A push with a receipt is refused. -/
def Store.take (s : Store) (push : Push) : Store :=
  ((s.step (.start push)).bind fun s => s.step (.commit push.node)).getD s

/-- **The state a revision starts from**: no push is under way, and every row is as the save of the policy left it. -/
structure RevisionStart (s : Store) : Prop where
  reachable : abuseSystem.Reachable System.AnyStep s
  idle : ∀ node, s.inFlight node = none
  reset : ∀ key state, s.abuse.get? key = some state → ∃ old now, state = resetRow s.policy.revision now old

theorem revisionStart_init (policy : Policy) : RevisionStart (Store.init policy) :=
  ⟨.init ⟨policy, rfl⟩, fun _ => rfl, fun _ _ h => by cases h⟩

theorem get?_savePolicy {s : Store} {values : PolicyValues} {now : Int} {key : VmKey} {state : AbuseState}
    (h : (savePolicy values now s).abuse.get? key = some state) :
    ∃ old, s.abuse.get? key = some old ∧ resetRow (max 1 (s.policy.revision + 1)) now old = state := by
  rw [← Option.map_eq_some_iff, ← h]
  exact (KeyedTable.get?_update s.abuse (fun _ state => resetRow _ now state) key).symm

/-- A save of the policy starts a revision. -/
theorem revisionStart_savePolicy {s : Store} (h : abuseSystem.Reachable System.AnyStep s)
    (hidle : ∀ node, s.inFlight node = none) (values : PolicyValues) (now : Int) :
    RevisionStart (savePolicy values now s) := by
  refine ⟨.step (l := .savePolicy values now) h trivial rfl, hidle, fun key state hstate => ?_⟩
  obtain ⟨old, -, rfl⟩ := get?_savePolicy hstate
  exact ⟨old, now, rfl⟩

/-! ## What the pushes say about a VM -/

/-- The pushes that are not refused. -/
def accepted (receipts : List (String × Int)) : List Push → List Push
  | [] => []
  | push :: rest =>
      if (push.node, push.time) ∈ receipts then accepted receipts rest
      else push :: accepted ((push.node, push.time) :: receipts) rest

/-- When a VM was last seen, and whether the condition of a rule held at its evaluations since its row began: each with
    its bucket, the newest first. -/
structure History where
  lastSeen : Option Int
  observations : List (Int × Bool)

/-- A push adds an evaluation for a VM it reports, unless the VM was seen later; a complete inventory without the VM ends
    its history, unless it was seen later. -/
def History.take (policy : Policy) (node vm : String) (rule : Rule) (history : History) (push : Push) : History :=
  match push.vms with
  | none => history
  | some vms =>
      if push.node ≠ node then history
      else if vm ∈ push.vmUuids vms then
        if history.lastSeen.all (· ≤ push.time) then
          { lastSeen := some push.time
            observations := (bucketFor push.time, isOver policy (currentRow policy push vms vm) rule) ::
              history.observations }
        else history
      else if history.lastSeen.any push.drops then { lastSeen := none, observations := [] }
      else history

/-- What a store knows of a VM before the pushes of the revision. -/
def Store.history (s : Store) (node vm : String) : History :=
  { lastSeen := (s.current.get? (node, vm)).map VmCurrent.lastSeen, observations := [] }

/-- **The evaluations of a VM** after some pushes. -/
def observations (s : Store) (node vm : String) (rule : Rule) (pushes : List Push) : List (Int × Bool) :=
  ((accepted s.receipts pushes).foldl (History.take s.policy node vm rule) (s.history node vm)).observations

/-! ## Rows and receipts -/

/-- Every current row is from a push with a receipt, and every abuse state is as old as the current row of its VM. -/
structure Seen (s : Store) : Prop where
  current : ∀ node vm row, s.current.get? (node, vm) = some row → (node, row.lastSeen) ∈ s.receipts
  abuse : ∀ key state, s.abuse.get? key = some state → ∃ row, s.current.get? key = some row ∧
    row.lastSeen = state.lastSeen

section Refresh

variable {f : InFlight} (vms : List (String × VmPerf)) {s : Store}

theorem current_other {key : VmKey} (hkey : key.1 ≠ f.push.node) :
    (refreshFastCurrentState f vms s).current.get? key = s.current.get? key := by
  show (currentWriter f vms s).current.get? key = _
  have hwritten : ((f.push.vmUuids vms).foldl (fun t vm => t.upsert (f.push.node, vm) (currentRow f.policy f.push vms vm)
      (KeyedTable.guarded VmCurrent.lastSeen)) s.current).get? key = s.current.get? key :=
    KeyedTable.get?_foldl_upsert_of_ne _ _ _ fun vm _ h => hkey (congrArg Prod.fst h)
  unfold currentWriter
  dsimp only
  split
  · show (KeyedTable.deleteRows _ _).get? _ = _
    rw [KeyedTable.get?_deleteRows, hwritten]
    cases s.current.get? key <;> simp [hkey]
  · exact hwritten

theorem abuse_refresh_other {key : VmKey} (hkey : key.1 ≠ f.push.node) :
    (refreshFastCurrentState f vms s).abuse.get? key = s.abuse.get? key := abuse_other s hkey

/-- **What a refresh does to one VM.** It evaluates the VM, finds its row newer than the push, or does not report it. -/
theorem refresh_vm (hseen : Seen s) (hreceipt : (f.push.node, f.push.time) ∉ s.receipts) (vm : String) :
    let key := (f.push.node, vm)
    let after := refreshFastCurrentState f vms s
    (vm ∈ f.push.vmUuids vms ∧ ((s.current.get? key).all fun row => row.lastSeen ≤ f.push.time) = true ∧
      after.current.get? key = some (currentRow f.policy f.push vms vm) ∧
      after.abuse.get? key = some
        (evaluate f.policy f.push vm (f.before.get? key) (currentRow f.policy f.push vms vm))) ∨
    (vm ∈ f.push.vmUuids vms ∧ ((s.current.get? key).all fun row => row.lastSeen ≤ f.push.time) = false ∧
      after.current.get? key = s.current.get? key ∧ after.abuse.get? key = s.abuse.get? key) ∨
    (vm ∉ f.push.vmUuids vms ∧
      after.current.get? key = (s.current.get? key).filter (fun row => !f.push.drops row.lastSeen) ∧
      after.abuse.get? key = (s.abuse.get? key).filter fun state => !f.push.drops state.lastSeen) := by
  intro key after
  have hcurrent : after.current.get? key = currentAfter f vms vm (s.current.get? key) := get?_currentWriter f vms s vm
  have habuse : after.abuse.get? key = abuseAfter f vm (currentAfter f vms vm (s.current.get? key)) (s.abuse.get? key) :=
    get?_refreshFastCurrentState f vms s vm
  -- no row carries the time of a push without a receipt
  have hne : ∀ row, s.current.get? key = some row → row.lastSeen ≠ f.push.time := by
    intro row hrow heq
    apply hreceipt
    rw [← heq]
    exact hseen.current _ _ row hrow
  have hkept : f.push.drops f.push.time = false := by simp [Push.drops]
  rw [hcurrent, habuse]
  by_cases hmem : vm ∈ f.push.vmUuids vms
  · have hafter : currentAfter f vms vm (s.current.get? key) =
        (some (mergeCurrent (s.current.get? key) (currentRow f.policy f.push vms vm))).filter fun row =>
          !f.push.drops row.lastSeen := by
      rw [currentAfter, if_pos hmem]
    cases hall : (s.current.get? key).all fun row => row.lastSeen ≤ f.push.time with
    | true =>
        -- the row of the push is written and evaluated, and the guard of its state passes
        have hmerge : mergeCurrent (s.current.get? key) (currentRow f.policy f.push vms vm) =
            currentRow f.policy f.push vms vm := by
          cases hrow : s.current.get? key with
          | none => rfl
          | some row =>
              rw [hrow] at hall
              exact if_pos (of_decide_eq_true hall)
        have hwritten : currentAfter f vms vm (s.current.get? key) = some (currentRow f.policy f.push vms vm) := by
          rw [hafter, hmerge, Option.filter_some]
          exact if_pos (by simp [currentRow, hkept])
        refine .inl ⟨hmem, rfl, hwritten, ?_⟩
        rw [hwritten, abuseAfter, Option.filter_some, if_pos (by simp [currentRow])]
        refine congrArg some ?_
        cases hstate : s.abuse.get? key with
        | none => rfl
        | some state =>
            obtain ⟨row, hrow, hsame⟩ := hseen.abuse key state hstate
            rw [hrow] at hall
            have hle : state.lastSeen ≤ f.push.time := hsame ▸ of_decide_eq_true hall
            rw [Option.filter_some]
            split
            · exact if_pos hle
            · rfl
    | false =>
        -- the row is newer than the push, and so is its state
        obtain ⟨row, hrow⟩ : ∃ row, s.current.get? key = some row := by
          cases hrow : s.current.get? key with
          | none => rw [hrow] at hall; cases hall
          | some row => exact ⟨row, rfl⟩
        have hlate : f.push.time < row.lastSeen := by
          rw [hrow] at hall
          exact not_le.mp (of_decide_eq_false hall)
        have hkeep : currentAfter f vms vm (s.current.get? key) = s.current.get? key := by
          rw [hafter, hrow, mergeCurrent, Option.elim_some, KeyedTable.guarded, if_neg (by
            simp only [currentRow]
            omega), Option.filter_some]
          exact if_pos (by simp [Push.drops]; omega)
        refine .inr (.inl ⟨hmem, rfl, hkeep, ?_⟩)
        rw [hkeep, hrow, abuseAfter, Option.filter_some, if_neg (by simpa using hne row hrow)]
        cases hstate : s.abuse.get? key with
        | none => rfl
        | some state =>
            obtain ⟨row', hrow', hsame⟩ := hseen.abuse key state hstate
            obtain rfl := Option.some.inj (hrow.symm.trans hrow')
            exact Option.filter_some_pos (by simp [Push.drops]; omega)
  · -- the VM is not evaluated
    have hafter : currentAfter f vms vm (s.current.get? key) =
        (s.current.get? key).filter fun row => !f.push.drops row.lastSeen := by
      rw [currentAfter, if_neg hmem]
    refine .inr (.inr ⟨hmem, hafter, ?_⟩)
    have hnone : (currentAfter f vms vm (s.current.get? key)).filter (fun row => row.lastSeen = f.push.time) = none := by
      rw [hafter, Option.filter_eq_none_iff]
      intro row hrow
      simpa using hne row (Option.filter_eq_some_iff.mp hrow).1
    rw [abuseAfter, hnone]

/-- A refresh keeps the rows seen, once its receipt is written. -/
theorem Seen.refresh (hseen : Seen s) (hreceipt : (f.push.node, f.push.time) ∉ s.receipts) {s' : Store}
    (hreceipts : s'.receipts = (f.push.node, f.push.time) :: s.receipts)
    (hcurrent : s'.current = (refreshFastCurrentState f vms s).current)
    (habuse : s'.abuse = (refreshFastCurrentState f vms s).abuse) : Seen s' := by
  constructor
  · intro node vm row hrow
    rw [hcurrent] at hrow
    rw [hreceipts]
    by_cases hnode : node = f.push.node
    · subst hnode
      rcases refresh_vm vms hseen hreceipt vm with ⟨-, -, hnew, -⟩ | ⟨-, -, hold, -⟩ | ⟨-, hold, -⟩
      · rw [hnew] at hrow
        cases hrow
        exact List.mem_cons_self
      · rw [hold] at hrow
        exact List.mem_cons_of_mem _ (hseen.current _ vm row hrow)
      · rw [hold] at hrow
        exact List.mem_cons_of_mem _ (hseen.current _ vm row (Option.filter_eq_some_iff.mp hrow).1)
    · rw [current_other vms hnode] at hrow
      exact List.mem_cons_of_mem _ (hseen.current node vm row hrow)
  · rintro ⟨node, vm⟩ state hstate
    rw [habuse] at hstate
    rw [hcurrent]
    by_cases hnode : node = f.push.node
    · subst hnode
      rcases refresh_vm vms hseen hreceipt vm with
        ⟨-, -, hnew, heval⟩ | ⟨-, -, hrow, hkept⟩ | ⟨-, hrow, hkept⟩
      · rw [heval] at hstate
        cases hstate
        exact ⟨_, hnew, rfl⟩
      · rw [hkept] at hstate
        rw [hrow]
        exact hseen.abuse _ state hstate
      · rw [hkept] at hstate
        obtain ⟨hstate, hkeep⟩ := Option.filter_eq_some_iff.mp hstate
        obtain ⟨row, hold, hsame⟩ := hseen.abuse _ state hstate
        refine ⟨row, ?_, hsame⟩
        rw [hrow, hold, Option.filter_some_pos]
        rwa [hsame]
    · have hother : (node, vm).1 ≠ f.push.node := hnode
      rw [abuse_refresh_other vms hother] at hstate
      rw [current_other vms hother]
      exact hseen.abuse _ state hstate

end Refresh

theorem seen_init (policy : Policy) : Seen (Store.init policy) where
  current _ _ _ h := by cases h
  abuse _ _ h := by cases h

theorem Seen.step {s s' : Store} {label : Label} (hseen : Seen s) (hconsistent : Consistent s)
    (hstep : s.step label = some s') : Seen s' := by
  cases label with
  | start push =>
      dsimp only [Store.step] at hstep
      split at hstep <;> cases hstep
      exact ⟨hseen.current, hseen.abuse⟩
  | commit node =>
      obtain ⟨f, hf, rfl⟩ := Option.map_eq_some_iff.mp hstep
      obtain ⟨rfl, hreceipt⟩ := hconsistent.named node f hf
      cases hvms : f.push.vms with
      | none => exact ⟨fun node vm row hrow => List.mem_cons_of_mem _ (hseen.current node vm row hrow), hseen.abuse⟩
      | some vms =>
          refine hseen.refresh vms hreceipt ?_ rfl rfl
          dsimp only
          rw [(refresh_frame f vms s).1]
  | abort node =>
      cases hstep
      exact ⟨hseen.current, hseen.abuse⟩
  | savePolicy values now =>
      cases hstep
      refine ⟨hseen.current, fun key state hstate => ?_⟩
      obtain ⟨old, hold, rfl⟩ := get?_savePolicy hstate
      exact hseen.abuse key old hold
  | resetAll =>
      cases hstep
      exact ⟨hseen.current, fun _ _ h => by cases h⟩

theorem seen_of_reachable {s : Store} (h : abuseSystem.Reachable System.AnyStep s) : Seen s := by
  apply h.invariant
  · rintro s ⟨policy, rfl⟩
    exact seen_init policy
  · intro s label s' hreach hs _ hstep
    exact hs.step (consistent_of_reachable hreach) hstep

/-! ## One push -/

/-- What `/push` leaves of a store in which no push is under way. -/
theorem take_eq {s : Store} (hidle : ∀ node, s.inFlight node = none) (push : Push) :
    s.take push =
      if (push.node, push.time) ∈ s.receipts then s
      else
        let f : InFlight := { push, policy := s.policy, before := s.abuse }
        let started := { s with inFlight := Function.update s.inFlight push.node (some f) }
        let after := push.vms.elim started fun vms => refreshFastCurrentState f vms started
        { after with
          receipts := (push.node, push.time) :: after.receipts
          inFlight := Function.update after.inFlight push.node none } := by
  unfold Store.take
  by_cases hreceipt : (push.node, push.time) ∈ s.receipts
  · rw [if_pos hreceipt, Store.step, if_pos (by simp [hreceipt])]
    rfl
  · rw [if_neg hreceipt, Store.step, if_neg (by simp [hidle, hreceipt])]
    simp only [Option.bind_some, Store.step, Function.update_self, Option.map_some, Option.getD_some]
    cases push.vms <;> rfl

theorem refresh_policy (f : InFlight) (vms : List (String × VmPerf)) (s : Store) :
    (refreshFastCurrentState f vms s).policy = s.policy := by
  show (currentWriter f vms s).policy = s.policy
  unfold currentWriter
  dsimp only
  split <;> rfl

/-- A push keeps the policy, and nothing is under way after it. -/
theorem take_frame {s : Store} (hidle : ∀ node, s.inFlight node = none) (push : Push) :
    (s.take push).policy = s.policy ∧ ∀ node, (s.take push).inFlight node = none := by
  rw [take_eq hidle]
  split
  · exact ⟨rfl, hidle⟩
  · cases push.vms with
    | none =>
        refine ⟨rfl, fun node => ?_⟩
        by_cases hnode : node = push.node <;> simp [hnode, hidle]
    | some vms =>
        refine ⟨refresh_policy _ _ _, fun node => ?_⟩
        dsimp only [Option.elim_some]
        rw [(refresh_frame _ _ _).2.1]
        by_cases hnode : node = push.node <;> simp [hnode, hidle]

theorem Seen.take {s : Store} (hseen : Seen s) (hidle : ∀ node, s.inFlight node = none) (push : Push) :
    Seen (s.take push) := by
  rw [take_eq hidle]
  split
  · exact hseen
  · rename_i hreceipt
    cases hvms : push.vms with
    | none => exact ⟨fun node vm row hrow => List.mem_cons_of_mem _ (hseen.current node vm row hrow), hseen.abuse⟩
    | some vms =>
        let f : InFlight := { push, policy := s.policy, before := s.abuse }
        have hstarted : Seen { s with inFlight := Function.update s.inFlight push.node (some f) } :=
          ⟨hseen.current, hseen.abuse⟩
        refine @Seen.refresh f vms _ hstarted hreceipt _ ?_ rfl rfl
        dsimp only [Option.elim_some]
        rw [(refresh_frame _ _ _).1]

/-! ## The streak of an evaluation -/

/-- The state of a VM; one without a row reads as zeros. -/
def Store.state (s : Store) (node vm : String) : AbuseState := (s.abuse.get? (node, vm)).getD AbuseState.blank

def AbuseState.streak (state : AbuseState) (rule : Rule) : Streak :=
  { cycles := state.streakCycles rule, last := state.lastEvalBucket }

/-- `_v4810_next_streak` takes in one observation. Only a row that was evaluated under the revision has a last bucket. -/
theorem nextStreak_eq {oldCycles oldBucket currentBucket : Int} {hit policySame : Bool}
    (h : oldBucket ≠ 0 → policySame = true) :
    nextStreak oldCycles hit policySame (oldBucket ≠ 0 && currentBucket - oldBucket = 300)
      (oldBucket ≠ currentBucket) =
        (Streak.observe 300 { cycles := oldCycles, last := oldBucket } (currentBucket, hit)).cycles := by
  unfold nextStreak Streak.observe
  cases hit with
  | false => rfl
  | true =>
      by_cases hbucket : oldBucket = currentBucket
      · simp [hbucket]
      · by_cases hzero : oldBucket = 0
        · simp [hzero]
        · simp [hbucket, hzero, h hzero]

/-- **An evaluation is one observation**, when the row is of the revision. -/
theorem streak_evaluate {policy : Policy} {push : Push} {vm : String} {stored : Option AbuseState} {row : VmCurrent}
    {rule : Rule} (hsame : ∀ state, stored = some state → state.policySame policy = true)
    (hnonneg : 0 ≤ (stored.getD AbuseState.blank).streakCycles rule) :
    (evaluate policy push vm stored row).streak rule =
      ((stored.getD AbuseState.blank).streak rule).observe 300 (bucketFor push.time, isOver policy row rule) := by
  have hrevision : (stored.getD AbuseState.blank).lastEvalBucket ≠ 0 →
      (stored.getD AbuseState.blank).policySame policy = true := by
    cases stored with
    | none => exact fun h => absurd rfl h
    | some state => exact fun _ => hsame state rfl
  have hcycles : (evaluate policy push vm stored row).streakCycles rule =
      nextStreak (max 0 ((stored.getD AbuseState.blank).streakCycles rule)) (isOver policy row rule)
        ((stored.getD AbuseState.blank).policySame policy)
        ((stored.getD AbuseState.blank).lastEvalBucket ≠ 0 &&
          bucketFor push.time - (stored.getD AbuseState.blank).lastEvalBucket = 300)
        ((stored.getD AbuseState.blank).lastEvalBucket ≠ bucketFor push.time) := rfl
  rw [max_eq_right hnonneg, nextStreak_eq hrevision] at hcycles
  unfold AbuseState.streak
  rw [hcycles]
  rfl

theorem one_le_requiredCycles (policy : Policy) (rule : Rule) : 1 ≤ policy.requiredCycles rule := by
  cases rule <;> exact le_max_left _ _

/-- The flag of a rule is set when its streak is long enough: a miss has none. -/
theorem flag_iff_streak {policy : Policy} {push : Push} {vm : String} {stored : Option AbuseState} {row : VmCurrent}
    {rule : Rule} : flagOf rule ∈ (evaluate policy push vm stored row).abuseFlags ↔
      policy.requiredCycles rule ≤ (evaluate policy push vm stored row).streakCycles rule := by
  rw [flagOf_mem_evaluate, and_iff_right_iff_imp]
  intro hle
  cases hover : isOver policy row rule with
  | true => rfl
  | false =>
      have hmiss : (evaluate policy push vm stored row).streakCycles rule = 0 := by
        show nextStreak _ (isOver policy row rule) _ _ _ = 0
        rw [hover]
        rfl
      have := one_le_requiredCycles policy rule
      omega

/-! ## Runs -/

/-- **The store follows the history of a VM.** -/
structure Tracks (s : Store) (node vm : String) (rule : Rule) (history : History) : Prop where
  lastSeen : history.lastSeen = (s.current.get? (node, vm)).map VmCurrent.lastSeen
  policySame : ∀ state, s.abuse.get? (node, vm) = some state → state.policySame s.policy = true
  streak : (s.state node vm).streak rule = Streak.of 300 history.observations
  flag : flagOf rule ∈ (s.state node vm).abuseFlags ↔
    s.policy.requiredCycles rule ≤ (s.state node vm).streakCycles rule
  ordered : Streak.Ordered 300 history.observations
  newest : ∀ observation ∈ history.observations, ∃ time, history.lastSeen = some time ∧ observation.1 ≤ bucketFor time

section Runs

variable {s : Store} {node vm : String} {rule : Rule} {history : History}

/-- The rows of a VM and the policy are all that matters. -/
theorem Tracks.congr {s' : Store} (h : Tracks s node vm rule history) (hpolicy : s'.policy = s.policy)
    (hcurrent : s'.current.get? (node, vm) = s.current.get? (node, vm))
    (habuse : s'.abuse.get? (node, vm) = s.abuse.get? (node, vm)) : Tracks s' node vm rule history := by
  have hstate : s'.state node vm = s.state node vm := by rw [Store.state, habuse, Store.state]
  constructor
  · rw [hcurrent, h.lastSeen]
  · rw [habuse, hpolicy]
    exact h.policySame
  · rw [hstate, h.streak]
  · rw [hstate, hpolicy, h.flag]
  · exact h.ordered
  · exact h.newest

theorem Tracks.nonneg (h : Tracks s node vm rule history) : 0 ≤ (s.state node vm).streakCycles rule := by
  have hnonneg := Streak.cycles_nonneg 300 history.observations
  rwa [← h.streak] at hnonneg

/-- The rows of a VM of which nothing is left. -/
theorem tracks_none {s : Store} (hcurrent : s.current.get? (node, vm) = none)
    (habuse : s.abuse.get? (node, vm) = none) :
    Tracks s node vm rule { lastSeen := none, observations := [] } := by
  have hstate : s.state node vm = AbuseState.blank := by rw [Store.state, habuse, Option.getD_none]
  have hcycles := one_le_requiredCycles s.policy rule
  refine ⟨by rw [hcurrent]; rfl, by simp [habuse], by rw [hstate]; rfl, ?_, ⟨List.Pairwise.nil, nofun⟩, nofun⟩
  rw [hstate]
  refine iff_of_false nofun ?_
  show ¬ _ ≤ (0 : Int)
  omega

/-- **An evaluation extends the history.** -/
theorem Tracks.evaluated (h : Tracks s node vm rule history) {s' : Store} {push : Push} {row : VmCurrent}
    (hpolicy : s'.policy = s.policy) (hold : history.lastSeen.all (· ≤ push.time) = true)
    (hrow : row.lastSeen = push.time) (hcurrent : s'.current.get? (node, vm) = some row)
    (habuse : s'.abuse.get? (node, vm) = some (evaluate s.policy push vm (s.abuse.get? (node, vm)) row)) :
    Tracks s' node vm rule
      { lastSeen := some push.time
        observations := (bucketFor push.time, isOver s.policy row rule) :: history.observations } := by
  have hstate : s'.state node vm = evaluate s.policy push vm (s.abuse.get? (node, vm)) row := by
    rw [Store.state, habuse, Option.getD_some]
  have hnewest : ∀ observation ∈ history.observations, observation.1 ≤ bucketFor push.time := by
    intro observation hmem
    obtain ⟨time, htime, hle⟩ := h.newest observation hmem
    rw [htime] at hold
    exact hle.trans (bucketFor_mono (of_decide_eq_true hold))
  refine ⟨by rw [hcurrent, Option.map_some, hrow], ?_, ?_, ?_, ?_, ?_⟩
  · rw [habuse, hpolicy]
    rintro state ⟨rfl⟩
    simp [AbuseState.policySame, evaluate]
  · rw [hstate, streak_evaluate h.policySame h.nonneg, Streak.of, ← h.streak]
    rfl
  · rw [hstate, hpolicy]
    exact flag_iff_streak
  · refine ⟨List.pairwise_cons.mpr ⟨hnewest, h.ordered.sorted⟩, fun observation hmem => ?_⟩
    rcases List.mem_cons.mp hmem with rfl | hmem
    · exact Dvd.intro_left _ rfl
    · exact h.ordered.aligned observation hmem
  · intro observation hmem
    refine ⟨push.time, rfl, ?_⟩
    rcases List.mem_cons.mp hmem with rfl | hmem
    · exact le_refl _
    · exact hnewest observation hmem

/-- A filter that decides the same for whatever is there. -/
theorem filter_const {ρ : Type} {row : Option ρ} {keep : ρ → Bool} {b : Bool} (h : ∀ r, row = some r → keep r = b) :
    row.filter keep = if b then row else none := by
  cases row with
  | none => simp
  | some r => rw [Option.filter_some, h r rfl]

/-- **One push.** -/
theorem Tracks.take (h : Tracks s node vm rule history) (hseen : Seen s) (hidle : ∀ node, s.inFlight node = none)
    {push : Push} (hreceipt : (push.node, push.time) ∉ s.receipts) :
    Tracks (s.take push) node vm rule (history.take s.policy node vm rule push) := by
  have hpolicy := (take_frame hidle push).1
  have htake := take_eq hidle push
  rw [if_neg hreceipt] at htake
  unfold History.take
  cases hvms : push.vms with
  | none =>
      rw [hvms] at htake
      exact h.congr hpolicy (by rw [htake]; rfl) (by rw [htake]; rfl)
  | some vms =>
      let f : InFlight := { push, policy := s.policy, before := s.abuse }
      let started := { s with inFlight := Function.update s.inFlight push.node (some f) }
      have hcurrent : (s.take push).current = (refreshFastCurrentState f vms started).current := by
        rw [htake, hvms]
        rfl
      have habuse : (s.take push).abuse = (refreshFastCurrentState f vms started).abuse := by
        rw [htake, hvms]
        rfl
      have hstarted : Seen started := ⟨hseen.current, hseen.abuse⟩
      dsimp only
      by_cases hnode : push.node = node
      · subst hnode
        rw [if_neg (not_not_intro rfl)]
        have hall : history.lastSeen.all (· ≤ push.time) =
            (s.current.get? (push.node, vm)).all fun row => row.lastSeen ≤ push.time := by
          rw [h.lastSeen, Option.all_map]
        rcases @refresh_vm f vms started hstarted hreceipt vm with
          ⟨hmem, hold, hrow, hstate⟩ | ⟨hmem, hlate, hrow, hstate⟩ | ⟨hmem, hrow, hstate⟩
        · -- evaluated
          rw [if_pos hmem, if_pos (hall.trans hold)]
          refine h.evaluated hpolicy (hall.trans hold) rfl ?_ ?_
          · rw [hcurrent, hrow]
          · rw [habuse, hstate]
        · -- late
          rw [if_pos hmem, if_neg (by rw [hall, hlate]; exact Bool.false_ne_true)]
          exact h.congr hpolicy (by rw [hcurrent, hrow]) (by rw [habuse, hstate])
        · -- not reported
          rw [if_neg hmem]
          -- the row and the state are as old as one another, so either both go or both stay
          have hstaleRow : ∀ row, s.current.get? (push.node, vm) = some row →
              (!push.drops row.lastSeen) = !history.lastSeen.any push.drops := by
            intro row hold
            rw [h.lastSeen, hold]
            rfl
          have hstaleState : ∀ state, s.abuse.get? (push.node, vm) = some state →
              (!push.drops state.lastSeen) = !history.lastSeen.any push.drops := by
            intro state hold
            obtain ⟨row, hrow, hsame⟩ := hseen.abuse _ state hold
            rw [← hsame, hstaleRow row hrow]
          change _ = Option.filter _ (s.current.get? (push.node, vm)) at hrow
          change _ = Option.filter _ (s.abuse.get? (push.node, vm)) at hstate
          rw [filter_const hstaleRow, ← hcurrent] at hrow
          rw [filter_const hstaleState, ← habuse] at hstate
          cases hdrops : history.lastSeen.any push.drops with
          | true =>
              rw [hdrops] at hrow hstate
              exact tracks_none hrow hstate
          | false =>
              rw [hdrops] at hrow hstate
              exact h.congr hpolicy hrow hstate
      · rw [if_pos hnode]
        have hother : (node, vm).1 ≠ f.push.node := Ne.symm hnode
        refine h.congr hpolicy ?_ ?_
        · rw [hcurrent, current_other vms hother]
        · rw [habuse, abuse_refresh_other vms hother]

theorem accepted_subset {receipts : List (String × Int)} {pushes : List Push} {push : Push}
    (h : push ∈ accepted receipts pushes) : push ∈ pushes := by
  induction pushes generalizing receipts with
  | nil => cases h
  | cons first rest ih =>
      unfold accepted at h
      split at h
      · exact List.mem_cons_of_mem _ (ih h)
      · rcases List.mem_cons.mp h with rfl | h
        · exact List.mem_cons_self
        · exact List.mem_cons_of_mem _ (ih h)

theorem take_receipts {s : Store} (hidle : ∀ node, s.inFlight node = none) {push : Push}
    (hreceipt : (push.node, push.time) ∉ s.receipts) :
    (s.take push).receipts = (push.node, push.time) :: s.receipts := by
  rw [take_eq hidle, if_neg hreceipt]
  cases push.vms with
  | none => rfl
  | some vms =>
      dsimp only [Option.elim_some]
      rw [(refresh_frame _ _ _).1]

/-- A store between two pushes of a revision. -/
structure Between (s : Store) (node vm : String) (rule : Rule) (history : History) : Prop where
  tracks : Tracks s node vm rule history
  seen : Seen s
  idle : ∀ node, s.inFlight node = none

/-- **A run of pushes.** -/
theorem Between.run (h : Between s node vm rule history) (pushes : List Push) :
    Between (pushes.foldl Store.take s) node vm rule
      ((accepted s.receipts pushes).foldl (History.take s.policy node vm rule) history) := by
  induction pushes generalizing s history with
  | nil => exact h
  | cons push rest ih =>
      rw [List.foldl_cons, accepted]
      have hframe := take_frame h.idle push
      split
      · rename_i hreceipt
        have htake : s.take push = s := by rw [take_eq h.idle, if_pos hreceipt]
        rw [htake]
        exact ih h
      · rename_i hreceipt
        have hnext := ih ⟨h.tracks.take h.seen h.idle hreceipt, h.seen.take h.idle push, hframe.2⟩
        rw [take_receipts h.idle hreceipt, hframe.1] at hnext
        exact hnext

/-- At the start of a revision no streak runs and no flag is set. -/
theorem RevisionStart.state (h : RevisionStart s) (node vm : String) (rule : Rule) :
    (s.state node vm).streak rule = Streak.blank ∧ (s.state node vm).abuseFlags = [] := by
  unfold Store.state
  cases hstate : s.abuse.get? (node, vm) with
  | none => exact ⟨rfl, rfl⟩
  | some state =>
      obtain ⟨old, now, rfl⟩ := h.reset _ state hstate
      exact ⟨rfl, rfl⟩

theorem RevisionStart.between (h : RevisionStart s) (node vm : String) (rule : Rule) :
    Between s node vm rule (s.history node vm) := by
  obtain ⟨hstreak, hflags⟩ := h.state node vm rule
  refine ⟨⟨rfl, ?_, hstreak, ?_, ⟨List.Pairwise.nil, nofun⟩, nofun⟩, seen_of_reachable h.reachable, h.idle⟩
  · intro state hstate
    obtain ⟨old, now, rfl⟩ := h.reset _ state hstate
    simp [AbuseState.policySame, resetRow]
  · have hcycles : (s.state node vm).streakCycles rule = 0 := congrArg Streak.cycles hstreak
    have hrequired := one_le_requiredCycles s.policy rule
    rw [hflags, hcycles]
    exact iff_of_false nofun (by omega)

/-- Pushes of one bucket raise a streak by one at most. -/
theorem cycles_le_of_bucket {policy : Policy} {bucket cycles : Int} {pushes : List Push}
    (hbucket : ∀ push ∈ pushes, bucketFor push.time = bucket) (hnonneg : 0 ≤ cycles)
    (h : (Streak.of 300 history.observations).cycles ≤ cycles ∨
      (Streak.of 300 history.observations).last = bucket ∧
        (Streak.of 300 history.observations).cycles ≤ cycles + 1) :
    (Streak.of 300 (pushes.foldl (History.take policy node vm rule) history).observations).cycles ≤ cycles + 1 := by
  induction pushes generalizing history with
  | nil =>
      rcases h with h | h
      · exact h.trans (by omega)
      · exact h.2
  | cons push rest ih =>
      refine ih (fun other hother => hbucket other (List.mem_cons_of_mem _ hother)) ?_
      have hpush := hbucket push List.mem_cons_self
      unfold History.take
      split
      · exact h
      · split
        · exact h
        split
        · split
          · -- an evaluation
            rw [Streak.of]
            refine .inr ⟨hpush, ?_⟩
            rcases h with h | ⟨hlast, h⟩
            · exact (Streak.observe_le _ (Streak.cycles_nonneg ..)).trans (by omega)
            · exact (Streak.observe_le_of_last _ (hlast.trans hpush.symm)).trans (by omega)
          · exact h
        · split
          · exact .inl hnonneg
          · exact h

end Runs

/-! ## Sustained abuse -/

theorem AbuseState.streak_cycles (state : AbuseState) (rule : Rule) :
    (state.streak rule).cycles = state.streakCycles rule := rfl

theorem exists_flag_iff {s : Store} {node vm : String} {flag : Flag} :
    (∃ state, s.abuse.get? (node, vm) = some state ∧ flag ∈ state.abuseFlags) ↔ flag ∈ (s.state node vm).abuseFlags := by
  unfold Store.state
  cases s.abuse.get? (node, vm) with
  | none => exact iff_of_false (by simp) nofun
  | some state => simp

theorem foldl_take_policy {s : Store} (hidle : ∀ node, s.inFlight node = none) (pushes : List Push) :
    (pushes.foldl Store.take s).policy = s.policy := by
  induction pushes generalizing s with
  | nil => rfl
  | cons push rest ih =>
      obtain ⟨hpolicy, hnext⟩ := take_frame hidle push
      rw [List.foldl_cons, ih hnext, hpolicy]

/-- **The flag of a rule, after any sequence of pushes under one policy revision**, is set exactly if the condition of
    the rule held through the required number of buckets up to that of the last evaluation: each was evaluated, and every
    evaluation since the last one of the first of these buckets found the condition met. Pushes within one bucket raise
    the streak by one at most, an evaluation that misses ends it, and one after a bucket without any starts it anew. -/
theorem abuse_sustained_iff {s : Store} (h : RevisionStart s) (node vm : String) (rule : Rule) (pushes : List Push) :
    ((∃ state, (pushes.foldl Store.take s).abuse.get? (node, vm) = some state ∧ flagOf rule ∈ state.abuseFlags) ↔
      ∃ latest ∈ (observations s node vm rule pushes).head?,
        Streak.Sustained 300 (s.policy.requiredCycles rule) latest.1 (observations s node vm rule pushes)) ∧
    (∀ more bucket, (∀ push ∈ more, bucketFor push.time = bucket) →
      (((pushes ++ more).foldl Store.take s).state node vm).streakCycles rule ≤
        ((pushes.foldl Store.take s).state node vm).streakCycles rule + 1) ∧
    (∀ push bucket hit,
      observations s node vm rule (pushes ++ [push]) = (bucket, hit) :: observations s node vm rule pushes →
      (hit = false → (((pushes ++ [push]).foldl Store.take s).state node vm).streakCycles rule = 0) ∧
      (hit = true → (∀ earlier ∈ observations s node vm rule pushes, earlier.1 ≠ bucket ∧ earlier.1 ≠ bucket - 300) →
        (((pushes ++ [push]).foldl Store.take s).state node vm).streakCycles rule = 1)) := by
  have hrun := fun pushes => (h.between node vm rule).run pushes
  have hcycles : ∀ pushes, ((pushes.foldl Store.take s).state node vm).streakCycles rule =
      (Streak.of 300 (observations s node vm rule pushes)).cycles := by
    intro pushes
    rw [← AbuseState.streak_cycles, (hrun pushes).tracks.streak]
    rfl
  refine ⟨?_, ?_, ?_⟩
  · have htracks := (hrun pushes).tracks
    rw [exists_flag_iff, htracks.flag, foldl_take_policy h.idle, hcycles]
    have hrequired := one_le_requiredCycles s.policy rule
    have hordered : Streak.Ordered 300 (observations s node vm rule pushes) := htracks.ordered
    cases hobserved : observations s node vm rule pushes with
    | nil =>
        refine iff_of_false ?_ (by simp)
        show ¬ _ ≤ (0 : Int)
        omega
    | cons latest older =>
        rw [hobserved] at hordered
        rw [Streak.cycles_iff (by decide) hrequired hordered]
        simp
  · intro more bucket hbucket
    have hmore := ((hrun pushes).run more).tracks.streak
    rw [← List.foldl_append] at hmore
    have hbefore := (hrun pushes).tracks
    rw [← AbuseState.streak_cycles, hmore]
    apply cycles_le_of_bucket (fun push hpush => hbucket push (accepted_subset hpush)) hbefore.nonneg
    left
    rw [← hbefore.streak]
    exact le_refl _
  · intro push bucket hit hobserved
    rw [hcycles, hobserved]
    constructor
    · rintro rfl
      exact Streak.observe_miss _
    · rintro rfl hgap
      exact Streak.cycles_gap hgap

/-- The policy of the samples with two cycles of CPU. -/
def Policy.twoCycles : Policy := { Policy.sample with cpuRequiredSeconds := 600 }

theorem abuse_sustained_two_cycles :
    let s := [Push.sample 600, Push.sample 900].foldl Store.take (Store.init Policy.twoCycles)
    ∃ state, s.abuse.get? ("node1", "vm1") = some state ∧ Flag.cpuSustained ∈ state.abuseFlags := by
  apply (abuse_sustained_iff (revisionStart_init Policy.twoCycles) "node1" "vm1" .cpu _).1.mpr
  have hobserved : observations (Store.init Policy.twoCycles) "node1" "vm1" .cpu [Push.sample 600, Push.sample 900] =
      [(900, true), (600, true)] := by decide +kernel
  rw [hobserved]
  refine ⟨(900, true), rfl, (Streak.cycles_iff (by decide) (by decide) ⟨by decide, by decide⟩).mp (by decide)⟩

/-- The last push is late: its bucket is 600, the flag is set, and nothing was ever pushed in the bucket before. -/
theorem late_push_keeps_flag :
    let pushes := [Push.sample 600, Push.sample 900, Push.sample 700]
    (∃ state, (pushes.foldl Store.take (Store.init Policy.twoCycles)).abuse.get? ("node1", "vm1") = some state ∧
      Flag.cpuSustained ∈ state.abuseFlags) ∧
    ¬ ∀ k, 0 ≤ k → k < Policy.twoCycles.requiredCycles .cpu →
      ∃ push ∈ pushes, bucketFor push.time = bucketFor 700 - 300 * k := by
  intro pushes
  refine ⟨?_, fun h => ?_⟩
  · have hflag : (((pushes.foldl Store.take (Store.init Policy.twoCycles)).abuse.get? ("node1", "vm1")).any fun state =>
        state.abuseFlags.contains .cpuSustained) = true := by decide +kernel
    obtain ⟨state, hstate, hcontains⟩ := (Option.any_eq_true ..).mp hflag
    exact ⟨state, hstate, List.contains_iff_mem.mp hcontains⟩
  · obtain ⟨push, hpush, hbucket⟩ := h 1 (by decide) (by decide)
    simp only [pushes, List.mem_cons, List.not_mem_nil, or_false] at hpush
    rcases hpush with rfl | rfl | rfl <;> exact absurd hbucket (by decide)

end VirtInfra.Abuse
