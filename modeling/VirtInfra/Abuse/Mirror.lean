import VirtInfra.Abuse.Incidents
import VirtInfra.Lib.Transition
import Mathlib.Data.List.Dedup

/-!
# `Mirror` — pushes, policy saves and resets against one another

A push reads the policy and the node's abuse rows at its start and writes states, events and incidents at its end; a
policy save closes every incident and resets every row in between. A push that decided under the old policy then
commits against tables it never saw, and incidents and states drift apart (`mirror_broken`). In a run where every push
commits against what it read, an incident is open for a VM exactly if its state is active.
-/

namespace VirtInfra.Abuse

open Lib Agent

abbrev VmKey := String × String

/-- An open transaction of `/push`: the policy it reads and the abuse rows it finds. -/
structure InFlight where
  push : Push
  policy : Policy
  before : KeyedTable VmKey AbuseState

structure Store where
  policy : Policy
  receipts : List (String × Int)
  current : KeyedTable VmKey VmCurrent
  abuse : KeyedTable VmKey AbuseState
  log : Log
  inFlight : String → Option InFlight

/-- The policy values of the form: everything but the revision, which `_v4810_save_policy` numbers. -/
abbrev PolicyValues := Policy

inductive Label
  | start (push : Push)
  | commit (node : String)
  | abort (node : String)
  | savePolicy (values : PolicyValues) (now : Int)
  | resetAll

/-! ## The transaction of a push -/

/-- `_v5052_current_writer` on the tables the evaluation reads. -/
def currentWriter (f : InFlight) (vms : List (String × VmPerf)) (s : Store) : Store :=
  let written := (f.push.vmUuids vms).foldl
    (fun t vm => t.upsert (f.push.node, vm) (currentRow f.policy f.push vms vm)
      (KeyedTable.guarded VmCurrent.lastSeen)) s.current
  if f.push.inventoryComplete then
    { s with
      current := written.deleteRows fun key row => key.1 = f.push.node && row.lastSeen < f.push.time
      abuse := s.abuse.deleteRows fun key row => key.1 = f.push.node && row.lastSeen < f.push.time }
  else { s with current := written }

/-- The rows evaluated: those of the node that carry the push's time. -/
def evaluatedRows (f : InFlight) (s : Store) : List (String × VmCurrent) :=
  (s.current.select fun key => key.1 = f.push.node).filterMap fun row =>
    if row.2.lastSeen = f.push.time then some (row.1.2, row.2) else none

/-- The upsert of the evaluated rows into `vm_abuse_state`. -/
def writeAbuse (f : InFlight) (s : Store) : Store :=
  { s with
    abuse := (evaluatedRows f s).foldl
      (fun t row =>
        t.upsert (f.push.node, row.1)
          (evaluate f.policy f.push row.1 (f.before.get? (f.push.node, row.1)) row.2)
          (KeyedTable.guarded AbuseState.lastSeen))
      s.abuse }

/-- The event of a VM whose state went from `old` to `new`, with the `abuse_since` it is written with. -/
def transition (policy : Policy) (node vm : String) (time : Int) (old new : Option AbuseState) :
    Option (Event × Int) :=
  let oldActive := activeUnder policy old
  let newActive := active new
  let oldState := old.getD AbuseState.blank
  let newState := new.getD AbuseState.blank
  let event := fun (eventType : EventType) (flags : List Flag) (severity : ℚ) (revision : Int) =>
    { eventTime := time, eventType, node, vmUuid := vm, abuseFlags := flags, severity, policyRevision := revision }
  if newActive && !oldActive then
    some (event .started newState.abuseFlags newState.severity newState.policyRevision, newState.abuseSince)
  else if newActive && oldActive && flagUnion [newState.abuseFlags] ≠ flagUnion [oldState.abuseFlags] then
    some (event .updated newState.abuseFlags newState.severity newState.policyRevision, newState.abuseSince)
  else if oldActive && !newActive then
    some (event .recovered (flagUnion [oldState.abuseFlags]) oldState.severity (new.getD oldState).policyRevision,
      oldState.abuseSince)
  else none

/-- The VMs of a node that have a row before or after the push, in order. -/
def vmsOf (node : String) (before after : KeyedTable VmKey AbuseState) : List String :=
  (((before.keys ++ after.keys).filter fun key => key.1 = node).map Prod.snd).dedup.mergeSort

/-- Write the event of one VM. -/
def recordTransition (f : InFlight) (after : KeyedTable VmKey AbuseState) (log : Log) (vm : String) : Log :=
  match transition f.policy f.push.node vm f.push.time (f.before.get? (f.push.node, vm))
      (after.get? (f.push.node, vm)) with
  | none => log
  | some (event, abuseSince) => log.insertAbuseEvent event abuseSince

/-- **`_v5050_refresh_fast_current_state`**, as it commits. -/
def refreshFastCurrentState (f : InFlight) (vms : List (String × VmPerf)) (s : Store) : Store :=
  let s := writeAbuse f (currentWriter f vms s)
  { s with log := (vmsOf f.push.node f.before s.abuse).foldl (recordTransition f s.abuse) s.log }

/-! ## The policy -/

/-- `_v4810_reset_current_state_for_policy` on one row. -/
def resetRow (revision now : Int) (state : AbuseState) : AbuseState :=
  { state with
    isAbuse := false, abuseSince := 0, abuseFlags := [], severity := 0, streakCycles := fun _ => 0
    policyRevision := revision, policyAppliedAt := now, lastEvalBucket := 0, engineVersion := Abuse.engineVersion }

/-- `_v4810_save_policy`, for `save` and for `reset` alike. -/
def savePolicy (values : PolicyValues) (now : Int) (s : Store) : Store :=
  let revision := max 1 (s.policy.revision + 1)
  { s with
    policy := { values with revision }
    abuse := s.abuse.update fun _ state => resetRow revision now state
    log := { s.log with incidents := s.log.incidents.closeAll now } }

/-! ## The system -/

def Store.step (s : Store) : Label → Option Store
  -- the advisory lock of the node, the receipt, and the reads of the transaction
  | .start push =>
      if (s.inFlight push.node).isSome || s.receipts.contains (push.node, push.time) then none
      else some { s with
        inFlight := Function.update s.inFlight push.node (some { push, policy := s.policy, before := s.abuse }) }
  | .commit node =>
      (s.inFlight node).map fun f =>
        let s := match f.push.vms with
          | none => s
          | some vms => refreshFastCurrentState f vms s
        { s with
          receipts := (f.push.node, f.push.time) :: s.receipts
          inFlight := Function.update s.inFlight node none }
  | .abort node => some { s with inFlight := Function.update s.inFlight node none }
  | .savePolicy values now => some (savePolicy values now s)
  | .resetAll =>
      some { s with
        abuse := KeyedTable.empty
        log := { events := [], incidents := { s.log.incidents with
          rows := [], nodup := List.nodup_nil, fresh := by rintro row ⟨⟩ } } }

def Store.init (policy : Policy) : Store :=
  { policy, receipts := [], current := KeyedTable.empty, abuse := KeyedTable.empty
    log := ⟨[], Incidents.empty⟩, inFlight := fun _ => none }

def abuseSystem : System Store Label where
  init s := ∃ policy, s = Store.init policy
  step := Store.step

/-! ## One transition -/

/-- The number of open incidents of a VM. -/
def Log.openCount (log : Log) (node vm : String) : Nat := (log.incidents.openOf node vm).length

section Transition

variable {policy : Policy} {node vm : String} {time : Int} {old new : Option AbuseState}

/-- What an event says about the state it was written for. -/
theorem transition_event {event : Event} {abuseSince : Int}
    (h : transition policy node vm time old new = some (event, abuseSince)) :
    event.node = node ∧ event.vmUuid = vm ∧ event.eventTime = time ∧
      (if event.eventType = .recovered then active new = false else active new = true) := by
  unfold transition at h
  dsimp only at h
  split at h
  · rename_i hcond
    obtain ⟨rfl, -⟩ := Prod.mk.inj (Option.some.inj h)
    exact ⟨rfl, rfl, rfl, (Bool.and_eq_true_iff.mp hcond).1⟩
  · split at h
    · rename_i hcond
      obtain ⟨rfl, -⟩ := Prod.mk.inj (Option.some.inj h)
      exact ⟨rfl, rfl, rfl, (Bool.and_eq_true_iff.mp (Bool.and_eq_true_iff.mp hcond).1).1⟩
    · split at h
      · rename_i hcond
        obtain ⟨rfl, -⟩ := Prod.mk.inj (Option.some.inj h)
        exact ⟨rfl, rfl, rfl, by simpa using (Bool.and_eq_true_iff.mp hcond).2⟩
      · cases h

/-- No event is written for a VM that is active after exactly if it was before. -/
theorem transition_none (h : transition policy node vm time old new = none) :
    active new = activeUnder policy old := by
  unfold transition at h
  dsimp only at h
  split at h
  · cases h
  · rename_i hstarted
    split at h
    · cases h
    · split at h
      · cases h
      · rename_i hrecovered
        cases hnew : active new <;> cases hold : activeUnder policy old <;> simp_all

/-- The open incidents of a VM after the event of its transition. -/
def countAfter (policy : Policy) (node vm : String) (time : Int) (old new : Option AbuseState) (count : Nat) : Nat :=
  match transition policy node vm time old new with
  | none => count
  | some (event, _) => if event.eventType = .recovered then 0 else 1

/-- **Incident and state agree after a transition**, when they agreed with what the push read before it. -/
theorem countAfter_eq {count : Nat} (hcount : count = if activeUnder policy old then 1 else 0) :
    countAfter policy node vm time old new count = if active new then 1 else 0 := by
  unfold countAfter
  split
  · rename_i hnone
    rw [transition_none hnone, hcount]
  · rename_i event abuseSince hsome
    obtain ⟨-, -, -, hactive⟩ := transition_event hsome
    split at hactive <;> rw [hactive] <;> simp [*]

end Transition

section Loop

variable {f : InFlight} {after : KeyedTable VmKey AbuseState}

theorem recordTransition_other (log : Log) {vm node' vm' : String} (hne : ¬ (node' = f.push.node ∧ vm' = vm)) :
    (recordTransition f after log vm).openCount node' vm' = log.openCount node' vm' := by
  unfold recordTransition
  split
  · rfl
  · rename_i event abuseSince hsome
    obtain ⟨hnode, hvm, -, -⟩ := transition_event hsome
    unfold Log.insertAbuseEvent
    split
    · rfl
    · unfold Log.openCount
      dsimp only
      rw [applyIncidentEvent_other event abuseSince]
      rwa [hnode, hvm]

/-- An event is added to the log only for the VM and the time of its push. -/
theorem recordTransition_events {log : Log} {vm : String} {event : Event}
    (h : event ∈ (recordTransition f after log vm).events) :
    event ∈ log.events ∨ event.node = f.push.node ∧ event.vmUuid = vm ∧ event.eventTime = f.push.time := by
  unfold recordTransition at h
  split at h
  · exact .inl h
  · rename_i new abuseSince hsome
    obtain ⟨hnode, hvm, htime, -⟩ := transition_event hsome
    unfold Log.insertAbuseEvent at h
    split at h
    · exact .inl h
    · rcases List.mem_append.mp h with hold | hnew
      · exact .inl hold
      · rw [List.mem_singleton.mp hnew]
        exact .inr ⟨hnode, hvm, htime⟩

theorem recordTransition_self {log : Log} {vm : String} (hone : log.openCount f.push.node vm ≤ 1)
    (hfresh : ∀ event ∈ log.events, ¬ (event.node = f.push.node ∧ event.vmUuid = vm ∧ event.eventTime = f.push.time)) :
    (recordTransition f after log vm).openCount f.push.node vm =
      countAfter f.policy f.push.node vm f.push.time (f.before.get? (f.push.node, vm)) (after.get? (f.push.node, vm))
        (log.openCount f.push.node vm) := by
  unfold recordTransition countAfter
  split
  · rfl
  · rename_i event abuseSince hsome
    obtain ⟨hnode, hvm, htime, -⟩ := transition_event hsome
    have hnew : log.events.any event.sameKey = false := by
      rw [List.any_eq_false]
      intro old hold hkey
      apply hfresh old hold
      simp only [Event.sameKey, Bool.and_eq_true, decide_eq_true_eq] at hkey
      obtain ⟨⟨⟨⟨hn, hv⟩, ht⟩, -⟩, -⟩ := hkey
      exact ⟨hn.symm.trans hnode, hv.symm.trans hvm, ht.symm.trans htime⟩
    unfold Log.insertAbuseEvent Log.openCount
    rw [if_neg (by rw [hnew]; exact Bool.false_ne_true)]
    have hself := applyIncidentEvent_self event abuseSince (t := log.incidents) (by rwa [hnode, hvm])
    rwa [hnode, hvm] at hself

theorem recordTransition_le_one {log : Log} (vm : String) {node' vm' : String} (hone : log.openCount node' vm' ≤ 1) :
    (recordTransition f after log vm).openCount node' vm' ≤ 1 := by
  by_cases hself : node' = f.push.node ∧ vm' = vm
  · obtain ⟨rfl, rfl⟩ := hself
    unfold recordTransition
    split
    · exact hone
    · rename_i event abuseSince hsome
      obtain ⟨hnode, hvm, -, -⟩ := transition_event hsome
      unfold Log.insertAbuseEvent
      split
      · exact hone
      · have happly := applyIncidentEvent_self event abuseSince (t := log.incidents) (by rwa [hnode, hvm])
        rw [hnode, hvm] at happly
        unfold Log.openCount
        rw [happly]
        split <;> decide
  · rwa [recordTransition_other log hself]

/-- The loop over the VMs, seen from a VM of another node or outside the list. -/
theorem fold_other (vms : List String) (log : Log) {node' vm' : String}
    (hne : ¬ (node' = f.push.node ∧ vm' ∈ vms)) :
    (vms.foldl (recordTransition f after) log).openCount node' vm' = log.openCount node' vm' := by
  induction vms generalizing log with
  | nil => rfl
  | cons vm rest ih =>
      rw [List.foldl_cons, ih _ fun h => hne ⟨h.1, List.mem_cons_of_mem _ h.2⟩]
      exact recordTransition_other log fun h => hne ⟨h.1, h.2 ▸ List.mem_cons_self⟩

theorem fold_le_one (vms : List String) {log : Log} {node' vm' : String} (hone : log.openCount node' vm' ≤ 1) :
    (vms.foldl (recordTransition f after) log).openCount node' vm' ≤ 1 := by
  induction vms generalizing log with
  | nil => exact hone
  | cons vm rest ih => exact ih (recordTransition_le_one vm hone)

theorem fold_events {vms : List String} {log : Log} {event : Event}
    (h : event ∈ (vms.foldl (recordTransition f after) log).events) :
    event ∈ log.events ∨ event.node = f.push.node ∧ event.eventTime = f.push.time := by
  induction vms generalizing log with
  | nil => exact .inl h
  | cons vm rest ih =>
      rcases ih h with hlog | hnew
      · exact (recordTransition_events hlog).imp_right fun ⟨hnode, _, htime⟩ => ⟨hnode, htime⟩
      · exact .inr hnew

/-- **The loop settles each VM of the list once.** -/
theorem fold_self {vms : List String} (hnodup : vms.Nodup) {log : Log}
    (hone : ∀ vm, log.openCount f.push.node vm ≤ 1)
    (hfresh : ∀ event ∈ log.events,
      ¬ (event.node = f.push.node ∧ event.vmUuid ∈ vms ∧ event.eventTime = f.push.time))
    {vm : String} (hvm : vm ∈ vms) :
    (vms.foldl (recordTransition f after) log).openCount f.push.node vm =
      countAfter f.policy f.push.node vm f.push.time (f.before.get? (f.push.node, vm)) (after.get? (f.push.node, vm))
        (log.openCount f.push.node vm) := by
  induction vms generalizing log with
  | nil => cases hvm
  | cons first rest ih =>
      obtain ⟨hnotin, hrest⟩ := List.nodup_cons.mp hnodup
      rw [List.foldl_cons]
      by_cases hfirst : vm = first
      · subst hfirst
        rw [fold_other rest _ fun h => hnotin h.2]
        apply recordTransition_self (hone vm)
        intro event hevent h
        exact hfresh event hevent ⟨h.1, h.2.1 ▸ List.mem_cons_self, h.2.2⟩
      · rw [ih hrest (fun vm' => recordTransition_le_one first (hone vm')) _
          ((List.mem_cons.mp hvm).resolve_left hfirst),
          recordTransition_other log fun h => hfirst h.2]
        intro event hevent h
        rcases recordTransition_events hevent with hold | ⟨-, heq, -⟩
        · exact hfresh event hold ⟨h.1, List.mem_cons_of_mem _ h.2.1, h.2.2⟩
        · exact hnotin (heq ▸ h.2.1)

end Loop

/-! ## The commit of a push -/

section Commit

variable {f : InFlight} {vms : List (String × VmPerf)}

theorem mem_vmsOf {node vm : String} {before after : KeyedTable VmKey AbuseState} :
    vm ∈ vmsOf node before after ↔ (before.get? (node, vm)).isSome ∨ (after.get? (node, vm)).isSome := by
  unfold vmsOf
  rw [List.mem_mergeSort, List.mem_dedup, List.mem_map, KeyedTable.get?_isSome_iff, KeyedTable.get?_isSome_iff]
  constructor
  · rintro ⟨⟨node', vm'⟩, hmem, rfl⟩
    obtain ⟨hkeys, hnode⟩ := List.mem_filter.mp hmem
    obtain rfl : node' = node := by simpa using hnode
    exact List.mem_append.mp hkeys
  · intro h
    exact ⟨(node, vm), List.mem_filter.mpr ⟨List.mem_append.mpr h, by simp⟩, rfl⟩

theorem nodup_vmsOf (node : String) (before after : KeyedTable VmKey AbuseState) : (vmsOf node before after).Nodup :=
  (List.mergeSort_perm _ _).nodup_iff.mpr (List.nodup_dedup _)

/-- A push leaves the abuse rows of other nodes alone. -/
theorem abuse_other (s : Store) {key : VmKey} (hkey : key.1 ≠ f.push.node) :
    (writeAbuse f (currentWriter f vms s)).abuse.get? key = s.abuse.get? key := by
  have hwriter : (currentWriter f vms s).abuse.get? key = s.abuse.get? key := by
    unfold currentWriter
    dsimp only
    split
    · dsimp only
      rw [KeyedTable.get?_deleteRows]
      cases s.abuse.get? key <;> simp [hkey]
    · rfl
  rw [← hwriter]
  exact KeyedTable.get?_foldl_upsert_of_ne _ _ _ fun row _ h => hkey (congrArg Prod.fst h)

/-- What a refresh leaves alone, and where its log comes from. -/
theorem refresh_frame (f : InFlight) (vms : List (String × VmPerf)) (s : Store) :
    (refreshFastCurrentState f vms s).receipts = s.receipts ∧ (refreshFastCurrentState f vms s).inFlight = s.inFlight ∧
    (refreshFastCurrentState f vms s).log =
      (vmsOf f.push.node f.before (refreshFastCurrentState f vms s).abuse).foldl
        (recordTransition f (refreshFastCurrentState f vms s).abuse) s.log := by
  have hwriter : (writeAbuse f (currentWriter f vms s)).receipts = s.receipts ∧
      (writeAbuse f (currentWriter f vms s)).inFlight = s.inFlight ∧
      (writeAbuse f (currentWriter f vms s)).log = s.log := by
    unfold writeAbuse currentWriter
    dsimp only
    split <;> exact ⟨rfl, rfl, rfl⟩
  obtain ⟨hreceipts, hinFlight, hlog⟩ := hwriter
  refine ⟨hreceipts, hinFlight, ?_⟩
  unfold refreshFastCurrentState
  dsimp only
  rw [hlog]

/-- What a committed push does to the open incidents of the node's VMs. -/
theorem refresh_openCount {s : Store} (hone : ∀ vm, s.log.openCount f.push.node vm ≤ 1)
    (hfresh : ∀ event ∈ s.log.events, ¬ (event.node = f.push.node ∧ event.eventTime = f.push.time))
    (hagree : ∀ vm, s.log.openCount f.push.node vm =
      if activeUnder f.policy (f.before.get? (f.push.node, vm)) then 1 else 0) (vm : String) :
    (refreshFastCurrentState f vms s).log.openCount f.push.node vm =
      if active ((refreshFastCurrentState f vms s).abuse.get? (f.push.node, vm)) then 1 else 0 := by
  rw [(refresh_frame f vms s).2.2]
  by_cases hvm : vm ∈ vmsOf f.push.node f.before (refreshFastCurrentState f vms s).abuse
  · rw [fold_self (nodup_vmsOf _ _ _) hone (fun event hevent h => hfresh event hevent ⟨h.1, h.2.2⟩) hvm]
    exact countAfter_eq (hagree vm)
  · -- a VM without a row before and after has no incident
    rw [fold_other _ _ fun h => hvm h.2, hagree vm]
    rw [mem_vmsOf, not_or, Bool.not_eq_true, Bool.not_eq_true, Option.isSome_eq_false_iff,
      Option.isSome_eq_false_iff, Option.isNone_iff_eq_none, Option.isNone_iff_eq_none] at hvm
    rw [hvm.1, hvm.2]
    rfl

end Commit

/-! ## Runs -/

/-- The tables and the open transactions agree, whatever the interleaving: at most one incident of a VM is open. -/
structure Consistent (s : Store) : Prop where
  named : ∀ node f, s.inFlight node = some f → f.push.node = node ∧ (node, f.push.time) ∉ s.receipts
  events : ∀ event ∈ s.log.events, (event.node, event.eventTime) ∈ s.receipts
  one : ∀ node vm, s.log.openCount node vm ≤ 1

theorem consistent_init (policy : Policy) : Consistent (Store.init policy) where
  named node f h := by cases h
  events event h := by cases h
  one node vm := Nat.zero_le 1

theorem Consistent.step {s s' : Store} {label : Label} (h : Consistent s) (hstep : s.step label = some s') :
    Consistent s' := by
  cases label with
  | start push =>
      dsimp only [Store.step] at hstep
      split at hstep <;> cases hstep
      rename_i hcond
      refine ⟨?_, h.events, h.one⟩
      intro node f hf
      dsimp only at hf
      by_cases hnode : node = push.node
      · subst hnode
        rw [Function.update_self] at hf
        cases hf
        refine ⟨rfl, fun hmem => hcond ?_⟩
        rw [Bool.or_eq_true]
        exact .inr (List.contains_iff_mem.mpr hmem)
      · rw [Function.update_of_ne hnode] at hf
        exact h.named node f hf
  | commit node =>
      obtain ⟨f, hf, rfl⟩ := Option.map_eq_some_iff.mp hstep
      obtain ⟨hname, -⟩ := h.named node f hf
      subst hname
      have hnamed : ∀ node' f', Function.update s.inFlight f.push.node none node' = some f' →
          f'.push.node = node' ∧ (node', f'.push.time) ∉ (f.push.node, f.push.time) :: s.receipts := by
        intro node' f' hf'
        by_cases hnode : node' = f.push.node
        · subst hnode
          rw [Function.update_self] at hf'
          cases hf'
        · rw [Function.update_of_ne hnode] at hf'
          obtain ⟨hname', hreceipt⟩ := h.named node' f' hf'
          refine ⟨hname', fun hmem => ?_⟩
          rcases List.mem_cons.mp hmem with heq | hmem
          · exact hnode (congrArg Prod.fst heq)
          · exact hreceipt hmem
      cases hvms : f.push.vms with
      | none => exact ⟨hnamed, fun event hevent => List.mem_cons_of_mem _ (h.events event hevent), h.one⟩
      | some vms =>
          obtain ⟨hreceipts, hinFlight, hlog⟩ := refresh_frame f vms s
          dsimp only
          rw [hreceipts, hinFlight]
          refine ⟨hnamed, ?_, fun node vm => ?_⟩
          · intro event hevent
            dsimp only at hevent
            rw [hlog] at hevent
            rcases fold_events hevent with hold | ⟨hnode, htime⟩
            · exact List.mem_cons_of_mem _ (h.events event hold)
            · rw [hnode, htime]
              exact List.mem_cons_self
          · show (refreshFastCurrentState f vms s).log.openCount node vm ≤ 1
            rw [hlog]
            exact fold_le_one _ (h.one node vm)
  | abort node =>
      cases hstep
      refine ⟨?_, h.events, h.one⟩
      intro node' f hf
      dsimp only at hf
      by_cases hnode : node' = node
      · subst hnode
        rw [Function.update_self] at hf
        cases hf
      · rw [Function.update_of_ne hnode] at hf
        exact h.named node' f hf
  | savePolicy values now =>
      cases hstep
      refine ⟨h.named, h.events, fun node vm => ?_⟩
      show ((s.log.incidents.closeAll now).openOf node vm).length ≤ 1
      rw [openOf_closeAll]
      exact Nat.zero_le 1
  | resetAll =>
      cases hstep
      exact ⟨h.named, by rintro event ⟨⟩, fun node vm => Nat.zero_le 1⟩

theorem consistent_of_reachable {ok : Store → Label → Prop} {s : Store} (h : abuseSystem.Reachable ok s) :
    Consistent s := by
  apply h.invariant
  · rintro s ⟨policy, rfl⟩
    exact consistent_init policy
  · intro s label s' _ hs _ hstep
    exact hs.step hstep

/-- **Commits against what was read**: when a push commits, each VM of the node is active in the stored state exactly if
    the push found it active under the policy it read. -/
def CommitsCurrent (s : Store) : Label → Prop
  | .commit node => ∀ f ∈ s.inFlight node, f.push.vms ≠ none →
      ∀ vm, active (s.abuse.get? (node, vm)) = activeUnder f.policy (f.before.get? (node, vm))
  | _ => True

/-- An incident is open for a VM exactly if its state is active. -/
def Mirrored (s : Store) : Prop :=
  ∀ node vm, s.log.openCount node vm = if active (s.abuse.get? (node, vm)) then 1 else 0

theorem active_resetRow (revision now : Int) (state : Option AbuseState) :
    active (state.map (resetRow revision now)) = false := by
  cases state <;> rfl

theorem Mirrored.step {s s' : Store} {label : Label} (hconsistent : Consistent s) (h : Mirrored s)
    (hcurrent : CommitsCurrent s label) (hstep : s.step label = some s') : Mirrored s' := by
  cases label with
  | start push =>
      dsimp only [Store.step] at hstep
      split at hstep <;> cases hstep
      exact h
  | commit node =>
      obtain ⟨f, hf, rfl⟩ := Option.map_eq_some_iff.mp hstep
      obtain ⟨rfl, hreceipt⟩ := hconsistent.named node f hf
      cases hvms : f.push.vms with
      | none => exact h
      | some vms =>
          intro node' vm
          dsimp only
          by_cases hnode : node' = f.push.node
          · subst hnode
            apply refresh_openCount (hconsistent.one f.push.node)
            · rintro event hevent ⟨hnode, htime⟩
              rw [← hnode, ← htime] at hreceipt
              exact hreceipt (hconsistent.events event hevent)
            · intro vm'
              rw [← hcurrent f hf (by rw [hvms]; simp) vm']
              exact h f.push.node vm'
          · have hlog := (refresh_frame f vms s).2.2
            rw [hlog, fold_other _ _ fun h => hnode h.1, h node' vm]
            have hstate : (refreshFastCurrentState f vms s).abuse.get? (node', vm) = s.abuse.get? (node', vm) :=
              abuse_other s hnode
            rw [hstate]
  | abort node =>
      cases hstep
      exact h
  | savePolicy values now =>
      cases hstep
      intro node vm
      show ((s.log.incidents.closeAll now).openOf node vm).length =
        if active ((s.abuse.update fun _ state => resetRow _ now state).get? (node, vm)) then 1 else 0
      rw [openOf_closeAll, KeyedTable.get?_update, active_resetRow]
      rfl
  | resetAll =>
      cases hstep
      exact fun node vm => rfl

/-- A policy under which one cycle at 90 percent CPU is abuse, and nothing else is. -/
def Policy.sample : Policy :=
  { networkEnabled := false, networkPps := 200000, lower := Agent.PpsPolicy.sample.lower, upper := Agent.PpsPolicy.sample.upper, revision := 1
    networkRequiredSeconds := 270, networkMbpsEnabled := false, networkAvgMbps := 800
    networkMbpsRequiredSeconds := 300, cpuEnabled := true, cpuFullPercent := 90, cpuRequiredSeconds := 300
    ramEnabled := false, ramRssPercent := 95, ramGuestUsedPercent := 95, ramLowUsablePercent := 5
    ramRequiredSeconds := 600, diskEnabled := false, diskReadBps := 0, diskWriteBps := 0, diskBps := 0
    diskIops := 5000, diskRequiredSeconds := 900 }

/-- A push of one busy VM. -/
def Push.sample (time : Int) : Push :=
  { node := "node1", time, interfaces := [], vms := some [("vm1", { cpuFullPercent := 100 })], inventoryComplete := true }

end VirtInfra.Abuse
