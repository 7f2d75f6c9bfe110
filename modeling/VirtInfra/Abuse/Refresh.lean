import VirtInfra.Abuse.Mirror

/-!
# `Refresh` — what a refresh leaves of one VM

`_v5050_refresh_fast_current_state` works on whole tables. Its effect on a VM is read off here once: the row of
`vm_current_fast` after the current writer, whether the VM is evaluated, and the row of `vm_abuse_state` after both.
-/

namespace VirtInfra.Abuse

open Lib Agent Python Consumption

/-- The rows of a VM that a complete inventory of `push` drops. -/
def Push.drops (push : Push) (lastSeen : Int) : Bool := push.inventoryComplete && decide (lastSeen < push.time)

theorem Push.filter_drops (push : Push) (h : ¬ push.inventoryComplete = true) {ρ : Type} {lastSeen : ρ → Int}
    (row : Option ρ) : (row.filter fun row => !push.drops (lastSeen row)) = row := by
  cases row <;> simp [Push.drops, h]

/-- The row of a VM after the upsert of a push that reports it. -/
def mergeCurrent (stored : Option VmCurrent) (new : VmCurrent) : VmCurrent :=
  stored.elim new fun old => KeyedTable.guarded VmCurrent.lastSeen old new

/-- **The row of a VM in `vm_current_fast`** after the current writer. -/
def currentAfter (f : InFlight) (vms : List (String × VmPerf)) (vm : String) (stored : Option VmCurrent) :
    Option VmCurrent :=
  (if vm ∈ f.push.vmUuids vms then some (mergeCurrent stored (currentRow f.policy f.push vms vm)) else stored).filter
    fun row => !f.push.drops row.lastSeen

/-- **The row of a VM in `vm_abuse_state`** after the refresh; `row` is its row in `vm_current_fast` by then. -/
def abuseAfter (f : InFlight) (vm : String) (row : Option VmCurrent) (stored : Option AbuseState) : Option AbuseState :=
  let kept := stored.filter fun state => !f.push.drops state.lastSeen
  match row.filter fun row => row.lastSeen = f.push.time with
  | none => kept
  | some row =>
      let new := evaluate f.policy f.push vm (f.before.get? (f.push.node, vm)) row
      some (kept.elim new fun old => KeyedTable.guarded AbuseState.lastSeen old new)

section Refresh

variable (f : InFlight) (vms : List (String × VmPerf)) (s : Store)

theorem nodup_vmUuids (push : Push) : (push.vmUuids vms).Nodup := (List.nodup_dedup _).filter _

/-- The current writer, VM by VM. -/
theorem get?_currentWriter (vm : String) : (currentWriter f vms s).current.get? (f.push.node, vm) =
    currentAfter f vms vm (s.current.get? (f.push.node, vm)) := by
  have hwritten : ((f.push.vmUuids vms).foldl (fun t vm => t.upsert (f.push.node, vm) (currentRow f.policy f.push vms vm)
      (KeyedTable.guarded VmCurrent.lastSeen)) s.current).get? (f.push.node, vm) =
        if vm ∈ f.push.vmUuids vms then
          some (mergeCurrent (s.current.get? (f.push.node, vm)) (currentRow f.policy f.push vms vm))
        else s.current.get? (f.push.node, vm) := by
    split
    · rename_i hmem
      have hnodup : ((f.push.vmUuids vms).map fun vm => (f.push.node, vm)).Nodup :=
        (nodup_vmUuids vms f.push).map fun a b hab => (Prod.mk.inj hab).2
      exact KeyedTable.get?_foldl_upsert_of_mem (fun vm => (f.push.node, vm)) hnodup hmem _ _ _
    · rename_i hmem
      refine KeyedTable.get?_foldl_upsert_of_ne _ _ _ fun other hother heq => hmem ?_
      rwa [(Prod.mk.inj heq).2]
  unfold currentWriter currentAfter
  dsimp only
  split
  · rename_i hcomplete
    show (KeyedTable.deleteRows _ _).get? _ = _
    rw [KeyedTable.get?_deleteRows, hwritten]
    congr 1
    funext row
    simp [Push.drops, hcomplete]
  · rename_i hcomplete
    rw [f.push.filter_drops hcomplete]
    exact hwritten

/-- It deletes from the abuse states what it deletes from the current rows. -/
theorem get?_abuse_currentWriter (vm : String) : (currentWriter f vms s).abuse.get? (f.push.node, vm) =
    (s.abuse.get? (f.push.node, vm)).filter fun state => !f.push.drops state.lastSeen := by
  unfold currentWriter
  dsimp only
  split
  · rename_i hcomplete
    show (KeyedTable.deleteRows _ _).get? _ = _
    rw [KeyedTable.get?_deleteRows]
    congr 1
    funext row
    simp [Push.drops, hcomplete]
  · rename_i hcomplete
    rw [f.push.filter_drops hcomplete]

/-- The rows that are evaluated. -/
theorem mem_evaluatedRows {vm : String} {row : VmCurrent} : (vm, row) ∈ evaluatedRows f s ↔
    (s.current.get? (f.push.node, vm)).filter (fun row => row.lastSeen = f.push.time) = some row := by
  unfold evaluatedRows KeyedTable.select
  rw [List.mem_filterMap, Option.filter_eq_some_iff, decide_eq_true_eq]
  constructor
  · rintro ⟨⟨⟨node, vm'⟩, row'⟩, hmem, hsome⟩
    obtain ⟨hrows, hnode⟩ := List.mem_filter.mp hmem
    obtain rfl : node = f.push.node := of_decide_eq_true hnode
    split at hsome
    · rename_i htime
      obtain ⟨rfl, rfl⟩ := Prod.mk.inj (Option.some.inj hsome)
      exact ⟨KeyedTable.get?_of_mem_rows hrows, htime⟩
    · cases hsome
  · rintro ⟨hrow, htime⟩
    refine ⟨((f.push.node, vm), row), List.mem_filter.mpr ⟨KeyedTable.mem_rows_of_get? hrow, by simp⟩, ?_⟩
    rw [if_pos htime]

/-- A VM is evaluated once. -/
theorem nodup_evaluatedRows : ((evaluatedRows f s).map fun row => (f.push.node, row.1)).Nodup := by
  have hkeys : ∀ rows : List (VmKey × VmCurrent), (∀ row ∈ rows, row.1.1 = f.push.node) →
      (rows.filterMap fun row => if row.2.lastSeen = f.push.time then some (row.1.2, row.2) else none).map
        (fun row => (f.push.node, row.1)) = (rows.filter fun row => row.2.lastSeen = f.push.time).map Prod.fst := by
    intro rows hnode
    induction rows with
    | nil => rfl
    | cons row rest ih =>
        have hrest := ih fun other hother => hnode other (List.mem_cons_of_mem _ hother)
        have hkey : (f.push.node, row.1.2) = row.1 := by rw [← hnode row List.mem_cons_self]
        by_cases htime : row.2.lastSeen = f.push.time <;> simp [htime, hrest, hkey]
  have hselected : ∀ row ∈ s.current.select fun key => key.1 = f.push.node, row.1.1 = f.push.node := by
    intro row hrow
    exact of_decide_eq_true (List.mem_filter.mp hrow).2
  rw [evaluatedRows, hkeys _ hselected]
  exact ((List.filter_sublist.trans List.filter_sublist).map Prod.fst).nodup s.current.nodupKeys

/-- **The refresh, VM by VM.** -/
theorem get?_refreshFastCurrentState (vm : String) : (refreshFastCurrentState f vms s).abuse.get? (f.push.node, vm) =
    abuseAfter f vm (currentAfter f vms vm (s.current.get? (f.push.node, vm))) (s.abuse.get? (f.push.node, vm)) := by
  show (writeAbuse f (currentWriter f vms s)).abuse.get? (f.push.node, vm) = _
  unfold writeAbuse abuseAfter
  rw [← get?_currentWriter, ← get?_abuse_currentWriter f vms]
  cases hrow : ((currentWriter f vms s).current.get? (f.push.node, vm)).filter fun row => row.lastSeen = f.push.time with
  | none =>
      refine KeyedTable.get?_foldl_upsert_of_ne _ _ _ fun entry hentry heq => ?_
      obtain rfl : vm = entry.1 := (Prod.mk.inj heq).2
      have hsome := (mem_evaluatedRows f (currentWriter f vms s)).mp hentry
      rw [hrow] at hsome
      cases hsome
  | some row =>
      have hmem := (mem_evaluatedRows f (currentWriter f vms s)).mpr hrow
      exact KeyedTable.get?_foldl_upsert_of_mem (fun row => (f.push.node, row.1)) (nodup_evaluatedRows f _) hmem _ _ _

end Refresh

/-! ## The flags of an evaluation -/

section Flags

variable {policy : Policy} {push : Push} {vm : String} {stored : Option AbuseState} {row : VmCurrent}

/-- The condition of a rule holds of a row. -/
def isOver (policy : Policy) (row : VmCurrent) (rule : Rule) : Bool := !(ruleHit policy row rule).isEmpty

theorem flagOf_injective : Function.Injective flagOf := by
  intro a b h
  cases a <;> cases b <;> first | rfl | cases h

theorem flagOf_ne_pps (rule : Rule) : flagOf rule ≠ .networkRxPps ∧ flagOf rule ≠ .networkTxPps := by
  cases rule <;> exact ⟨nofun, nofun⟩

/-- **The flag of a rule** is set when its condition holds and its streak is long enough. -/
theorem flagOf_mem_evaluate {rule : Rule} : flagOf rule ∈ (evaluate policy push vm stored row).abuseFlags ↔
    isOver policy row rule = true ∧
      policy.requiredCycles rule ≤ (evaluate policy push vm stored row).streakCycles rule := by
  obtain ⟨hrx, htx⟩ := flagOf_ne_pps rule
  have hpps : ∀ (c : Bool) (flag : Flag) (ratio : ℚ), flagOf rule ≠ flag →
      flagOf rule ∉ (if c then [(flag, ratio)] else []).map Prod.fst := by
    intro c flag ratio hne
    cases c <;> simp [hne]
  have hsustained : ∀ (ratios : Rule → List ℚ) (cycles : Rule → Int),
      flagOf rule ∈ (([Rule.rxMbps, .txMbps, .cpu, .ram, .disk].flatMap fun rule =>
        if !(ratios rule).isEmpty && cycles rule ≥ policy.requiredCycles rule then
          [(flagOf rule, (ratios rule).foldl max 1)]
        else []).map Prod.fst) ↔ (!(ratios rule).isEmpty) = true ∧ policy.requiredCycles rule ≤ cycles rule := by
    intro ratios cycles
    rw [List.mem_map]
    constructor
    · rintro ⟨⟨flag, ratio⟩, hmem, hflag⟩
      obtain ⟨other, -, hother⟩ := List.mem_flatMap.mp hmem
      split at hother
      · rename_i hcond
        obtain ⟨rfl, -⟩ := Prod.mk.inj (List.mem_singleton.mp hother)
        obtain rfl := flagOf_injective hflag
        simpa using hcond
      · cases hother
    · rintro ⟨hover, hcycles⟩
      refine ⟨(flagOf rule, (ratios rule).foldl max 1), List.mem_flatMap.mpr ⟨rule, ?_, ?_⟩, rfl⟩
      · cases rule <;> simp
      · rw [if_pos (Bool.and_eq_true_iff.mpr ⟨hover, decide_eq_true hcycles⟩)]
        exact List.mem_singleton.mpr rfl
  show flagOf rule ∈ List.map Prod.fst (_ ++ _ ++ _) ↔ _
  rw [List.map_append, List.map_append, List.mem_append, List.mem_append, hsustained]
  simp only [hpps _ _ _ hrx, hpps _ _ _ htx, false_or]
  exact Iff.rfl

end Flags

end VirtInfra.Abuse
