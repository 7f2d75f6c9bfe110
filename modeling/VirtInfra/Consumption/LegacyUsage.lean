import VirtInfra.Consumption.Billing
import VirtInfra.Lib.Lookup

/-!
# `LegacyUsage` — the roll-up of `usage` moves every byte, and moves it a second time

`_rollup_and_delete_legacy_usage` adds the rows of one local hour to the hourly and the daily table and deletes them in
the same transaction. Each round moves exactly the bytes it deletes (`Moved.rollupUsageHour`), so neither a crash nor a
rerun loses or repeats any.

But where `usage` is written at all, the ingest writes the same bytes to the two tables as well. What is in `usage` and
what is in a table together are therefore twice what was accepted (`twice_accepted`), and after the roll-up the table
holds all of it.
-/

namespace VirtInfra.Consumption

open Lib Python

/-! ## Runs -/

/-- What happens to `usage`: a push, a delete of retention or its roll-up; a roll-up that ends after some of its
    transactions; and the `DELETE FROM usage` of `auto_purge_migrated_vms` (`VM_MIGRATION_PURGE_RAW_HISTORY`). -/
inductive UsageEvent
  | billing (event : BillingEvent)
  | interruptedRollup (cutoff : Int) (rounds : Nat)
  | purgeRawHistory (node vmUuid : String)

/-- `WHERE vm_uuid=? AND node=?`. -/
def rawOf (node vmUuid : String) (row : StageRow) : Bool := row.vmUuid = vmUuid && row.node = node

def Billing.usageStep (cfg : BillingConfig) (b : Billing) : UsageEvent → Billing
  | .billing event => b.step cfg event
  | .interruptedRollup cutoff rounds => rollupUsageLoop cfg.tzOffset cutoff rounds b
  | .purgeRawHistory node vmUuid =>
      { b with usage := b.usage.filter fun row => !rawOf node vmUuid row }

def Billing.usageRun (cfg : BillingConfig) (b : Billing) (events : List UsageEvent) : Billing :=
  events.foldl (Billing.usageStep cfg) b

/-- Whether an event deletes rows of `usage`. -/
def UsageEvent.deletesRaw : UsageEvent → Bool
  | billing (.rollupUsage _) | interruptedRollup _ _ | purgeRawHistory _ _ => true
  | billing (.monitor _) => false

/-- The sample an event writes. -/
def UsageEvent.accepts (cfg : BillingConfig) (b : Billing) : UsageEvent → Option Sample
  | billing (.monitor (.push receivedNow req)) => acceptedSample cfg.toConfig receivedNow req b.monitor
  | _ => none

/-- **The samples a run accepts**, in order. -/
def acceptedSamples (cfg : BillingConfig) : Billing → List UsageEvent → List Sample
  | _, [] => []
  | b, event :: rest => (event.accepts cfg b).toList ++ acceptedSamples cfg (b.usageStep cfg event) rest

/-! ## The bytes -/

/-- The row that the roll-up adds a row of `usage` to. -/
def Grain.usageKey (off : Int) (g : Grain) (row : StageRow) : VmKey :=
  ⟨g.start off row.lastPush, row.node, row.vmUuid, usageBridge row⟩

/-- The bytes of a table, in the rows of some keys. -/
def Grain.billed (g : Grain) (p : VmKey → Bool) (dir : Direction) (t : RollupTables) : Nat :=
  match g with
  | .hour => t.vmHourly.sumOf p fun row => row.deltas.bytes dir
  | .day => t.vmDaily.sumOf p fun row => row.deltas.bytes dir

/-- The bytes of `usage` that the roll-up would add to those rows. -/
def Grain.pending (off : Int) (g : Grain) (p : VmKey → Bool) (dir : Direction) (usage : List StageRow) : Nat :=
  (usage.map fun row => if p (g.usageKey off row) then row.deltas.bytes dir else 0).sum

/-- The bytes in the rows that retention deletes from a table. -/
def Grain.expired (g : Grain) (p : VmKey → Bool) (dir : Direction) (t : RollupTables) : UsageEvent → Nat
  | .billing (.monitor (.delete .vmHourly cutoff)) =>
      match g with
      | .hour => t.vmHourly.sumOf (fun key => key.start < cutoff && p key) fun row => row.deltas.bytes dir
      | .day => 0
  | .billing (.monitor (.delete .vmDaily cutoff)) =>
      match g with
      | .hour => 0
      | .day => t.vmDaily.sumOf (fun key => key.start < cutoff && p key) fun row => row.deltas.bytes dir
  | _ => 0

/-- What retention deletes from a table over a run. -/
def Grain.purged (cfg : BillingConfig) (g : Grain) (p : VmKey → Bool) (dir : Direction) :
    Billing → List UsageEvent → Nat
  | _, [] => 0
  | b, event :: rest => g.expired p dir b.monitor.tables event + purged cfg g p dir (b.usageStep cfg event) rest

/-- The bytes that the purge of raw history deletes from `usage`. -/
def Grain.droppedBy (off : Int) (g : Grain) (p : VmKey → Bool) (dir : Direction) (usage : List StageRow) :
    UsageEvent → Nat
  | .purgeRawHistory node vmUuid => g.pending off p dir (usage.filter (rawOf node vmUuid))
  | _ => 0

def Grain.dropped (cfg : BillingConfig) (g : Grain) (p : VmKey → Bool) (dir : Direction) :
    Billing → List UsageEvent → Nat
  | _, [] => 0
  | b, event :: rest =>
      g.droppedBy cfg.tzOffset p dir b.usage event + dropped cfg g p dir (b.usageStep cfg event) rest

/-- Whether a table has a row under a key. -/
def Grain.holds (g : Grain) (key : VmKey) (t : RollupTables) : Prop :=
  match g with
  | .hour => key ∈ t.vmHourly.keys
  | .day => key ∈ t.vmDaily.keys

/-- The rows of one VM. -/
def ofVm (node vmUuid : String) (key : VmKey) : Bool := key.node = node ∧ key.vmUuid = vmUuid

/-- The bytes a push reports for one VM. -/
def reported (off : Int) (node vmUuid : String) (dir : Direction) (s : Sample) : Nat :=
  vmBytes off (fun n v _ => n = node ∧ v = vmUuid) dir s

/-- **Deleted rows are moved**: what `usage` loses under a key is what the row of that key gains, in both tables. -/
def Moved (off : Int) (b b' : Billing) : Prop :=
  ∀ (g : Grain) (p : VmKey → Bool) (dir : Direction),
    g.billed p dir b'.monitor.tables + g.pending off p dir b'.usage =
      g.billed p dir b.monitor.tables + g.pending off p dir b.usage

/-- **Deleted rows have their rows** in both tables. -/
def Represented (off : Int) (b b' : Billing) : Prop :=
  ∀ row ∈ b.usage, row ∉ b'.usage → ∀ g : Grain, g.holds (g.usageKey off row) b'.monitor.tables

/-- **The roll-up conserves bytes** over a run: of each VM, the bytes in `usage` and those in a table, stored or deleted
    by retention, are the bytes accepted; no row of `usage` is deleted that is not rolled up; and a roll-up that returns
    leaves no row under its cutoff. -/
structure UsageConserved (cfg : BillingConfig) (events : List UsageEvent) : Prop where
  bytes : ∀ (g : Grain) (node vmUuid : String) (dir : Direction),
    g.pending cfg.tzOffset (ofVm node vmUuid) dir (Billing.init.usageRun cfg events).usage +
        (g.billed (ofVm node vmUuid) dir (Billing.init.usageRun cfg events).monitor.tables +
          g.purged cfg (ofVm node vmUuid) dir .init events) =
      ((acceptedSamples cfg .init events).map (reported cfg.tzOffset node vmUuid dir)).sum
  moved : ∀ (before : List UsageEvent) (event : UsageEvent) (rest : List UsageEvent),
    events = before ++ event :: rest → event.deletesRaw = true →
      let b := Billing.init.usageRun cfg before
      Moved cfg.tzOffset b (b.usageStep cfg event)
  represented : ∀ (before : List UsageEvent) (cutoff : Int) (rest : List UsageEvent),
    events = before ++ .billing (.rollupUsage cutoff) :: rest →
      let b := Billing.init.usageRun cfg before
      Represented cfg.tzOffset b (b.step cfg (.rollupUsage cutoff))
  complete : ∀ (before : List UsageEvent) (cutoff : Int) (rest : List UsageEvent),
    events = before ++ .billing (.rollupUsage cutoff) :: rest →
      let b := Billing.init.usageRun cfg before
      ∀ row ∈ (b.step cfg (.rollupUsage cutoff)).usage, ¬ row.lastPush < cutoff

/-! ## One round of the roll-up -/

theorem pending_filter (off : Int) (g : Grain) (p : VmKey → Bool) (dir : Direction) (q : StageRow → Bool)
    (usage : List StageRow) :
    g.pending off p dir (usage.filter q) + g.pending off p dir (usage.filter fun row => !q row) =
      g.pending off p dir usage := by
  unfold Grain.pending
  induction usage with
  | nil => rfl
  | cons row rest ih =>
      rw [List.map_cons, List.sum_cons, ← ih]
      by_cases hq : q row = true
      · simp [hq, Nat.add_assoc]
      · simp [hq, Nat.add_left_comm]

theorem pending_append (off : Int) (g : Grain) (p : VmKey → Bool) (dir : Direction) (usage more : List StageRow) :
    g.pending off p dir (usage ++ more) = g.pending off p dir usage + g.pending off p dir more := by
  unfold Grain.pending
  rw [List.map_append, List.sum_append]

/-- The end of a round's chunk. -/
def chunkEnd (off cutoff oldest : Int) : Int :=
  let chunkEnd := min cutoff (localHourStart off oldest + 3600)
  if chunkEnd ≤ oldest then min cutoff (oldest + 1) else chunkEnd

def inChunk (off cutoff oldest : Int) (row : StageRow) : Bool :=
  localHourStart off oldest ≤ row.lastPush && row.lastPush < chunkEnd off cutoff oldest

theorem rollupUsageHour_usage (off cutoff oldest : Int) (b : Billing) :
    (rollupUsageHour off cutoff oldest b).usage = b.usage.filter fun row => !inChunk off cutoff oldest row := rfl

theorem chunkEnd_le (off cutoff oldest : Int) : chunkEnd off cutoff oldest ≤ localHourStart off oldest + 3600 := by
  have hhour := lt_localHourStart_add off oldest
  unfold chunkEnd
  dsimp only
  split <;> omega

theorem chunkEnd_le_cutoff (off cutoff oldest : Int) : chunkEnd off cutoff oldest ≤ cutoff := by
  unfold chunkEnd
  dsimp only
  split <;> omega

/-- A chunk of rows under the cutoff holds the oldest one. -/
theorem lt_chunkEnd {off cutoff oldest : Int} (h : oldest < cutoff) : oldest < chunkEnd off cutoff oldest := by
  have hhour := lt_localHourStart_add off oldest
  unfold chunkEnd
  dsimp only
  split <;> omega

/-- A chunk stays within its local hour. -/
theorem inChunk_hour {off cutoff oldest : Int} {row : StageRow} (h : inChunk off cutoff oldest row = true) :
    localHourStart off row.lastPush = localHourStart off oldest := by
  simp only [inChunk, Bool.and_eq_true, decide_eq_true_eq] at h
  obtain ⟨hlo, hhi⟩ := h
  have hlt := Int.lt_of_lt_of_le hhi (chunkEnd_le off cutoff oldest)
  unfold localHourStart at *
  omega

/-- The key of a chunk's row at either grain. -/
theorem inChunk_key {off cutoff oldest : Int} {row : StageRow} (h : inChunk off cutoff oldest row = true) :
    Grain.hour.usageKey off row = ⟨localHourStart off oldest, row.node, row.vmUuid, usageBridge row⟩ ∧
      Grain.day.usageKey off row =
        ⟨localDayStart off (localHourStart off oldest), row.node, row.vmUuid, usageBridge row⟩ := by
  have hhour := inChunk_hour h
  constructor
  · rw [← hhour]
    rfl
  · rw [← hhour, localDayStart_localHourStart]
    rfl

theorem bytes_deltas (group : List StageRow) (dir : Direction) :
    (group.map StageRow.deltas).sum.bytes dir = (group.map fun row => row.deltas.bytes dir).sum := by
  rw [Counters.sum_bytes, List.map_map]
  rfl

/-- A grouped upsert of added-up deltas, on either table. -/
theorem sumOf_merge_hourly (table : KeyedTable VmKey VmConsumptionHourly) (key : StageRow → VmKey)
    (agg : VmKey → List StageRow → VmConsumptionHourly)
    (merge : VmConsumptionHourly → VmConsumptionHourly → VmConsumptionHourly) (rows : List StageRow) (p : VmKey → Bool)
    (dir : Direction) (hagg : ∀ k group, (agg k group).deltas = (group.map StageRow.deltas).sum)
    (hmerge : ∀ old new, (merge old new).deltas = old.deltas + new.deltas) :
    (table.mergeGroups key agg merge rows).sumOf p (fun row => row.deltas.bytes dir) =
      table.sumOf p (fun row => row.deltas.bytes dir) +
        (rows.map fun row => if p (key row) then row.deltas.bytes dir else 0).sum := by
  refine KeyedTable.sumOf_mergeGroups table p _ (fun row : StageRow => row.deltas.bytes dir) (P := fun _ => True)
    (fun _ _ => trivial) (fun _ _ _ => trivial) (fun _ _ _ _ _ => trivial) (fun k group _ => ?_) fun old k group _ _ => ?_
  · rw [hagg, bytes_deltas]
  · rw [hmerge, Counters.add_bytes]

theorem sumOf_merge_daily (table : KeyedTable VmKey VmConsumption) (key : StageRow → VmKey)
    (agg : VmKey → List StageRow → VmConsumption) (rows : List StageRow) (p : VmKey → Bool) (dir : Direction)
    (hagg : ∀ k group, (agg k group).deltas = (group.map StageRow.deltas).sum) :
    (table.mergeGroups key agg mergeVm rows).sumOf p (fun row => row.deltas.bytes dir) =
      table.sumOf p (fun row => row.deltas.bytes dir) +
        (rows.map fun row => if p (key row) then row.deltas.bytes dir else 0).sum := by
  refine KeyedTable.sumOf_mergeGroups table p _ (fun row : StageRow => row.deltas.bytes dir) (P := fun _ => True)
    (fun _ _ => trivial) (fun _ _ _ => trivial) (fun _ _ _ _ _ => trivial) (fun k group _ => ?_) fun old k group _ _ => ?_
  · rw [hagg, bytes_deltas]
  · exact Counters.add_bytes _ _ _

/-- **One transaction moves what it deletes.** -/
theorem Moved.rollupUsageHour (off cutoff oldest : Int) (b : Billing) :
    Moved off b (rollupUsageHour off cutoff oldest b) := by
  intro g p dir
  rw [rollupUsageHour_usage, ← pending_filter off g p dir (inChunk off cutoff oldest) b.usage, ← Nat.add_assoc]
  congr 1
  cases g with
  | hour =>
      refine (sumOf_merge_hourly b.monitor.tables.vmHourly _ _ mergeUsageHourly _ p dir (fun _ _ => rfl)
        fun _ _ => rfl).trans (congrArg (_ + ·) (congrArg List.sum (List.map_congr_left fun row hrow => ?_)))
      rw [(inChunk_key (List.mem_filter.mp hrow).2).1]
  | day =>
      refine (sumOf_merge_daily b.monitor.tables.vmDaily _ _ _ p dir fun _ _ => rfl).trans
        (congrArg (_ + ·) (congrArg List.sum (List.map_congr_left fun row hrow => ?_)))
      rw [(inChunk_key (List.mem_filter.mp hrow).2).2]

theorem holds_rollupUsageHour (off cutoff oldest : Int) (b : Billing) {g : Grain} {key : VmKey}
    (h : g.holds key b.monitor.tables) : g.holds key (rollupUsageHour off cutoff oldest b).monitor.tables := by
  cases g with
  | hour => exact KeyedTable.mem_keys_mergeGroups.mpr (.inl h)
  | day => exact KeyedTable.mem_keys_mergeGroups.mpr (.inl h)

/-- **One transaction gives every row it deletes its rows.** -/
theorem Represented.rollupUsageHour (off cutoff oldest : Int) (b : Billing) :
    Represented off b (rollupUsageHour off cutoff oldest b) := by
  intro row hrow hgone g
  have hchunk : inChunk off cutoff oldest row = true := by
    by_contra hout
    refine hgone ?_
    rw [rollupUsageHour_usage]
    exact List.mem_filter.mpr ⟨hrow, by simpa using hout⟩
  have hmem : row ∈ b.usage.filter (inChunk off cutoff oldest) := List.mem_filter.mpr ⟨hrow, hchunk⟩
  cases g with
  | hour => exact KeyedTable.mem_keys_mergeGroups.mpr (.inr ⟨row, hmem, (inChunk_key hchunk).1.symm⟩)
  | day => exact KeyedTable.mem_keys_mergeGroups.mpr (.inr ⟨row, hmem, (inChunk_key hchunk).2.symm⟩)

/-! ## The loop -/

theorem Moved.refl (off : Int) (b : Billing) : Moved off b b := fun _ _ _ => rfl

theorem Moved.trans {off : Int} {b b' b'' : Billing} (h : Moved off b b') (h' : Moved off b' b'') : Moved off b b'' :=
  fun g p dir => (h' g p dir).trans (h g p dir)

/-- **Every prefix of the roll-up moves what it deletes.** -/
theorem Moved.rollupUsageLoop (off cutoff : Int) :
    ∀ (fuel : Nat) (b : Billing), Moved off b (rollupUsageLoop off cutoff fuel b) := by
  intro fuel
  induction fuel with
  | zero => intro b; exact Moved.refl off b
  | succ fuel ih =>
      intro b
      unfold Consumption.rollupUsageLoop
      dsimp only
      split
      · exact Moved.refl off b
      · exact (Moved.rollupUsageHour off cutoff _ b).trans (ih _)

theorem holds_rollupUsageLoop (off cutoff : Int) {g : Grain} {key : VmKey} :
    ∀ (fuel : Nat) (b : Billing), g.holds key b.monitor.tables →
      g.holds key (rollupUsageLoop off cutoff fuel b).monitor.tables := by
  intro fuel
  induction fuel with
  | zero => intro b h; exact h
  | succ fuel ih =>
      intro b h
      unfold rollupUsageLoop
      dsimp only
      split
      · exact h
      · exact ih _ (holds_rollupUsageHour off cutoff _ b h)

theorem Represented.rollupUsageLoop (off cutoff : Int) :
    ∀ (fuel : Nat) (b : Billing), Represented off b (rollupUsageLoop off cutoff fuel b) := by
  intro fuel
  induction fuel with
  | zero => intro b row hrow hgone; exact absurd hrow hgone
  | succ fuel ih =>
      intro b row hrow hgone g
      unfold Consumption.rollupUsageLoop at hgone ⊢
      dsimp only at hgone ⊢
      split at hgone
      · exact absurd hrow hgone
      · rename_i hpos
        rw [if_neg hpos]
        by_cases hkept : row ∈ (Consumption.rollupUsageHour off cutoff (oldestUsage cutoff b.usage) b).usage
        · exact ih _ row hkept hgone g
        · -- This round deletes it, and no later round takes its rows away again.
          have hnow := Represented.rollupUsageHour off cutoff (oldestUsage cutoff b.usage) b row hrow hkept g
          exact holds_rollupUsageLoop off cutoff fuel _ hnow

/-- **The roll-up makes rows only for rows of `usage`** under its cutoff. -/
theorem holds_of_rollupUsageLoop (off cutoff : Int) {g : Grain} {key : VmKey} :
    ∀ (fuel : Nat) (b : Billing), g.holds key (rollupUsageLoop off cutoff fuel b).monitor.tables →
      g.holds key b.monitor.tables ∨ ∃ row ∈ b.usage, row.lastPush < cutoff ∧ g.usageKey off row = key := by
  intro fuel
  induction fuel with
  | zero => intro b h; exact .inl h
  | succ fuel ih =>
      intro b h
      unfold rollupUsageLoop at h
      dsimp only at h
      split at h
      · exact .inl h
      · rcases ih _ h with hheld | ⟨row, hrow, hkey⟩
        · -- a round's new keys are those of its chunk
          have hchunk : ∀ row ∈ b.usage.filter (inChunk off cutoff (oldestUsage cutoff b.usage)),
              row ∈ b.usage ∧ row.lastPush < cutoff := by
            intro row hrow
            obtain ⟨hmem, hin⟩ := List.mem_filter.mp hrow
            have hin' := hin
            simp only [inChunk, Bool.and_eq_true, decide_eq_true_eq] at hin'
            exact ⟨hmem, Int.lt_of_lt_of_le hin'.2 (chunkEnd_le_cutoff off cutoff _)⟩
          cases g with
          | hour =>
              rcases KeyedTable.mem_keys_mergeGroups.mp hheld with hold | ⟨row, hrow, hkey⟩
              · exact .inl hold
              · exact .inr ⟨row, (hchunk row hrow).1, (hchunk row hrow).2,
                  (inChunk_key (List.mem_filter.mp hrow).2).1.trans hkey⟩
          | day =>
              rcases KeyedTable.mem_keys_mergeGroups.mp hheld with hold | ⟨row, hrow, hkey⟩
              · exact .inl hold
              · exact .inr ⟨row, (hchunk row hrow).1, (hchunk row hrow).2,
                  (inChunk_key (List.mem_filter.mp hrow).2).2.trans hkey⟩
        · exact .inr ⟨row, (List.mem_filter.mp hrow).1, hkey⟩

/-- The roll-up leaves the rows since its cutoff. -/
theorem rollupUsageLoop_recent (off cutoff : Int) : ∀ (fuel : Nat) (b : Billing),
    (rollupUsageLoop off cutoff fuel b).usage.filter (fun row => !decide (row.lastPush < cutoff)) =
      b.usage.filter fun row => !decide (row.lastPush < cutoff) := by
  intro fuel
  induction fuel with
  | zero => intro b; rfl
  | succ fuel ih =>
      intro b
      unfold rollupUsageLoop
      dsimp only
      split
      · rfl
      · rw [ih, rollupUsageHour_usage, List.filter_filter]
        apply List.filter_congr
        intro row _
        have hend := chunkEnd_le_cutoff off cutoff (oldestUsage cutoff b.usage)
        simp only [inChunk]
        by_cases hold : row.lastPush < cutoff
        · simp [hold]
        · have hout : ¬ row.lastPush < chunkEnd off cutoff (oldestUsage cutoff b.usage) := by omega
          simp [hold, hout]

/-- The oldest row under the cutoff, if there is one. -/
theorem oldestUsage_of_mem {cutoff : Int} {usage : List StageRow} {row : StageRow} (hrow : row ∈ usage)
    (hold : row.lastPush < cutoff) :
    oldestUsage cutoff usage ≤ row.lastPush ∧
      ∃ first ∈ usage, first.lastPush < cutoff ∧ first.lastPush = oldestUsage cutoff usage := by
  have hmem : row.lastPush ∈ (usage.filter fun row => row.lastPush < cutoff).map StageRow.lastPush :=
    List.mem_map_of_mem (List.mem_filter.mpr ⟨hrow, decide_eq_true hold⟩)
  unfold oldestUsage
  cases hmin : ((usage.filter fun row => row.lastPush < cutoff).map StageRow.lastPush).min? with
  | none =>
      rw [List.min?_eq_none_iff.mp hmin] at hmem
      cases hmem
  | some oldest =>
      obtain ⟨hin, hle⟩ := List.min?_eq_some_iff.mp hmin
      obtain ⟨first, hfirst, heq⟩ := List.mem_map.mp hin
      obtain ⟨hmem', hlt⟩ := List.mem_filter.mp hfirst
      exact ⟨hle _ hmem, first, hmem', of_decide_eq_true hlt, heq⟩

/-- With fuel for every row, the loop ends with no row left under its cutoff. -/
theorem rollupUsageLoop_complete (off cutoff : Int) : ∀ (fuel : Nat) (b : Billing), b.usage.length ≤ fuel →
    (∀ row ∈ b.usage, row.lastPush < cutoff → 0 < row.lastPush) →
    ∀ row ∈ (rollupUsageLoop off cutoff fuel b).usage, ¬ row.lastPush < cutoff := by
  intro fuel
  induction fuel with
  | zero =>
      intro b hfuel _ row hrow
      have hempty : b.usage = [] := List.eq_nil_of_length_eq_zero (Nat.le_zero.mp hfuel)
      rw [show (rollupUsageLoop off cutoff 0 b).usage = b.usage from rfl, hempty] at hrow
      cases hrow
  | succ fuel ih =>
      intro b hfuel hpos row hrow
      unfold rollupUsageLoop at hrow
      dsimp only at hrow
      split at hrow
      · -- A row under the cutoff would make the oldest time positive.
        rename_i hstop
        intro hold
        obtain ⟨-, first, hfirst, hlt, heq⟩ := oldestUsage_of_mem hrow hold
        have := hpos first hfirst hlt
        omega
      · rename_i hgo
        by_cases hsome : ∃ row ∈ b.usage, row.lastPush < cutoff
        · obtain ⟨some, hsome, hold⟩ := hsome
          obtain ⟨-, first, hfirst, hlt, heq⟩ := oldestUsage_of_mem hsome hold
          refine ih _ ?_ (fun kept hkept => hpos kept (List.mem_filter.mp hkept).1) row hrow
          have hin : inChunk off cutoff (oldestUsage cutoff b.usage) first = true := by
            unfold inChunk
            rw [← heq, Bool.and_eq_true, decide_eq_true_eq, decide_eq_true_eq]
            exact ⟨localHourStart_le off _, lt_chunkEnd hlt⟩
          -- The round deletes the oldest row, so the rows left are fewer.
          have hless : (b.usage.filter fun row => !inChunk off cutoff (oldestUsage cutoff b.usage) row).length <
              b.usage.length := by
            refine List.length_filter_lt_length_iff_exists.mpr ⟨first, hfirst, ?_⟩
            simp [hin]
          rw [rollupUsageHour_usage]
          omega
        · -- Without a row under the cutoff the oldest time reads as 0.
          have hnone : b.usage.filter (fun row => row.lastPush < cutoff) = [] := by
            refine List.filter_eq_nil_iff.mpr fun row hmem hold => hsome ⟨row, hmem, of_decide_eq_true hold⟩
          exact absurd (by rw [oldestUsage, hnone]; decide) hgo

/-- **The roll-up clears the table up to its cutoff exactly when every row there has a positive time**: at a time of 0 or
    less it stops as if the table were empty. -/
theorem rollupAndDeleteLegacyUsage_complete_iff (off cutoff : Int) (b : Billing) :
    (∀ row ∈ (rollupAndDeleteLegacyUsage off cutoff b).usage, ¬ row.lastPush < cutoff) ↔
      ∀ row ∈ b.usage, row.lastPush < cutoff → 0 < row.lastPush := by
  constructor
  · intro hclear row hrow hold
    by_contra hnonpos
    have hstop : oldestUsage cutoff b.usage ≤ 0 := by
      have := (oldestUsage_of_mem hrow hold).1
      omega
    rw [rollupAndDeleteLegacyUsage_of_empty hstop] at hclear
    exact hclear row hrow hold
  · intro hpos
    exact rollupUsageLoop_complete off cutoff _ b le_rfl hpos

/-! ## What a run leaves -/

section Steps

variable (cfg : BillingConfig) (g : Grain) (node vmUuid : String) (dir : Direction)

/-- An accepted push adds its bytes to both tables. -/
theorem billed_writeSample (off : Int) (s : Sample) (t : RollupTables) :
    g.billed (ofVm node vmUuid) dir (writeSample off s t) =
      g.billed (ofVm node vmUuid) dir t + reported off node vmUuid dir s := by
  cases g with
  | hour =>
      show (writeSample off s t).vmHourly.sumOf (ofVm node vmUuid) (fun row => row.deltas.bytes dir) = _
      rw [writeSample_vmHourly]
      exact sumOf_merge_hourly _ hourlyKey aggVmHourly mergeVmHourly _ _ dir (fun _ _ => rfl) fun _ _ => rfl
  | day =>
      show (writeSample off s t).vmDaily.sumOf (ofVm node vmUuid) (fun row => row.deltas.bytes dir) = _
      rw [writeSample_vmDaily]
      exact sumOf_merge_daily _ dailyKey (fun _ group => aggVm group) _ _ dir fun _ _ => rfl

/-- It adds them to `usage` as well. -/
theorem pending_stage (off : Int) (s : Sample) :
    g.pending off (ofVm node vmUuid) dir (s.stage off) = reported off node vmUuid dir s := rfl

/-- A delete of retention takes the bytes of its rows. -/
theorem billed_deleteOlder (p : VmKey → Bool) (table : RollupTable) (cutoff : Int) (t : RollupTables) :
    g.billed p dir (deleteOlder table cutoff t) + g.expired p dir t (.billing (.monitor (.delete table cutoff))) =
      g.billed p dir t := by
  cases g with
  | hour =>
      cases table with
      | vmHourly =>
          exact t.vmHourly.sumOf_deleteWhere_add (fun key => key.start < cutoff) p fun row => row.deltas.bytes dir
      | _ => rfl
  | day =>
      cases table with
      | vmDaily =>
          exact t.vmDaily.sumOf_deleteWhere_add (fun key => key.start < cutoff) p fun row => row.deltas.bytes dir
      | _ => rfl

/-- The bytes of one VM, in `usage` and in one table together. -/
def total (b : Billing) : Nat :=
  g.pending cfg.tzOffset (ofVm node vmUuid) dir b.usage + g.billed (ofVm node vmUuid) dir b.monitor.tables

variable {cfg}

/-- What one push does to the total. -/
theorem total_push (hlegacy : cfg.writeLegacyUsage = true) (receivedNow : Int) (req : PushRequest) (b : Billing) :
    total cfg g node vmUuid dir (b.step cfg (.monitor (.push receivedNow req))) =
      total cfg g node vmUuid dir b +
        2 * (((acceptedSample cfg.toConfig receivedNow req b.monitor).toList.map
          (reported cfg.tzOffset node vmUuid dir)).sum) := by
  have htables : (b.step cfg (.monitor (.push receivedNow req))).monitor.tables = _ :=
    ingest_tables cfg.toConfig receivedNow req b.monitor
  have husage : (b.step cfg (.monitor (.push receivedNow req))).usage =
      b.usage ++ (acceptedSample cfg.toConfig receivedNow req b.monitor).elim [] fun s => s.stage cfg.tzOffset := by
    show b.usage ++ (if cfg.writeLegacyUsage then _ else _) = _
    rw [if_pos hlegacy]
  unfold total
  rw [htables, husage, pending_append]
  cases acceptedSample cfg.toConfig receivedNow req b.monitor with
  | none => rfl
  | some s =>
      show _ + g.pending _ _ dir (s.stage cfg.tzOffset) + g.billed _ dir (writeSample cfg.tzOffset s b.monitor.tables) = _
      rw [pending_stage, billed_writeSample]
      simp only [Option.toList_some, List.map_cons, List.map_nil, List.sum_cons, List.sum_nil]
      omega

theorem Moved.total_eq {b b' : Billing} (h : Moved cfg.tzOffset b b') :
    total cfg g node vmUuid dir b' = total cfg g node vmUuid dir b := by
  have := h g (ofVm node vmUuid) dir
  unfold total
  omega

theorem total_deleteOlder (table : RollupTable) (cutoff : Int) (b : Billing) :
    total cfg g node vmUuid dir (b.step cfg (.monitor (.delete table cutoff))) +
        g.expired (ofVm node vmUuid) dir b.monitor.tables (.billing (.monitor (.delete table cutoff))) =
      total cfg g node vmUuid dir b := by
  have hbilled := billed_deleteOlder g dir (ofVm node vmUuid) table cutoff b.monitor.tables
  have husage : (b.step cfg (.monitor (.delete table cutoff))).usage = b.usage := List.append_nil _
  unfold total
  rw [husage, Nat.add_assoc]
  exact congrArg (_ + ·) hbilled

/-- **What one event does to the total.** -/
theorem total_step (hlegacy : cfg.writeLegacyUsage = true) (event : UsageEvent) (b : Billing) :
    total cfg g node vmUuid dir (b.usageStep cfg event) + g.expired (ofVm node vmUuid) dir b.monitor.tables event +
        g.droppedBy cfg.tzOffset (ofVm node vmUuid) dir b.usage event =
      total cfg g node vmUuid dir b +
        2 * ((event.accepts cfg b).toList.map (reported cfg.tzOffset node vmUuid dir)).sum := by
  cases event with
  | billing event =>
      cases event with
      | monitor event =>
          cases event with
          | push receivedNow req => exact total_push g node vmUuid dir hlegacy receivedNow req b
          | delete table cutoff => exact total_deleteOlder g node vmUuid dir table cutoff b
          | deleteReceipts cutoff =>
              have husage : (b.step cfg (.monitor (.deleteReceipts cutoff))).usage = b.usage := List.append_nil _
              show g.pending _ _ dir (b.step cfg (.monitor (.deleteReceipts cutoff))).usage + _ = _
              rw [husage]
              rfl
      | rollupUsage cutoff =>
          exact Moved.total_eq g node vmUuid dir (Moved.rollupUsageLoop cfg.tzOffset cutoff b.usage.length b)
  | interruptedRollup cutoff rounds =>
      exact Moved.total_eq g node vmUuid dir (Moved.rollupUsageLoop cfg.tzOffset cutoff rounds b)
  | purgeRawHistory purgedNode purgedVm =>
      have hsplit := pending_filter cfg.tzOffset g (ofVm node vmUuid) dir (rawOf purgedNode purgedVm) b.usage
      simp only [Billing.usageStep, total, Grain.expired, Grain.droppedBy, UsageEvent.accepts, Option.toList_none,
        List.map_nil, List.sum_nil]
      omega

/-- **What a run leaves is twice what it accepted**, less what retention and the purge of raw history delete. -/
theorem twice_accepted (hlegacy : cfg.writeLegacyUsage = true) : ∀ (events : List UsageEvent) (b : Billing),
    total cfg g node vmUuid dir (b.usageRun cfg events) + g.purged cfg (ofVm node vmUuid) dir b events +
        g.dropped cfg (ofVm node vmUuid) dir b events =
      total cfg g node vmUuid dir b +
        2 * ((acceptedSamples cfg b events).map (reported cfg.tzOffset node vmUuid dir)).sum := by
  intro events
  induction events with
  | nil => intro b; rfl
  | cons event rest ih =>
      intro b
      have hstep := total_step g node vmUuid dir hlegacy event b
      have hrest := ih (b.usageStep cfg event)
      rw [show b.usageRun cfg (event :: rest) = (b.usageStep cfg event).usageRun cfg rest from rfl, Grain.purged,
        Grain.dropped, acceptedSamples, List.map_append, List.sum_append]
      omega

/-- A purge that deletes only what was moved deletes no bytes. -/
theorem dropped_eq_zero (p : VmKey → Bool) : ∀ (events : List UsageEvent) (b : Billing),
    (∀ (before : List UsageEvent) (event : UsageEvent) (rest : List UsageEvent), events = before ++ event :: rest →
      event.deletesRaw = true → Moved cfg.tzOffset (b.usageRun cfg before) ((b.usageRun cfg before).usageStep cfg event)) →
    g.dropped cfg p dir b events = 0 := by
  intro events
  induction events with
  | nil => intro b _; rfl
  | cons event rest ih =>
      intro b hmoved
      have hrest := ih (b.usageStep cfg event) fun before next after heq =>
        hmoved (event :: before) next after (by rw [heq]; rfl)
      rw [Grain.dropped, hrest, Nat.add_zero]
      cases event with
      | billing event => rfl
      | interruptedRollup cutoff rounds => rfl
      | purgeRawHistory purgedNode purgedVm =>
          have hnow := hmoved [] (.purgeRawHistory purgedNode purgedVm) rest rfl rfl g p dir
          have hsplit := pending_filter cfg.tzOffset g p dir (rawOf purgedNode purgedVm) b.usage
          simp only [Billing.usageRun, List.foldl_nil, Billing.usageStep] at hnow
          show g.pending cfg.tzOffset p dir (b.usage.filter (rawOf purgedNode purgedVm)) = 0
          omega

end Steps

/-! ## When the roll-up conserves bytes -/

theorem acceptedSamples_append (cfg : BillingConfig) : ∀ (before rest : List UsageEvent) (b : Billing),
    acceptedSamples cfg b (before ++ rest) =
      acceptedSamples cfg b before ++ acceptedSamples cfg (b.usageRun cfg before) rest := by
  intro before
  induction before with
  | nil => intro rest b; rfl
  | cons event more ih =>
      intro rest b
      rw [List.cons_append, acceptedSamples, ih, acceptedSamples, List.append_assoc]
      rfl

/-- A push reports no bytes of any VM exactly when its rows have none. -/
theorem reported_eq_zero_iff (off : Int) (s : Sample) :
    (∀ node vmUuid dir, reported off node vmUuid dir s = 0) ↔
      ∀ row ∈ s.stage off, row.deltas.rx = 0 ∧ row.deltas.tx = 0 := by
  constructor
  · intro hzero row hrow
    have hterm : ∀ dir, row.deltas.bytes dir = 0 := fun dir => by
      have := List.sum_eq_zero_iff_forall_eq_nat.mp (hzero row.node row.vmUuid dir) _ (List.mem_map_of_mem hrow)
      simpa using this
    exact ⟨hterm .rx, hterm .tx⟩
  · intro hrows node vmUuid dir
    refine List.sum_eq_zero fun n hn => ?_
    obtain ⟨row, hrow, rfl⟩ := List.mem_map.mp hn
    obtain ⟨hrx, htx⟩ := hrows row hrow
    cases dir <;> simp [Counters.bytes, hrx, htx]

/-- Bytes of one row are bytes of its VM. -/
theorem pending_eq_zero {off : Int} {g : Grain} {dir : Direction} {usage : List StageRow}
    (h : ∀ node vmUuid, g.pending off (ofVm node vmUuid) dir usage = 0) (p : VmKey → Bool) :
    g.pending off p dir usage = 0 := by
  refine List.sum_eq_zero fun n hn => ?_
  obtain ⟨row, hrow, rfl⟩ := List.mem_map.mp hn
  have hzero := List.sum_eq_zero_iff_forall_eq_nat.mp (h row.node row.vmUuid) _ (List.mem_map_of_mem hrow)
  have hbytes : row.deltas.bytes dir = 0 := by simpa [ofVm, Grain.usageKey] using hzero
  simp [hbytes]

section Conserved

variable {cfg : BillingConfig} {events : List UsageEvent}

theorem total_init (cfg : BillingConfig) (g : Grain) (node vmUuid : String) (dir : Direction) :
    total cfg g node vmUuid dir .init = 0 := by
  cases g <;> rfl

/-- What is conserved is twice what was accepted, and so nothing was. -/
theorem UsageConserved.reported_eq_zero (hlegacy : cfg.writeLegacyUsage = true) (h : UsageConserved cfg events) :
    ∀ s ∈ acceptedSamples cfg .init events, ∀ node vmUuid dir, reported cfg.tzOffset node vmUuid dir s = 0 := by
  intro s hs node vmUuid dir
  have htwice := twice_accepted .hour node vmUuid dir hlegacy events .init
  have hdropped := dropped_eq_zero .hour dir (ofVm node vmUuid) events .init h.moved
  have hbytes := h.bytes .hour node vmUuid dir
  rw [total_init, hdropped] at htwice
  unfold total at htwice
  exact List.sum_eq_zero_iff_forall_eq_nat.mp (by omega) _ (List.mem_map_of_mem hs)

/-- Where nothing was accepted, nothing is left in `usage` or a table. -/
theorem nothing_left (hlegacy : cfg.writeLegacyUsage = true)
    (hnone : ∀ s ∈ acceptedSamples cfg .init events, ∀ node vmUuid dir, reported cfg.tzOffset node vmUuid dir s = 0)
    (g : Grain) (node vmUuid : String) (dir : Direction) :
    total cfg g node vmUuid dir (Billing.init.usageRun cfg events) + g.purged cfg (ofVm node vmUuid) dir .init events +
        g.dropped cfg (ofVm node vmUuid) dir .init events = 0 ∧
      ((acceptedSamples cfg .init events).map (reported cfg.tzOffset node vmUuid dir)).sum = 0 := by
  have haccepted : ((acceptedSamples cfg .init events).map (reported cfg.tzOffset node vmUuid dir)).sum = 0 := by
    refine List.sum_eq_zero fun n hn => ?_
    obtain ⟨s, hs, rfl⟩ := List.mem_map.mp hn
    exact hnone s hs node vmUuid dir
  refine ⟨?_, haccepted⟩
  rw [twice_accepted g node vmUuid dir hlegacy, total_init, haccepted]

/-- A step that deletes raw rows moves them, if they have no bytes. -/
theorem moved_of_zero (event : UsageEvent) (b : Billing)
    (hzero : ∀ (g : Grain) (p : VmKey → Bool) (dir : Direction), g.pending cfg.tzOffset p dir b.usage = 0)
    (hraw : event.deletesRaw = true) : Moved cfg.tzOffset b (b.usageStep cfg event) := by
  cases event with
  | billing event =>
      cases event with
      | monitor event => cases hraw
      | rollupUsage cutoff => exact Moved.rollupUsageLoop cfg.tzOffset cutoff b.usage.length b
  | interruptedRollup cutoff rounds => exact Moved.rollupUsageLoop cfg.tzOffset cutoff rounds b
  | purgeRawHistory node vmUuid =>
      intro g p dir
      have hsplit := pending_filter cfg.tzOffset g p dir (rawOf node vmUuid) b.usage
      have hnone := hzero g p dir
      show g.billed p dir b.monitor.tables + g.pending cfg.tzOffset p dir (b.usage.filter fun row => !rawOf node vmUuid row) = _
      omega

/-- **The roll-up conserves bytes exactly when there are none.** With `usage` written, a run keeps the law if and only
    if no accepted push reports a byte and no roll-up finds a row of time 0 or less under its cutoff. -/
theorem usage_conserved_iff (hlegacy : cfg.writeLegacyUsage = true) :
    UsageConserved cfg events ↔
      (∀ s ∈ acceptedSamples cfg .init events, ∀ row ∈ s.stage cfg.tzOffset, row.deltas.rx = 0 ∧ row.deltas.tx = 0) ∧
        ∀ (before : List UsageEvent) (cutoff : Int) (rest : List UsageEvent),
          events = before ++ .billing (.rollupUsage cutoff) :: rest →
            ∀ row ∈ (Billing.init.usageRun cfg before).usage, row.lastPush < cutoff → 0 < row.lastPush := by
  constructor
  · intro h
    refine ⟨fun s hs => ?_, fun before cutoff rest heq => ?_⟩
    · exact (reported_eq_zero_iff cfg.tzOffset s).mp (h.reported_eq_zero hlegacy s hs)
    · exact (rollupAndDeleteLegacyUsage_complete_iff cfg.tzOffset cutoff _).mp (h.complete before cutoff rest heq)
  · rintro ⟨hrows, htimes⟩
    have hnone : ∀ s ∈ acceptedSamples cfg .init events, ∀ node vmUuid dir,
        reported cfg.tzOffset node vmUuid dir s = 0 :=
      fun s hs => (reported_eq_zero_iff cfg.tzOffset s).mpr (hrows s hs)
    refine ⟨fun g node vmUuid dir => ?_, fun before event rest heq hraw => ?_, fun before cutoff rest heq => ?_,
      fun before cutoff rest heq => ?_⟩
    · obtain ⟨hleft, haccepted⟩ := nothing_left hlegacy hnone g node vmUuid dir
      unfold total at hleft
      omega
    · -- The samples accepted before the step are among those of the run.
      refine moved_of_zero event _ (fun g p dir => pending_eq_zero (fun node vmUuid => ?_) p) hraw
      have hbefore : ∀ s ∈ acceptedSamples cfg .init before, ∀ node vmUuid dir,
          reported cfg.tzOffset node vmUuid dir s = 0 := by
        intro s hs
        refine hnone s ?_
        rw [heq, acceptedSamples_append]
        exact List.mem_append_left _ hs
      have hleft := (nothing_left hlegacy hbefore g node vmUuid dir).1
      unfold total at hleft
      omega
    · exact Represented.rollupUsageLoop cfg.tzOffset cutoff _ _
    · exact (rollupAndDeleteLegacyUsage_complete_iff cfg.tzOffset cutoff _).mpr (htimes before cutoff rest heq)

end Conserved

/-- A push, and the roll-up of its row a day later. -/
def rolledUpRun : List UsageEvent :=
  [.billing (.monitor (.push 72050 (sentPush 72000 700))), .billing (.rollupUsage 100000)]

theorem usage_conserved_iff_rolledUp :
    UsageConserved { tzOffset := 0, writeLegacyUsage := true } rolledUpRun ↔
      (∀ s ∈ acceptedSamples { tzOffset := 0, writeLegacyUsage := true } .init rolledUpRun, ∀ row ∈ s.stage 0,
        row.deltas.rx = 0 ∧ row.deltas.tx = 0) ∧
        ∀ (before : List UsageEvent) (cutoff : Int) (rest : List UsageEvent),
          rolledUpRun = before ++ .billing (.rollupUsage cutoff) :: rest →
            ∀ row ∈ (Billing.init.usageRun { tzOffset := 0, writeLegacyUsage := true } before).usage,
              row.lastPush < cutoff → 0 < row.lastPush :=
  usage_conserved_iff rfl

/-- **The roll-up counts 700 bytes twice**: `usage` is empty, and two hourly rows hold them, the one of the push and the
one of the roll-up. -/
theorem usage_rolled_up_twice : ¬ ∀ (cfg : BillingConfig) (events : List UsageEvent), cfg.writeLegacyUsage = true →
    UsageConserved cfg events := by
  intro hclaim
  have hbytes := (hclaim { tzOffset := 0, writeLegacyUsage := true } rolledUpRun rfl).bytes .hour "n1" "vm-1" .rx
  revert hbytes
  decide +kernel

end VirtInfra.Consumption
