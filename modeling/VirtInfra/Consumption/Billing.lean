import VirtInfra.Consumption.VmWindow

/-!
# `Billing` — every payload is billed once, as long as its receipt is kept

`push_receipts` is all that tells a repeated payload from a new one. Retention prunes it by the time a payload was
received, while the endpoint accepts a payload by its own time: any time since the last reset, however long ago. So a
payload that an agent sends again after its receipt is gone is billed again.

Retention deletes billed rows as well, so what is conserved is the sum of the bytes stored and the bytes deleted.
Where the deprecated `usage` table is still written (`BW_WRITE_LEGACY_USAGE`, off by default), its rows are what
retention rolls up a second time.
-/

namespace VirtInfra.Consumption

open Lib Python

structure BillingConfig extends Config where
  /-- `WRITE_LEGACY_USAGE`. -/
  writeLegacyUsage : Bool := false

/-- The monitor with its `usage` table. -/
structure Billing where
  monitor : Monitor
  usage : List StageRow

def Billing.init : Billing := ⟨.init, []⟩

/-! ## The roll-up of `usage` -/

/-- `SELECT MIN(time) FROM usage WHERE time<?`, read as `safe_int(…, 0)`. -/
def oldestUsage (cutoff : Int) (usage : List StageRow) : Int :=
  ((usage.filter fun row => row.lastPush < cutoff).map StageRow.lastPush).min?.getD 0

/-- `COALESCE(NULLIF(bridge,''), '-')`. -/
def usageBridge (row : StageRow) : String := if row.bridge = "" then "-" else row.bridge

/-- The aggregates of both roll-up statements. -/
def aggUsage (group : List StageRow) : VmConsumption :=
  { deltas := (group.map StageRow.deltas).sum, sampleCount := group.length
    lastPush := maxOf StageRow.lastPush group }

/-- The hourly roll-up knows no slots: it inserts the columns' defaults, and an update leaves them alone. -/
def aggUsageHourly (group : List StageRow) : VmConsumptionHourly :=
  { aggUsage group with rx5mSlots := [], tx5mSlots := [], sample5mMask := 0, slot5mVersion := some 1 }

def mergeUsageHourly (old new : VmConsumptionHourly) : VmConsumptionHourly :=
  { old with toVmConsumption := mergeVm old.toVmConsumption new.toVmConsumption }

/-- One transaction of `_rollup_and_delete_legacy_usage`: the local hour of the oldest row. -/
def rollupUsageHour (off cutoff oldest : Int) (b : Billing) : Billing :=
  let hourStart := localHourStart off oldest
  let dayStart := localDayStart off hourStart
  let chunkEnd := min cutoff (hourStart + 3600)
  let chunkEnd := if chunkEnd ≤ oldest then min cutoff (oldest + 1) else chunkEnd
  let inChunk := fun row : StageRow => hourStart ≤ row.lastPush && row.lastPush < chunkEnd
  let rows := b.usage.filter inChunk
  let tables := b.monitor.tables
  { monitor := { b.monitor with
      tables := { tables with
        vmHourly := tables.vmHourly.mergeGroups (fun row => ⟨hourStart, row.node, row.vmUuid, usageBridge row⟩)
          (fun _ group => aggUsageHourly group) mergeUsageHourly rows
        vmDaily := tables.vmDaily.mergeGroups (fun row => ⟨dayStart, row.node, row.vmUuid, usageBridge row⟩)
          (fun _ group => aggUsage group) mergeVm rows } }
    usage := b.usage.filter fun row => !inChunk row }

/-- The loop of `_rollup_and_delete_legacy_usage`; every round deletes the oldest row. -/
def rollupUsageLoop (off cutoff : Int) : Nat → Billing → Billing
  | 0, b => b
  | fuel + 1, b =>
      let oldest := oldestUsage cutoff b.usage
      if oldest ≤ 0 then b else rollupUsageLoop off cutoff fuel (rollupUsageHour off cutoff oldest b)

/-- **`_rollup_and_delete_legacy_usage`.** -/
def rollupAndDeleteLegacyUsage (off cutoff : Int) (b : Billing) : Billing :=
  rollupUsageLoop off cutoff b.usage.length b

/-! ## Runs -/

/-- A push, a delete of retention, or its roll-up of `usage`. -/
inductive BillingEvent
  | monitor (event : Event)
  | rollupUsage (cutoff : Int)

/-- The rows an event inserts into `usage`. -/
def usageRows (cfg : BillingConfig) (m : Monitor) : Event → List StageRow
  | .push receivedNow req =>
      if cfg.writeLegacyUsage then
        (acceptedSample cfg.toConfig receivedNow req m).elim [] fun s => s.stage cfg.tzOffset
      else []
  | _ => []

def Billing.step (cfg : BillingConfig) (b : Billing) : BillingEvent → Billing
  | .monitor event =>
      { monitor := Consumption.step cfg.toConfig b.monitor event
        usage := b.usage ++ usageRows cfg b.monitor event }
  | .rollupUsage cutoff => rollupAndDeleteLegacyUsage cfg.tzOffset cutoff b

def Billing.run (cfg : BillingConfig) (b : Billing) (events : List BillingEvent) : Billing :=
  events.foldl (Billing.step cfg) b

/-- The statements of `run_retention` on `usage`, `push_receipts` and `vm_consumption_hourly`, for
    `RAW_RETENTION_DAYS` and `HOURLY_RETENTION_DAYS`. -/
def runRetention (rawDays hourlyDays now : Int) : List BillingEvent :=
  let rawCutoff := bucketFor (now - rawDays * 86400)
  let hourlyCutoff := bucketFor (now - hourlyDays * 86400)
  [.rollupUsage rawCutoff, .monitor (.deleteReceipts rawCutoff), .monitor (.delete .vmHourly hourlyCutoff)]

/-! ## What is to be billed -/

/-- The payload an event delivers, if it passes the endpoint's checks. -/
def deliveredBy (cfg : BillingConfig) : BillingEvent → Option Sample
  | .monitor (.push receivedNow req) => (validatePush cfg.toConfig receivedNow req).toOption
  | _ => none

/-- The payloads a run delivers, repetitions included. -/
def delivered (cfg : BillingConfig) (events : List BillingEvent) : List Sample := events.filterMap (deliveredBy cfg)

/-- What identifies a payload. -/
def Sample.identity (s : Sample) : String × Int := (s.node, s.dataTime)

local instance lawfulIdentity : LawfulBEq (String × Int) := inferInstance

/-- The payloads of a list, each where it first occurs, less those already seen. -/
def distinct (seen : List (String × Int)) : List Sample → List Sample
  | [] => []
  | s :: rest => (if s.identity ∈ seen then [] else [s]) ++ distinct (s.identity :: seen) rest

/-- The two VM tables, by the length of their rows. -/
inductive Grain | hour | day
  deriving DecidableEq, Repr

def Grain.start (off : Int) : Grain → Int → Int
  | hour => localHourStart off
  | day => localDayStart off

/-- A tally of the VM tables: the bytes of some VMs in the rows of `lo ≤ start < hi`. -/
structure Tally where
  grain : Grain
  who : Selector
  dir : Direction
  lo : Int
  hi : Int

namespace Tally

/-- The bytes stored. -/
def stored (r : Tally) (t : RollupTables) : Nat :=
  match r.grain with
  | .hour => t.vmHourly.sumOf (vmKeyIn r.who r.lo r.hi) fun row => row.deltas.bytes r.dir
  | .day => t.vmDaily.sumOf (vmKeyIn r.who r.lo r.hi) fun row => row.deltas.bytes r.dir

/-- The bytes in the rows that a delete removes. -/
def removed (r : Tally) (table : RollupTable) (cutoff : Int) (t : RollupTables) : Nat :=
  match r.grain, table with
  | .hour, .vmHourly =>
      t.vmHourly.sumOf (fun key => key.start < cutoff && vmKeyIn r.who r.lo r.hi key) fun row => row.deltas.bytes r.dir
  | .day, .vmDaily =>
      t.vmDaily.sumOf (fun key => key.start < cutoff && vmKeyIn r.who r.lo r.hi key) fun row => row.deltas.bytes r.dir
  | _, _ => 0

/-- The bytes of a payload. -/
def share (r : Tally) (off : Int) (s : Sample) : Nat :=
  let start := r.grain.start off (slotOf s.dataTime)
  if r.lo ≤ start ∧ start < r.hi then vmBytes off r.who r.dir s else 0

/-- The bytes that the deletes of a run remove. -/
def purged (cfg : BillingConfig) (r : Tally) : Billing → List BillingEvent → Nat
  | _, [] => 0
  | b, event :: rest =>
      (match event with
        | .monitor (.delete table cutoff) => r.removed table cutoff b.monitor.tables
        | _ => 0) + purged cfg r (b.step cfg event) rest

end Tally

/-! ## The condition -/

/-- **The receipts outlive the retries, and `usage` has nothing to roll up**: a payload that was delivered before
    finds its receipt, and retention finds no `usage` row under its cutoff. -/
def Guarded (cfg : BillingConfig) : Billing → List (String × Int) → List BillingEvent → Prop
  | _, _, [] => True
  | b, seen, event :: rest =>
      (match event with
        | .rollupUsage cutoff => oldestUsage cutoff b.usage ≤ 0
        | event => ∀ s ∈ deliveredBy cfg event, s.identity ∈ seen → b.monitor.hasReceipt s = true) ∧
      Guarded cfg (b.step cfg event) ((deliveredBy cfg event).toList.map Sample.identity ++ seen) rest

instance Guarded.decidable (cfg : BillingConfig) :
    ∀ (b : Billing) (seen : List (String × Int)) (events : List BillingEvent), Decidable (Guarded cfg b seen events)
  | _, _, [] => .isTrue trivial
  | b, seen, .rollupUsage cutoff :: rest =>
      have := Guarded.decidable cfg (b.step cfg (.rollupUsage cutoff)) seen rest
      inferInstanceAs (Decidable (oldestUsage cutoff b.usage ≤ 0 ∧
        Guarded cfg (b.step cfg (.rollupUsage cutoff)) seen rest))
  | b, seen, .monitor event :: rest =>
      have := Guarded.decidable cfg (b.step cfg (.monitor event))
        ((deliveredBy cfg (.monitor event)).toList.map Sample.identity ++ seen) rest
      inferInstanceAs (Decidable ((∀ s ∈ deliveredBy cfg (.monitor event), s.identity ∈ seen →
          b.monitor.hasReceipt s = true) ∧
        Guarded cfg (b.step cfg (.monitor event))
          ((deliveredBy cfg (.monitor event)).toList.map Sample.identity ++ seen) rest))

/-! ## Conservation -/

namespace Tally

variable (r : Tally)

/-- A payload adds its bytes. -/
theorem stored_writeSample (off : Int) (s : Sample) {t : RollupTables} (ht : t.Packed) :
    r.stored (writeSample off s t) = r.stored t + r.share off s := by
  obtain ⟨grain, who, dir, lo, hi⟩ := r
  cases grain with
  | hour =>
      have hledger : Ledger off (fun _ _ => True)
          (fun t => t.vmHourly.sumOf (vmKeyIn who lo hi) fun row => row.deltas.bytes dir) _ :=
        vmHourlyLedger off who dir fun _ _ _ => trivial
      exact hledger.write t s ht
  | day =>
      have hledger : Ledger off (fun _ _ => True)
          (fun t => t.vmDaily.sumOf (vmKeyIn who lo hi) fun row => row.deltas.bytes dir) _ :=
        vmDailyLedger off who dir fun _ _ _ => trivial
      exact hledger.write t s ht

/-- A delete removes the bytes of its rows. -/
theorem stored_deleteOlder (table : RollupTable) (cutoff : Int) (t : RollupTables) :
    r.stored (deleteOlder table cutoff t) + r.removed table cutoff t = r.stored t := by
  obtain ⟨grain, who, dir, lo, hi⟩ := r
  cases grain with
  | hour =>
      cases table with
      | vmHourly =>
          exact t.vmHourly.sumOf_deleteWhere_add (fun key => key.start < cutoff) (vmKeyIn who lo hi)
            fun row => row.deltas.bytes dir
      | _ => rfl
  | day =>
      cases table with
      | vmDaily =>
          exact t.vmDaily.sumOf_deleteWhere_add (fun key => key.start < cutoff) (vmKeyIn who lo hi)
            fun row => row.deltas.bytes dir
      | _ => rfl

end Tally

variable {cfg : BillingConfig} {seen : List (String × Int)}

theorem rollupAndDeleteLegacyUsage_of_empty {off cutoff : Int} {b : Billing} (h : oldestUsage cutoff b.usage ≤ 0) :
    rollupAndDeleteLegacyUsage off cutoff b = b := by
  unfold rollupAndDeleteLegacyUsage
  cases b.usage.length with
  | zero => rfl
  | succ fuel =>
      unfold rollupUsageLoop
      exact if_pos h

/-- Every receipt is that of a payload delivered before. -/
def Receipted (seen : List (String × Int)) (m : Monitor) : Prop := ∀ r ∈ m.receipts, (r.node, r.pushTime) ∈ seen

theorem hasReceipt_false (m : Monitor) (h : Receipted seen m) {s : Sample} (hs : s.identity ∉ seen) :
    m.hasReceipt s = false := by
  unfold Monitor.hasReceipt
  rw [List.any_eq_false]
  intro r hr hkey
  simp only [Bool.and_eq_true, decide_eq_true_eq] at hkey
  apply hs
  unfold Sample.identity
  rw [← hkey.1, ← hkey.2]
  exact h r hr

/-- What a push does to the monitor, by the payload it delivers. -/
theorem ingest_of_delivered (cfg : BillingConfig) (receivedNow : Int) (req : PushRequest) (m : Monitor) :
    (ingest cfg.toConfig receivedNow req m).1 =
      match deliveredBy cfg (.monitor (.push receivedNow req)) with
      | none => m
      | some s =>
          if m.hasReceipt s then m
          else
            { receipts := ⟨s.node, s.dataTime, bucketFor s.dataTime, receivedNow⟩ :: m.receipts
              tables := writeSample cfg.tzOffset s m.tables } := by
  unfold ingest deliveredBy
  dsimp only
  cases validatePush cfg.toConfig receivedNow req with
  | error reply => rfl
  | ok s => by_cases h : m.hasReceipt s <;> simp [Except.toOption, h]

/-- **Stored and deleted bytes are those of the distinct payloads**, from any state on. -/
theorem Guarded.stored_add_purged (r : Tally) : ∀ (events : List BillingEvent) (b : Billing) (seen : List (String × Int)),
    b.monitor.tables.Packed → Receipted seen b.monitor → Guarded cfg b seen events →
    r.stored (b.run cfg events).monitor.tables + r.purged cfg b events =
      r.stored b.monitor.tables + ((distinct seen (delivered cfg events)).map (r.share cfg.tzOffset)).sum := by
  intro events
  induction events with
  | nil => intro b seen _ _ _; rfl
  | cons event rest ih =>
      intro b seen hpacked hreceipts hguarded
      obtain ⟨hguard, hrest⟩ := hguarded
      rw [show b.run cfg (event :: rest) = (b.step cfg event).run cfg rest from rfl]
      cases event with
      | rollupUsage cutoff =>
          have hsame : b.step cfg (.rollupUsage cutoff) = b := rollupAndDeleteLegacyUsage_of_empty hguard
          rw [hsame] at hrest ⊢
          show _ + (0 + r.purged cfg (b.step cfg (.rollupUsage cutoff)) rest) = _
          rw [hsame, Nat.zero_add]
          exact ih b seen hpacked hreceipts hrest
      | monitor event =>
          have hnext := RollupTables.Packed.step hpacked cfg.toConfig event
          cases event with
          | delete table cutoff =>
              have hdelete := r.stored_deleteOlder table cutoff b.monitor.tables
              have hmore := ih (b.step cfg (.monitor (.delete table cutoff))) seen hnext hreceipts hrest
              show _ + (r.removed table cutoff b.monitor.tables + _) = _
              rw [Nat.add_left_comm, hmore, ← Nat.add_assoc, Nat.add_comm (r.removed _ _ _)]
              exact congrArg (· + _) hdelete
          | deleteReceipts cutoff =>
              show _ + (0 + _) = _
              rw [Nat.zero_add]
              refine ih _ seen hnext (fun receipt hmem => ?_) hrest
              exact hreceipts receipt (List.mem_filter.mp hmem).1
          | push receivedNow req =>
              have hstep := ingest_of_delivered cfg receivedNow req b.monitor
              have hmonitor : (b.step cfg (.monitor (.push receivedNow req))).monitor = _ := hstep
              show _ + (0 + _) = _
              rw [Nat.zero_add]
              unfold delivered
              cases hdelivered : deliveredBy cfg (.monitor (.push receivedNow req)) with
              | none =>
                  rw [hdelivered] at hmonitor hrest
                  dsimp only at hmonitor
                  rw [List.filterMap_cons_none hdelivered, ← hmonitor]
                  refine ih _ seen hnext (fun receipt hmem => ?_) hrest
                  rw [hmonitor] at hmem
                  exact hreceipts receipt hmem
              | some s =>
                  rw [hdelivered] at hmonitor hrest
                  dsimp only at hmonitor
                  rw [List.filterMap_cons_some hdelivered, distinct]
                  by_cases hreceipt : b.monitor.hasReceipt s = true
                  · -- A repeated payload: its receipt says that it was delivered before.
                    rw [if_pos hreceipt] at hmonitor
                    have hseen : s.identity ∈ seen := by
                      by_contra hnew
                      rw [hasReceipt_false b.monitor hreceipts hnew] at hreceipt
                      cases hreceipt
                    rw [if_pos hseen, List.nil_append, ← hmonitor]
                    refine ih _ (s.identity :: seen) hnext (fun receipt hmem => ?_) hrest
                    rw [hmonitor] at hmem
                    exact List.mem_cons_of_mem _ (hreceipts receipt hmem)
                  · -- A new payload: had it been delivered before, its receipt would still be there.
                    rw [if_neg hreceipt] at hmonitor
                    have hnew : s.identity ∉ seen := fun hseen => hreceipt (hguard s hdelivered hseen)
                    have hmore := ih _ (s.identity :: seen) hnext (fun receipt hmem => ?_) hrest
                    · rw [hmore, if_neg hnew, hmonitor, List.singleton_append, List.map_cons, List.sum_cons,
                        ← Nat.add_assoc]
                      exact congrArg (· + _) (r.stored_writeSample cfg.tzOffset s hpacked)
                    · rw [hmonitor] at hmem
                      rcases List.mem_cons.mp hmem with rfl | hold
                      · exact List.mem_cons_self
                      · exact List.mem_cons_of_mem _ (hreceipts receipt hold)

/-- **No payload is counted twice.** In every guarded run, what the VM rows hold and what retention deleted from them is
    the sum over the distinct payloads delivered. -/
theorem no_payload_counted_twice (cfg : BillingConfig) (events : List BillingEvent) (r : Tally)
    (h : Guarded cfg .init [] events) :
    r.stored (Billing.init.run cfg events).monitor.tables + r.purged cfg .init events =
      ((distinct [] (delivered cfg events)).map (r.share cfg.tzOffset)).sum := by
  have hinit := Guarded.stored_add_purged r events .init [] packed_empty (fun _ hr => nomatch hr) h
  have hzero : r.stored Billing.init.monitor.tables = 0 := by
    obtain ⟨grain, who, dir, lo, hi⟩ := r
    cases grain <;> rfl
  rw [hinit, hzero, Nat.zero_add]

/-- The bytes one VM sent in the rows of a day. -/
def dayTally (grain : Grain) : Tally :=
  { grain, who := .vm "n1" "vm-1" "br0", dir := .rx, lo := 0, hi := 86400 }

/-- A payload, the retry of it a day later, and a run of retention in between. -/
def retriedRun : List BillingEvent :=
  .monitor (.push 72050 (sentPush 72000 700)) :: runRetention 2 7 100000 ++
    [.monitor (.push 158400 (sentPush 72000 700)), .monitor (.push 158400 (sentPush 72300 50))]

theorem no_payload_counted_twice_retried : (dayTally .hour).stored (Billing.init.run { tzOffset := 0 }
      retriedRun).monitor.tables + (dayTally .hour).purged { tzOffset := 0 } .init retriedRun =
    ((distinct [] (delivered { tzOffset := 0 } retriedRun)).map ((dayTally .hour).share 0)).sum := by
  refine no_payload_counted_twice { tzOffset := 0 } retriedRun (dayTally .hour) ?_
  decide +kernel

/-- **A late retry is counted twice**: the payload is delivered again when retention has deleted its receipt. -/
theorem late_retry_counted_twice : ¬ ∀ (cfg : BillingConfig) (events : List BillingEvent) (r : Tally),
    r.stored (Billing.init.run cfg events).monitor.tables + r.purged cfg .init events =
      ((distinct [] (delivered cfg events)).map (r.share cfg.tzOffset)).sum := by
  intro hclaim
  have hrun := hclaim { tzOffset := 0 }
    (.monitor (.push 72050 (sentPush 72000 700)) :: runRetention 2 7 300000 ++
      [.monitor (.push 300100 (sentPush 72000 700))]) (dayTally .day)
  revert hrun
  decide +kernel

end VirtInfra.Consumption
