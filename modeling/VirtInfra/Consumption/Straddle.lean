import VirtInfra.Consumption.Backfill
import VirtInfra.Consumption.Billing
import VirtInfra.Lib.Proration
import VirtInfra.Lib.Transition

/-!
# `Straddle` — rows that older ingests and the current one wrote together

The ingests before R22.10 add to the totals of an hourly row and know no slots, R22.10 packed slots whose boundaries are
now read as wrong (`slot_5m_version` 1). What they wrote is the residual of the row: the current ingest replaces such slots
by its own, and the edge of a window spreads the residual over the slots that are still unknown. When the current ingest
has filled all twelve of them, no slot is left to take it, and the edge drops it (`edge_estimate_iff`).
-/

namespace VirtInfra.Consumption

open Lib Python

/-! ## The estimate -/

/-- A part of an hour between two boundaries of its slots. -/
structure SubWindow (hourStart start stop : Int) : Prop where
  inside : hourStart ≤ start
  nonempty : start < stop
  within : stop ≤ hourStart + 3600
  startAligned : 300 ∣ start - hourStart
  stopAligned : 300 ∣ stop - hourStart

/-- What the edge branch of a segment reads off a row. -/
def edgeEstimate (off start stop : Int) (key : VmKey) (row : VmConsumptionHourly) (dir : Direction) : Nat :=
  let hourStart := localHourStart off start
  let (first, last) := slotBounds hourStart start stop
  (edgeRow start stop hourStart first last key row).bytes dir

/-- **The edge estimates of a row** are at most its total, grow with the segment, and are the total of the whole hour. -/
structure EdgeLaw (off : Int) (key : VmKey) (row : VmConsumptionHourly) (dir : Direction) : Prop where
  bounded : ∀ start stop, SubWindow key.start start stop → edgeEstimate off start stop key row dir ≤ row.deltas.bytes dir
  grows : ∀ start stop start' stop', SubWindow key.start start stop → SubWindow key.start start' stop' →
    start' ≤ start → stop ≤ stop' →
      edgeEstimate off start stop key row dir ≤ edgeEstimate off start' stop' key row dir
  whole : edgeEstimate off key.start (key.start + 3600) key row dir = row.deltas.bytes dir

/-- All twelve slots of a row are known. -/
def AllKnown (row : VmConsumptionHourly) : Prop := ∀ index < 12, slotKnown row index = true

/-- The bytes in the slots of a row. -/
def packedBytes (row : VmConsumptionHourly) (dir : Direction) : Nat :=
  slotSum row.slot5mVersion (row.slots dir) 0 12

/-- The bytes of a slot, as the edge reads it. -/
def slotValue (row : VmConsumptionHourly) (dir : Direction) (index : Nat) : Nat :=
  if row.slot5mVersion.getD 1 ≥ 2 then slotAt (row.slots dir) index else 0

/-- An edge reads the estimate of its slots. -/
theorem edgeBytes_eq (row : VmConsumptionHourly) (dir : Direction) (first last : Nat) :
    edgeBytes row dir first last =
      Proration.estimate (slotValue row dir) (slotKnown row) 12 (row.deltas.bytes dir) first last := by
  have hknown : maskCount row 0 12 = Proration.knownIn (slotKnown row) 0 12 := rfl
  have hunknown : Proration.unknownIn (slotKnown row) 0 12 = 12 - Proration.knownIn (slotKnown row) 0 12 := rfl
  unfold edgeBytes Proration.estimate
  dsimp only
  rw [hunknown, hknown]
  by_cases hall : Proration.knownIn (slotKnown row) 0 12 ≥ 12
  · rw [if_pos hall, if_pos (by omega)]
    rfl
  · rw [if_neg hall, if_neg (by omega), Nat.max_eq_left (by omega)]
    rfl

theorem edgeEstimate_eq {off hourStart start stop : Int} (hhour : OnHour off hourStart)
    (hwindow : SubWindow hourStart start stop) (key : VmKey) (row : VmConsumptionHourly) (dir : Direction) :
    edgeEstimate off start stop key row dir =
      edgeBytes row dir (slotBounds hourStart start stop).1 (slotBounds hourStart start stop).2 := by
  have hinside := hwindow.inside
  have hnonempty := hwindow.nonempty
  have hwithin := hwindow.within
  have hstart : localHourStart off start = hourStart := (localHourStart_eq_iff hhour).mpr (by omega)
  unfold edgeEstimate
  rw [hstart]
  cases dir <;> rfl

theorem slotBounds_le (hourStart start stop : Int) : (slotBounds hourStart start stop).2 ≤ 12 := by
  unfold slotBounds
  dsimp only
  omega

theorem slotBounds_mono (hourStart : Int) {start stop start' stop' : Int} (hstart : start' ≤ start) (hstop : stop ≤ stop')
    (hwindow : start ≤ stop) :
    (slotBounds hourStart start' stop').1 ≤ (slotBounds hourStart start stop).1 ∧
      (slotBounds hourStart start stop).2 ≤ (slotBounds hourStart start' stop').2 := by
  unfold slotBounds
  dsimp only
  omega

/-- **The estimates of a row whose slots are not above its total.** -/
theorem edgeLaw_iff {off : Int} {key : VmKey} {row : VmConsumptionHourly} {dir : Direction} (hhour : OnHour off key.start)
    (hpacked : packedBytes row dir ≤ row.deltas.bytes dir) :
    EdgeLaw off key row dir ↔ (AllKnown row → packedBytes row dir = row.deltas.bytes dir) := by
  have hwhole : SubWindow key.start key.start (key.start + 3600) :=
    ⟨le_refl _, by omega, le_refl _, by simp, by simp⟩
  have hbounds : slotBounds key.start key.start (key.start + 3600) = (0, 12) := by
    unfold slotBounds
    simp
  have hall : edgeEstimate off key.start (key.start + 3600) key row dir = row.deltas.bytes dir ↔
      (AllKnown row → packedBytes row dir = row.deltas.bytes dir) := by
    rw [edgeEstimate_eq hhour hwhole, hbounds, edgeBytes_eq]
    exact Proration.estimate_all_iff hpacked
  constructor
  · intro hlaw
    exact hall.mp hlaw.whole
  · intro hcond
    refine ⟨?_, ?_, hall.mpr hcond⟩
    · intro start stop hwindow
      rw [edgeEstimate_eq hhour hwindow, edgeBytes_eq]
      exact Proration.estimate_le hpacked (slotBounds_le ..)
    · intro start stop start' stop' hwindow hwindow' hstart hstop
      obtain ⟨hfirst, hlast⟩ := slotBounds_mono key.start hstart hstop hwindow.nonempty.le
      rw [edgeEstimate_eq hhour hwindow, edgeEstimate_eq hhour hwindow', edgeBytes_eq, edgeBytes_eq]
      exact Proration.estimate_mono hfirst hlast

/-! ## Older ingests -/

/-- What an ingest before R22.11 writes to an hourly row. It takes the hour of `data_time` itself; `slotNo` is the slot that
    R22.10 packs, and absent before R22.10. -/
structure OlderPush where
  dataTime : Int
  node : String
  vmUuid : String
  bridge : String
  adds : VmConsumption
  slotNo : Option (Fin 12)

namespace OlderPush

variable (p : OlderPush)

def key (off : Int) : VmKey := ⟨localHourStart off p.dataTime, p.node, p.vmUuid, p.bridge⟩

/-- The row it inserts, whose `slot_5m_version` is the default. -/
def row : VmConsumptionHourly :=
  { p.adds with
    rx5mSlots := p.slotNo.elim [] fun slotNo => slotArray slotNo p.adds.deltas.rx
    tx5mSlots := p.slotNo.elim [] fun slotNo => slotArray slotNo p.adds.deltas.tx
    sample5mMask := p.slotNo.elim 0 fun slotNo => 1 <<< slotNo.val
    slot5mVersion := some 1 }

/-- The row it updates: without slots as the roll-up of `usage` does, else slot by slot. -/
def merge (old new : VmConsumptionHourly) : VmConsumptionHourly :=
  match p.slotNo with
  | none => mergeUsageHourly old new
  | some _ =>
      { mergeUsageHourly old new with
        rx5mSlots := addSlots old.rx5mSlots new.rx5mSlots
        tx5mSlots := addSlots old.tx5mSlots new.tx5mSlots
        sample5mMask := old.sample5mMask ||| new.sample5mMask }

/-- It packs its bytes into slots that count. -/
def packs (old : Option VmConsumptionHourly) : Bool := p.slotNo.isSome && old.any fun row => row.slot5mVersion.getD 1 ≥ 2

end OlderPush

/-- The monitor over the upgrades, with the bytes of each hourly row that no slot counts (ghost). -/
structure Rollout where
  archive : Archive
  unslotted : VmKey → Direction → Nat

/-- A push under an older or the current ingest, a delete of retention, or a backfill. -/
inductive RolloutEvent
  | older (push : OlderPush)
  | current (event : ArchiveEvent)
  | delete (table : RollupTable) (cutoff : Int)
  | backfill (b : Backfill)

def Rollout.init : Rollout := ⟨.init, fun _ _ => 0⟩

def Archive.setTables (a : Archive) (tables : RollupTables) : Archive := { a with monitor := { a.monitor with tables } }

def Rollout.step (cfg : Config) (s : Rollout) : RolloutEvent → Rollout
  | .older p =>
      let tables := s.archive.monitor.tables
      let key := p.key cfg.tzOffset
      { archive := s.archive.setTables { tables with vmHourly := tables.vmHourly.upsert key p.row p.merge }
        unslotted := fun k dir =>
          if k = key ∧ p.packs (tables.vmHourly.get? key) = false then s.unslotted k dir + p.adds.deltas.bytes dir
          else s.unslotted k dir }
  | .current event => { s with archive := s.archive.step cfg event }
  | .delete table cutoff =>
      { archive := s.archive.setTables (deleteOlder table cutoff s.archive.monitor.tables)
        unslotted := fun k dir => if table = .vmHourly ∧ k.start < cutoff then 0 else s.unslotted k dir }
  | .backfill b => { s with archive := s.archive.backfill cfg.tzOffset b }

def rollout (cfg : Config) : System Rollout RolloutEvent where
  init s := s = Rollout.init
  step s event := some (s.step cfg event)

abbrev Rollout.hourly (s : Rollout) : KeyedTable VmKey VmConsumptionHourly := s.archive.monitor.tables.vmHourly

/-! ## What the slots of a row account for -/

/-- The slots of a row and the bytes outside of them are its total; slots of R22.10 account for nothing. -/
inductive Accounted (unslotted : Direction → Nat) (row : VmConsumptionHourly) : Prop
  | slots (version : row.slot5mVersion = some 2)
      (total : ∀ dir, packedBytes row dir + unslotted dir = row.deltas.bytes dir)
  | legacy (version : row.slot5mVersion = some 1) (total : ∀ dir, unslotted dir = row.deltas.bytes dir)

theorem packedBytes_legacy {row : VmConsumptionHourly} (hversion : row.slot5mVersion = some 1) (dir : Direction) :
    packedBytes row dir = 0 := by
  unfold packedBytes slotSum
  simp [hversion]

theorem Accounted.packed_le {unslotted : Direction → Nat} {row : VmConsumptionHourly} (h : Accounted unslotted row)
    (dir : Direction) : packedBytes row dir ≤ row.deltas.bytes dir := by
  cases h with
  | slots _ total => rw [← total dir]; exact Nat.le_add_right ..
  | legacy hversion _ => rw [packedBytes_legacy hversion]; exact Nat.zero_le _

theorem Packed.accounted {row : VmConsumptionHourly} (h : Packed row) : Accounted (fun _ => 0) row := by
  apply Accounted.slots h.version
  intro dir
  rw [Nat.add_zero, ← h.slots dir, ← h.version]
  rfl

/-- The current ingest adds to the slots, or replaces those of R22.10. -/
theorem Accounted.merge {unslotted : Direction → Nat} {old new : VmConsumptionHourly} (hold : Accounted unslotted old)
    (hnew : Packed new) : Accounted unslotted (mergeVmHourly old new) := by
  apply Accounted.slots rfl
  intro dir
  have htotal : (mergeVmHourly old new).deltas.bytes dir = old.deltas.bytes dir + new.deltas.bytes dir :=
    Counters.add_bytes ..
  rw [htotal, ← hnew.slots dir]
  cases hold with
  | slots version total =>
      have hslots : packedBytes (mergeVmHourly old new) dir = packedBytes old dir + slotSum (some 2) (new.slots dir) 0 12 := by
        unfold packedBytes
        rw [mergeVmHourly_slots version, version]
        exact slotSum_addSlots le_rfl
      rw [hslots, ← total dir]
      omega
  | legacy version total =>
      have hslots : packedBytes (mergeVmHourly old new) dir = slotSum (some 2) (new.slots dir) 0 12 := by
        unfold packedBytes
        cases dir <;> simp [mergeVmHourly, version, VmConsumptionHourly.slots]
      rw [hslots, total dir, Nat.add_comm]

theorem OlderPush.accounted_row (p : OlderPush) : Accounted p.adds.deltas.bytes p.row := .legacy rfl fun _ => rfl

theorem OlderPush.merge_version (p : OlderPush) (old : VmConsumptionHourly) :
    (p.merge old p.row).slot5mVersion = old.slot5mVersion := by
  unfold OlderPush.merge
  cases p.slotNo <;> rfl

theorem OlderPush.merge_bytes (p : OlderPush) (old : VmConsumptionHourly) (dir : Direction) :
    (p.merge old p.row).deltas.bytes dir = old.deltas.bytes dir + p.adds.deltas.bytes dir := by
  unfold OlderPush.merge
  cases p.slotNo with
  | none => exact Counters.add_bytes ..
  | some slotNo => exact Counters.add_bytes ..

/-- A slot of R22.10 in a row of the current ingest counts, whatever it stands for. -/
theorem OlderPush.packedBytes_merge (p : OlderPush) {old : VmConsumptionHourly} (hversion : old.slot5mVersion = some 2)
    (dir : Direction) : packedBytes (p.merge old p.row) dir =
      packedBytes old dir + if p.slotNo.isSome then p.adds.deltas.bytes dir else 0 := by
  unfold packedBytes
  rw [p.merge_version, hversion]
  cases hslot : p.slotNo with
  | none => cases dir <;> simp [OlderPush.merge, mergeUsageHourly, hslot, VmConsumptionHourly.slots]
  | some slotNo =>
      have hslots : (p.merge old p.row).slots dir =
          addSlots (old.slots dir) (slotArray slotNo (p.adds.deltas.bytes dir)) := by
        cases dir <;> simp [OlderPush.merge, OlderPush.row, hslot, VmConsumptionHourly.slots, Counters.bytes]
      have hlt := slotNo.isLt
      rw [hslots, slotSum_addSlots le_rfl, slotSum_slotArray le_rfl, if_pos (by omega)]
      rfl

/-- **An older push on a row**: it packs its bytes, or they are outside the slots. -/
theorem Accounted.older {unslotted : Direction → Nat} {old : VmConsumptionHourly} (hold : Accounted unslotted old)
    (p : OlderPush) :
    Accounted (fun dir => if p.packs (some old) = false then unslotted dir + p.adds.deltas.bytes dir else unslotted dir)
      (p.merge old p.row) := by
  cases hold with
  | slots version total =>
      have hpacks : p.packs (some old) = p.slotNo.isSome := by simp [OlderPush.packs, version]
      refine .slots ((p.merge_version old).trans version) ?_
      intro dir
      rw [p.packedBytes_merge version, p.merge_bytes, hpacks, ← total dir]
      cases p.slotNo with
      | none => simp [Nat.add_assoc]
      | some slotNo => simp [Nat.add_right_comm]
  | legacy version total =>
      have hpacks : p.packs (some old) = false := by simp [OlderPush.packs, version]
      refine .legacy ((p.merge_version old).trans version) ?_
      intro dir
      rw [if_pos hpacks, p.merge_bytes, total dir]

/-! ## Runs -/

/-- Every row of an hour is accounted for, and a row that is not there has no bytes. -/
structure Rollout.Inv (off : Int) (s : Rollout) : Prop where
  rows : ∀ key row, s.hourly.get? key = some row → OnHour off key.start ∧ Accounted (s.unslotted key) row
  absent : ∀ key, s.hourly.get? key = none → s.unslotted key = fun _ => 0

theorem Rollout.inv_init (off : Int) : Rollout.init.Inv off := by
  refine ⟨?_, fun _ _ => rfl⟩
  intro key row hrow
  cases hrow

/-- A write of the current ingest. -/
theorem Rollout.Inv.write {off : Int} {s s' : Rollout} (h : s.Inv off) (sample : Sample)
    (htables : s'.hourly = (writeSample off sample s.archive.monitor.tables).vmHourly)
    (hghost : s'.unslotted = s.unslotted) : s'.Inv off := by
  have hget : ∀ key, s'.hourly.get? key =
      if ((sample.stage off).filter fun a => hourlyKey a = key) = [] then s.hourly.get? key
      else some ((s.hourly.get? key).elim (aggVmHourly key ((sample.stage off).filter fun a => hourlyKey a = key))
        (mergeVmHourly · (aggVmHourly key ((sample.stage off).filter fun a => hourlyKey a = key)))) := by
    intro key
    rw [htables, writeSample_vmHourly]
    exact KeyedTable.get?_mergeGroups ..
  constructor
  · intro key row hrow
    rw [hget] at hrow
    rw [hghost]
    split at hrow
    next => exact h.rows key row hrow
    next hgroup =>
      obtain ⟨staged, hstaged⟩ := List.exists_mem_of_ne_nil _ hgroup
      obtain ⟨hmem, hkey⟩ := List.mem_filter.mp hstaged
      have hhour : OnHour off key.start := by
        rw [← of_decide_eq_true hkey]
        show OnHour off staged.hourStart
        rw [(Sample.stage_mem hmem).1]
        exact onHour_localHourStart ..
      have hnew := packed_aggVmHourly key ((sample.stage off).filter fun a => hourlyKey a = key)
      obtain rfl := Option.some.inj hrow
      cases hold : s.hourly.get? key with
      | none =>
          rw [h.absent key hold]
          exact ⟨hhour, hnew.accounted⟩
      | some old => exact ⟨hhour, (h.rows key old hold).2.merge hnew⟩
  · intro key hnone
    rw [hget] at hnone
    rw [hghost]
    split at hnone
    next => exact h.absent key hnone
    next => cases hnone

/-- A write of an older ingest. -/
theorem Rollout.Inv.older {cfg : Config} {s : Rollout} (h : s.Inv cfg.tzOffset) (p : OlderPush) :
    (s.step cfg (.older p)).Inv cfg.tzOffset := by
  have hself : (s.step cfg (.older p)).hourly.get? (p.key cfg.tzOffset) =
      some ((s.hourly.get? (p.key cfg.tzOffset)).elim p.row (p.merge · p.row)) := KeyedTable.get?_upsert_self ..
  have hother : ∀ {key}, key ≠ p.key cfg.tzOffset →
      (s.step cfg (.older p)).hourly.get? key = s.hourly.get? key ∧
        (s.step cfg (.older p)).unslotted key = s.unslotted key := by
    intro key hkey
    refine ⟨KeyedTable.get?_upsert_of_ne _ _ _ hkey, ?_⟩
    funext dir
    exact if_neg fun hboth => hkey hboth.1
  have hghost : (s.step cfg (.older p)).unslotted (p.key cfg.tzOffset) = fun dir =>
      if p.packs (s.hourly.get? (p.key cfg.tzOffset)) = false
      then s.unslotted (p.key cfg.tzOffset) dir + p.adds.deltas.bytes dir
      else s.unslotted (p.key cfg.tzOffset) dir := by
    funext dir
    simp [Rollout.step]
  constructor
  · intro key row hrow
    by_cases hkey : key = p.key cfg.tzOffset
    · subst hkey
      rw [hself] at hrow
      rw [hghost]
      obtain rfl := Option.some.inj hrow
      cases hold : s.hourly.get? (p.key cfg.tzOffset) with
      | none =>
          have hpacks : p.packs none = false := by simp [OlderPush.packs]
          simp only [hpacks, h.absent _ hold, if_true, Nat.zero_add, Option.elim_none]
          exact ⟨onHour_localHourStart .., p.accounted_row⟩
      | some old => exact ⟨onHour_localHourStart .., (h.rows _ old hold).2.older p⟩
    · obtain ⟨hget, hsame⟩ := hother hkey
      rw [hget] at hrow
      rw [hsame]
      exact h.rows key row hrow
  · intro key hnone
    by_cases hkey : key = p.key cfg.tzOffset
    · rw [hkey, hself] at hnone
      cases hnone
    · obtain ⟨hget, hsame⟩ := hother hkey
      rw [hget] at hnone
      rw [hsame]
      exact h.absent key hnone

theorem Rollout.Inv.delete {cfg : Config} {s : Rollout} (h : s.Inv cfg.tzOffset) (table : RollupTable) (cutoff : Int) :
    (s.step cfg (.delete table cutoff)).Inv cfg.tzOffset := by
  have hspared : ∀ key, ¬ (table = .vmHourly ∧ key.start < cutoff) →
      (s.step cfg (.delete table cutoff)).unslotted key = s.unslotted key := by
    intro key hkey
    funext dir
    exact if_neg hkey
  have hget : ∀ key, (s.step cfg (.delete table cutoff)).hourly.get? key =
      if table = .vmHourly ∧ key.start < cutoff then none else s.hourly.get? key := by
    intro key
    show (deleteOlder table cutoff s.archive.monitor.tables).vmHourly.get? key = _
    cases table with
    | vmHourly =>
        refine (KeyedTable.get?_deleteWhere ..).trans ?_
        simp
    | vmDaily | node5m | nodeHourly | nodeDaily => simp [deleteOlder]
  constructor
  · intro key row hrow
    rw [hget] at hrow
    split at hrow
    next => cases hrow
    next hkey =>
      rw [hspared key hkey]
      exact h.rows key row hrow
  · intro key hnone
    rw [hget] at hnone
    split at hnone
    next hkey =>
      funext dir
      exact if_pos hkey
    next hkey =>
      rw [hspared key hkey]
      exact h.absent key hnone

/-- **What a step keeps accounted.** -/
theorem Rollout.Inv.step {cfg : Config} {s : Rollout} (h : s.Inv cfg.tzOffset) (event : RolloutEvent) :
    (s.step cfg event).Inv cfg.tzOffset := by
  cases event with
  | older p => exact h.older p
  | delete table cutoff => exact h.delete table cutoff
  | backfill b => exact ⟨h.rows, h.absent⟩
  | current event =>
      cases event with
      | prune cutoff keep => exact ⟨h.rows, h.absent⟩
      | push receivedNow req =>
          have htables : (s.archive.step cfg (.push receivedNow req)).monitor.tables =
              (ingest cfg receivedNow req s.archive.monitor).1.tables := by
            rw [step_push_monitor]
            rfl
          rw [ingest_tables] at htables
          cases haccepted : acceptedSample cfg receivedNow req s.archive.monitor with
          | none =>
              rw [haccepted] at htables
              have hhourly : (s.step cfg (.current (.push receivedNow req))).hourly = s.hourly :=
                congrArg RollupTables.vmHourly htables
              exact ⟨fun key row hrow => h.rows key row (hhourly ▸ hrow), fun key hnone => h.absent key (hhourly ▸ hnone)⟩
          | some sample =>
              rw [haccepted] at htables
              exact h.write sample (congrArg RollupTables.vmHourly htables) rfl

theorem Rollout.inv_of_reachable {cfg : Config} {s : Rollout} (h : (rollout cfg).Reachable System.AnyStep s) :
    s.Inv cfg.tzOffset := by
  apply h.invariant
  · rintro _ rfl
    exact Rollout.inv_init _
  · intro s event s' _ hinv _ hstep
    obtain rfl := Option.some.inj hstep
    exact hinv.step event

/-- **The edge estimates of every reachable row** are at most its total and grow with the segment; and they are the total of
    the whole hour, exactly when a row whose slots are all known has no bytes outside of them. -/
theorem edge_estimate_iff {cfg : Config} {s : Rollout} (h : (rollout cfg).Reachable System.AnyStep s) {key : VmKey}
    {row : VmConsumptionHourly} (hrow : s.hourly.get? key = some row) (dir : Direction) :
    EdgeLaw cfg.tzOffset key row dir ↔ (AllKnown row → s.unslotted key dir = 0) := by
  obtain ⟨hhour, haccounted⟩ := (Rollout.inv_of_reachable h).rows key row hrow
  rw [edgeLaw_iff hhour (haccounted.packed_le dir)]
  cases haccounted with
  | slots version total =>
      have htotal := total dir
      refine forall_congr' fun _ => ?_
      omega
  | legacy version total =>
      -- no slot of such a row is known
      have hnone : ¬ AllKnown row := by
        intro hall
        have hfirst := hall 0 (by decide)
        simp [slotKnown, version] at hfirst
      simp [hnone]

/-! ### An hour of twelve slots after an upgrade -/

def Rollout.run (cfg : Config) (s : Rollout) (events : List RolloutEvent) : Rollout := events.foldl (Rollout.step cfg) s

theorem Rollout.reachable_run {cfg : Config} {s : Rollout} (h : (rollout cfg).Reachable System.AnyStep s)
    (events : List RolloutEvent) : (rollout cfg).Reachable System.AnyStep (s.run cfg events) := by
  induction events generalizing s with
  | nil => exact h
  | cons event rest ih => exact ih (.step h trivial rfl)

/-- An older ingest books 1200 bytes at 19:00, the current one 100 in each of the next `slots` slots. -/
def straddlingRun (slots : Nat) : List RolloutEvent :=
  .older
      { dataTime := 68400, node := "n1", vmUuid := "vm-1", bridge := "br0", slotNo := none
        adds := { deltas := { (0 : Counters) with rx := 1200 }, sampleCount := 1, lastPush := 68400 } } ::
    (List.range slots).map fun slot => .current (.push 72400 (sentPush (68700 + 300 * slot) 100))

def straddlingKey : VmKey := ⟨68400, "n1", "vm-1", "br0"⟩

def straddling (slots : Nat) : Rollout := Rollout.init.run { tzOffset := 0 } (straddlingRun slots)

theorem reachable_straddling (slots : Nat) : (rollout { tzOffset := 0 }).Reachable System.AnyStep (straddling slots) :=
  Rollout.reachable_run (.init rfl) _

/-- With one slot unknown the hour has all its bytes. -/
theorem edge_estimate_eleven_slots :
    ∃ row, (straddling 11).hourly.get? straddlingKey = some row ∧ EdgeLaw 0 straddlingKey row .rx := by
  have hrow : ∃ row, (straddling 11).hourly.get? straddlingKey = some row ∧ slotKnown row 11 = false := by
    have hknown : ((straddling 11).hourly.get? straddlingKey).map (slotKnown · 11) = some false := by decide +kernel
    exact Option.map_eq_some_iff.mp hknown
  obtain ⟨row, hget, hknown⟩ := hrow
  refine ⟨row, hget, (edge_estimate_iff (reachable_straddling 11) hget .rx).mpr ?_⟩
  intro hall
  have hlast := hall 11 (by decide)
  rw [hknown] at hlast
  cases hlast

/-- With all slots known the 1200 bytes of the older ingest are in no estimate. -/
theorem edge_drops_older_bytes :
    (rollout { tzOffset := 0 }).Reachable System.AnyStep (straddling 12) ∧
    ∃ row, (straddling 12).hourly.get? straddlingKey = some row ∧ row.deltas.rx = 2400 ∧
      edgeEstimate 0 68400 72000 straddlingKey row .rx = 1200 ∧ ¬ EdgeLaw 0 straddlingKey row .rx := by
  refine ⟨reachable_straddling 12, ?_⟩
  have hread : ((straddling 12).hourly.get? straddlingKey).map (fun row =>
      (row.deltas.rx, edgeEstimate 0 68400 72000 straddlingKey row .rx)) = some (2400, 1200) := by decide +kernel
  obtain ⟨row, hget, hpair⟩ := Option.map_eq_some_iff.mp hread
  obtain ⟨htotal, hestimate⟩ := Prod.mk.inj hpair
  refine ⟨row, hget, htotal, hestimate, ?_⟩
  intro hlaw
  have hwhole : edgeEstimate 0 68400 72000 straddlingKey row .rx = row.deltas.rx := hlaw.whole
  rw [hestimate, htotal] at hwhole
  cases hwhole

end VirtInfra.Consumption
