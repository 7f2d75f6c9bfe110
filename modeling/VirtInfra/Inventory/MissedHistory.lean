import VirtInfra.Lib.Lookup
import VirtInfra.Lib.Records
import VirtInfra.Lib.Transition
import VirtInfra.Python.Prelude
import Mathlib.Algebra.Order.Group.Int
import Mathlib.Algebra.Ring.Int.Defs
import Mathlib.Data.List.Sort

/-!
# `MissedHistory` — the outages of a node (`04_charts_vm.py`, `10_ingest_push.py`)

An agent pushes every five minutes. A push that comes later than it should records an event: from the push before, whose time
is in `node_inventory`, to this one, with the cycles that were missed between. Pushes also come twice, late, and out of order,
and retention, purges and resets delete what they find.

The events of a node are the gaps between the records of its push times (`missed_events_are_gaps`), in the order of their ids
and disjoint, so that the pages never count a second twice (`missed_history_sound`).
-/

namespace VirtInfra.Inventory

open Lib Python

/-- `STATUS_PUSH_SECONDS` and `CACHE_BUCKET_SECONDS`. -/
structure MissedConfig where
  statusPushSeconds : Int
  cacheBucketSeconds : Int
  status_pos : 60 ≤ statusPushSeconds
  bucket_pos : 0 < cacheBucketSeconds

/-- A row of `node_missed_events`. The id is its place in the table. -/
structure MissedEvent where
  node : String
  lastGoodPush : Int
  missedFrom : Int
  recoveredAt : Int
  missedCycles : Int
  gapSeconds : Int
  createdAt : Int
  deriving DecidableEq

/-- A row of `push_receipts`. -/
structure PushReceipt where
  node : String
  pushTime : Int
  receivedAt : Int
  deriving DecidableEq

/-- **What is known of the pushes**: `node_inventory.last_push`, the events in the order of their ids, and the receipts. -/
structure MissedHistory where
  lastPush : KeyedTable String Int
  events : List MissedEvent
  receipts : List PushReceipt

variable (c : MissedConfig)

/-- **`missed_cycles_for_gap`.** -/
def missedCyclesForGap (previousPush currentPush : Int) : Int :=
  if previousPush ≤ 0 ∨ currentPush ≤ previousPush then 0
  else max 0 ((currentPush - previousPush - c.statusPushSeconds) / c.statusPushSeconds)

/-- The event of a recovery. -/
def missedEvent (node : String) (previousPush currentPush now : Int) : MissedEvent where
  node := node
  lastGoodPush := previousPush
  missedFrom := previousPush + c.statusPushSeconds
  recoveredAt := currentPush
  missedCycles := missedCyclesForGap c previousPush currentPush
  gapSeconds := currentPush - previousPush
  createdAt := now

/-- **`record_recovered_miss_event`**, where a row with the same node and times is ignored. -/
def recordRecoveredMissEvent (node : String) (previousPush currentPush now : Int) (events : List MissedEvent) :
    List MissedEvent :=
  if missedCyclesForGap c previousPush currentPush ≤ 0 then events
  else if events.any fun e => e.node = node && e.lastGoodPush = previousPush && e.recoveredAt = currentPush then events
  else events ++ [missedEvent c node previousPush currentPush now]

namespace MissedHistory

/-- **A push**, as far as it is about receipts, events and the inventory. -/
def push (node : String) (dataTime now : Int) (h : MissedHistory) : MissedHistory :=
  if h.receipts.any fun r => r.node = node && r.pushTime = dataTime then h
  else
    let previousPush := (h.lastPush.get? node).getD 0
    { lastPush := h.lastPush.upsert node dataTime fun old new => max old new
      events :=
        if previousPush ≠ 0 ∧ previousPush < dataTime then
          recordRecoveredMissEvent c node previousPush dataTime now h.events
        else h.events
      receipts := h.receipts ++ [⟨node, dataTime, now⟩] }

def eventsOf (h : MissedHistory) (node : String) : List MissedEvent := h.events.filter (·.node = node)

def empty : MissedHistory := ⟨.empty, [], []⟩

end MissedHistory

/-- What writes the tables. -/
inductive MissedStep
  | push (node : String) (dataTime now : Int)
  /-- The sweeps of `run_retention`, each with its cutoff. -/
  | deleteEvents (cutoff : Int)
  | deleteReceipts (cutoff : Int)
  /-- `purge_node_data`. -/
  | purgeNode (node : String)
  /-- `clear_monitoring_data`, which keeps the inventory, and `reset_app_data`, which does not. -/
  | clearMonitoringData
  | resetAppData
  deriving DecidableEq

/-- **The tables over a run.** -/
def missedSystem : System MissedHistory MissedStep where
  init h := h = .empty
  step h
    | .push node dataTime now => some (h.push c node dataTime now)
    | .deleteEvents cutoff => some { h with events := h.events.filter fun e => !decide (e.createdAt < cutoff) }
    | .deleteReceipts cutoff => some { h with receipts := h.receipts.filter fun r => !decide (r.receivedAt < cutoff) }
    | .purgeNode node =>
        some
          { lastPush := h.lastPush.deleteWhere (· = node)
            events := h.events.filter (·.node ≠ node)
            receipts := h.receipts.filter (·.node ≠ node) }
    | .clearMonitoringData => some { h with events := [], receipts := [] }
    | .resetAppData => some .empty

/-! ## The pages -/

/-- **`missed_cycles`** of the last push, where a missing one counts nothing. -/
def missedCycles (now lastPush : Int) : Int :=
  if lastPush = 0 then 0 else max 0 ((now - lastPush - c.cacheBucketSeconds) / c.cacheBucketSeconds)

/-- The events of a node that recovered within a day. -/
def MissedHistory.recent (h : MissedHistory) (node : String) (now : Int) : List MissedEvent :=
  (h.eventsOf node).filter fun e => now - 86400 ≤ e.recoveredAt

/-- What `get_node_missed_history` returns. -/
structure MissedPage where
  lastPush : Int
  currentCycles : Int
  completedCycles : Int
  completedIncidents : Int
  lastRecovered : Int
  events : List MissedEvent

def MissedPage.totalCycles (p : MissedPage) : Int := p.completedCycles + p.currentCycles

def MissedPage.totalIncidents (p : MissedPage) : Int := p.completedIncidents + if 0 < p.currentCycles then 1 else 0

/-- **`get_node_missed_history`.** -/
def getNodeMissedHistory (h : MissedHistory) (node : String) (now limit : Int) : MissedPage :=
  let lastPush := (h.lastPush.get? node).getD 0
  let recent := h.recent node now
  { lastPush
    currentCycles := missedCycles c now lastPush
    completedCycles := (recent.map (·.missedCycles)).sum
    completedIncidents := recent.length
    lastRecovered := (recent.map (·.recoveredAt)).max?.getD 0
    -- `ORDER BY recovered_at DESC, id DESC`
    events := (recent.reverse.mergeSort fun a b => decide (b.recoveredAt ≤ a.recoveredAt)).take (clamp 20 2000 limit).toNat }

/-- The event that the list of nodes shows: of the largest id. -/
def MissedHistory.missLast (h : MissedHistory) (node : String) (now : Int) : Option MissedEvent := (h.recent node now).getLast?

/-! ## Events in order -/

variable {c}

/-- **An event is a gap of missed cycles.** -/
structure MissedEvent.Valid (c : MissedConfig) (e : MissedEvent) : Prop where
  positive : 0 < e.lastGoodPush
  from_eq : e.missedFrom = e.lastGoodPush + c.statusPushSeconds
  gap_eq : e.gapSeconds = e.recoveredAt - e.lastGoodPush
  cycles_pos : 0 < e.missedCycles
  cycles_le : c.statusPushSeconds * (e.missedCycles + 1) ≤ e.gapSeconds
  lt_cycles : e.gapSeconds < c.statusPushSeconds * (e.missedCycles + 2)

theorem MissedEvent.Valid.lt {e : MissedEvent} (h : e.Valid c) : e.lastGoodPush < e.recoveredAt := by
  have hpos := c.status_pos
  have hcycles := h.cycles_pos
  have hlong : 0 < c.statusPushSeconds * (e.missedCycles + 1) := Int.mul_pos (by omega) (by omega)
  have hgap := h.gap_eq
  have hle := h.cycles_le
  omega

theorem valid_missedEvent {node : String} {previousPush currentPush now : Int}
    (h : 0 < missedCyclesForGap c previousPush currentPush) : (missedEvent c node previousPush currentPush now).Valid c := by
  have hpos := c.status_pos
  unfold missedCyclesForGap at h
  split at h
  · cases h
  · next hgap =>
      -- Cycles were missed, so the maximum with 0 is the quotient itself.
      have hcycles : missedCyclesForGap c previousPush currentPush =
          (currentPush - previousPush - c.statusPushSeconds) / c.statusPushSeconds := by
        rw [missedCyclesForGap, if_neg hgap]
        omega
      have hle := Int.mul_ediv_self_le (x := currentPush - previousPush - c.statusPushSeconds) (k := c.statusPushSeconds)
        (by omega)
      have hlt := Int.lt_mul_ediv_self_add (x := currentPush - previousPush - c.statusPushSeconds)
        (k := c.statusPushSeconds) (by omega)
      refine ⟨?_, rfl, rfl, ?_, ?_, ?_⟩
      · show 0 < previousPush
        omega
      · show 0 < missedCyclesForGap c previousPush currentPush
        omega
      · show _ * (missedCyclesForGap c previousPush currentPush + 1) ≤ currentPush - previousPush
        rw [hcycles, Int.mul_add]
        omega
      · show currentPush - previousPush < _ * (missedCyclesForGap c previousPush currentPush + 2)
        rw [hcycles, Int.mul_add]
        omega

namespace MissedHistory

/-- **The events of a node are disjoint gaps**, in the order of their ids, and no push is later than the last one. -/
structure Kept (c : MissedConfig) (h : MissedHistory) : Prop where
  valid : ∀ e ∈ h.events, e.Valid c
  ordered : h.events.Pairwise fun a b => a.node = b.node → a.recoveredAt ≤ b.lastGoodPush
  known : ∀ e ∈ h.events, ∃ last, h.lastPush.get? e.node = some last ∧ e.recoveredAt ≤ last
  receipted : ∀ r ∈ h.receipts, ∃ last, h.lastPush.get? r.node = some last ∧ r.pushTime ≤ last

variable {h h' : MissedHistory} {node : String} {dataTime now : Int}

theorem kept_empty : Kept c empty := ⟨nofun, List.Pairwise.nil, nofun, nofun⟩

/-- Fewer events and receipts, of nodes that stay. -/
theorem Kept.sublist (hkept : h.Kept c) (hevents : h'.events.Sublist h.events) (hreceipts : h'.receipts.Sublist h.receipts)
    (hlast : ∀ node last, (∃ e ∈ h'.events, e.node = node) ∨ (∃ r ∈ h'.receipts, r.node = node) →
      h.lastPush.get? node = some last → h'.lastPush.get? node = some last) : h'.Kept c where
  valid e he := hkept.valid e (hevents.subset he)
  ordered := hkept.ordered.sublist hevents
  known e he := by
    obtain ⟨last, hget, hle⟩ := hkept.known e (hevents.subset he)
    exact ⟨last, hlast _ _ (.inl ⟨e, he, rfl⟩) hget, hle⟩
  receipted r hr := by
    obtain ⟨last, hget, hle⟩ := hkept.receipted r (hreceipts.subset hr)
    exact ⟨last, hlast _ _ (.inr ⟨r, hr, rfl⟩) hget, hle⟩

/-- The last push of every node after an accepted one. -/
theorem get?_lastPush_upsert (node' : String) :
    (h.lastPush.upsert node dataTime fun old new => max old new).get? node' =
      if node' = node then some (((h.lastPush.get? node).elim dataTime (max · dataTime))) else h.lastPush.get? node' := by
  split
  · next heq => rw [heq, KeyedTable.get?_upsert_self]
  · next hne => exact KeyedTable.get?_upsert_of_ne _ _ _ hne

/-- A last push only grows. -/
theorem le_lastPush_upsert {node' : String} {last : Int} (hget : h.lastPush.get? node' = some last) :
    ∃ last', (h.lastPush.upsert node dataTime fun old new => max old new).get? node' = some last' ∧ last ≤ last' := by
  rw [get?_lastPush_upsert]
  split
  · next heq =>
      rw [← heq, hget]
      exact ⟨_, rfl, le_max_left _ _⟩
  · exact ⟨last, hget, le_refl _⟩

/-- **What a push does**: nothing the second time; else the last push is the latest, and a gap is recorded if cycles were
missed. -/
theorem push_cases (hkept : h.Kept c) (node : String) (dataTime now : Int) :
    h.push c node dataTime now = h ∧ (∃ last, h.lastPush.get? node = some last ∧ dataTime ≤ last) ∨
    ∃ events, h.push c node dataTime now =
        ⟨h.lastPush.upsert node dataTime fun old new => max old new, events, h.receipts ++ [⟨node, dataTime, now⟩]⟩ ∧
      (events = h.events ∧ (∀ last, h.lastPush.get? node = some last → last < dataTime →
          missedCyclesForGap c last dataTime ≤ 0) ∨
        ∃ last, h.lastPush.get? node = some last ∧ last < dataTime ∧ 0 < missedCyclesForGap c last dataTime ∧
          events = h.events ++ [missedEvent c node last dataTime now]) := by
  unfold push
  split
  · next hany =>
      obtain ⟨r, hr, hsame⟩ := List.any_eq_true.mp hany
      simp only [Bool.and_eq_true, decide_eq_true_eq] at hsame
      -- A push with a receipt is no later than the last one.
      obtain ⟨last, hget, hle⟩ := hkept.receipted r hr
      rw [hsame.1] at hget
      rw [hsame.2] at hle
      exact .inl ⟨rfl, last, hget, hle⟩
  · refine .inr ⟨_, rfl, ?_⟩
    split
    · next hlate =>
        obtain ⟨last, hget⟩ : ∃ last, h.lastPush.get? node = some last := by
          cases hget : h.lastPush.get? node with
          | none => exact absurd (by rw [hget]; rfl) hlate.1
          | some last => exact ⟨last, rfl⟩
        have hprevious : (h.lastPush.get? node).getD 0 = last := by rw [hget, Option.getD_some]
        rw [hprevious] at hlate ⊢
        unfold recordRecoveredMissEvent
        split
        · next hnone =>
            refine .inl ⟨rfl, fun last' hget' _ => ?_⟩
            rwa [← Option.some.inj (hget.symm.trans hget')]
        · next hcycles =>
            -- The row is new: what was recorded has ended by the last push.
            have hnew : ¬ (h.events.any fun e => e.node = node && e.lastGoodPush = last && e.recoveredAt = dataTime) = true := by
              intro hany
              obtain ⟨e, he, hsame⟩ := List.any_eq_true.mp hany
              simp only [Bool.and_eq_true, decide_eq_true_eq] at hsame
              obtain ⟨last', hget', hle⟩ := hkept.known e he
              rw [hsame.1.1, hget] at hget'
              obtain rfl := Option.some.inj hget'
              omega
            rw [if_neg hnew]
            exact .inr ⟨last, hget, hlate.2, by omega, rfl⟩
    · next hlate =>
        refine .inl ⟨rfl, fun last hget hlt => ?_⟩
        rw [hget, Option.getD_some] at hlate
        have hzero : last = 0 := by
          by_contra hne
          exact hlate ⟨hne, hlt⟩
        rw [missedCyclesForGap, if_pos (.inl (le_of_eq hzero))]

theorem Kept.push (hkept : h.Kept c) : (h.push c node dataTime now).Kept c := by
  rcases push_cases hkept node dataTime now with ⟨heq, -⟩ | ⟨events, heq, hevents⟩
  · rwa [heq]
  · rw [heq]
    have hreceipted : ∀ r ∈ h.receipts ++ [⟨node, dataTime, now⟩],
        ∃ last, (h.lastPush.upsert node dataTime fun old new => max old new).get? r.node = some last ∧ r.pushTime ≤ last := by
      intro r hr
      rcases List.mem_append.mp hr with hr | hr
      · obtain ⟨last, hget, hle⟩ := hkept.receipted r hr
        obtain ⟨last', hget', hle'⟩ := le_lastPush_upsert hget
        exact ⟨last', hget', hle.trans hle'⟩
      · rw [List.mem_singleton.mp hr, get?_lastPush_upsert, if_pos rfl]
        refine ⟨_, rfl, ?_⟩
        cases h.lastPush.get? node with
        | none => exact le_refl _
        | some last => exact le_max_right _ _
    have hknown : ∀ e ∈ h.events, ∃ last,
        (h.lastPush.upsert node dataTime fun old new => max old new).get? e.node = some last ∧ e.recoveredAt ≤ last := by
      intro e he
      obtain ⟨last, hget, hle⟩ := hkept.known e he
      obtain ⟨last', hget', hle'⟩ := le_lastPush_upsert hget
      exact ⟨last', hget', hle.trans hle'⟩
    rcases hevents with ⟨rfl, -⟩ | ⟨last, hget, hlt, hcycles, rfl⟩
    · exact ⟨hkept.valid, hkept.ordered, hknown, hreceipted⟩
    · refine ⟨fun e he => ?_, List.pairwise_append.mpr ⟨hkept.ordered, List.pairwise_singleton _ _, ?_⟩, fun e he => ?_,
        hreceipted⟩
      · rcases List.mem_append.mp he with he | he
        · exact hkept.valid e he
        · rw [List.mem_singleton.mp he]
          exact valid_missedEvent hcycles
      · intro e he e' he' hnode
        -- What the node had before ended by its last push, where the new gap begins.
        rw [List.mem_singleton.mp he'] at hnode ⊢
        obtain ⟨last', hget', hle⟩ := hkept.known e he
        rw [hnode] at hget'
        rwa [← Option.some.inj (hget.symm.trans hget')] at hle
      · rcases List.mem_append.mp he with he | he
        · exact hknown e he
        · rw [List.mem_singleton.mp he]
          refine ⟨_, by rw [get?_lastPush_upsert]; exact if_pos rfl, ?_⟩
          rw [hget]
          exact le_max_right _ _

/-- **Every step keeps the history.** -/
theorem Kept.step {step : MissedStep} (hkept : h.Kept c) (hs : (missedSystem c).step h step = some h') : h'.Kept c := by
  cases step with
  | push node dataTime now =>
      obtain rfl := Option.some.inj hs
      exact hkept.push
  | deleteEvents cutoff =>
      obtain rfl := Option.some.inj hs
      exact hkept.sublist List.filter_sublist (.refl _) fun _ _ _ hget => hget
  | deleteReceipts cutoff =>
      obtain rfl := Option.some.inj hs
      exact hkept.sublist (.refl _) List.filter_sublist fun _ _ _ hget => hget
  | purgeNode removed =>
      obtain rfl := Option.some.inj hs
      refine hkept.sublist List.filter_sublist List.filter_sublist fun node last hleft hget => ?_
      -- What is left is of other nodes, and their last push stays.
      have hne : node ≠ removed := by
        rcases hleft with ⟨e, he, rfl⟩ | ⟨r, hr, rfl⟩
        · simpa using (List.mem_filter.mp he).2
        · simpa using (List.mem_filter.mp hr).2
      show (h.lastPush.deleteWhere _).get? node = some last
      rw [KeyedTable.get?_deleteWhere, if_neg (by simpa using hne), hget]
  | clearMonitoringData =>
      obtain rfl := Option.some.inj hs
      exact hkept.sublist (List.nil_sublist _) (List.nil_sublist _) fun _ _ _ hget => hget
  | resetAppData =>
      obtain rfl := Option.some.inj hs
      exact kept_empty

theorem Kept.of_reachable (hreach : System.Reachable (missedSystem c) System.AnyStep h) : h.Kept c :=
  hreach.invariant (fun _ hinit => hinit ▸ kept_empty) fun _ _ _ _ hkept _ hs => hkept.step hs

/-! ## Nothing is counted twice -/

/-- The shown events of a node, in the order of their ids. -/
theorem Kept.recent (hkept : h.Kept c) (node : String) (now : Int) :
    (h.recent node now).Pairwise (fun a b => a.recoveredAt ≤ b.lastGoodPush) ∧ ∀ e ∈ h.recent node now, e ∈ h.events ∧ e.node = node := by
  have hmem : ∀ e ∈ h.recent node now, e ∈ h.events ∧ e.node = node := by
    intro e he
    obtain ⟨he, -⟩ := List.mem_filter.mp he
    obtain ⟨he, hnode⟩ := List.mem_filter.mp he
    exact ⟨he, of_decide_eq_true hnode⟩
  have hordered := (hkept.ordered.filter fun e => decide (e.node = node)).filter fun e => decide (now - 86400 ≤ e.recoveredAt)
  refine ⟨hordered.imp_of_mem fun {a b} ha hb hle => hle ?_, hmem⟩
  rw [(hmem a ha).2, (hmem b hb).2]

/-- Ids and times of recovery are in one order. -/
theorem Kept.recent_lt (hkept : h.Kept c) (node : String) (now : Int) :
    (h.recent node now).Pairwise fun a b => a.recoveredAt < b.recoveredAt := by
  obtain ⟨hordered, hmem⟩ := hkept.recent node now
  refine hordered.imp_of_mem fun {a b} _ hb hle => ?_
  exact lt_of_le_of_lt hle (hkept.valid b (hmem b hb).1).lt

theorem Kept.missLast (hkept : h.Kept c) (node : String) (now : Int) :
    (h.missLast node now).map (·.recoveredAt) = ((h.recent node now).map (·.recoveredAt)).max? := by
  have hlt := hkept.recent_lt node now
  unfold MissedHistory.missLast
  rcases List.eq_nil_or_concat (h.recent node now) with hnil | ⟨before, last, hconcat⟩
  · rw [hnil]
    rfl
  · rw [hconcat, List.concat_eq_append] at hlt ⊢
    rw [List.getLast?_append_of_ne_nil _ (List.cons_ne_nil _ _)]
    refine (List.max?_eq_some_iff.mpr ⟨?_, fun at' hat => ?_⟩).symm
    · simp
    · obtain ⟨e, he, rfl⟩ := List.mem_map.mp hat
      rcases List.mem_append.mp he with he | he
      · exact le_of_lt ((List.pairwise_append.mp hlt).2.2 e he last (List.mem_singleton.mpr rfl))
      · exact le_of_eq (congrArg (·.recoveredAt) (List.mem_singleton.mp he))

/-- The latest event comes first on the page. -/
theorem Kept.page_events (hkept : h.Kept c) (node : String) (now limit : Int) :
    (getNodeMissedHistory c h node now limit).events = (h.recent node now).reverse.take (clamp 20 2000 limit).toNat := by
  show List.take _ (List.mergeSort _ _) = _
  rw [List.mergeSort_of_pairwise]
  rw [List.pairwise_reverse]
  exact (hkept.recent_lt node now).imp fun hlt => decide_eq_true (le_of_lt hlt)

theorem sum_cycles (p : Int) (events : List MissedEvent) :
    (events.map fun e => p * (e.missedCycles + 1)).sum = p * ((events.map (·.missedCycles)).sum + events.length) := by
  induction events with
  | nil => exact (Int.mul_zero p).symm
  | cons e rest ih =>
      rw [List.map_cons, List.sum_cons, ih, List.map_cons, List.sum_cons, List.length_cons, ← Int.mul_add]
      congr 1
      push_cast
      omega

theorem missedCycles_le (now lastPush : Int) :
    c.cacheBucketSeconds * missedCycles c now lastPush ≤ max now lastPush - lastPush := by
  have hpos := c.bucket_pos
  have hle := Int.mul_ediv_self_le (x := now - lastPush - c.cacheBucketSeconds) (k := c.cacheBucketSeconds) (by omega)
  unfold missedCycles
  split
  · rw [Int.mul_zero]
    omega
  · rcases le_total ((now - lastPush - c.cacheBucketSeconds) / c.cacheBucketSeconds) 0 with hnone | hsome
    · rw [max_eq_left hnone, Int.mul_zero]
      omega
    · rw [max_eq_right hsome]
      omega

/-- **The cycles of a page fit in the time that has passed.** -/
theorem Kept.page_total (hkept : h.Kept c) {node : String} {now limit since last : Int} (hlast : h.lastPush.get? node = some last)
    (hsince : ∀ e ∈ h.recent node now, since ≤ e.lastGoodPush) (hle : since ≤ last) :
    c.statusPushSeconds * ((getNodeMissedHistory c h node now limit).completedCycles +
        (getNodeMissedHistory c h node now limit).completedIncidents) +
      c.cacheBucketSeconds * (getNodeMissedHistory c h node now limit).currentCycles ≤ max now last - since := by
  obtain ⟨hordered, hmem⟩ := hkept.recent node now
  have hrecovered : ∀ e ∈ h.recent node now, e.recoveredAt ≤ last := by
    intro e he
    obtain ⟨last', hget, hle⟩ := hkept.known e (hmem e he).1
    rw [(hmem e he).2, hlast] at hget
    rwa [Option.some.inj hget]
  have hcompleted : ((h.recent node now).map fun e => c.statusPushSeconds * (e.missedCycles + 1)).sum ≤ last - since :=
    sum_length_le (fun e he => by
      have hvalid := hkept.valid e (hmem e he).1
      rw [← hvalid.gap_eq]
      exact hvalid.cycles_le) hordered hle hsince hrecovered
  rw [sum_cycles] at hcompleted
  have hcurrent := missedCycles_le (c := c) now last
  show _ * (((h.recent node now).map (·.missedCycles)).sum + ((h.recent node now).length : Int)) +
    _ * missedCycles c now ((h.lastPush.get? node).getD 0) ≤ _
  rw [hlast, Option.getD_some]
  omega

end MissedHistory

/-- **The history of missed cycles counts nothing twice**: whatever pushes come, however late or often, and whatever is deleted
between, every event is a gap of whole cycles; the page shows the latest event first, and the list of nodes shows it too; and the
cycles that a node has missed, with one push for each outage, fit in the time since the first of them. -/
theorem missed_history_sound {h : MissedHistory} (hreach : System.Reachable (missedSystem c) System.AnyStep h) (node : String)
    (now limit : Int) :
    (∀ e ∈ h.events, e.Valid c) ∧
      (getNodeMissedHistory c h node now limit).events = (h.recent node now).reverse.take (clamp 20 2000 limit).toNat ∧
      ((h.missLast node now).map (·.recoveredAt)).getD 0 = (getNodeMissedHistory c h node now limit).lastRecovered ∧
      ∀ last since, h.lastPush.get? node = some last → since ≤ last → (∀ e ∈ h.recent node now, since ≤ e.lastGoodPush) →
        c.statusPushSeconds * ((getNodeMissedHistory c h node now limit).completedCycles +
            (getNodeMissedHistory c h node now limit).completedIncidents) +
          c.cacheBucketSeconds * (getNodeMissedHistory c h node now limit).currentCycles ≤ max now last - since := by
  have hkept := MissedHistory.Kept.of_reachable hreach
  refine ⟨hkept.valid, hkept.page_events node now limit, ?_, fun last since hlast hle hsince => ?_⟩
  · rw [hkept.missLast]
    rfl
  · exact hkept.page_total hlast hsince hle

/-! ## The gaps between the records -/

/-- Pushes and prunings of receipts, which delete no event. -/
def MissedStep.keepsEvents : MissedStep → Bool
  | .push _ _ _ | .deleteReceipts _ => true
  | _ => false

/-- The times that a node pushes, as they come in. -/
def pushTimes (node : String) (run : List MissedStep) : List Int :=
  run.filterMap fun
    | .push n dataTime _ => if n = node then some dataTime else none
    | _ => none

def MissedEvent.span (e : MissedEvent) : Int × Int := (e.lastGoodPush, e.recoveredAt)

/-- From each record of the times to the next one, after the last push if there is one. -/
def gapsFrom : Option Int → List Int → List (Int × Int)
  | some last, times => stepsFrom last (records last times)
  | none, [] => []
  | none, first :: rest => stepsFrom first (records first rest)

/-- Whether cycles are missed in a gap. -/
def isOutage (c : MissedConfig) (gap : Int × Int) : Bool := 0 < missedCyclesForGap c gap.1 gap.2

namespace MissedHistory

variable {h h' : MissedHistory} {node : String} {dataTime now : Int}

/-- **One push of a node** is one gap, or none. -/
theorem push_gaps (hkept : h.Kept c) (node : String) (dataTime now : Int) (rest : List Int) :
    ∃ gaps, gapsFrom (h.lastPush.get? node) (dataTime :: rest) =
        gaps ++ gapsFrom ((h.push c node dataTime now).lastPush.get? node) rest ∧
      ((h.push c node dataTime now).eventsOf node).map MissedEvent.span =
        (h.eventsOf node).map MissedEvent.span ++ gaps.filter (isOutage c) := by
  have hlate : ∀ last, h.lastPush.get? node = some last → dataTime ≤ last →
      gapsFrom (h.lastPush.get? node) (dataTime :: rest) = gapsFrom (some last) rest := by
    intro last hget hle
    rw [hget, gapsFrom, gapsFrom, records_cons_of_le hle]
  rcases push_cases hkept node dataTime now with ⟨heq, last, hget, hle⟩ | ⟨events, heq, hevents⟩
  · refine ⟨[], ?_, ?_⟩
    · rw [heq, hlate last hget hle, hget, List.nil_append]
    · rw [heq, List.filter_nil, List.append_nil]
  · rw [heq]
    show ∃ gaps, _ = gaps ++ gapsFrom ((h.lastPush.upsert node dataTime fun old new => max old new).get? node) rest ∧
      (events.filter (·.node = node)).map MissedEvent.span = _
    rw [get?_lastPush_upsert, if_pos rfl]
    cases hget : h.lastPush.get? node with
    | none =>
        rcases hevents with ⟨rfl, -⟩ | ⟨last, hget', -⟩
        · exact ⟨[], rfl, by rw [List.filter_nil, List.append_nil]; rfl⟩
        · cases hget.symm.trans hget'
    | some last =>
        rcases le_or_gt dataTime last with hle | hlt
        · refine ⟨[], ?_, ?_⟩
          · rw [gapsFrom, records_cons_of_le hle, Option.elim_some, max_eq_left hle]
            rfl
          · rcases hevents with ⟨rfl, -⟩ | ⟨last', hget', hlt, -⟩
            · rw [List.filter_nil, List.append_nil]
              rfl
            · obtain rfl := Option.some.inj (hget.symm.trans hget')
              omega
        · refine ⟨[(last, dataTime)], ?_, ?_⟩
          · rw [gapsFrom, records_cons_of_lt hlt, Option.elim_some, max_eq_right hlt.le]
            rfl
          · rcases hevents with ⟨rfl, hnone⟩ | ⟨last', hget', -, hcycles, rfl⟩
            · have hno : isOutage c (last, dataTime) = false := decide_eq_false (not_lt.mpr (hnone last hget hlt))
              rw [List.filter_cons_of_neg (by simp [hno]), List.filter_nil, List.append_nil]
              rfl
            · obtain rfl := Option.some.inj (hget.symm.trans hget')
              have hyes : isOutage c (last, dataTime) = true := decide_eq_true hcycles
              have hnode : [missedEvent c node last dataTime now].filter (fun e => decide (e.node = node)) =
                  [missedEvent c node last dataTime now] := by simp [missedEvent]
              rw [List.filter_append, List.map_append, hnode, List.filter_cons_of_pos hyes, List.filter_nil]
              rfl

/-- A push of another node. -/
theorem push_of_ne (hkept : h.Kept c) {node' : String} (hne : node' ≠ node) (dataTime now : Int) :
    (h.push c node dataTime now).lastPush.get? node' = h.lastPush.get? node' ∧
      (h.push c node dataTime now).eventsOf node' = h.eventsOf node' := by
  rcases push_cases hkept node dataTime now with ⟨heq, -⟩ | ⟨events, heq, hevents⟩
  · rw [heq]
    exact ⟨rfl, rfl⟩
  · rw [heq]
    refine ⟨by rw [get?_lastPush_upsert, if_neg hne], ?_⟩
    rcases hevents with ⟨rfl, -⟩ | ⟨last, -, -, -, rfl⟩
    · rfl
    · show (h.events ++ [missedEvent c node last dataTime now]).filter _ = h.events.filter _
      have hother : [missedEvent c node last dataTime now].filter (fun e => decide (e.node = node')) = [] := by
        simpa [missedEvent] using hne.symm
      rw [List.filter_append, hother, List.append_nil]

end MissedHistory

/-- **The events of a node are the gaps between the records of its push times**: in any run of pushes and of prunings of
receipts, however the pushes of all nodes are interleaved, come late or again, and whether or not their receipts are there. -/
theorem missed_events_are_gaps {h h' : MissedHistory} (hreach : System.Reachable (missedSystem c) System.AnyStep h)
    {run : List MissedStep} (hkeeps : ∀ step ∈ run, step.keepsEvents = true)
    (hrun : (missedSystem c).exec System.AnyStep h run = some h') (node : String) :
    (h'.eventsOf node).map MissedEvent.span = (h.eventsOf node).map MissedEvent.span ++
      (gapsFrom (h.lastPush.get? node) (pushTimes node run)).filter (isOutage c) := by
  have hkept := MissedHistory.Kept.of_reachable hreach
  clear hreach
  induction run generalizing h with
  | nil =>
      obtain rfl := Option.some.inj hrun
      have hnone : gapsFrom (h.lastPush.get? node) [] = [] := by
        cases h.lastPush.get? node <;> rfl
      rw [pushTimes, List.filterMap_nil, hnone, List.filter_nil, List.append_nil]
  | cons step rest ih =>
      rw [System.exec, if_pos trivial] at hrun
      obtain ⟨mid, hmid, hrest⟩ := Option.bind_eq_some_iff.mp hrun
      have hrest := ih (fun step hstep => hkeeps step (List.mem_cons_of_mem _ hstep)) hrest (hkept.step hmid)
      have hquiet := hkeeps step List.mem_cons_self
      cases step with
      | push n dataTime now =>
          obtain rfl := Option.some.inj hmid
          by_cases hn : n = node
          · subst hn
            obtain ⟨gaps, hgaps, hspans⟩ := MissedHistory.push_gaps hkept n dataTime now (pushTimes n rest)
            have htimes : pushTimes n (.push n dataTime now :: rest) = dataTime :: pushTimes n rest :=
              List.filterMap_cons_some (if_pos rfl)
            rw [htimes, hgaps, hrest, hspans, List.filter_append, List.append_assoc]
          · obtain ⟨hlast, hevents⟩ := MissedHistory.push_of_ne hkept (Ne.symm hn) dataTime now
            have htimes : pushTimes node (.push n dataTime now :: rest) = pushTimes node rest :=
              List.filterMap_cons_none (if_neg hn)
            rw [htimes, hrest, hlast, hevents]
      | deleteReceipts cutoff =>
          obtain rfl := Option.some.inj hmid
          exact hrest
      | deleteEvents | purgeNode | clearMonitoringData | resetAppData => cases hquiet

theorem fiveMinutes_status : (60 : Int) ≤ 300 := by decide

theorem fiveMinutes_bucket : (0 : Int) < 300 := by decide

/-- The settings of an installation. -/
def fiveMinutes : MissedConfig := ⟨300, 300, fiveMinutes_status, fiveMinutes_bucket⟩

/-- A node pushes, comes back after an hour, sends a late push and a repeated one, and another node comes in between. -/
def lateAndAgain : List MissedStep :=
  [.push "n1" 1000000 1000005, .push "n1" 1003600 1003610, .push "n2" 1003700 1003700, .push "n1" 1001200 1003800,
    .deleteReceipts 1003650, .push "n1" 1003600 1003900, .push "n1" 1004400 1004400]

theorem missed_events_late_and_again :
    ∃ h, (missedSystem fiveMinutes).exec System.AnyStep .empty lateAndAgain = some h ∧
      (h.eventsOf "n1").map MissedEvent.span = [(1000000, 1003600), (1003600, 1004400)] := by
  have hruns : ((missedSystem fiveMinutes).exec System.AnyStep .empty lateAndAgain).isSome = true := by decide +kernel
  obtain ⟨h, hrun⟩ := Option.isSome_iff_exists.mp hruns
  exact ⟨h, hrun, (missed_events_are_gaps (.init rfl) (by decide +kernel) hrun "n1").trans (by decide +kernel)⟩

theorem missed_history_late_and_again :
    ∃ h, (missedSystem fiveMinutes).exec System.AnyStep .empty lateAndAgain = some h ∧
      300 * ((getNodeMissedHistory fiveMinutes h "n1" 1005600 500).completedCycles +
          (getNodeMissedHistory fiveMinutes h "n1" 1005600 500).completedIncidents) +
        300 * (getNodeMissedHistory fiveMinutes h "n1" 1005600 500).currentCycles ≤ 5600 := by
  have hruns : ((missedSystem fiveMinutes).exec System.AnyStep .empty lateAndAgain).map (fun h =>
      (h.lastPush.get? "n1", (h.recent "n1" 1005600).all fun e => decide (1000000 ≤ e.lastGoodPush))) =
        some (some 1004400, true) := by
    decide +kernel
  obtain ⟨h, hrun, hfacts⟩ := Option.map_eq_some_iff.mp hruns
  obtain ⟨hlast, hall⟩ := Prod.mk.inj hfacts
  have hsound := missed_history_sound (System.Reachable.exec (.init rfl) hrun) "n1" 1005600 500
  refine ⟨h, hrun, hsound.2.2.2 1004400 1000000 hlast (by decide) fun e he => ?_⟩
  exact of_decide_eq_true (List.all_eq_true.mp hall e he)

end VirtInfra.Inventory
