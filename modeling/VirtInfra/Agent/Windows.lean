import VirtInfra.Agent.Sampler
import Mathlib.Algebra.Group.Pi.Basic
import Mathlib.Algebra.Group.WithOne.Defs

/-!
# `Windows` — windows carried over failed pushes

A cycle merges the window it froze into the one carried from the cycles before, and a payload takes what is carried.
How windows are grouped depends on which pushes fail. As dicts, windows form a commutative monoid under
`merge_network_windows` (`Totals`), so every grouping carries the same (`merging_independent_of_failures`).

Sums of floats are sums of the numbers they stand for, as in `Metrics`.
-/

namespace VirtInfra.Agent

open Lib Python

/-! ## The earliest of two times -/

/-- `min([x for x in (a, b) if x > 0] or [0])`. -/
def earliest {α : Type*} [LinearOrder α] [Zero α] (a b : α) : α := (([a, b].filter fun x => decide (0 < x)).min?).getD 0

section Earliest

variable {α : Type*} [LinearOrder α] [Zero α]

theorem earliest_eq (a b : α) : earliest a b = if 0 < a then if 0 < b then min a b else a else if 0 < b then b else 0 := by
  unfold earliest
  by_cases ha : 0 < a
  · by_cases hb : 0 < b
    · simp [ha, hb, List.min?]
    · simp [ha, hb, List.min?]
  · by_cases hb : 0 < b
    · simp [ha, hb, List.min?]
    · simp [ha, hb]

theorem earliest_comm (a b : α) : earliest a b = earliest b a := by
  rw [earliest_eq, earliest_eq, min_comm]
  split_ifs <;> rfl

theorem earliest_assoc (a b c : α) : earliest (earliest a b) c = earliest a (earliest b c) := by
  simp only [earliest_eq]
  by_cases ha : 0 < a
  · by_cases hb : 0 < b
    · by_cases hc : 0 < c
      · simp [ha, hb, hc, min_assoc]
      · simp [ha, hb, hc]
    · by_cases hc : 0 < c
      · simp [ha, hb, hc]
      · simp [ha, hb, hc]
  · by_cases hb : 0 < b
    · by_cases hc : 0 < c
      · simp [ha, hb, hc]
      · simp [ha, hb, hc]
    · by_cases hc : 0 < c
      · simp [ha, hb, hc]
      · simp [ha, hb, hc]

theorem earliest_nonneg (a b : α) : 0 ≤ earliest a b := by
  rw [earliest_eq]
  split_ifs with ha hb hb
  · exact le_min ha.le hb.le
  · exact ha.le
  · exact hb.le
  · exact le_refl 0

theorem zero_earliest {a : α} (h : 0 ≤ a) : earliest 0 a = a := by
  rw [earliest_eq, if_neg (lt_irrefl _)]
  split_ifs with ha
  · rfl
  · exact le_antisymm h (not_lt.mp ha)

end Earliest

/-! ## Records and their merge -/

theorem zero_nonneg : (0 : ℚ) ≤ 0 := le_refl 0

namespace Record

/-- The sums, maxima and times of `merge_iface_summary`. -/
def merge (dst src : Record) : Record where
  sampled := dst.sampled + src.sampled
  peak rate := max (dst.peak rate) (src.peak rate)
  sampleCount := dst.sampleCount + src.sampleCount
  sampleMaxGapSeconds := max dst.sampleMaxGapSeconds src.sampleMaxGapSeconds
  secondsOver o := dst.secondsOver o + src.secondsOver o
  firstSeen := earliest dst.firstSeen src.firstSeen
  lastSeen := max dst.lastSeen src.lastSeen
  duration := dst.duration + src.duration
  peak_nonneg rate := le_max_of_le_left (dst.peak_nonneg rate)
  gap_nonneg := le_max_of_le_left dst.gap_nonneg
  firstSeen_nonneg := earliest_nonneg _ _
  lastSeen_nonneg := le_max_of_le_left dst.lastSeen_nonneg

/-- The record of an empty dict, whose fields all default to 0. -/
instance : Zero Record := ⟨Record.new ⟨0, zero_nonneg⟩ ⟨0, zero_nonneg⟩⟩

instance : Add Record := ⟨merge⟩

theorem zero_merge (r : Record) : 0 + r = r := by
  apply Record.ext
  · exact zero_add r.sampled
  · funext rate
    exact max_eq_right (r.peak_nonneg rate)
  · exact Nat.zero_add r.sampleCount
  · exact max_eq_right r.gap_nonneg
  · funext o
    exact zero_add (r.secondsOver o)
  · exact zero_earliest r.firstSeen_nonneg
  · exact max_eq_right r.lastSeen_nonneg
  · exact zero_add r.duration

theorem merge_comm (a b : Record) : a + b = b + a := by
  apply Record.ext
  · exact add_comm a.sampled b.sampled
  · funext rate
    exact max_comm (a.peak rate) (b.peak rate)
  · exact Nat.add_comm a.sampleCount b.sampleCount
  · exact max_comm a.sampleMaxGapSeconds b.sampleMaxGapSeconds
  · funext o
    exact add_comm (a.secondsOver o) (b.secondsOver o)
  · exact earliest_comm a.firstSeen b.firstSeen
  · exact max_comm a.lastSeen b.lastSeen
  · exact add_comm a.duration b.duration

theorem merge_assoc (a b c : Record) : a + b + c = a + (b + c) := by
  apply Record.ext
  · exact add_assoc a.sampled b.sampled c.sampled
  · funext rate
    exact max_assoc (a.peak rate) (b.peak rate) (c.peak rate)
  · exact Nat.add_assoc a.sampleCount b.sampleCount c.sampleCount
  · exact max_assoc a.sampleMaxGapSeconds b.sampleMaxGapSeconds c.sampleMaxGapSeconds
  · funext o
    exact add_assoc (a.secondsOver o) (b.secondsOver o) (c.secondsOver o)
  · exact earliest_assoc a.firstSeen b.firstSeen c.firstSeen
  · exact max_assoc a.lastSeen b.lastSeen c.lastSeen
  · exact add_assoc a.duration b.duration c.duration

end Record

namespace IfaceSummary

variable {n : Nat}

/-- The quality follows from the other fields. -/
theorem ext_record {a b : IfaceSummary n} (hrecord : a.toRecord = b.toRecord)
    (hexpected : a.sampleExpected = b.sampleExpected) : a = b := by
  apply IfaceSummary.ext
  case sampleQuality => rw [a.quality_eq, b.quality_eq, hrecord, hexpected]
  case sampleExpected => exact hexpected
  all_goals rw [hrecord]

/-- A summary from its record and the expected count. -/
def of (r : Record) (expected : Nat) : IfaceSummary n where
  toRecord := r
  sampleExpected := expected
  sampleQuality := qualityFromCounts n r.sampleCount expected r.sampleMaxGapSeconds
  quality_eq := rfl

/-- **`merge_iface_summary`.** -/
def mergeIfaceSummary (dst src : IfaceSummary n) : IfaceSummary n :=
  .of (dst.toRecord.merge src.toRecord) (dst.sampleExpected + src.sampleExpected)

instance : Zero (IfaceSummary n) := ⟨.of 0 0⟩

instance : Add (IfaceSummary n) := ⟨mergeIfaceSummary⟩

instance : AddCommMonoid (IfaceSummary n) where
  add_assoc a b c := ext_record (Record.merge_assoc _ _ _) (Nat.add_assoc _ _ _)
  zero_add a := ext_record (Record.zero_merge _) (Nat.zero_add _)
  add_zero a := ext_record ((Record.merge_comm _ _).trans (Record.zero_merge _)) (Nat.add_zero _)
  add_comm a b := ext_record (Record.merge_comm _ _) (Nat.add_comm _ _)
  nsmul := nsmulRec

end IfaceSummary

/-! ## Windows -/

namespace Window

variable {n : Nat}

/-- The loop of `merge_network_windows` over the interfaces of one window. -/
def mergeIfaces (result source : KeyedTable String (IfaceSummary n)) : KeyedTable String (IfaceSummary n) :=
  source.rows.foldl (fun t row => t.upsert row.1 (0 + row.2) fun old _ => old + row.2) result

/-- **`merge_network_windows`.** -/
def mergeNetworkWindows (left right : Window n) : Window n where
  startedAt := earliest left.startedAt right.startedAt
  endedAt := max left.endedAt right.endedAt
  ifaces := mergeIfaces (mergeIfaces .empty left.ifaces) right.ifaces
  scanCount := left.scanCount + right.scanCount
  scanMaxMs := max left.scanMaxMs right.scanMaxMs
  scanMaxMs_nonneg := le_max_of_le_left left.scanMaxMs_nonneg

end Window

/-- **A window as a dict**: what its fields are, and its summary of each interface, if it has one. -/
@[ext] structure Totals (n : Nat) where
  startedAt : Nat
  endedAt : Nat
  ifaces : String → WithZero (IfaceSummary n)
  scanCount : Nat
  scanMaxMs : ℚ
  scanMaxMs_nonneg : 0 ≤ scanMaxMs

namespace Totals

variable {n : Nat}

instance : Zero (Totals n) := ⟨⟨0, 0, 0, 0, 0, zero_nonneg⟩⟩

instance : Add (Totals n) :=
  ⟨fun a b => ⟨earliest a.startedAt b.startedAt, max a.endedAt b.endedAt, a.ifaces + b.ifaces, a.scanCount + b.scanCount,
    max a.scanMaxMs b.scanMaxMs, le_max_of_le_left a.scanMaxMs_nonneg⟩⟩

theorem zero_plus (a : Totals n) : 0 + a = a := by
  apply Totals.ext
  · exact zero_earliest (Nat.zero_le _)
  · exact Nat.zero_max a.endedAt
  · exact zero_add a.ifaces
  · exact Nat.zero_add a.scanCount
  · exact max_eq_right a.scanMaxMs_nonneg

theorem plus_comm (a b : Totals n) : a + b = b + a := by
  apply Totals.ext
  · exact earliest_comm a.startedAt b.startedAt
  · exact max_comm a.endedAt b.endedAt
  · exact add_comm a.ifaces b.ifaces
  · exact Nat.add_comm a.scanCount b.scanCount
  · exact max_comm a.scanMaxMs b.scanMaxMs

theorem plus_assoc (a b c : Totals n) : a + b + c = a + (b + c) := by
  apply Totals.ext
  · exact earliest_assoc a.startedAt b.startedAt c.startedAt
  · exact max_assoc a.endedAt b.endedAt c.endedAt
  · exact add_assoc a.ifaces b.ifaces c.ifaces
  · exact Nat.add_assoc a.scanCount b.scanCount c.scanCount
  · exact max_assoc a.scanMaxMs b.scanMaxMs c.scanMaxMs

/-- **Windows merge as a commutative monoid.** -/
instance : AddCommMonoid (Totals n) where
  add_assoc := plus_assoc
  zero_add := zero_plus
  add_zero a := (plus_comm a 0).trans (zero_plus a)
  add_comm := plus_comm
  nsmul := nsmulRec

end Totals

/-! ## Merging -/

namespace Window

variable {n : Nat}

/-- What a dict shows of an interface. -/
def lookup (ifaces : KeyedTable String (IfaceSummary n)) (iface : String) : WithZero (IfaceSummary n) :=
  match ifaces.get? iface with
  | some summary => summary
  | none => 0

def totals (w : Window n) : Totals n where
  startedAt := w.startedAt
  endedAt := w.endedAt
  ifaces := lookup w.ifaces
  scanCount := w.scanCount
  scanMaxMs := w.scanMaxMs
  scanMaxMs_nonneg := w.scanMaxMs_nonneg

theorem perKey_mergeIfaces : PerKey Prod.fst (fun iface t => KeyedTable.get? t iface)
    fun (t : KeyedTable String (IfaceSummary n)) (row : String × IfaceSummary n) =>
      t.upsert row.1 (0 + row.2) fun old _ => old + row.2 where
  other row iface t hne := KeyedTable.get?_upsert_of_ne t _ _ hne
  own row t t' heq := by
    rw [KeyedTable.get?_upsert_self, KeyedTable.get?_upsert_self, heq]

/-- **One window's interfaces, merged into a dict.** -/
theorem lookup_mergeIfaces (result source : KeyedTable String (IfaceSummary n)) (iface : String) :
    lookup (mergeIfaces result source) iface = lookup result iface + lookup source iface := by
  unfold lookup mergeIfaces
  have hperKey := perKey_mergeIfaces (n := n)
  cases hrow : source.get? iface with
  | none =>
      have hother := hperKey.foldl_other (s := result) (l := source.rows) (j := iface) (by
        rintro row hrow' rfl
        have hsome := KeyedTable.get?_of_mem_rows hrow'
        rw [hrow] at hsome
        cases hsome)
      dsimp only at hother ⊢
      rw [hother, add_zero]
  | some summary =>
      have hown := hperKey.foldl_own (s := result) source.nodupKeys (KeyedTable.mem_rows_of_get? hrow)
      dsimp only at hown ⊢
      rw [hown, KeyedTable.get?_upsert_self]
      cases result.get? iface with
      | none => simp
      | some old => simp [WithZero.coe_add]

/-- **Merging windows is adding dicts.** -/
theorem totals_merge (left right : Window n) : (mergeNetworkWindows left right).totals = left.totals + right.totals := by
  apply Totals.ext
  case ifaces =>
    funext iface
    show lookup (mergeIfaces (mergeIfaces .empty left.ifaces) right.ifaces) iface =
      lookup left.ifaces iface + lookup right.ifaces iface
    rw [lookup_mergeIfaces, lookup_mergeIfaces]
    exact congrArg (· + lookup right.ifaces iface) (zero_add _)
  all_goals rfl

theorem totals_empty : (emptyNetworkWindow n).totals = 0 := by
  apply Totals.ext
  case ifaces => rfl
  all_goals rfl

/-- All windows merged at once. -/
def mergeAll (windows : List (Window n)) : Window n := windows.foldl mergeNetworkWindows (emptyNetworkWindow n)

theorem totals_mergeAll (windows : List (Window n)) : (mergeAll windows).totals = (windows.map totals).sum := by
  have hfold : ∀ start : Window n, (windows.foldl mergeNetworkWindows start).totals =
      start.totals + (windows.map totals).sum := by
    induction windows with
    | nil => simp
    | cons w rest ih =>
        intro start
        rw [List.foldl_cons, ih, totals_merge, List.map_cons, List.sum_cons, add_assoc]
  unfold mergeAll
  rw [hfold, totals_empty, zero_add]

end Window

/-! ## Groupings -/

/-- A way to merge windows, in any nesting and with empty windows anywhere. -/
inductive Grouping (n : Nat)
  | empty
  | window (w : Window n)
  | merge (left right : Grouping n)

namespace Grouping

variable {n : Nat}

def windows : Grouping n → List (Window n)
  | .empty => []
  | .window w => [w]
  | .merge left right => left.windows ++ right.windows

end Grouping

/-! ## The carried window over a run -/

/-- How a cycle goes: whether the retry of the pending payload is delivered, whether the collection succeeds, and whether
    the new payload is delivered. -/
structure CycleOutcome where
  retried : Bool
  collected : Bool
  delivered : Bool
  deriving DecidableEq, Repr

/-- `runtime`, as far as windows go. `sent` is a ghost: the windows that payloads were hydrated with, in order. -/
structure Carrier (n : Nat) where
  pending : Bool
  carry : Window n
  sent : List (Window n)

inductive CarrierStep (n : Nat)
  | cycle (frozen : Window n) (outcome : CycleOutcome)
  | stop (frozen : Window n)

def CarrierStep.frozen {n : Nat} : CarrierStep n → Window n
  | .cycle frozen _ => frozen
  | .stop frozen => frozen

namespace Carrier

variable {n : Nat}

def init : Carrier n := ⟨false, emptyNetworkWindow n, []⟩

/-- `run_push_cycle`; and a graceful stop, after which the agent starts again from what it saved. -/
def step (c : Carrier n) : CarrierStep n → Carrier n
  | .cycle frozen outcome =>
      let carry := c.carry.mergeNetworkWindows frozen
      if c.pending && !outcome.retried then { c with carry }
      -- the collection raised: nothing is pending, and the carry was saved before
      else if !outcome.collected then { c with pending := false, carry }
      else ⟨!outcome.delivered, emptyNetworkWindow n, c.sent ++ [carry]⟩
  | .stop frozen => { c with carry := c.carry.mergeNetworkWindows frozen }

def run (steps : List (CarrierStep n)) : Carrier n := steps.foldl step init

/-- **The frozen windows are shared out**: consecutive runs of them went into the payloads, and the rest is carried, each
    as if merged all at once. -/
def Shares (c : Carrier n) (frozen : List (Window n)) : Prop :=
  ∃ (parts : List (List (Window n))) (rest : List (Window n)), parts.flatten ++ rest = frozen ∧
    c.sent.map Window.totals = parts.map (fun part => (Window.mergeAll part).totals) ∧
    c.carry.totals = (Window.mergeAll rest).totals

/-- What is frozen next comes to the rest. -/
theorem totals_carry {c : Carrier n} {rest : List (Window n)} (h : c.carry.totals = (Window.mergeAll rest).totals)
    (frozen : Window n) :
    (c.carry.mergeNetworkWindows frozen).totals = (Window.mergeAll (rest ++ [frozen])).totals := by
  rw [Window.totals_merge, h, Window.totals_mergeAll, Window.totals_mergeAll]
  simp

theorem Shares.step {c : Carrier n} {frozen : List (Window n)} (h : c.Shares frozen) (s : CarrierStep n) :
    (c.step s).Shares (frozen ++ [s.frozen]) := by
  obtain ⟨parts, rest, hparts, hsent, hcarry⟩ := h
  have hkept : parts.flatten ++ (rest ++ [s.frozen]) = frozen ++ [s.frozen] := by
    rw [← List.append_assoc, hparts]
  have hnext := totals_carry hcarry s.frozen
  cases s with
  | stop w => exact ⟨parts, rest ++ [w], hkept, hsent, hnext⟩
  | cycle w outcome =>
      unfold Carrier.step
      dsimp only
      split
      · exact ⟨parts, rest ++ [w], hkept, hsent, hnext⟩
      · split
        · exact ⟨parts, rest ++ [w], hkept, hsent, hnext⟩
        · -- The payload takes all that is carried.
          refine ⟨parts ++ [rest ++ [w]], [], ?_, ?_, ?_⟩
          · simp only [List.flatten_append, List.flatten_singleton, List.append_nil]
            exact hkept
          · simp only [List.map_append, List.map_singleton]
            rw [hsent, show (c.carry.mergeNetworkWindows w).totals = _ from hnext]
            rfl
          · rfl

end Carrier

def Over.ofTimer : Timer → Over
  | .pps => .pps
  | .rxPps => .rxPps
  | .txPps => .txPps

/-- `Metrics` knows of a window what its timers for packet rates say. -/
def NetWindow.Shows (v : NetWindow) (records : String → Option Record) : Prop :=
  ∀ iface timer, (v iface).seconds timer = (records iface).elim 0 fun r => r.secondsOver (.ofTimer timer)

namespace Window

variable {n : Nat}

def record (w : Window n) (iface : String) : Option Record := (w.ifaces.get? iface).map IfaceSummary.toRecord

/-- A timer of what a dict shows. -/
def seconds (o : Over) : WithZero (IfaceSummary n) → ℚ := fun x => Option.elim x 0 fun summary => summary.secondsOver o

theorem seconds_add (o : Over) (x y : WithZero (IfaceSummary n)) : seconds o (x + y) = seconds o x + seconds o y := by
  cases x with
  | zero => rw [zero_add]; exact (zero_add _).symm
  | coe a =>
      cases y with
      | zero => rw [add_zero]; exact (add_zero _).symm
      | coe b => rfl

theorem seconds_lookup (w : Window n) (iface : String) (o : Over) :
    seconds o (w.totals.ifaces iface) = (w.record iface).elim 0 fun r => r.secondsOver o := by
  show seconds o (lookup w.ifaces iface) = _
  unfold lookup record
  cases w.ifaces.get? iface <;> rfl

end Window

/-- **The merge in `Metrics` is this one.** -/
theorem shows_merge {n : Nat} {v v' : NetWindow} {left right : Window n} (hv : v.Shows left.record)
    (hv' : v'.Shows right.record) : (mergeNetworkWindows v v').Shows (left.mergeNetworkWindows right).record := by
  intro iface timer
  rw [← Window.seconds_lookup, Window.totals_merge]
  show (v iface).seconds timer + (v' iface).seconds timer =
    Window.seconds _ (left.totals.ifaces iface + right.totals.ifaces iface)
  rw [Window.seconds_add, Window.seconds_lookup, Window.seconds_lookup, hv iface timer, hv' iface timer]

section Sample

variable {cfg : SamplerConfig} {ppsWarn : ℚ} {look : Look} {s : Sampler} {v : NetWindow} {iface : String}

/-- What `Metrics` sees of a scan. -/
def Interval.scan (i : Interval) : Scan := ⟨i.elapsed, i.deltas.rxPackets, i.deltas.txPackets⟩

/-- The scans of a look, of the interfaces that have a baseline. -/
def Sampler.scans (look : Look) (s : Sampler) : List (String × Scan) :=
  look.counters.rows.filterMap fun row => (look.reading s.knownIfaces row.1).bind fun current =>
    (s.last.get? row.1).map fun previous => (row.1, (previous.interval current).scan)

/-- The interfaces that a look drops. -/
def Sampler.dropped (cfg : SamplerConfig) (look : Look) (s : Sampler) : List String :=
  (s.last.rows.filter fun row => (look.reading s.knownIfaces row.1).isNone && Sampler.isStale cfg look row.2).map Prod.fst

theorem mem_scans {entry : String × Scan} : entry ∈ s.scans look ↔
    ∃ previous current, s.last.get? entry.1 = some previous ∧ look.reading s.knownIfaces entry.1 = some current ∧
      entry.2 = (previous.interval current).scan := by
  unfold Sampler.scans
  rw [List.mem_filterMap]
  constructor
  · rintro ⟨row, -, hentry⟩
    obtain ⟨current, hcurrent, hmap⟩ := Option.bind_eq_some_iff.mp hentry
    obtain ⟨previous, hprevious, rfl⟩ := Option.map_eq_some_iff.mp hmap
    exact ⟨previous, current, hprevious, hcurrent, rfl⟩
  · rintro ⟨previous, current, hprevious, hcurrent, hscan⟩
    have hread := hcurrent
    unfold Look.reading at hread
    split at hread
    · obtain ⟨c, hc, -⟩ := Option.map_eq_some_iff.mp hread
      refine ⟨(entry.1, c), KeyedTable.mem_rows_of_get? hc, ?_⟩
      simp only [hcurrent, hprevious, Option.bind_some, Option.map_some, ← hscan]
    · cases hread

theorem nodup_scans : ((s.scans look).map Prod.fst).Nodup := by
  have hkeys := look.counters.nodupKeys
  unfold Sampler.scans
  unfold List.Nodup at hkeys ⊢
  rw [List.pairwise_map] at hkeys ⊢
  rw [List.pairwise_filterMap]
  refine hkeys.imp ?_
  intro row row' hne entry hentry entry' hentry'
  obtain ⟨current, -, hmap⟩ := Option.bind_eq_some_iff.mp hentry
  obtain ⟨previous, -, rfl⟩ := Option.map_eq_some_iff.mp hmap
  obtain ⟨current', -, hmap'⟩ := Option.bind_eq_some_iff.mp hentry'
  obtain ⟨previous', -, rfl⟩ := Option.map_eq_some_iff.mp hmap'
  exact hne

theorem mem_dropped : iface ∈ s.dropped cfg look ↔
    look.reading s.knownIfaces iface = none ∧ (s.last.get? iface).any (Sampler.isStale cfg look) = true := by
  unfold Sampler.dropped
  simp only [List.mem_map, List.mem_filter, Bool.and_eq_true, Option.isNone_iff_eq_none]
  constructor
  · rintro ⟨row, ⟨hrow, hread, hstale⟩, rfl⟩
    refine ⟨hread, ?_⟩
    rw [KeyedTable.get?_of_mem_rows hrow]
    exact hstale
  · rintro ⟨hread, hany⟩
    obtain ⟨b, hb, hstale⟩ := (Option.any_eq_true _ _).mp hany
    exact ⟨(iface, b), ⟨KeyedTable.mem_rows_of_get? hb, hread, hstale⟩, rfl⟩

theorem perKey_scanIface_metrics (warn : ℚ) : PerKey Prod.fst (fun iface v => v iface) (scanIface warn) where
  other entry iface v hne := by
    unfold scanIface
    rw [if_neg hne]
  own entry v v' heq := by
    unfold scanIface
    rw [if_pos rfl, if_pos rfl, heq]

/-- **The sampler in `Metrics` is this one.** -/
theorem shows_sample (h : v.Shows s.active.get?) :
    (sampleWindow ppsWarn (s.scans look) (s.dropped cfg look) v).Shows (s.sample cfg ppsWarn look).active.get? := by
  intro iface timer
  have hview := congrArg (fun view => view.2.1) (view_sample cfg ppsWarn look iface s)
  dsimp only [Sampler.view] at hview
  rw [hview]
  have hperKey := perKey_scanIface_metrics ppsWarn
  unfold sampleWindow
  cases hread : look.reading s.knownIfaces iface with
  | none =>
      have hother : (s.scans look).foldl (scanIface ppsWarn) v iface = v iface := by
        refine hperKey.foldl_other (s := v) (j := iface) ?_
        rintro entry hentry rfl
        obtain ⟨-, current, -, hcurrent, -⟩ := mem_scans.mp hentry
        rw [hread] at hcurrent
        cases hcurrent
      by_cases hstale : (s.last.get? iface).any (Sampler.isStale cfg look) = true
      · have hmem := mem_dropped.mpr ⟨hread, hstale⟩
        simp [hmem, hstale, Summary.empty]
      · have hmem : iface ∉ s.dropped cfg look := fun hmem => hstale (mem_dropped.mp hmem).2
        simp only [List.contains_iff_mem, hmem, if_false, hstale, hother]
        exact h iface timer
  | some current =>
      have hmem : iface ∉ s.dropped cfg look := by
        intro hmem
        have hnone := (mem_dropped.mp hmem).1
        rw [hread] at hnone
        cases hnone
      simp only [List.contains_iff_mem, hmem, if_false]
      cases hlast : s.last.get? iface with
      | none =>
          have hother : (s.scans look).foldl (scanIface ppsWarn) v iface = v iface := by
            refine hperKey.foldl_other (s := v) (j := iface) ?_
            rintro entry hentry rfl
            obtain ⟨previous, -, hprevious, -⟩ := mem_scans.mp hentry
            rw [hlast] at hprevious
            cases hprevious
          rw [hother]
          exact h iface timer
      | some previous =>
          have hentry : (iface, (previous.interval current).scan) ∈ s.scans look :=
            mem_scans.mpr ⟨previous, current, hlast, hread, rfl⟩
          have hown := hperKey.foldl_own (s := v) nodup_scans hentry
          dsimp only at hown
          rw [hown]
          unfold scanIface recordAfter Summary.record
          dsimp only
          rw [if_pos rfl]
          by_cases hgap : (previous.interval current).elapsed ≥ 1
          · have hgap' : (previous.interval current).scan.elapsed ≥ 1 := hgap
            rw [if_pos hgap, if_pos hgap']
            dsimp only
            rw [h iface timer]
            unfold Baseline.record
            cases s.active.get? iface <;> cases timer <;> rfl
          · have hgap' : ¬ (previous.interval current).scan.elapsed ≥ 1 := hgap
            rw [if_neg hgap, if_neg hgap']
            exact h iface timer

end Sample

end VirtInfra.Agent
