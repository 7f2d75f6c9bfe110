import VirtInfra.Agent.Chain
import VirtInfra.Lib.PerKey
import VirtInfra.Lib.RowLocks
import Mathlib.Algebra.Order.Field.Rat
import Mathlib.Algebra.Group.Prod

/-!
# `Sampler` — what the windows of the network sampler add up to

Between two pushes the sampler scans `/proc/net/dev` every few seconds and keeps, per interface, one record of the open
window: sums of the counter differences, peaks of the rates, timers. `rotate` freezes the records and starts over.

Each scan becomes the baseline of the next one, also a scan that is ignored because it came less than a second after
the one before: what the counters moved in between is then in no window (`forced_sample_lost`). In a run without such a
scan, and without an interface that goes stale before its record is frozen or returns after, all windows together carry
exactly what the counters moved from the first scan to the last (`sampler_conserves`).
-/

namespace VirtInfra.Agent

open Lib Python

/-! ## One interval between two scans -/

/-- The rates that a record keeps the peaks of. -/
inductive Rate | rxMbps | txMbps | totalMbps | rxPps | txPps | totalPps
  deriving DecidableEq, Repr

/-- The timers of a record: `seconds_over_pps`, `seconds_over_mbps`, `seconds_over_rx_pps`, … -/
inductive Over | pps | mbps | rxPps | txPps | rxMbps | txMbps
  deriving DecidableEq, Repr

structure Interval where
  elapsed : ℚ
  deltas : Counters
  deriving DecidableEq

namespace Interval

variable (i : Interval)

def rxMbps : ℚ := i.deltas.rx * 8 / i.elapsed / 1000000
def txMbps : ℚ := i.deltas.tx * 8 / i.elapsed / 1000000
def rxPps : ℚ := i.deltas.rxPackets / i.elapsed
def txPps : ℚ := i.deltas.txPackets / i.elapsed

def rate : Rate → ℚ
  | .rxMbps => i.rxMbps
  | .txMbps => i.txMbps
  | .totalMbps => i.rxMbps + i.txMbps
  | .rxPps => i.rxPps
  | .txPps => i.txPps
  | .totalPps => i.rxPps + i.txPps

/-- The rate that a timer watches. -/
def watched : Over → ℚ
  | .pps => max i.rxPps i.txPps
  | .mbps => max i.rxMbps i.txMbps
  | .rxPps => i.rxPps
  | .txPps => i.txPps
  | .rxMbps => i.rxMbps
  | .txMbps => i.txMbps

end Interval

/-- `PPS_WARN` and `MBPS_WARN`. -/
structure Thresholds where
  pps : ℚ
  mbps : ℚ

def Thresholds.of (t : Thresholds) : Over → ℚ
  | .pps | .rxPps | .txPps => t.pps
  | .mbps | .rxMbps | .txMbps => t.mbps

/-! ## Records -/

/-- The record of an interface in the open window. `duration` is a ghost: the length of the intervals added up, which
    the sampler does not keep. -/
@[ext] structure Record where
  sampled : Counters
  peak : Rate → ℚ
  sampleCount : Nat
  sampleMaxGapSeconds : ℚ
  secondsOver : Over → ℚ
  firstSeen : ℚ
  lastSeen : ℚ
  duration : ℚ
  peak_nonneg : ∀ rate, 0 ≤ peak rate
  gap_nonneg : 0 ≤ sampleMaxGapSeconds
  firstSeen_nonneg : 0 ≤ firstSeen
  lastSeen_nonneg : 0 ≤ lastSeen

/-- The times of the wall clock, in seconds since the epoch. -/
abbrev Wall := { time : ℚ // 0 ≤ time }

/-- The record that `setdefault` puts in. -/
def Record.new (firstSeen lastSeen : Wall) : Record where
  sampled := 0
  peak _ := 0
  sampleCount := 0
  sampleMaxGapSeconds := 0
  secondsOver _ := 0
  firstSeen := firstSeen
  lastSeen := lastSeen
  duration := 0
  peak_nonneg _ := le_refl 0
  gap_nonneg := le_refl 0
  firstSeen_nonneg := firstSeen.2
  lastSeen_nonneg := lastSeen.2

/-- One interval added. -/
def Record.add (t : Thresholds) (i : Interval) (nowWall : Wall) (r : Record) : Record where
  sampled := r.sampled + i.deltas
  peak rate := max (r.peak rate) (i.rate rate)
  sampleCount := r.sampleCount + 1
  sampleMaxGapSeconds := max r.sampleMaxGapSeconds i.elapsed
  secondsOver o := r.secondsOver o + if i.watched o ≥ t.of o ∧ t.of o > 0 then i.elapsed else 0
  firstSeen := r.firstSeen
  lastSeen := nowWall
  duration := r.duration + i.elapsed
  peak_nonneg rate := le_max_of_le_left (r.peak_nonneg rate)
  gap_nonneg := le_max_of_le_left r.gap_nonneg
  firstSeen_nonneg := r.firstSeen_nonneg
  lastSeen_nonneg := nowWall.2

/-! ## The sampler -/

/-- `SAMPLE_SECONDS`, `STALE_IFACE_SECONDS` and `MBPS_WARN`. -/
structure SamplerConfig where
  sampleSeconds : Nat := 15
  staleIfaceSeconds : Nat := 600
  mbpsWarn : ℚ := 800
  five_le_sample : 5 ≤ sampleSeconds := by decide
  le_stale : 120 ≤ staleIfaceSeconds := by decide
  warn_nonneg : 0 ≤ mbpsWarn := by decide

/-- An entry of `last`: the counters of a scan, with its times. -/
structure Baseline where
  counters : Counters
  mono : ℚ
  wall : Wall
  lastSeenMono : ℚ
  deriving DecidableEq

structure Sampler where
  last : KeyedTable String Baseline
  active : KeyedTable String Record
  knownIfaces : List String
  windowStartedMono : ℚ
  windowStartedWall : Nat
  scanCount : Nat
  scanMaxMs : ℚ
  scanMaxMs_nonneg : 0 ≤ scanMaxMs

/-- `is_vm_iface_name`; `isdigit` on ASCII. -/
def isVmIfaceName (iface : String) : Bool :=
  let lowered := (lower iface).toList
  (!lowered.isEmpty && lowered.all Char.isDigit) ||
    ["vnet", "tap", "tun", "fwln", "fwpr", "qvb", "qvo", "qbr"].any fun p => p.toList.isPrefixOf lowered

def candidate (knownIfaces : List String) (iface : String) : Bool := knownIfaces.contains iface || isVmIfaceName iface

/-- What one call of `sample` reads: both clocks, the interfaces of `/proc/net/dev`, and how long it took. -/
structure Look where
  nowMono : ℚ
  nowWall : Wall
  counters : KeyedTable String Counters
  scanMs : ℚ

def Look.baseline (look : Look) (current : Counters) : Baseline := ⟨current, look.nowMono, look.nowWall, look.nowMono⟩

/-- The interval from a baseline to a later one. -/
def Baseline.interval (previous current : Baseline) : Interval :=
  ⟨current.mono - previous.mono, Counters.zipWith deltaCounter current.counters previous.counters⟩

/-- The record after a scan that has a baseline. -/
def Baseline.record (t : Thresholds) (previous current : Baseline) (r : Option Record) : Record :=
  (r.getD (Record.new previous.wall current.wall)).add t (previous.interval current) current.wall

namespace Sampler

/-- The loop of `sample`, on one interface. -/
def scanIface (t : Thresholds) (look : Look) (s : Sampler) (entry : String × Counters) : Sampler :=
  if candidate s.knownIfaces entry.1 then
    let current := look.baseline entry.2
    let active := match s.last.get? entry.1 with
      | some previous =>
          -- "Ignore an accidental near-simultaneous force sample."
          if (previous.interval current).elapsed ≥ 1 then
            s.active.put entry.1 (previous.record t current (s.active.get? entry.1))
          else s.active
      | none => s.active
    { s with active, last := s.last.put entry.1 current }
  else s

/-- `stale`. -/
def isStale (cfg : SamplerConfig) (look : Look) (b : Baseline) : Bool :=
  decide (look.nowMono - b.lastSeenMono > cfg.staleIfaceSeconds)

/-- **`sample`**, when the read succeeds. -/
def sample (cfg : SamplerConfig) (ppsWarn : ℚ) (look : Look) (s : Sampler) : Sampler :=
  let s := look.counters.rows.foldl (scanIface ⟨ppsWarn, cfg.mbpsWarn⟩ look) { s with scanCount := s.scanCount + 1 }
  { s with
    last := s.last.deleteRows fun _ b => isStale cfg look b
    active := s.active.deleteWhere fun iface => (s.last.get? iface).any (isStale cfg look)
    scanMaxMs := max s.scanMaxMs look.scanMs
    scanMaxMs_nonneg := le_max_of_le_left s.scanMaxMs_nonneg }

end Sampler

/-! ## Rotation -/

inductive Quality | noData | good | degraded | poor
  deriving DecidableEq, Repr

/-- `quality_from_counts`. -/
def qualityFromCounts (sampleSeconds actual expected : Nat) (maxGap : ℚ) : Quality :=
  if actual = 0 ∨ expected = 0 then .noData
  else if (actual : ℚ) / expected ≥ 9 / 10 ∧ max 0 maxGap ≤ sampleSeconds * (7 / 4) then .good
  else if (actual : ℚ) / expected ≥ 7 / 10 ∧ max 0 maxGap ≤ sampleSeconds * 3 then .degraded
  else .poor

/-- The record of an interface in a frozen window; its quality is the one of its counts. -/
@[ext] structure IfaceSummary (sampleSeconds : Nat) extends Record where
  sampleExpected : Nat
  sampleQuality : Quality
  quality_eq : sampleQuality = qualityFromCounts sampleSeconds sampleCount sampleExpected sampleMaxGapSeconds

structure Window (sampleSeconds : Nat) where
  startedAt : Nat
  endedAt : Nat
  ifaces : KeyedTable String (IfaceSummary sampleSeconds)
  scanCount : Nat
  scanMaxMs : ℚ
  scanMaxMs_nonneg : 0 ≤ scanMaxMs

/-- `empty_network_window()`. -/
def emptyNetworkWindow (sampleSeconds : Nat) : Window sampleSeconds := ⟨0, 0, .empty, 0, 0, le_refl 0⟩

theorem round3_nonneg {x : ℚ} (h : 0 ≤ x) : 0 ≤ round3 x := by
  have hfloor : 0 ≤ ⌊x * 1000⌋ := Int.floor_nonneg.mpr (by linarith)
  have hround : 0 ≤ pyRound (x * 1000) := by
    unfold pyRound
    dsimp only
    split
    · exact hfloor
    · split
      · omega
      · split <;> omega
  unfold round3
  have hcast : (0 : ℚ) ≤ (pyRound (x * 1000) : ℚ) := by exact_mod_cast hround
  linarith

namespace Sampler

/-- How many samples a window should have of an interface. -/
def expected (cfg : SamplerConfig) (nowMono : ℚ) (nowWall : Nat) (s : Sampler) (r : Record) : Nat :=
  let firstMono := max s.windowStartedMono (nowMono - max 0 (nowWall - r.firstSeen))
  let effective := max 0 (nowMono - firstMono)
  if effective ≥ 1 then max 1 (pyRound (effective / cfg.sampleSeconds)).toNat else 1

def freeze (cfg : SamplerConfig) (nowMono : ℚ) (nowWall : Nat) (s : Sampler) : Window cfg.sampleSeconds where
  startedAt := s.windowStartedWall
  endedAt := nowWall
  ifaces := s.active.mapRows fun _ r =>
    let expected := s.expected cfg nowMono nowWall r
    { r with
      sampleExpected := expected
      sampleQuality := qualityFromCounts cfg.sampleSeconds r.sampleCount expected r.sampleMaxGapSeconds
      quality_eq := rfl }
  scanCount := s.scanCount
  scanMaxMs := round3 s.scanMaxMs
  scanMaxMs_nonneg := round3_nonneg s.scanMaxMs_nonneg

/-- **`rotate`**: the frozen window and the sampler after it. `look` is `none` when `/proc/net/dev` cannot be read. -/
def rotate (cfg : SamplerConfig) (ppsWarn : ℚ) (look : Option Look) (nowMono : ℚ) (nowWall : Nat) (s : Sampler) :
    Window cfg.sampleSeconds × Sampler :=
  let s := look.elim s fun look => s.sample cfg ppsWarn look
  (s.freeze cfg nowMono nowWall,
    { s with
      active := .empty, windowStartedMono := nowMono, windowStartedWall := nowWall, scanCount := 0, scanMaxMs := 0,
      scanMaxMs_nonneg := le_refl 0 })

end Sampler

/-! ## Runs -/

/-- A sampler with what it was shown and what it handed out. `readings` is a ghost: the scans of each interface so far. -/
structure SamplerRun (cfg : SamplerConfig) where
  sampler : Sampler
  ppsWarn : ℚ
  windows : List (Window cfg.sampleSeconds)
  readings : String → List Baseline

inductive SamplerLabel
  | sample (look : Look)
  | rotate (look : Option Look) (nowMono : ℚ) (nowWall : Nat)
  | updateKnownIfaces (names : List String)
  | applyMonitorConfig (ppsWarn : ℚ)

def SamplerLabel.look : SamplerLabel → Option Look
  | .sample look => some look
  | .rotate look _ _ => look
  | _ => none

/-- The scan of an interface in a look. -/
def Look.reading (look : Look) (knownIfaces : List String) (iface : String) : Option Baseline :=
  if candidate knownIfaces iface then (look.counters.get? iface).map look.baseline else none

namespace SamplerRun

variable {cfg : SamplerConfig}

def note (look : Option Look) (s : SamplerRun cfg) (iface : String) : List Baseline :=
  s.readings iface ++ (look.bind fun look => look.reading s.sampler.knownIfaces iface).toList

def step (s : SamplerRun cfg) : SamplerLabel → Option (SamplerRun cfg)
  | .sample look =>
      some { s with sampler := s.sampler.sample cfg s.ppsWarn look, readings := s.note (some look) }
  | .rotate look nowMono nowWall =>
      let (window, sampler) := s.sampler.rotate cfg s.ppsWarn look nowMono nowWall
      some { s with sampler, windows := s.windows ++ [window], readings := s.note look }
  | .updateKnownIfaces names => some { s with sampler := { s.sampler with knownIfaces := names.filter (· ≠ "") } }
  | .applyMonitorConfig ppsWarn => some { s with ppsWarn := max 0 ppsWarn }

/-- A new sampler. -/
def Fresh (s : SamplerRun cfg) : Prop :=
  s.sampler.last = .empty ∧ s.sampler.active = .empty ∧ s.windows = [] ∧ s.readings = fun _ => []

/-- The records of an interface: of the rotated windows, and of the open one. -/
def records (s : SamplerRun cfg) (iface : String) : List Record :=
  (s.windows.filterMap fun w => (w.ifaces.get? iface).map IfaceSummary.toRecord) ++ (s.sampler.active.get? iface).toList

end SamplerRun

def samplerSystem (cfg : SamplerConfig) : System (SamplerRun cfg) SamplerLabel where
  init := SamplerRun.Fresh
  step := SamplerRun.step

/-! ## Conservation -/

/-- What a rate counts, in its unit. -/
def Rate.amount (c : Counters) : Rate → ℚ
  | .rxMbps => c.rx * 8 / 1000000
  | .txMbps => c.tx * 8 / 1000000
  | .totalMbps => (c.rx + c.tx) * 8 / 1000000
  | .rxPps => c.rxPackets
  | .txPps => c.txPackets
  | .totalPps => c.rxPackets + c.txPackets

/-- The average rate over a window. -/
def Record.average (r : Record) (rate : Rate) : ℚ := rate.amount r.sampled / r.duration

/-- **Conservation, for one interface**: from its first scan to its last, the windows carry what the counters moved, the
    time on the monotonic clock, and the time on the wall clock between `first_seen` and `last_seen`; and no average is
    above its peak. -/
structure Conserved {cfg : SamplerConfig} (s : SamplerRun cfg) (iface : String) : Prop where
  counters : ∀ first ∈ (s.readings iface).head?, ∀ last ∈ (s.readings iface).getLast?,
    ((s.records iface).map Record.sampled).sum + first.counters = last.counters
  duration : ∀ first ∈ (s.readings iface).head?, ∀ last ∈ (s.readings iface).getLast?,
    ((s.records iface).map Record.duration).sum + first.mono = last.mono
  span : ∀ first ∈ (s.readings iface).head?, ∀ last ∈ (s.readings iface).getLast?,
    ((s.records iface).map fun r => r.lastSeen - r.firstSeen).sum + first.wall = last.wall
  peaks : ∀ r ∈ s.records iface, ∀ rate, r.average rate ≤ r.peak rate

/-- No counter falls. -/
def NoReset {cfg : SamplerConfig} (s : SamplerRun cfg) (l : SamplerLabel) : Prop :=
  ∀ look ∈ l.look, ∀ entry ∈ look.counters.rows, ∀ old ∈ (s.readings entry.1).getLast?, old.counters ≤ entry.2

/-- **A scan that loses nothing**: of each interface scanned before, it comes at least one second after the scan before,
    which the sampler still has, or shows the same again; and an interface that goes stale has no record in the open
    window. -/
def Lossless {cfg : SamplerConfig} (s : SamplerRun cfg) (l : SamplerLabel) : Prop :=
  ∀ look ∈ l.look,
    (∀ entry ∈ look.counters.rows, candidate s.sampler.knownIfaces entry.1 = true →
      ∀ old ∈ (s.readings entry.1).getLast?, look.baseline entry.2 = old ∨
        (s.sampler.last.get? entry.1).isSome ∧ look.nowMono - old.mono ≥ 1) ∧
    ∀ row ∈ s.sampler.last.rows, look.reading s.sampler.knownIfaces row.1 = none → Sampler.isStale cfg look row.2 = true →
      s.sampler.active.get? row.1 = none

/-! ## One scan -/

section Scan

variable {cfg : SamplerConfig} {ppsWarn : ℚ} {t : Thresholds} {look : Look} {s : Sampler} {iface : String}

/-- What the sampler has of one interface. -/
def Sampler.view (iface : String) (s : Sampler) : Option Baseline × Option Record × List String :=
  (s.last.get? iface, s.active.get? iface, s.knownIfaces)

/-- The open record after a scan. -/
def recordAfter (t : Thresholds) (previous : Option Baseline) (r : Option Record) (current : Baseline) : Option Record :=
  match previous with
  | some previous => if (previous.interval current).elapsed ≥ 1 then some (previous.record t current r) else r
  | none => r

theorem view_scanIface_self (c : Counters) (h : candidate s.knownIfaces iface = true) :
    (s.scanIface t look (iface, c)).view iface =
      (some (look.baseline c), recordAfter t (s.last.get? iface) (s.active.get? iface) (look.baseline c),
        s.knownIfaces) := by
  unfold Sampler.scanIface Sampler.view recordAfter
  simp only [h, if_true]
  cases s.last.get? iface with
  | none => simp
  | some previous =>
      by_cases hgap : (previous.interval (look.baseline c)).elapsed ≥ 1
      · simp [hgap]
      · simp [hgap]

theorem perKey_scanIface (t : Thresholds) (look : Look) :
    PerKey Prod.fst Sampler.view (Sampler.scanIface t look) where
  other entry iface s hne := by
    unfold Sampler.scanIface Sampler.view
    split
    · dsimp only
      rw [KeyedTable.get?_put, if_neg hne]
      cases s.last.get? entry.1 with
      | none => rfl
      | some previous =>
          dsimp only
          split
          · rw [KeyedTable.get?_put, if_neg hne]
          · rfl
    · rfl
  own entry s s' heq := by
    obtain ⟨hlast, hrest⟩ := Prod.mk.inj heq
    obtain ⟨hactive, hknown⟩ := Prod.mk.inj hrest
    by_cases hcandidate : candidate s.knownIfaces entry.1 = true
    · have hcandidate' : candidate s'.knownIfaces entry.1 = true := hknown ▸ hcandidate
      rw [view_scanIface_self entry.2 hcandidate, view_scanIface_self entry.2 hcandidate', hlast, hactive, hknown]
    · have hcandidate' : ¬ candidate s'.knownIfaces entry.1 = true := hknown ▸ hcandidate
      unfold Sampler.scanIface
      rw [if_neg hcandidate, if_neg hcandidate']
      exact heq

/-- **The loop of `sample`, seen from one interface.** -/
theorem view_scan (t : Thresholds) (look : Look) (iface : String) (s : Sampler) :
    (look.counters.rows.foldl (Sampler.scanIface t look) s).view iface =
    match look.reading s.knownIfaces iface with
    | none => s.view iface
    | some current => (some current, recordAfter t (s.last.get? iface) (s.active.get? iface) current, s.knownIfaces) := by
  have hperKey := perKey_scanIface t look
  unfold Look.reading
  cases hrow : look.counters.get? iface with
  | none =>
      have hother : (look.counters.rows.foldl (Sampler.scanIface t look) s).view iface = s.view iface := by
        apply hperKey.foldl_other
        rintro entry hentry rfl
        have hsome := KeyedTable.get?_of_mem_rows hentry
        rw [hrow] at hsome
        cases hsome
      rw [hother]
      split
      · rfl
      · next h => split at h <;> cases h
  | some c =>
      have hown := hperKey.foldl_own (s := s) look.counters.nodupKeys (KeyedTable.mem_rows_of_get? hrow)
      dsimp only at hown
      rw [hown]
      by_cases hcandidate : candidate s.knownIfaces iface = true
      · rw [view_scanIface_self c hcandidate]
        simp [hcandidate]
      · unfold Sampler.scanIface
        simp [hcandidate]

/-- **`sample`, seen from one interface**: a scanned one gets a new baseline, and another is dropped when it is stale. -/
theorem view_sample (cfg : SamplerConfig) (ppsWarn : ℚ) (look : Look) (iface : String) (s : Sampler) :
    (s.sample cfg ppsWarn look).view iface =
    match look.reading s.knownIfaces iface with
    | none => if (s.last.get? iface).any (Sampler.isStale cfg look) then (none, none, s.knownIfaces) else s.view iface
    | some current =>
        (some current, recordAfter ⟨ppsWarn, cfg.mbpsWarn⟩ (s.last.get? iface) (s.active.get? iface) current,
          s.knownIfaces) := by
  have hscan := view_scan ⟨ppsWarn, cfg.mbpsWarn⟩ look iface { s with scanCount := s.scanCount + 1 }
  unfold Sampler.sample Sampler.view
  dsimp only
  rw [KeyedTable.get?_deleteRows, KeyedTable.get?_deleteWhere]
  unfold Sampler.view at hscan
  dsimp only at hscan
  cases hreading : look.reading s.knownIfaces iface with
  | none =>
      rw [hreading] at hscan
      obtain ⟨hlast, hrest⟩ := Prod.mk.inj hscan
      obtain ⟨hactive, hknown⟩ := Prod.mk.inj hrest
      rw [hlast, hactive, hknown]
      cases s.last.get? iface with
      | none => simp
      | some b => by_cases hstale : Sampler.isStale cfg look b = true <;> simp [hstale, Option.filter]
  | some current =>
      rw [hreading] at hscan
      obtain ⟨hlast, hrest⟩ := Prod.mk.inj hscan
      obtain ⟨hactive, hknown⟩ := Prod.mk.inj hrest
      have hfresh : Sampler.isStale cfg look current = false := by
        unfold Look.reading at hreading
        split at hreading
        · obtain ⟨c, -, rfl⟩ := Option.map_eq_some_iff.mp hreading
          simp [Sampler.isStale, Look.baseline]
        · cases hreading
      rw [hlast, hactive, hknown]
      simp [hfresh, Option.filter]

end Scan

/-! ## Peaks -/

section Peaks

variable {t : Thresholds} {i : Interval} {r : Record}

theorem Rate.amount_add (rate : Rate) (a b : Counters) : rate.amount (a + b) = rate.amount a + rate.amount b := by
  have hrx : (a + b).rx = a.rx + b.rx := rfl
  have htx : (a + b).tx = a.tx + b.tx := rfl
  have hrxPackets : (a + b).rxPackets = a.rxPackets + b.rxPackets := rfl
  have htxPackets : (a + b).txPackets = a.txPackets + b.txPackets := rfl
  cases rate <;> simp only [Rate.amount, hrx, htx, hrxPackets, htxPackets] <;> push_cast <;> ring

/-- A rate is its amount over the time. -/
theorem Interval.rate_mul_elapsed (h : 1 ≤ i.elapsed) (rate : Rate) : i.rate rate * i.elapsed = rate.amount i.deltas := by
  have hne : i.elapsed ≠ 0 := by linarith
  cases rate <;> simp only [Interval.rate, Interval.rxMbps, Interval.txMbps, Interval.rxPps, Interval.txPps, Rate.amount] <;>
    field_simp

/-- What a record has of every rate: not more than its peak at full time. -/
structure Record.Sound (r : Record) : Prop where
  duration : 1 ≤ r.duration
  peaks : ∀ rate, rate.amount r.sampled ≤ r.peak rate * r.duration

theorem Record.Sound.average_le (h : r.Sound) (rate : Rate) : r.average rate ≤ r.peak rate := by
  have hpos : 0 < r.duration := lt_of_lt_of_le one_pos h.duration
  exact (div_le_iff₀ hpos).mpr (h.peaks rate)

/-- **One interval more keeps the peaks above the averages.** -/
theorem Record.add_sound (hi : 1 ≤ i.elapsed) (nowWall : Wall) (hduration : 0 ≤ r.duration)
    (hpeaks : ∀ rate, rate.amount r.sampled ≤ r.peak rate * r.duration) : (r.add t i nowWall).Sound where
  duration := by
    show 1 ≤ r.duration + i.elapsed
    linarith
  peaks rate := by
    show rate.amount (r.sampled + i.deltas) ≤ max (r.peak rate) (i.rate rate) * (r.duration + i.elapsed)
    have helapsed : 0 ≤ i.elapsed := by linarith
    calc rate.amount (r.sampled + i.deltas)
        = rate.amount r.sampled + i.rate rate * i.elapsed := by rw [Rate.amount_add, Interval.rate_mul_elapsed hi]
      _ ≤ r.peak rate * r.duration + i.rate rate * i.elapsed := by
          have := hpeaks rate
          linarith
      _ ≤ max (r.peak rate) (i.rate rate) * r.duration + max (r.peak rate) (i.rate rate) * i.elapsed := by
          gcongr
          · exact le_max_left _ _
          · exact le_max_right _ _
      _ = _ := (mul_add _ _ _).symm

theorem Baseline.record_sound {previous current : Baseline} {old : Option Record} (hold : ∀ r ∈ old, r.Sound)
    (hgap : 1 ≤ (previous.interval current).elapsed) : (previous.record t current old).Sound := by
  unfold Baseline.record
  cases old with
  | none =>
      apply Record.add_sound hgap
      · exact le_refl _
      · intro rate
        cases rate <;> simp [Record.new, Rate.amount, show (0 : Counters).rx = 0 from rfl, show (0 : Counters).tx = 0 from rfl,
          show (0 : Counters).rxPackets = 0 from rfl, show (0 : Counters).txPackets = 0 from rfl]
  | some r =>
      have hr := hold r rfl
      exact Record.add_sound hgap _ (le_trans zero_le_one hr.duration) hr.peaks

end Peaks

/-! ## What the windows add up to -/

/-- Counters and both clocks, of a scan. -/
def Baseline.position (b : Baseline) : Counters × ℚ × ℚ := (b.counters, b.mono, b.wall.val)

/-- … and over a record. -/
def Record.covered (r : Record) : Counters × ℚ × ℚ := (r.sampled, r.duration, r.lastSeen - r.firstSeen)

/-- **The invariant**, of one interface. -/
structure Accounted {cfg : SamplerConfig} (s : SamplerRun cfg) (iface : String) : Prop where
  baseline : ∀ b, s.sampler.last.get? iface = some b → (s.readings iface).getLast? = some b
  unread : s.readings iface = [] → s.records iface = []
  opened : ∀ r, s.sampler.active.get? iface = some r → ∀ last ∈ (s.readings iface).getLast?, r.lastSeen = last.wall
  sound : ∀ r ∈ s.records iface, r.Sound
  covered : ∀ first ∈ (s.readings iface).head?, ∀ last ∈ (s.readings iface).getLast?,
    ((s.records iface).map Record.covered).sum + first.position = last.position

section Accounted

variable {cfg : SamplerConfig} {s s' : SamplerRun cfg} {iface : String} {l : SamplerLabel}

theorem sum_covered (records : List Record) : (records.map Record.covered).sum =
    ((records.map Record.sampled).sum, (records.map Record.duration).sum,
      (records.map fun r => r.lastSeen - r.firstSeen).sum) := by
  induction records with
  | nil => rfl
  | cons r rest ih => simp [ih, Record.covered]

theorem Accounted.conserved (h : Accounted s iface) : Conserved s iface := by
  have hsum : ∀ first ∈ (s.readings iface).head?, ∀ last ∈ (s.readings iface).getLast?,
      (((s.records iface).map Record.sampled).sum + first.counters, ((s.records iface).map Record.duration).sum + first.mono,
        ((s.records iface).map fun r => r.lastSeen - r.firstSeen).sum + first.wall) =
      (last.counters, last.mono, last.wall.val) := by
    intro first hfirst last hlast
    have hcovered := h.covered first hfirst last hlast
    rw [sum_covered] at hcovered
    exact hcovered
  constructor
  · intro first hfirst last hlast
    exact (Prod.mk.inj (hsum first hfirst last hlast)).1
  · intro first hfirst last hlast
    exact (Prod.mk.inj (Prod.mk.inj (hsum first hfirst last hlast)).2).1
  · intro first hfirst last hlast
    exact (Prod.mk.inj (Prod.mk.inj (hsum first hfirst last hlast)).2).2
  · intro r hr rate
    exact (h.sound r hr).average_le rate

/-- The records that are frozen. -/
def SamplerRun.frozen (s : SamplerRun cfg) (iface : String) : List Record :=
  s.windows.filterMap fun w => (w.ifaces.get? iface).map IfaceSummary.toRecord

/-- What moved between two scans. -/
def Baseline.moved (previous current : Baseline) : Counters × ℚ × ℚ :=
  ((previous.interval current).deltas, (previous.interval current).elapsed, current.wall - previous.wall)

theorem Baseline.moved_add {previous current : Baseline} (h : previous.counters ≤ current.counters) :
    previous.moved current + previous.position = current.position := by
  refine Prod.ext ?_ (Prod.ext ?_ ?_)
  · exact zipWith_deltaCounter_add h
  · exact sub_add_cancel _ _
  · exact sub_add_cancel _ _

/-- **A record gains what moved since its last scan.** -/
theorem Baseline.record_covered {t : Thresholds} {previous current : Baseline} {old : Option Record}
    (hold : ∀ r ∈ old, r.lastSeen = previous.wall) :
    (previous.record t current old).covered = (old.toList.map Record.covered).sum + previous.moved current := by
  unfold Baseline.record
  cases old with
  | none =>
      refine Prod.ext rfl (Prod.ext rfl ?_)
      show current.wall.val - previous.wall.val = 0 + (current.wall.val - previous.wall.val)
      ring
  | some r =>
      have hwall := hold r rfl
      refine Prod.ext ?_ (Prod.ext ?_ ?_)
      · show r.sampled + _ = (r.sampled + 0) + _
        rw [add_zero]
        rfl
      · show r.duration + _ = (r.duration + 0) + _
        rw [add_zero]
        rfl
      · show current.wall.val - r.firstSeen = ((r.lastSeen - r.firstSeen) + 0) + (current.wall.val - previous.wall.val)
        rw [hwall]
        ring

/-- The scan of a step, before the records are frozen. -/
def SamplerRun.scan (look : Look) (s : SamplerRun cfg) : SamplerRun cfg :=
  { s with sampler := s.sampler.sample cfg s.ppsWarn look, readings := s.note (some look) }

/-- **An interface that a scan does not read**: it is dropped if it is stale, and then it had no open record. -/
theorem Accounted.unscanned (h : Accounted s iface) {look : Look}
    (hread : look.reading s.sampler.knownIfaces iface = none)
    (hstale : ∀ b, s.sampler.last.get? iface = some b → Sampler.isStale cfg look b = true →
      s.sampler.active.get? iface = none) : Accounted (s.scan look) iface := by
  have hview := view_sample cfg s.ppsWarn look iface s.sampler
  rw [hread] at hview
  have hreadings : (s.scan look).readings iface = s.readings iface := by
    unfold SamplerRun.scan SamplerRun.note
    simp [hread]
  have hactive : (s.scan look).sampler.active.get? iface = s.sampler.active.get? iface := by
    refine (congrArg (fun v => v.2.1) hview).trans ?_
    dsimp only
    split
    · next hany =>
        obtain ⟨b, hb, hb'⟩ := (Option.any_eq_true _ _).mp hany
        exact (hstale b hb hb').symm
    · rfl
  have hlast : ∀ b, (s.scan look).sampler.last.get? iface = some b → s.sampler.last.get? iface = some b := by
    intro b hb
    have hb := (congrArg Prod.fst hview).symm.trans hb
    dsimp only at hb
    split at hb
    · cases hb
    · exact hb
  have hrecords : (s.scan look).records iface = s.records iface := by
    unfold SamplerRun.records
    rw [hactive]
    rfl
  constructor
  · intro b hb
    rw [hreadings]
    exact h.baseline b (hlast b hb)
  · rw [hreadings, hrecords]
    exact h.unread
  · rw [hreadings, hactive]
    exact h.opened
  · rw [hrecords]
    exact h.sound
  · rw [hreadings, hrecords]
    exact h.covered

/-- What a scan does to the open record: it stays where the interface is new or shows the last scan again, or it gains the
    interval since the last scan. -/
theorem Accounted.recordAfter_cases (h : Accounted s iface) {t : Thresholds} {current : Baseline}
    (hgap : ∀ old ∈ (s.readings iface).getLast?, current = old ∨
      (s.sampler.last.get? iface).isSome ∧ current.mono - old.mono ≥ 1) :
    (recordAfter t (s.sampler.last.get? iface) (s.sampler.active.get? iface) current = s.sampler.active.get? iface ∧
        (s.readings iface = [] ∨ (s.readings iface).getLast? = some current)) ∨
    ∃ old, (s.readings iface).getLast? = some old ∧ 1 ≤ (old.interval current).elapsed ∧
      recordAfter t (s.sampler.last.get? iface) (s.sampler.active.get? iface) current =
        some (old.record t current (s.sampler.active.get? iface)) := by
  cases hlast : s.sampler.last.get? iface with
  | none =>
      refine .inl ⟨rfl, ?_⟩
      cases hread : (s.readings iface).getLast? with
      | none => exact .inl (List.getLast?_eq_none_iff.mp hread)
      | some old =>
          obtain hsame | ⟨hknown, -⟩ := hgap old hread
          · exact .inr (congrArg some hsame.symm)
          · rw [hlast] at hknown
            cases hknown
  | some old =>
      have hread := h.baseline old hlast
      by_cases helapsed : (old.interval current).elapsed ≥ 1
      · exact .inr ⟨old, hread, helapsed, if_pos helapsed⟩
      · refine .inl ⟨if_neg helapsed, .inr ?_⟩
        obtain hsame | ⟨-, hlong⟩ := hgap old hread
        · rw [hread, hsame]
        · exact absurd hlong helapsed

/-- **A scanned interface**: either its record gains what moved, or the scan shows what the one before it did. -/
theorem Accounted.scanned (h : Accounted s iface) {look : Look} {current : Baseline}
    (hread : look.reading s.sampler.knownIfaces iface = some current)
    (hle : ∀ old ∈ (s.readings iface).getLast?, old.counters ≤ current.counters)
    (hgap : ∀ old ∈ (s.readings iface).getLast?, current = old ∨
      (s.sampler.last.get? iface).isSome ∧ current.mono - old.mono ≥ 1) : Accounted (s.scan look) iface := by
  have hview := view_sample cfg s.ppsWarn look iface s.sampler
  rw [hread] at hview
  have hreadings : (s.scan look).readings iface = s.readings iface ++ [current] := by
    unfold SamplerRun.scan SamplerRun.note
    simp [hread]
  have hlast : (s.scan look).sampler.last.get? iface = some current := congrArg Prod.fst hview
  have hactive : (s.scan look).sampler.active.get? iface = recordAfter ⟨s.ppsWarn, cfg.mbpsWarn⟩
      (s.sampler.last.get? iface) (s.sampler.active.get? iface) current := congrArg (fun v => v.2.1) hview
  have hrecords : (s.scan look).records iface =
      s.frozen iface ++ ((s.scan look).sampler.active.get? iface).toList := rfl
  have hbefore : s.records iface = s.frozen iface ++ (s.sampler.active.get? iface).toList := rfl
  have hbaseline : ∀ b, (s.scan look).sampler.last.get? iface = some b →
      ((s.scan look).readings iface).getLast? = some b := by
    intro b hb
    rw [hreadings, List.getLast?_concat, ← hlast, hb]
  have hunread : (s.scan look).readings iface = [] → (s.scan look).records iface = [] := by
    intro hempty
    rw [hreadings] at hempty
    simp at hempty
  obtain ⟨hkept, hsame⟩ | ⟨old, hold, helapsed, hgained⟩ := h.recordAfter_cases (t := ⟨s.ppsWarn, cfg.mbpsWarn⟩) hgap
  · -- The record stays.
    rw [hkept] at hactive
    rw [hactive, ← hbefore] at hrecords
    refine ⟨hbaseline, hunread, ?_, ?_, ?_⟩
    · intro r hr last hl
      rw [hreadings, List.getLast?_concat] at hl
      obtain rfl := Option.some.inj hl
      rw [hactive] at hr
      obtain hnew | hsame := hsame
      · have hnone := h.unread hnew
        rw [hbefore, hr] at hnone
        simp at hnone
      · exact h.opened r hr current hsame
    · rw [hrecords]
      exact h.sound
    · intro first hfirst last hl
      rw [hreadings, List.getLast?_concat] at hl
      obtain rfl := Option.some.inj hl
      rw [hreadings, List.head?_append] at hfirst
      rw [hrecords]
      obtain hnew | hsame := hsame
      · rw [hnew] at hfirst
        obtain rfl := Option.some.inj hfirst
        rw [h.unread hnew]
        exact zero_add _
      · refine h.covered first ?_ current hsame
        cases hhead : (s.readings iface).head? with
        | none =>
            rw [List.head?_eq_none_iff.mp hhead] at hsame
            cases hsame
        | some b =>
            rw [hhead] at hfirst
            exact hfirst
  · -- The record gains the interval since the last scan.
    rw [hgained] at hactive
    rw [hactive] at hrecords
    have hopened : ∀ r ∈ s.sampler.active.get? iface, r.lastSeen = old.wall := fun r hr => h.opened r hr old hold
    refine ⟨hbaseline, hunread, ?_, ?_, ?_⟩
    · intro r hr last hl
      rw [hreadings, List.getLast?_concat] at hl
      obtain rfl := Option.some.inj hl
      rw [hactive] at hr
      obtain rfl := Option.some.inj hr
      rfl
    · intro r hr
      rw [hrecords] at hr
      obtain hfrozen | hopen := List.mem_append.mp hr
      · exact h.sound r (hbefore ▸ List.mem_append_left _ hfrozen)
      · obtain rfl := List.mem_singleton.mp hopen
        refine Baseline.record_sound ?_ helapsed
        intro r hr
        exact h.sound r (hbefore ▸ List.mem_append_right _ (Option.mem_toList.mpr hr))
    · intro first hfirst last hl
      rw [hreadings, List.getLast?_concat] at hl
      obtain rfl := Option.some.inj hl
      have hfirst : first ∈ (s.readings iface).head? := by
        rw [hreadings, List.head?_append] at hfirst
        cases hhead : (s.readings iface).head? with
        | none =>
            rw [List.head?_eq_none_iff.mp hhead] at hold
            cases hold
        | some b =>
            rw [hhead] at hfirst
            exact hfirst
      have hcovered := h.covered first hfirst old hold
      rw [hbefore, List.map_append, List.sum_append] at hcovered
      rw [hrecords, List.map_append, List.sum_append]
      calc ((s.frozen iface).map Record.covered).sum +
            (([old.record ⟨s.ppsWarn, cfg.mbpsWarn⟩ current (s.sampler.active.get? iface)] : List Record).map
              Record.covered).sum + first.position
          = ((s.frozen iface).map Record.covered).sum +
              (((s.sampler.active.get? iface).toList.map Record.covered).sum + old.moved current) + first.position := by
            rw [List.map_singleton, List.sum_singleton, Baseline.record_covered hopened]
        _ = old.moved current + (((s.frozen iface).map Record.covered).sum +
              ((s.sampler.active.get? iface).toList.map Record.covered).sum + first.position) := by
            rw [← add_assoc, add_right_comm, add_comm]
        _ = old.moved current + old.position := by rw [hcovered]
        _ = current.position := Baseline.moved_add (hle old hold)

/-- **A step that loses nothing keeps an interface accounted for.** -/
theorem Accounted.scan (h : Accounted s iface) (look : Look) (hl : l.look = some look) (hreset : NoReset s l)
    (hlossless : Lossless s l) : Accounted (s.scan look) iface := by
  obtain ⟨hspaced, hstale⟩ := hlossless look hl
  cases hread : look.reading s.sampler.knownIfaces iface with
  | none =>
      apply h.unscanned hread
      intro b hb hold
      exact hstale (iface, b) (KeyedTable.mem_rows_of_get? hb) hread hold
  | some current =>
      have hread' := hread
      unfold Look.reading at hread'
      split at hread'
      · next hcandidate =>
          obtain ⟨c, hc, rfl⟩ := Option.map_eq_some_iff.mp hread'
          have hentry := KeyedTable.mem_rows_of_get? hc
          exact h.scanned hread (hreset look hl _ hentry) (hspaced _ hentry hcandidate)
      · cases hread'

/-- **Freezing moves the open record into a window.** -/
theorem Accounted.rotate (h : Accounted s iface) (nowMono : ℚ) (nowWall : Nat) {sampler : Sampler}
    (hlast : sampler.last = s.sampler.last) (hactive : sampler.active = .empty) :
    Accounted { s with sampler, windows := s.windows ++ [s.sampler.freeze cfg nowMono nowWall] } iface := by
  have hrecords : SamplerRun.records
      { s with sampler, windows := s.windows ++ [s.sampler.freeze cfg nowMono nowWall] } iface = s.records iface := by
    unfold SamplerRun.records
    dsimp only
    rw [hactive, List.filterMap_append, List.append_assoc]
    unfold Sampler.freeze
    cases hopen : s.sampler.active.get? iface with
    | none => simp [KeyedTable.get?_mapRows, hopen]
    | some r => simp [KeyedTable.get?_mapRows, hopen]
  constructor
  · intro b hb
    rw [hlast] at hb
    exact h.baseline b hb
  · rw [hrecords]
    exact h.unread
  · intro r hr
    rw [hactive] at hr
    cases hr
  · rw [hrecords]
    exact h.sound
  · rw [hrecords]
    exact h.covered

theorem Accounted.step (h : Accounted s iface) (hreset : NoReset s l) (hlossless : Lossless s l)
    (hstep : s.step l = some s') : Accounted s' iface := by
  cases l with
  | sample look =>
      obtain rfl := Option.some.inj hstep
      exact h.scan look rfl hreset hlossless
  | rotate look nowMono nowWall =>
      obtain rfl := Option.some.inj hstep
      cases look with
      | none =>
          have hnote : s.note none = s.readings := by
            funext iface
            exact List.append_nil _
          rw [hnote]
          exact h.rotate nowMono nowWall rfl rfl
      | some look =>
          have hscanned := h.scan look rfl hreset hlossless
          exact hscanned.rotate nowMono nowWall rfl rfl
  | updateKnownIfaces names =>
      obtain rfl := Option.some.inj hstep
      exact ⟨h.baseline, h.unread, h.opened, h.sound, h.covered⟩
  | applyMonitorConfig ppsWarn =>
      obtain rfl := Option.some.inj hstep
      exact ⟨h.baseline, h.unread, h.opened, h.sound, h.covered⟩

/-- **The windows of the sampler lose nothing** in a run whose scans are `Lossless`. -/
theorem sampler_conserves
    (h : (samplerSystem cfg).Reachable (fun s l => NoReset s l ∧ Lossless s l) s) (iface : String) :
    Conserved s iface := by
  have haccounted : Accounted s iface := by
    refine h.invariant (I := fun s => Accounted s iface) ?_ ?_
    · rintro s ⟨hlast, hactive, hwindows, hreadings⟩
      have hrecords : s.records iface = [] := by
        unfold SamplerRun.records
        rw [hactive, hwindows]
        rfl
      constructor <;> simp [hlast, hactive, hreadings, hrecords]
    · intro s l s' _ hs hok hstep
      exact hs.step hok.1 hok.2 hstep
  exact haccounted.conserved

end Accounted

instance {cfg : SamplerConfig} (s : SamplerRun cfg) (l : SamplerLabel) : Decidable (NoReset s l) := by
  unfold NoReset
  infer_instance

instance {cfg : SamplerConfig} (s : SamplerRun cfg) (l : SamplerLabel) : Decidable (Lossless s l) := by
  unfold Lossless
  infer_instance

/-- One tap that received some bytes. -/
def Look.tap0 (nowMono : Wall) (rx : Nat) : Look :=
  ⟨nowMono, ⟨1200 + nowMono, by linarith [nowMono.2]⟩, ⟨[("tap0", ⟨rx, 0, 0, 0, 0, 0, 0, 0⟩)], List.nodup_singleton _⟩, 1⟩

def SamplerRun.sampleInit : SamplerRun {} := ⟨⟨.empty, .empty, [], 0, 1200, 0, 0, le_refl 0⟩, 200000, [], fun _ => []⟩

/-- Two scans in the rhythm of the sampler, and the one that a rotation forces. -/
def samplerSteps (forced : Wall) : List SamplerLabel :=
  [.sample (.tap0 ⟨0, le_refl 0⟩ 1000), .sample (.tap0 ⟨15, by norm_num⟩ 16000),
    .rotate (some (.tap0 forced 26000)) (forced + 1 / 2) 1216]

theorem sampler_conserves_rotated : ∃ s,
    (samplerSystem {}).exec (fun s l => NoReset s l ∧ Lossless s l) SamplerRun.sampleInit (samplerSteps ⟨17, by decide⟩) = some s ∧
      Conserved s "tap0" := by
  obtain ⟨s, hs⟩ := Option.isSome_iff_exists.mp (show ((samplerSystem {}).exec (fun s l => NoReset s l ∧ Lossless s l)
    SamplerRun.sampleInit (samplerSteps ⟨17, by decide⟩)).isSome by decide +kernel)
  exact ⟨s, hs, sampler_conserves (.exec (.init ⟨rfl, rfl, rfl, rfl⟩) hs) "tap0"⟩

/-- The rotation comes half a second after a scan, and the 10000 bytes in between are in no window. -/
theorem forced_sample_lost : ∃ s, (samplerSystem {}).Reachable NoReset s ∧ ¬ Conserved s "tap0" ∧
    ((s.records "tap0").map fun r => r.sampled.rx).sum = 15000 ∧
    (s.readings "tap0").map (fun b => b.counters.rx) = [1000, 16000, 26000] := by
  obtain ⟨s, hs⟩ := Option.isSome_iff_exists.mp (show ((samplerSystem {}).exec NoReset
    SamplerRun.sampleInit (samplerSteps ⟨31 / 2, by norm_num⟩)).isSome by decide +kernel)
  have hvalues : ((samplerSystem {}).exec NoReset SamplerRun.sampleInit (samplerSteps ⟨31 / 2, by norm_num⟩)).map (fun s =>
      ((s.readings "tap0").map fun b => b.counters, (s.records "tap0").map Record.sampled)) =
      some ([⟨1000, 0, 0, 0, 0, 0, 0, 0⟩, ⟨16000, 0, 0, 0, 0, 0, 0, 0⟩, ⟨26000, 0, 0, 0, 0, 0, 0, 0⟩],
        [⟨15000, 0, 0, 0, 0, 0, 0, 0⟩]) := by
    decide +kernel
  rw [hs] at hvalues
  obtain ⟨hreadings, hrecords⟩ := Prod.mk.inj (Option.some.inj hvalues)
  refine ⟨s, .exec (.init ⟨rfl, rfl, rfl, rfl⟩) hs, ?_, ?_, ?_⟩
  · intro hconserved
    obtain ⟨first, hfirst, hone⟩ := Option.map_eq_some_iff.mp
      ((List.head?_map ..).symm.trans (congrArg List.head? hreadings))
    obtain ⟨last, hlast, hthree⟩ := Option.map_eq_some_iff.mp
      ((List.getLast?_map ..).symm.trans (congrArg List.getLast? hreadings))
    have hsum := hconserved.counters first hfirst last hlast
    rw [hrecords, hone, hthree] at hsum
    exact absurd hsum (by decide)
  · have hrx := congrArg (List.map Counters.rx) hrecords
    rw [List.map_map] at hrx
    show ((s.records "tap0").map (Counters.rx ∘ Record.sampled)).sum = 15000
    rw [hrx]
    rfl
  · have hrx := congrArg (List.map Counters.rx) hreadings
    rw [List.map_map] at hrx
    exact hrx

end VirtInfra.Agent
