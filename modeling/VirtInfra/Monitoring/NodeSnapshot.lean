import Mathlib.Data.List.MinMax
import Mathlib.Data.Prod.Lex
import Mathlib.Data.Rat.Defs
import VirtInfra.Consumption.RawStats

/-!
# `NodeSnapshot` — the node figures of a bucket

The node pages show one bucket of each node as one snapshot. The readers add up the rows of the bucket and divide by the
longest interval among them, so what they show is one push as long as one push wrote the rows. Two pushes of one bucket,
after a restart of the agent or a late retry, are added up, while their intervals are not. The NIC badges take the rows of
the nearest bucket that has any, so a push without NIC rows is shown with the rates of the push before or after it.
-/

namespace VirtInfra.Monitoring

open Lib Consumption

/-! ## The readers -/

/-- The rows of `node_physical_net_stats` and of `node_stats` of one node and bucket. -/
structure BucketRows where
  physical : List PhysicalStat
  taps : List (NodeStatKey × NodeStat)

def bucketRows (a : Archive) (node : String) (bucket : Int) : BucketRows where
  physical := a.physicalStats.filter fun row => row.node = node && row.bucket = bucket
  taps := a.nodeStats.select fun key => key.node = node && key.bucket = bucket

/-- `MAX(…)` of intervals, where no row is `NULL`. -/
def longest (intervals : List Int) : Int := (intervals.max?).getD 0

/-- `COALESCE(NULLIF(interval,0), CACHE_BUCKET_SECONDS)`. -/
def orBucketSeconds (interval : Int) : Int := if interval = 0 then cacheBucketSeconds else interval

/-- What a role has in a bucket, from one source: `phys` or `vm_net`. -/
structure RoleTotals where
  bytes : Nat
  packets : Nat
  interval : Int
  deriving DecidableEq

/-- A role's columns of the query `phys`; `none` without `public_present` or `private_present`. -/
def physicalTotals (rows : BucketRows) (role : Role) : Option RoleTotals :=
  let own := rows.physical.filter fun row => row.role = role
  if own.isEmpty then none
  else some
    { bytes := (own.map fun row => row.delta .rx + row.delta .tx).sum
      packets := (own.map fun row => row.packets .rx + row.packets .tx).sum
      interval := longest (own.map PhysicalStat.intervalSeconds) }

/-- A role's columns of the query `vm_net`, over the VMs that `vm_inventory` does not hide. -/
def tapTotals (visible : String → Bool) (rows : BucketRows) (role : Role) : RoleTotals :=
  let shown := rows.taps.filter fun row => visible row.1.vmUuid
  let own := shown.filter fun row => row.1.bridge = role.bridge
  { bytes := (own.map fun row => row.2.deltas.rx + row.2.deltas.tx).sum
    packets := (own.map fun row => row.2.deltas.rxPackets + row.2.deltas.txPackets).sum
    interval := longest (shown.map fun row => if row.1.bridge = role.bridge then row.2.intervalSeconds else 0) }

/-- The source of a role: its NIC rows where the bucket has any, else the taps. -/
def roleTotals (visible : String → Bool) (rows : BucketRows) (role : Role) : RoleTotals :=
  (physicalTotals rows role).getD (tapTotals visible rows role)

/-- The figures of `get_node_rows` for one node. -/
structure NodeRow where
  total : Role → Nat
  nodeTotal : Nat
  packets : Role → Nat
  nodePackets : Nat
  interval : Role → Int
  nodeInterval : Int
  pps : Role → Rat
  nodePps : Rat

def BucketRows.getNodeRows (visible : String → Bool) (rows : BucketRows) : NodeRow :=
  let role := roleTotals visible rows
  let shown := rows.taps.filter fun row => visible row.1.vmUuid
  let physicalInterval := fun r => ((physicalTotals rows r).map RoleTotals.interval).getD 0
  let nodeInterval := max (max (physicalInterval .pub) (physicalInterval .priv))
    (orBucketSeconds (longest (shown.map fun row => row.2.intervalSeconds)))
  { total := fun r => (role r).bytes
    nodeTotal := (role .pub).bytes + (role .priv).bytes
    packets := fun r => (role r).packets
    nodePackets := (role .pub).packets + (role .priv).packets
    interval := fun r => orBucketSeconds (role r).interval
    nodeInterval
    pps := fun r => ((role r).packets : Rat) / (max (orBucketSeconds (role r).interval) 1 : Int)
    nodePps := (((role .pub).packets + (role .priv).packets : Nat) : Rat) / (max nodeInterval 1 : Int) }

/-- The figures of `get_node_physical_nic_period` for one role. -/
structure NicRates where
  mbps : Direction → Rat
  pps : Direction → Rat
  coveredSeconds : Int

/-- The last statement of `get_node_physical_nic_period`, over the rows of its bucket. -/
def BucketRows.nicRates (rows : BucketRows) (role : Role) : Option NicRates :=
  let own := rows.physical.filter fun row => row.role = role
  let interval := max 1 (orBucketSeconds (longest (own.map PhysicalStat.intervalSeconds)))
  if own.isEmpty then none
  else some
    { mbps := fun dir => (((own.map fun row => row.delta dir).sum : Nat) : Rat) * 8 / (interval : Int) / 1000000
      pps := fun dir => (((own.map fun row => row.packets dir).sum : Nat) : Rat) / (interval : Int)
      coveredSeconds := interval }

/-- The buckets of a node's NIC rows, at most one bucket away. -/
def nicBucketsNear (a : Archive) (node : String) (target : Int) : List Int :=
  (a.physicalStats.filter fun row => row.node = node && target - cacheBucketSeconds ≤ row.bucket &&
    row.bucket ≤ target + cacheBucketSeconds).map PhysicalStat.bucket

/-- `ORDER BY ABS(bucket - ?) ASC, bucket DESC`. -/
def nearness (target bucket : Int) : Nat ×ₗ Int := toLex ((bucket - target).natAbs, -bucket)

/-! The order of the integers that can be computed with. -/

local instance nearnessOrder : LinearOrder (Nat ×ₗ Int) := @Prod.Lex.instLinearOrder Nat Int _ Int.instLinearOrder

local instance nearnessPreorder : Preorder (Nat ×ₗ Int) := nearnessOrder.toPartialOrder.toPreorder

/-- `resolve_table_snapshot_bucket` for `node_physical_net_stats`; `0` is no bucket. -/
def resolveTableSnapshotBucket (a : Archive) (node : String) (target : Int) : Int :=
  if target = 0 then 0 else ((nicBucketsNear a node target).argmin (nearness target)).getD 0

def getNodePhysicalNicPeriod (a : Archive) (node : String) (bucket : Int) (role : Role) : Option NicRates :=
  let nicBucket := resolveTableSnapshotBucket a node bucket
  if nicBucket = 0 then none else (bucketRows a node nicBucket).nicRates role

/-- **What the node pages show of a bucket.** -/
structure NodeFigures where
  row : NodeRow
  nics : Role → Option NicRates

def nodeFigures (visible : String → Bool) (a : Archive) (node : String) (bucket : Int) : NodeFigures where
  row := (bucketRows a node bucket).getNodeRows visible
  nics := getNodePhysicalNicPeriod a node bucket

/-! ## Pushes -/

/-- What an accepted sample writes into the two tables. -/
def record (off : Int) (a : Archive) (s : Sample) : Archive :=
  { a with
    physicalStats := a.physicalStats ++ physicalStats s
    nodeStats := writeNodeStats (s.stage off) a.nodeStats }

/-- The payloads of a run, with the times they are received at. -/
abbrev Payloads := List (Int × PushRequest)

def archived (cfg : Config) (payloads : Payloads) : Archive :=
  Archive.init.run cfg (payloads.map fun p => .push p.1 p.2)

/-- The samples of a run, in the order they are accepted. -/
def acceptedPushes (cfg : Config) (payloads : Payloads) : List Sample :=
  history cfg .init (payloads.map fun p => .push p.1 p.2)

/-- The samples of a node's bucket. -/
def ofBucket (node : String) (bucket : Int) (s : Sample) : Bool := s.node = node && bucketFor s.dataTime = bucket

/-- A sample that brings rows of taps or NICs. -/
def BringsRows (off : Int) (s : Sample) : Prop := s.stage off ≠ [] ∨ physicalStats s ≠ []

/-- **One push a bucket**: of the accepted samples of a node no two with rows fall into one bucket. -/
def OnePerBucket (off : Int) (samples : List Sample) : Prop :=
  samples.Pairwise fun s s' => s.node = s'.node → bucketFor s.dataTime = bucketFor s'.dataTime →
    ¬ (BringsRows off s ∧ BringsRows off s')

/-- **No NIC rows from the bucket beside**: a bucket with an accepted push has NIC rows of its own where one of the two
    buckets beside it has some. -/
def NicsInPlace (samples : List Sample) : Prop :=
  ∀ s ∈ samples, ∀ s' ∈ samples, s'.node = s.node → (bucketFor s'.dataTime - bucketFor s.dataTime).natAbs ≤ cacheBucketSeconds →
    physicalStats s' ≠ [] → ∃ own ∈ samples, ofBucket s.node (bucketFor s.dataTime) own = true ∧ physicalStats own ≠ []

section Rows

variable {off : Int} {node : String} {bucket : Int}

theorem bucketRows_congr {a a' : Archive} (hphysical : a.physicalStats = a'.physicalStats) (htaps : a.nodeStats = a'.nodeStats) :
    bucketRows a node bucket = bucketRows a' node bucket := by
  unfold bucketRows
  rw [hphysical, htaps]

theorem bucketRows_foldl_congr (samples : List Sample) {a a' : Archive} (hphysical : a.physicalStats = a'.physicalStats)
    (htaps : a.nodeStats = a'.nodeStats) :
    bucketRows (samples.foldl (record off) a) node bucket = bucketRows (samples.foldl (record off) a') node bucket := by
  induction samples generalizing a a' with
  | nil => exact bucketRows_congr hphysical htaps
  | cons s rest ih =>
      apply ih
      · exact congrArg (· ++ physicalStats s) hphysical
      · exact congrArg (writeNodeStats (s.stage off)) htaps

/-- A run of pushes writes the rows of the samples it accepts. -/
theorem bucketRows_run (cfg : Config) (payloads : Payloads) (a : Archive) :
    bucketRows (a.run cfg (payloads.map fun p => .push p.1 p.2)) node bucket =
      bucketRows ((history cfg a.monitor (payloads.map fun p => .push p.1 p.2)).foldl (record cfg.tzOffset) a) node bucket := by
  induction payloads generalizing a with
  | nil => rfl
  | cons payload rest ih =>
      obtain ⟨receivedNow, req⟩ := payload
      have hmonitor : (a.step cfg (.push receivedNow req)).monitor = step cfg a.monitor (.push receivedNow req) := by
        unfold Archive.step
        dsimp only
        split <;> rfl
      have hhistory : history cfg a.monitor (((receivedNow, req) :: rest).map fun p => .push p.1 p.2) =
          (acceptedSample cfg receivedNow req a.monitor).toList ++
            history cfg (step cfg a.monitor (.push receivedNow req)) (rest.map fun p => .push p.1 p.2) := rfl
      rw [hhistory, List.foldl_append, ← hmonitor]
      refine (ih (a.step cfg (.push receivedNow req))).trans ?_
      -- the step writes the sample it accepts
      apply bucketRows_foldl_congr
      · unfold Archive.step
        dsimp only
        cases acceptedSample cfg receivedNow req a.monitor <;> rfl
      · unfold Archive.step
        dsimp only
        cases acceptedSample cfg receivedNow req a.monitor <;> rfl

/-- A sample without rows in the bucket leaves its rows. -/
theorem bucketRows_record_of_other (a : Archive) {s : Sample} (h : ¬ (ofBucket node bucket s = true ∧ BringsRows off s)) :
    bucketRows (record off a s) node bucket = bucketRows a node bucket := by
  have hrows : (physicalStats s).filter (fun row => row.node = node && row.bucket = bucket) = [] ∧
      ∀ row ∈ s.stage off, (decide ((nodeStatKey row).node = node) && decide ((nodeStatKey row).bucket = bucket)) = false := by
    by_cases hown : ofBucket node bucket s = true
    · have hnone : ¬ BringsRows off s := fun hbrings => h ⟨hown, hbrings⟩
      unfold BringsRows at hnone
      rw [not_or, not_not, not_not] at hnone
      rw [hnone.1, hnone.2]
      exact ⟨rfl, fun row hrow => by cases hrow⟩
    · unfold ofBucket at hown
      rw [Bool.not_eq_true] at hown
      constructor
      · apply List.filter_eq_nil_iff.mpr
        intro row hrow
        obtain ⟨entry, -, rfl⟩ := List.mem_map.mp hrow
        rw [Bool.not_eq_true]
        exact hown
      · intro row hrow
        obtain ⟨-, -, hbucket, hnode⟩ := ifaceRows_mem hrow
        show (decide (row.node = node) && decide (row.bucket = bucket)) = false
        rw [hnode, hbucket]
        exact hown
  unfold bucketRows record
  dsimp only
  rw [List.filter_append, hrows.1, List.append_nil]
  congr 1
  exact KeyedTable.select_mergeGroups_of_false hrows.2

theorem bucketRows_foldl_of_other {samples : List Sample}
    (h : ∀ s ∈ samples, ¬ (ofBucket node bucket s = true ∧ BringsRows off s)) (a : Archive) :
    bucketRows (samples.foldl (record off) a) node bucket = bucketRows a node bucket := by
  induction samples generalizing a with
  | nil => rfl
  | cons s rest ih =>
      rw [List.foldl_cons, ih (fun s' hs' => h s' (List.mem_cons_of_mem s hs'))]
      exact bucketRows_record_of_other a (h s List.mem_cons_self)

/-- A bucket without rows has those of its first sample with rows. -/
theorem bucketRows_record_of_empty {a : Archive} (hempty : bucketRows a node bucket = ⟨[], []⟩) {s : Sample}
    (hown : ofBucket node bucket s = true) :
    bucketRows (record off a s) node bucket = bucketRows (record off .init s) node bucket := by
  obtain ⟨hphysical, htaps⟩ := BucketRows.mk.inj hempty
  unfold bucketRows record
  dsimp only
  rw [List.filter_append, hphysical]
  congr 1
  refine KeyedTable.select_mergeGroups_of_empty htaps ?_
  intro row hrow
  obtain ⟨-, -, hbucket, hnode⟩ := ifaceRows_mem hrow
  show (decide (row.node = node) && decide (row.bucket = bucket)) = true
  rw [hnode, hbucket]
  exact hown

/-- **The rows of a bucket are those of one push**, as long as one push brought any. -/
theorem bucketRows_of_onePerBucket {samples : List Sample} (hone : OnePerBucket off samples)
    (hsome : ∃ s ∈ samples, ofBucket node bucket s = true) :
    ∃ s ∈ samples, ofBucket node bucket s = true ∧
      bucketRows (samples.foldl (record off) .init) node bucket = bucketRows (record off .init s) node bucket := by
  by_cases hbrings : ∃ s ∈ samples, ofBucket node bucket s = true ∧ BringsRows off s
  · obtain ⟨s, hs, hown, hrows⟩ := hbrings
    refine ⟨s, hs, hown, ?_⟩
    obtain ⟨before, after, rfl⟩ := List.append_of_mem hs
    have hsame : ∀ s', ofBucket node bucket s' = true → s'.node = s.node ∧ bucketFor s'.dataTime = bucketFor s.dataTime := by
      intro s' hs'
      unfold ofBucket at hs' hown
      rw [Bool.and_eq_true, decide_eq_true_eq, decide_eq_true_eq] at hs' hown
      exact ⟨hs'.1.trans hown.1.symm, hs'.2.trans hown.2.symm⟩
    obtain ⟨-, hlater, hearlier⟩ := List.pairwise_append.mp hone
    rw [List.foldl_append, List.foldl_cons]
    -- nothing before `s` and nothing after it writes into the bucket
    rw [bucketRows_foldl_of_other]
    · apply bucketRows_record_of_empty _ hown
      rw [bucketRows_foldl_of_other]
      · rfl
      · rintro s' hs' ⟨hown', hrows'⟩
        obtain ⟨hnode, hbucket⟩ := hsame s' hown'
        exact hearlier s' hs' s List.mem_cons_self hnode hbucket ⟨hrows', hrows⟩
    · rintro s' hs' ⟨hown', hrows'⟩
      obtain ⟨hnode, hbucket⟩ := hsame s' hown'
      exact List.rel_of_pairwise_cons hlater hs' hnode.symm hbucket.symm ⟨hrows, hrows'⟩
  · obtain ⟨s, hs, hown⟩ := hsome
    have hnone : ∀ s' ∈ samples, ¬ (ofBucket node bucket s' = true ∧ BringsRows off s') :=
      fun s' hs' hboth => hbrings ⟨s', hs', hboth⟩
    refine ⟨s, hs, hown, ?_⟩
    rw [bucketRows_foldl_of_other hnone, bucketRows_record_of_other _ (hnone s hs)]

theorem mem_bucketRows_physical {a : Archive} {row : PhysicalStat} :
    row ∈ (bucketRows a node bucket).physical ↔ row ∈ a.physicalStats ∧ row.node = node ∧ row.bucket = bucket := by
  unfold bucketRows
  rw [List.mem_filter, Bool.and_eq_true, decide_eq_true_eq, decide_eq_true_eq]

theorem mem_nicBucketsNear {a : Archive} {target : Int} :
    bucket ∈ nicBucketsNear a node target ↔
      (bucketRows a node bucket).physical ≠ [] ∧ (bucket - target).natAbs ≤ cacheBucketSeconds := by
  unfold nicBucketsNear
  rw [List.mem_map]
  constructor
  · rintro ⟨row, hrow, rfl⟩
    rw [List.mem_filter, Bool.and_eq_true, Bool.and_eq_true, decide_eq_true_eq, decide_eq_true_eq, decide_eq_true_eq] at hrow
    obtain ⟨hmem, ⟨hnode, hlow⟩, hhigh⟩ := hrow
    exact ⟨List.ne_nil_of_mem (mem_bucketRows_physical.mpr ⟨hmem, hnode, rfl⟩), by omega⟩
  · rintro ⟨hrows, hclose⟩
    obtain ⟨row, hrow⟩ := List.exists_mem_of_ne_nil _ hrows
    obtain ⟨hmem, hnode, rfl⟩ := mem_bucketRows_physical.mp hrow
    refine ⟨row, List.mem_filter.mpr ⟨hmem, ?_⟩, rfl⟩
    rw [Bool.and_eq_true, Bool.and_eq_true, decide_eq_true_eq, decide_eq_true_eq, decide_eq_true_eq]
    exact ⟨⟨hnode, by omega⟩, by omega⟩

/-- A bucket with NIC rows is the nearest one to itself. -/
theorem resolveTableSnapshotBucket_of_rows {a : Archive} (hrows : (bucketRows a node bucket).physical ≠ []) :
    resolveTableSnapshotBucket a node bucket = bucket := by
  unfold resolveTableSnapshotBucket
  split_ifs with hzero
  · exact hzero.symm
  have hown : bucket ∈ nicBucketsNear a node bucket := by
    refine mem_nicBucketsNear.mpr ⟨hrows, ?_⟩
    rw [Int.sub_self, Int.natAbs_zero]
    decide
  cases hnearest : (nicBucketsNear a node bucket).argmin (nearness bucket) with
  | none =>
      rw [List.argmin_eq_none] at hnearest
      exact absurd hown (hnearest ▸ List.not_mem_nil)
  | some nearest =>
      have hle : nearness bucket nearest ≤ nearness bucket bucket := List.le_of_mem_argmin hown hnearest
      unfold nearness at hle
      rw [Int.sub_self, Int.natAbs_zero] at hle
      show nearest = bucket
      rcases Prod.Lex.toLex_le_toLex.mp hle with hlt | ⟨hsame, -⟩
      · exact absurd hlt (Nat.not_lt_zero _)
      · have hzero : (nearest - bucket).natAbs = 0 := hsame
        omega

theorem resolveTableSnapshotBucket_of_none {a : Archive} (hnone : nicBucketsNear a node bucket = []) :
    resolveTableSnapshotBucket a node bucket = 0 := by
  unfold resolveTableSnapshotBucket
  rw [hnone]
  split_ifs <;> rfl

/-- The NIC rows of a run are those of its samples. -/
theorem physicalStats_foldl (samples : List Sample) (a : Archive) :
    (samples.foldl (record off) a).physicalStats = a.physicalStats ++ samples.flatMap physicalStats := by
  induction samples generalizing a with
  | nil => rw [List.flatMap_nil, List.append_nil]; rfl
  | cons s rest ih => rw [List.foldl_cons, ih, List.flatMap_cons, ← List.append_assoc]; rfl

theorem mem_physicalStats {s : Sample} {row : PhysicalStat} (h : row ∈ physicalStats s) :
    row.node = s.node ∧ row.bucket = bucketFor s.dataTime := by
  obtain ⟨entry, -, rfl⟩ := List.mem_map.mp h
  exact ⟨rfl, rfl⟩

/-- A bucket of a run has NIC rows as soon as one of its samples has some. -/
theorem bucketRows_physical_ne_nil {samples : List Sample} :
    (bucketRows (samples.foldl (record off) .init) node bucket).physical ≠ [] ↔
      ∃ s ∈ samples, ofBucket node bucket s = true ∧ physicalStats s ≠ [] := by
  have hmem : ∀ row, row ∈ (samples.foldl (record off) .init).physicalStats ↔ ∃ s ∈ samples, row ∈ physicalStats s := by
    intro row
    rw [physicalStats_foldl]
    exact List.mem_flatMap
  unfold ofBucket
  constructor
  · intro hrows
    obtain ⟨row, hrow⟩ := List.exists_mem_of_ne_nil _ hrows
    obtain ⟨hrun, rfl, rfl⟩ := mem_bucketRows_physical.mp hrow
    obtain ⟨s, hs, hrow⟩ := (hmem row).mp hrun
    obtain ⟨hnode, hbucket⟩ := mem_physicalStats hrow
    refine ⟨s, hs, ?_, List.ne_nil_of_mem hrow⟩
    rw [hnode, hbucket, decide_eq_true rfl, decide_eq_true rfl]
    rfl
  · rintro ⟨s, hs, hown, hrows⟩
    rw [Bool.and_eq_true, decide_eq_true_eq, decide_eq_true_eq] at hown
    obtain ⟨row, hrow⟩ := List.exists_mem_of_ne_nil _ hrows
    obtain ⟨hnode, hbucket⟩ := mem_physicalStats hrow
    exact List.ne_nil_of_mem
      (mem_bucketRows_physical.mpr ⟨(hmem row).mpr ⟨s, hs, hrow⟩, hnode.trans hown.1, hbucket.trans hown.2⟩)

/-- **The NIC rows shown are those of the bucket**, or none: the buckets beside it are not looked at. -/
theorem getNodePhysicalNicPeriod_of_nicsInPlace {a : Archive} {samples : List Sample}
    (hrun : ∀ b, bucketRows a node b = bucketRows (samples.foldl (record off) .init) node b) (hplace : NicsInPlace samples)
    (hsome : ∃ s ∈ samples, ofBucket node bucket s = true) :
    getNodePhysicalNicPeriod a node bucket =
      fun role => if bucket = 0 then none else (bucketRows a node bucket).nicRates role := by
  funext role
  unfold getNodePhysicalNicPeriod
  by_cases hrows : (bucketRows a node bucket).physical = []
  · have hnone : nicBucketsNear a node bucket = [] := by
      refine List.eq_nil_iff_forall_not_mem.mpr fun near hnear => ?_
      obtain ⟨hbeside, hclose⟩ := mem_nicBucketsNear.mp hnear
      rw [hrun] at hbeside hrows
      obtain ⟨s', hs', hnear', hbrings⟩ := bucketRows_physical_ne_nil.mp hbeside
      obtain ⟨s, hs, hown⟩ := hsome
      unfold ofBucket at hown hnear'
      rw [Bool.and_eq_true, decide_eq_true_eq, decide_eq_true_eq] at hown hnear'
      obtain ⟨rfl, rfl⟩ := hown
      obtain ⟨hnode, rfl⟩ := hnear'
      exact bucketRows_physical_ne_nil.mpr (hplace s hs s' hs' hnode hclose hbrings) hrows
    rw [resolveTableSnapshotBucket_of_none hnone]
    have hrates : (bucketRows a node bucket).nicRates role = none := by
      unfold BucketRows.nicRates
      rw [hrows]
      rfl
    rw [hrates, ite_self]
    rfl
  · rw [resolveTableSnapshotBucket_of_rows hrows]

end Rows

/-! ## What a bucket shows -/

/-- **A bucket shows one push**: one that was accepted for it, with the figures that it has alone. -/
def ShowsOnePush (cfg : Config) (payloads : Payloads) (visible : String → Bool) (node : String) (bucket : Int) : Prop :=
  ∃ s ∈ acceptedPushes cfg payloads, ofBucket node bucket s = true ∧
    nodeFigures visible (archived cfg payloads) node bucket =
      nodeFigures visible (record cfg.tzOffset .init s) node bucket

/-- A push alone has no bucket beside its own. -/
theorem nicsInPlace_singleton (s : Sample) : NicsInPlace [s] := by
  intro first hfirst second hsecond _ _ hrows
  rw [List.mem_singleton] at hfirst hsecond
  rw [hsecond] at hrows
  rw [hfirst]
  refine ⟨s, List.mem_singleton_self s, ?_, hrows⟩
  unfold ofBucket
  rw [decide_eq_true rfl, decide_eq_true rfl]
  rfl

/-- **A snapshot shows one real push** in every run in which no two pushes with rows share a bucket and no push is without
    the NIC rows that a bucket beside its own has: the bytes, packets, intervals and rates of a bucket are those of one push
    accepted for it, whichever VMs are hidden. -/
theorem bucket_shows_one_push {cfg : Config} {payloads : Payloads} (hone : OnePerBucket cfg.tzOffset (acceptedPushes cfg payloads))
    (hplace : NicsInPlace (acceptedPushes cfg payloads)) (visible : String → Bool) {node : String} {bucket : Int}
    (hsome : ∃ s ∈ acceptedPushes cfg payloads, ofBucket node bucket s = true) :
    ShowsOnePush cfg payloads visible node bucket := by
  obtain ⟨s, hs, hown, hrows⟩ := bucketRows_of_onePerBucket hone hsome
  refine ⟨s, hs, hown, ?_⟩
  have hrun : ∀ b, bucketRows (archived cfg payloads) node b =
      bucketRows ((acceptedPushes cfg payloads).foldl (record cfg.tzOffset) .init) node b :=
    fun b => bucketRows_run cfg payloads .init
  have halone : ∀ b, bucketRows (record cfg.tzOffset .init s) node b =
      bucketRows ([s].foldl (record cfg.tzOffset) .init) node b := fun b => rfl
  unfold nodeFigures
  rw [getNodePhysicalNicPeriod_of_nicsInPlace hrun hplace hsome,
    getNodePhysicalNicPeriod_of_nicsInPlace halone (nicsInPlace_singleton s) ⟨s, List.mem_singleton_self s, hown⟩,
    (hrun bucket).trans hrows]

/-- A payload of `node1` with one byte a second on its public NIC. -/
def nicPayload (time interval : Int) : Int × PushRequest :=
  (time, { time := some time, node := "node1", interval := some interval, interfaces := some []
           physicalInterfaces := [some { role := "public", rxDelta := some interval }] })

theorem bucket_shows_one_push_single :
    ShowsOnePush {} [nicPayload 300010 300] (fun _ => true) "node1" 300000 := by
  have hlength : (acceptedPushes {} [nicPayload 300010 300]).length = 1 := by decide +kernel
  obtain ⟨s, hs⟩ := List.length_eq_one_iff.mp hlength
  refine bucket_shows_one_push ?_ ?_ (fun _ => true) (by decide +kernel)
  · rw [hs]
    exact List.pairwise_singleton _ _
  · rw [hs]
    exact nicsInPlace_singleton s

/-- **Two pushes of one bucket are added up.** The agent restarts a minute after a push: the page shows 360 bytes, and
    over the interval of the first push alone, so 1.2 bytes a second where each push has one. -/
theorem bucket_shows_two_pushes : ¬ ∀ (cfg : Config) (payloads : Payloads) (visible : String → Bool) (node : String)
    (bucket : Int), (∃ s ∈ acceptedPushes cfg payloads, ofBucket node bucket s = true) →
      ShowsOnePush cfg payloads visible node bucket := by
  intro hall
  obtain ⟨s, hs, -, hsame⟩ := hall {} [nicPayload 300010 300, nicPayload 300070 60] (fun _ => true) "node1" 300000
    (by decide +kernel)
  have hmore : ∀ s ∈ acceptedPushes {} [nicPayload 300010 300, nicPayload 300070 60],
      (nodeFigures (fun _ => true) (archived {} [nicPayload 300010 300, nicPayload 300070 60]) "node1" 300000).row.nodeTotal ≠
        (nodeFigures (fun _ => true) (record (Config.tzOffset {}) .init s) "node1" 300000).row.nodeTotal := by
    decide +kernel
  exact hmore s hs (congrArg (fun figures => figures.row.nodeTotal) hsame)

/-- A push without NIC rows is shown with the rates of the push before it. -/
example : (getNodePhysicalNicPeriod
    (archived {} [nicPayload 300010 300, (300310, { (nicPayload 300310 300).2 with physicalInterfaces := [] })])
    "node1" 300300 .pub).isSome = true := by decide +kernel

end VirtInfra.Monitoring
