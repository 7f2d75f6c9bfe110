import VirtInfra.Monitoring.Groups
import Mathlib.Algebra.Order.Ring.Rat

/-!
# `Consumption` — the Node, Node Group and VM Consumption rows (`44_…`, `46_…`, `48_…`)

The Node dataset joins each node with its active group before the rollups are added to it, and the Node Group page adds up
the dataset. The VM rows are those of the shared snapshot, under the visibility the database has when the page is read.
-/

namespace VirtInfra.Monitoring

open Lib Python Consumption

variable {K : Type} [LinearOrder K] (env : Env K)

/-! ## The Node dataset -/

/-- An element of `_r21_node_dataset`. -/
structure DatasetItem where
  node : String
  groupId : Nat
  nodeIp : String
  publicConfigured : Bool
  privateConfigured : Bool
  bytes : NodeColumn → Nat
  vmCount : Int
  coveragePercent : ℚ
  latestSample : Int

/-- `_r21_normalized_range`. -/
def r21NormalizedRange (start stop : Int) : Int × Int :=
  let duration := max 1 (stop - start)
  let normalizedEnd := stop / env.queryCacheTtl * env.queryCacheTtl
  (normalizedEnd - duration, normalizedEnd)

/-- The `node_parts` of one node. -/
def NodeRows.parts (d : NodeRows) (plan : List NodePart) : List NodeConsumption :=
  plan.flatMap fun part =>
    let inPart := fun start : Int => decide (part.start ≤ start) && decide (start < part.stop)
    match part.resolution with
    | .raw => (d.consumption5m.select inPart).map Prod.snd
    | .hourly => (d.consumptionHourly.select inPart).map fun row => row.2.toNodeConsumption
    | .daily => (d.consumptionDaily.select inPart).map fun row => row.2.toNodeConsumption

/-- The row of a node in `node_meta`, with its `node_agg`. -/
def datasetItem (start stop : Int) (t : Tables) (row : String × NodeRows) : Option DatasetItem :=
  let (node, d) := row
  let hasRole := fun (role text : String) => env.fold text = role
  let parts := d.parts (nodeSource env.tzOffset start stop (nodeRawAvailableStart env.now))
  let expected := max 1 (stop - start)
  let physicalCoverage := min expected (parts.map NodeConsumption.physicalCoverageSeconds).sum
  let vmCoverage := min expected (parts.map NodeConsumption.vmCoverageSeconds).sum
  if d.inventory.any nodeVisible then
    (t.activeGroupOf node).map fun groupId =>
      { node, groupId
        nodeIp := (((d.addresses.filter fun b => hasRole "public" b.role).map BridgeAddress.primaryIpv4).max?).getD ""
        publicConfigured :=
          (d.physicalLatest.any fun p => hasRole "public" p.role) || d.addresses.any fun b => hasRole "public" b.role
        privateConfigured :=
          (d.physicalLatest.any fun p => hasRole "private" p.role) || d.addresses.any fun b => hasRole "private" b.role
        bytes := fun column => (parts.map fun part => part.bytes column).sum
        vmCount := ((parts.map NodeConsumption.vmCount).max?).getD 0
        coveragePercent := min 100 ((min physicalCoverage vmCoverage : ℚ) * 100 / expected)
        latestSample := ((parts.map NodeConsumption.lastPush).max?).getD 0 }
  else none

/-- **`_r21_node_dataset`**. -/
def r21NodeDataset (start stop : Int) (t : Tables) : List DatasetItem :=
  let (start, stop) := r21NormalizedRange env start stop
  orderBy false (fun item => env.fold item.node) (t.nodes.rows.filterMap (datasetItem env start stop t))

/-- `_r21_scoped_nodes`. -/
def r21ScopedNodes (start stop : Int) (selectedNode : String) (group : Nat) (t : Tables) : List DatasetItem :=
  let gid := selectedGroupId t group
  (r21NodeDataset env start stop t).filter fun item =>
    (selectedNode = "" || item.node = selectedNode) && (gid = 0 || item.groupId = gid)

/-- `_r21_totals_from_items`, which `_v5058c_node_totals` and `_v5058c_vm_totals` take their columns from. -/
def r21Totals (start stop : Int) (selectedNode : String) (group : Nat) (t : Tables) (column : NodeColumn) : Nat :=
  ((r21ScopedNodes env start stop selectedNode group t).map fun item => item.bytes column).sum

/-! ## The Node rows -/

inductive Coverage | all | complete | partly | noData
  deriving DecidableEq, Repr

structure ConsumptionArgs where
  start : Int
  stop : Int
  selectedNode : String
  q : String
  coverage : Coverage
  sortBy : String
  desc : Bool
  pageNo : Nat
  limit : Nat
  group : Nat

/-- `(rows, total, page_no, max_page)`. -/
structure PageOf (ρ : Type) where
  rows : List ρ
  total : Nat
  pageNo : Nat
  maxPage : Nat

def Coverage.keeps (coverage : Coverage) (latestSample : Int) (percent : ℚ) : Bool :=
  match coverage with
  | .all => true
  | .complete => decide (0 < latestSample) && decide (199 / 2 ≤ percent)
  | .partly => decide (0 < latestSample) && decide (percent < 199 / 2)
  | .noData => decide (latestSample ≤ 0)

def totalOf (bytes : NodeColumn → Nat) (meter : Meter) (role : Consumption.Role) : ℚ :=
  bytes ⟨meter, role, .rx⟩ + bytes ⟨meter, role, .tx⟩

/-- The byte columns of `_v5090_node_sort_value` and `_v5090_group_sort_value`. -/
def bytesSortValue (bytes : NodeColumn → Nat) (sortBy : String) : Option ℚ :=
  match sortBy with
  | "physical_public_rx" => some (bytes ⟨.physical, .pub, .rx⟩)
  | "physical_public_tx" => some (bytes ⟨.physical, .pub, .tx⟩)
  | "physical_public_total" => some (totalOf bytes .physical .pub)
  | "vm_public_rx" => some (bytes ⟨.vm, .pub, .rx⟩)
  | "vm_public_tx" => some (bytes ⟨.vm, .pub, .tx⟩)
  | "vm_public_total" => some (totalOf bytes .vm .pub)
  | "public_difference" => some (totalOf bytes .physical .pub - totalOf bytes .vm .pub)
  | "physical_private_rx" => some (bytes ⟨.physical, .priv, .rx⟩)
  | "physical_private_tx" => some (bytes ⟨.physical, .priv, .tx⟩)
  | "physical_private_total" => some (totalOf bytes .physical .priv)
  | "vm_private_rx" => some (bytes ⟨.vm, .priv, .rx⟩)
  | "vm_private_tx" => some (bytes ⟨.vm, .priv, .tx⟩)
  | "vm_private_total" => some (totalOf bytes .vm .priv)
  | "private_difference" => some (totalOf bytes .physical .priv - totalOf bytes .vm .priv)
  | _ => none

/-- `_v5090_node_sort_value`, but for the column `node`. -/
def nodeSortValue (sortBy : String) (item : DatasetItem) : ℚ :=
  match sortBy with
  | "vm_count" => item.vmCount
  | "coverage" => item.coveragePercent
  | "latest_sample" => item.latestSample
  | _ => (bytesSortValue item.bytes sortBy).getD (totalOf item.bytes .physical .pub)

def maxPageOf (total limit : Nat) : Nat := max 1 ((total + limit - 1) / limit)

/-- **`_v5058c_node_rows`**. -/
def consumptionNodeRows (args : ConsumptionArgs) (t : Tables) : PageOf DatasetItem :=
  let needle := env.fold (strip args.q)
  let kept := (r21ScopedNodes env args.start args.stop "" args.group t).filter fun item =>
    (needle = "" || contains needle (env.fold item.node) || contains needle (env.fold item.nodeIp)) &&
      args.coverage.keeps item.latestSample item.coveragePercent
  let byName := orderBy false (fun item => env.fold item.node) kept
  let rows :=
    if args.sortBy = "node" then orderBy args.desc (fun item => env.fold item.node) byName
    else orderBy args.desc (nodeSortValue args.sortBy) byName
  let limit := max 1 args.limit
  let maxPage := maxPageOf rows.length limit
  let pageNo := if maxPage < max 1 args.pageNo then 1 else max 1 args.pageNo
  ⟨(rows.drop ((pageNo - 1) * limit)).take limit, rows.length, pageNo, maxPage⟩

/-! ## The Node Group page -/

/-- A line of `_r20_group_page`. -/
structure GroupItem where
  gid : Nat
  name : String
  countryCode : String
  nodes : Nat
  vmCount : Int
  bytes : NodeColumn → Nat
  coverage : ℚ
  latest : Int

/-- `grouped[gid]`, of a group that `all_group_rows` gives. -/
def groupItem (dataset : List DatasetItem) (row : Nat × GroupRow) : GroupItem :=
  let items := dataset.filter fun item => item.groupId = row.1
  { gid := row.1, name := row.2.name, countryCode := row.2.countryCode, nodes := items.length
    vmCount := (items.map DatasetItem.vmCount).sum
    bytes := fun column => (items.map fun item => item.bytes column).sum
    coverage := if items.isEmpty then 0 else (items.map DatasetItem.coveragePercent).sum / items.length
    latest := newestOr 0 id (0 :: items.map DatasetItem.latestSample) }

/-- `V5090_GROUP_SORTS`, but for the column `group`. -/
def groupSorts : List String :=
  ["nodes", "vms", "physical_public_rx", "physical_public_tx", "physical_public_total", "vm_public_rx", "vm_public_tx",
    "vm_public_total", "public_difference", "physical_private_rx", "physical_private_tx", "physical_private_total",
    "vm_private_rx", "vm_private_tx", "vm_private_total", "private_difference", "coverage", "latest_sample"]

/-- `_v5090_group_sort_value`, of these columns. -/
def groupSortValue (sortBy : String) (item : GroupItem) : ℚ :=
  match sortBy with
  | "nodes" => item.nodes
  | "vms" => item.vmCount
  | "coverage" => item.coverage
  | "latest_sample" => item.latest
  | _ => (bytesSortValue item.bytes sortBy).getD 0

/-- **`_r20_group_page`**: its lines. -/
def r20GroupPage (seconds : Int) (sortBy : String) (desc : Bool) (group : Nat) (t : Tables) : List GroupItem :=
  let selected := selectedGroupId t group
  let dataset := r21NodeDataset env (env.now - seconds) env.now t
  let groups := orderBy false (fun row => toLex (env.fold row.2.name, row.1))
    (t.groups.rows.filter fun row => row.2.isActive)
  let items := (groups.filter fun row => selected = 0 || row.1 = selected).map (groupItem dataset)
  let byName := orderBy false (fun item => env.fold item.name) items
  if sortBy ∈ groupSorts then orderBy desc (groupSortValue sortBy) byName
  else orderBy desc (fun item => env.fold item.name) byName

/-! ## The VM rows -/

/-- A row of `_v5058c_vm_rows`. -/
structure VmLine where
  vmUuid : String
  node : String
  row : Snapshot.SnapshotRow

/-- `_r2212_period_key`. -/
def r2212PeriodKey (start stop : Int) : String :=
  ((Snapshot.periods.find? fun p => p.2 = max env.slotSeconds (stop - start)).map Prod.fst).getD "24h"

/-- `_r2212_select_snapshot`: the newest ready batch that is not too old. -/
def r2212SelectSnapshot (t : Tables) (periodKey : String) (requestedEnd : Int) : Option Int :=
  ((t.batches.rows.filter fun row => row.1.1 = periodKey && row.2.isReady && decide (row.1.2 ≤ requestedEnd) &&
    decide (row.1.2 ≥ requestedEnd - env.maxStaleSeconds)).map fun row => row.1.2).max?

/-- `_r2212_search_where`. -/
def vmSearch (q node : String) (d : NodeRows) (vm : String) (row : Snapshot.SnapshotRow) : Bool :=
  let q := strip q
  let mac := normalizeMacAddress q
  let like := fun value => env.like (env.fold value) (env.fold q)
  q = "" || like row.vmName || like vm || like node || like row.nodeIp ||
    d.vmNicIdentities.any fun l => l.vmUuid = vm && (like l.mac || isMac mac l.mac)

/-- The rows of a node that `_r2212_snapshot_where` keeps. -/
def vmLines (args : ConsumptionArgs) (key : Snapshot.Key) (gid : Nat) (t : Tables) (row : String × NodeRows) :
    List VmLine :=
  let (node, d) := row
  if (args.selectedNode = "" || node = args.selectedNode) && d.inventory.any nodeVisible &&
      (t.activeGroupOf node).any (fun g => gid = 0 || g = gid) then
    (d.consumptionSnapshot.rows.filter fun r =>
      r.1.1 = key && d.vmListed r.1.2 && vmSearch env args.q node d r.1.2 r.2 &&
        args.coverage.keeps r.2.latestSample r.2.coveragePercent).map fun r => ⟨r.1.2, node, r.2⟩
  else []

/-- The numeric columns of `R2212_VM_SORTS`. -/
def vmSortValue (sortBy : String) (line : VmLine) : ℚ :=
  match sortBy with
  | "public_rx" => line.row.publicRx
  | "public_tx" => line.row.publicTx
  | "private_rx" => line.row.privateRx
  | "private_tx" => line.row.privateTx
  | "private_total" => line.row.privateTotal
  | "coverage" => line.row.coveragePercent
  | "latest_sample" => line.row.latestSample
  | _ => line.row.publicTotal

/-- **`_v5058c_vm_rows`** of the shared snapshot. -/
def consumptionVmRows (args : ConsumptionArgs) (t : Tables) : PageOf VmLine :=
  let periodKey := r2212PeriodKey env args.start args.stop
  let requestedEnd := args.stop / env.slotSeconds * env.slotSeconds
  match r2212SelectSnapshot env t periodKey requestedEnd with
  | none => ⟨[], 0, 1, 1⟩
  | some snapshotEnd =>
      let kept := t.nodes.rows.flatMap (vmLines env args (periodKey, snapshotEnd) (selectedGroupId t args.group) t)
      let byUuid := orderBy (!((args.sortBy = "uuid" || args.sortBy = "node") && !args.desc)) VmLine.vmUuid kept
      let rows :=
        match args.sortBy with
        | "uuid" => orderBy args.desc VmLine.vmUuid byUuid
        | "node" => orderBy args.desc VmLine.node byUuid
        | _ => orderBy args.desc (vmSortValue args.sortBy) byUuid
      let limit := max 1 args.limit
      let maxPage := maxPageOf rows.length limit
      let pageNo := min (max 1 args.pageNo) maxPage
      ⟨(rows.drop ((pageNo - 1) * limit)).take limit, rows.length, pageNo, maxPage⟩

/-! ## What they show -/

variable {env} {t : Tables}

omit [LinearOrder K] in
theorem r21NodeDataset_erase (start stop : Int) : r21NodeDataset env start stop t.erase = r21NodeDataset env start stop t := by
  unfold r21NodeDataset
  dsimp only
  have hitem : ∀ row, datasetItem env (r21NormalizedRange env start stop).1 (r21NormalizedRange env start stop).2 t.erase row =
      datasetItem env (r21NormalizedRange env start stop).1 (r21NormalizedRange env start stop).2 t row := by
    intro row
    unfold datasetItem
    dsimp only
    rw [Tables.activeGroupOf_erase]
  rw [Tables.rows_nodes_erase, List.filterMap_congr fun row _ => hitem row, filterMap_filter_of_none]
  -- A node of a hidden group has no active group, and nothing is made of it.
  intro row _ hhidden
  unfold datasetItem
  dsimp only
  split
  · rw [Option.map_eq_none_iff, Option.eq_none_iff_forall_ne_some]
    intro groupId hgroup
    simp [Tables.shown, Tables.not_hiddenNode_of_activeGroupOf hgroup] at hhidden
  · rfl

omit [LinearOrder K] in
theorem r21ScopedNodes_erase (start stop : Int) (selectedNode : String) (group : Nat) :
    r21ScopedNodes env start stop selectedNode group t.erase = r21ScopedNodes env start stop selectedNode group t := by
  unfold r21ScopedNodes
  rw [r21NodeDataset_erase, selectedGroupId_erase]

omit [LinearOrder K] in
theorem r21Totals_erase (start stop : Int) (selectedNode : String) (group : Nat) :
    r21Totals env start stop selectedNode group t.erase = r21Totals env start stop selectedNode group t := by
  unfold r21Totals
  rw [r21ScopedNodes_erase]

omit [LinearOrder K] in
theorem consumptionNodeRows_erase (args : ConsumptionArgs) :
    consumptionNodeRows env args t.erase = consumptionNodeRows env args t := by
  unfold consumptionNodeRows
  rw [r21ScopedNodes_erase]

omit [LinearOrder K] in
theorem r20GroupPage_erase (seconds : Int) (sortBy : String) (desc : Bool) (group : Nat) :
    r20GroupPage env seconds sortBy desc group t.erase = r20GroupPage env seconds sortBy desc group t := by
  unfold r20GroupPage
  rw [r21NodeDataset_erase, selectedGroupId_erase, activeGroups_erase]

omit [LinearOrder K] in
theorem consumptionVmRows_erase (args : ConsumptionArgs) :
    consumptionVmRows env args t.erase = consumptionVmRows env args t := by
  have hlines : ∀ key gid, (t.erase.nodes.rows.flatMap (vmLines env args key gid t.erase)) =
      t.nodes.rows.flatMap (vmLines env args key gid t) := by
    intro key gid
    have hline : vmLines env args key gid t.erase = vmLines env args key gid t := by
      funext row
      unfold vmLines
      dsimp only
      rw [Tables.activeGroupOf_erase]
    rw [hline, Tables.rows_nodes_erase, flatMap_filter_of_nil]
    intro row _ hhidden
    unfold vmLines
    dsimp only
    have hgroup : t.activeGroupOf row.1 = none := by
      rw [Option.eq_none_iff_forall_ne_some]
      intro groupId hgroup
      simp [Tables.shown, Tables.not_hiddenNode_of_activeGroupOf hgroup] at hhidden
    rw [hgroup]
    simp
  unfold consumptionVmRows
  rw [selectedGroupId_erase]
  have hbatches : ∀ periodKey requestedEnd, r2212SelectSnapshot env t.erase periodKey requestedEnd =
      r2212SelectSnapshot env t periodKey requestedEnd := fun _ _ => rfl
  simp only [hbatches, hlines]

end VirtInfra.Monitoring
