import VirtInfra.Monitoring.Tables
import Mathlib.Data.List.Infix
import Mathlib.Data.Prod.Lex
import Mathlib.Data.String.Basic
import Mathlib.Order.WithBot

/-!
# `Groups` — node rows and Node Groups (`node_groups.py`, `03_dashboard_nodes.py`, `14_abuse_metrics_ui.py`)

The dashboard's node list takes the rows of all nodes from the reader it wraps and leaves out the nodes of hidden groups.
The times of the listing come from the wrapped reader as well, which took them over all its rows. The Node Groups page joins
the active groups before it counts.
-/

namespace VirtInfra.Monitoring

open Lib Python

/-! ## What a line is made of -/

/-- A line of the live node list: the columns of the `SELECT` are sums and quotients of these rows. -/
structure LiveRow where
  node : String
  fast : FastNode
  physical : List PhysicalNet
  addresses : List BridgeAddress

/-- A line of the retained node list. -/
structure HistoryRow where
  node : String
  liveLastSeen : Int
  selectedBucket : Int
  snapshot : Option PushSnapshot
  vmNet : List VmStat
  physical : List PhysicalStat
  addresses : List BridgeAddress
  host : Option HostStat

/-- A line of a group's node list. -/
structure DetailRow where
  node : String
  vmCount : Nat
  fast : Option FastNode
  abuseCount : Nat
  lastUpdate : Int
  groupName : String
  countryCode : String

/-- **The environment of a request**: the clock, the settings, and the text operators of the database. The columns that a
    request can sort a list by are read off its lines by `liveColumn`, `historyColumn` and `detailColumn`. -/
structure Env (K : Type) where
  now : Int
  /-- `value LIKE pattern`, with the pattern of a search text. -/
  like : String → String → Bool
  /-- `LOWER`, which `COLLATE NOCASE` compares by, and `.lower()`. -/
  fold : String → String
  fastCurrentStaleSeconds : Int
  hourlyRetentionDays : Int
  statusPushSeconds : Int
  statusWarningMisses : Int
  policyRevision : Int
  abuseEngineVersion : String
  tzOffset : Int
  queryCacheTtl : Int
  slotSeconds : Int
  maxStaleSeconds : Int
  liveColumn : String → LiveRow → K
  historyColumn : String → HistoryRow → K
  detailColumn : String → DetailRow → Option K

/-- `needle in text`. -/
def contains (needle text : String) : Bool := decide (needle.toList <:+: text.toList)

variable {K : Type} [LinearOrder K] (env : Env K)

/-! ## Which nodes a page may show -/

/-- `selected_group_id`, of the cleaned `group` argument: a group that is hidden or not there selects all nodes. -/
def selectedGroupId (t : Tables) (group : Nat) : Nat := if (t.activeGroup group).isSome then group else 0

/-- `node IN effective_visible_nodes(group_id)`. -/
def effectiveVisible (t : Tables) (groupId : Nat) (node : String) : Bool :=
  (t.nodes.get? node).any (fun d => d.inventory.any nodeVisible) &&
    (t.activeGroupOf node).any fun g => groupId = 0 || g = groupId

/-! ## The node list -/

structure NodeRowsArgs where
  period : String
  q : String
  sortBy : String
  desc : Bool
  target : Option Int
  group : Nat

/-- `(rows, start, end)`. -/
structure Listing (ρ : Type) where
  rows : List ρ
  start : Int
  stop : Int

/-- `value=?` for a normalized MAC, when there is one. -/
def isMac (mac value : String) : Bool := mac != "" && value = mac

def BridgeAddress.matches (like : String → Bool) (isMac : String → Bool) (b : BridgeAddress) : Bool :=
  like b.primaryIpv4 || like b.ipv4Json || like b.primaryIpv6 || like b.ipv6Json || like b.bridge || like b.mac ||
    isMac b.mac

/-- The join of `vm_nic_identity_lookup` and `vm_iface_current`. -/
def VmNicIdentity.of (l : VmNicIdentity) (i : VmIface) : Bool :=
  i.vmUuid = l.vmUuid && i.bridge = l.bridge && i.iface = l.iface && i.mac = l.mac

/-- The search of the live list, for one node. -/
def liveMatches (q node : String) (d : NodeRows) : Bool :=
  let mac := normalizeMacAddress q
  let like := fun value => env.like value q
  q = "" || like node || d.vmCurrentFast.keys.any like || d.addresses.any (BridgeAddress.matches like (isMac mac)) ||
    (d.vmNicIdentities.any fun l => d.vmIfaces.any fun i =>
      l.of i && (like i.vmUuid || like i.iface || like i.bridge || like l.mac || isMac mac l.mac)) ||
    d.nicIdentities.any fun l => d.physicalLatest.any fun pn =>
      pn.role = l.role && pn.mac = l.mac &&
        (like pn.iface || like pn.bridge || like pn.role || like l.mac || isMac mac l.mac)

/-- The row of a node with a fresh `node_current_fast` row whose inventory row, if any, is visible. -/
def liveRow (q : String) (row : String × NodeRows) : Option LiveRow :=
  let (node, d) := row
  let staleAfter := env.now - env.fastCurrentStaleSeconds
  d.currentFast.bind fun fast =>
    if decide (fast.lastSeen ≥ staleAfter) && d.inventory.all nodeVisible && liveMatches env q node d then
      some
        { node, fast
          physical := d.physicalLatest.filter fun p =>
            decide (p.lastSeen ≥ staleAfter) && (env.fold p.role = "public" || env.fold p.role = "private")
          addresses := d.addresses }
    else none

/-- The rows of the live list of the wrapped reader. -/
def liveRows (args : NodeRowsArgs) (t : Tables) : List LiveRow :=
  orderBy args.desc (env.liveColumn args.sortBy)
    (orderBy false (fun row => env.fold row.node) (t.nodes.rows.filterMap (liveRow env args.q)))

/-- Its `vm_inventory` row says that the VM is not hidden. -/
def NodeRows.vmListed (d : NodeRows) (vm : String) : Bool := (d.vmInventory.get? vm).any vmVisible

/-- The search of the retained list, for one node. -/
def historyMatches (q node : String) (locations : List (String × Inventory.LocationRow)) (d : NodeRows) : Bool :=
  let mac := normalizeMacAddress q
  let like := fun value => env.like value q
  let sameMac := fun value => mac != "" && env.fold value = env.fold mac
  q = "" || like node || d.addresses.any (BridgeAddress.matches like sameMac) ||
    (d.vmInventory.rows.any fun (vm, r) => vmVisible r && (like vm || like r.lastIface || like r.lastBridge)) ||
    (locations.any fun (vm, r) =>
      r.node = node && d.vmListed vm && (like vm || like r.lastIface || like r.lastBridge)) ||
    (d.vmPresence.rows.any fun (vm, r) => d.vmListed vm && (like vm || like r.lastIface || like r.lastBridge)) ||
    (d.vmIfaces.any fun i => d.vmListed i.vmUuid && (like i.iface || like i.mac || sameMac i.mac)) ||
    (d.vmLatestMetrics.rows.any fun (vm, r) => d.vmListed vm && (like vm || like r.iface || like r.bridge)) ||
    d.physicalLatest.any fun p => like p.iface || like p.bridge || like p.role || like p.mac || sameMac p.mac

/-- `requested` and `offset`. -/
def requestedPoint (args : NodeRowsArgs) : Int × Int :=
  let oldest := env.now - env.hourlyRetentionDays * 86400
  match args.target with
  | some target =>
      let requested := max oldest (min env.now target)
      (requested, max 0 (env.now - requested))
  | none =>
      let offset := max 0 (periodSeconds (cleanPeriod args.period) - cacheBucketSeconds)
      (max oldest (env.now - offset), offset)

/-- `COALESCE((SELECT MAX(bucket) … WHERE bucket<=limit), (SELECT MIN(bucket) …))`. -/
def selectedBucket (limit : Int) (snapshots : List PushSnapshot) : Option Int :=
  let buckets := snapshots.map PushSnapshot.bucket
  ((buckets.filter fun b => b ≤ limit).max?).or buckets.min?

/-- The row of a node with retained pushes. -/
def historyRow (args : NodeRowsArgs) (locations : List (String × Inventory.LocationRow)) (row : String × NodeRows) :
    Option HistoryRow :=
  let (node, d) := row
  let (requested, offset) := requestedPoint env args
  let selectionLimit := if args.target.isSome then requested else 0
  let latestBucket := ((d.pushSnapshots.map PushSnapshot.bucket).max?).getD 0
  let physicalLive := ((d.physicalLatest.map PhysicalNet.lastSeen).max?).getD 0
  let liveLastSeen := max ((d.inventory.map Inventory.NodeRow.lastPush).getD 0)
    (max (d.agentHealth.getD 0) (max (d.hostLatest.getD 0) (max physicalLive latestBucket)))
  if decide (0 < latestBucket) && d.inventory.all nodeVisible &&
      decide (liveLastSeen ≥ env.now - nodeAutoDeleteSeconds) && historyMatches env (strip args.q) node locations d then
    (selectedBucket (if 0 < selectionLimit then selectionLimit else latestBucket - offset) d.pushSnapshots).map
      fun bucket =>
        { node, liveLastSeen
          selectedBucket := bucket
          snapshot := d.pushSnapshots.find? fun s => s.bucket = bucket
          vmNet := d.netStats.filter fun s =>
            s.bucket = bucket && (d.vmInventory.get? s.vmUuid).all vmVisible
          physical := d.physicalStats.filter fun s => s.bucket = bucket
          addresses := d.addresses
          host := (orderBy true (fun h => toLex (h.time, h.id)) (d.hostStats.filter fun h => h.bucket = bucket)).head? }
  else none

/-- The rows of the retained list of the wrapped reader. -/
def historyRows (args : NodeRowsArgs) (t : Tables) : List HistoryRow :=
  orderBy args.desc (env.historyColumn args.sortBy)
    (orderBy false (fun row => env.fold row.node) (t.nodes.rows.filterMap (historyRow env args t.locations.rows)))

/-- The live 5-minute list is asked for, not a retained one. -/
def NodeRowsArgs.live (args : NodeRowsArgs) : Bool := args.target.isNone && cleanPeriod args.period = "5m"

/-- The `start` of the retained list: its newest bucket, or the requested point. -/
def selectedDisplay (args : NodeRowsArgs) (rows : List HistoryRow) : Int :=
  newestOr (requestedPoint env args).1 HistoryRow.selectedBucket (rows.filter fun row => 0 < row.selectedBucket)

/-- **`get_node_rows`**: the rows of the wrapped reader on nodes that may be shown, and its times. -/
def getNodeRows (args : NodeRowsArgs) (t : Tables) : Listing LiveRow ⊕ Listing HistoryRow :=
  let allowed := effectiveVisible t (selectedGroupId t args.group)
  if args.live then
    let rows := liveRows env args t
    let latest := newestOr env.now (fun row => row.fast.lastSeen) rows
    .inl ⟨rows.filter fun row => allowed row.node, latest, latest⟩
  else
    let rows := historyRows env args t
    .inr ⟨rows.filter fun row => allowed row.node, selectedDisplay env args rows, env.now⟩

/-- **The times of the listing are those of rows that are shown**: no row on a node of a hidden group is newer. -/
def NodeRowsClear (args : NodeRowsArgs) (t : Tables) : Prop :=
  if args.live then
    NoneNewer env.now (fun row : LiveRow => row.fast.lastSeen) (fun row => t.shown row.node) (liveRows env args t)
  else
    NoneNewer (requestedPoint env args).1 HistoryRow.selectedBucket (fun row => t.shown row.node)
      ((historyRows env args t).filter fun row => 0 < row.selectedBucket)

/-! ## The Node Groups page -/

inductive Health | healthy | warning | down
  deriving DecidableEq, Repr

/-- `health_state`. -/
def healthState (lastPush : Int) : Health :=
  if lastPush = 0 then .down
  else
    let missed := max 0 (env.now - lastPush) / env.statusPushSeconds
    if missed < env.statusWarningMisses then .healthy
    else if missed = env.statusWarningMisses then .warning
    else .down

inductive GroupStatus | offline | critical | warning | healthy | empty | unknown
  deriving DecidableEq, Repr

/-- `_status_rank`. -/
def GroupStatus.rank : GroupStatus → Nat
  | .offline => 0
  | .critical => 1
  | .warning => 2
  | .healthy => 3
  | .empty => 4
  | .unknown => 5

def GroupStatus.text : GroupStatus → String
  | .offline => "offline"
  | .critical => "critical"
  | .warning => "warning"
  | .healthy => "healthy"
  | .empty => "empty"
  | .unknown => "unknown"

/-- An element of `_node_group_summary_data()`. -/
structure GroupSummary where
  id : Nat
  name : String
  description : String
  countryCode : String
  system : Bool
  nodeCount : Nat
  vmCount : Nat
  abuseCount : Nat
  lastUpdate : Int
  status : GroupStatus

/-- The visible nodes of a group. -/
def groupNodes (t : Tables) (groupId : Nat) : List (String × NodeRows) :=
  t.nodes.rows.filter fun row => t.members.get? row.1 = some groupId && row.2.inventory.any nodeVisible

/-- `COALESCE(ncf.last_seen, ni.last_push, 0)`. -/
def NodeRows.lastUpdate (d : NodeRows) : Int :=
  ((d.currentFast.map FastNode.lastSeen).or (d.inventory.map Inventory.NodeRow.lastPush)).getD 0

def NodeRows.vmCount (d : NodeRows) : Nat := (d.vmInventory.rows.filter fun row => vmVisible row.2).length

/-- The current abuse rows of the node's visible VMs. -/
def NodeRows.currentAbuse (d : NodeRows) : List (String × AbuseState) :=
  d.vmAbuse.rows.filter fun (vm, a) =>
    a.isAbuse && decide (a.lastSeen ≥ env.now - env.fastCurrentStaleSeconds) && a.policyRevision = env.policyRevision &&
      a.engineVersion = env.abuseEngineVersion && d.vmListed vm

/-- The summary of one group. -/
def summaryOf (t : Tables) (groupId : Nat) (g : GroupRow) : GroupSummary :=
  let nodes := groupNodes t groupId
  let last := ((nodes.map fun row => row.2.lastUpdate).max?).getD 0
  let abuse := nodes.flatMap fun (node, d) => (d.currentAbuse env).map fun (vm, a) => (node ++ ":" ++ vm, a)
  let abuseCount := ((abuse.map Prod.fst).dedup).length
  let critical := abuse.any fun (_, a) => contains "CRITICAL" (upper a.abuseFlags)
  -- A node that never pushed is neither down nor warned about.
  let states := nodes.map fun row => if 0 < row.2.lastUpdate then some (healthState env row.2.lastUpdate) else none
  { id := groupId, name := g.name, description := g.description, countryCode := g.countryCode, system := g.isSystem
    nodeCount := nodes.length
    vmCount := (nodes.map fun row => row.2.vmCount).sum
    abuseCount, lastUpdate := last
    status :=
      if nodes.isEmpty then .empty
      else if last = 0 then .unknown
      else if states.all (· = some .down) then .offline
      else if critical then .critical
      else if abuseCount ≠ 0 || states.any fun state => state = some .down || state = some .warning then .warning
      else .healthy }

/-- `_node_group_summary_data`: the active groups, the system group first. -/
def nodeGroupSummaryData (t : Tables) : List GroupSummary :=
  (orderBy true (fun row => row.2.isSystem)
    (orderBy false (fun row => env.fold row.2.name) (t.groups.rows.filter fun row => row.2.isActive))).map
    fun row => summaryOf env t row.1 row.2

structure GroupsArgs where
  q : String := ""
  nodeQ : String := ""
  status : String := ""
  abuse : String := ""
  online : String := ""
  sort : String := "status"
  desc : Bool := false

/-- The filters of `_filtered_sorted_group_summaries`. -/
def GroupsArgs.keeps (args : GroupsArgs) (t : Tables) (row : GroupSummary) : Bool :=
  (args.nodeQ = "" || (groupNodes t row.id).any fun n => env.like (env.fold n.1) args.nodeQ) &&
    (args.q = "" || contains args.q (env.fold row.name) || contains args.q (env.fold row.description)) &&
    (args.status = "" || row.status.text = args.status) &&
    (args.abuse != "yes" || decide (0 < row.abuseCount)) && (args.abuse != "no" || row.abuseCount = 0) &&
    (args.online != "online" || !decide (row.status ∈ [.offline, .unknown, .empty])) &&
    (args.online != "offline" || row.status = .offline)

/-- **`_filtered_sorted_group_summaries`**, by name first. -/
def filteredSortedGroupSummaries (args : GroupsArgs) (t : Tables) : List GroupSummary :=
  let rows := orderBy false (fun row => env.fold row.name) ((nodeGroupSummaryData env t).filter (args.keeps env t))
  match args.sort with
  | "name" => orderBy args.desc (fun row => env.fold row.name) rows
  | "updated" =>
      orderBy false (fun row => toLex (decide (row.lastUpdate ≤ 0),
        if args.desc then -row.lastUpdate else row.lastUpdate)) rows
  | "nodes" => orderBy args.desc GroupSummary.nodeCount rows
  | "vms" => orderBy args.desc GroupSummary.vmCount rows
  | "abuse" => orderBy args.desc GroupSummary.abuseCount rows
  | _ => orderBy args.desc (fun row => row.status.rank) rows

/-! ## The nodes of a group -/

structure GroupNodesArgs where
  groupId : Nat
  nodeQ : String
  sort : String
  desc : Bool

/-- `_node_group_detail_rows`. -/
def nodeGroupDetailRows (args : GroupNodesArgs) (g : GroupRow) (t : Tables) : List DetailRow :=
  ((groupNodes t args.groupId).filter fun n => args.nodeQ = "" || env.like (env.fold n.1) args.nodeQ).map fun (node, d) =>
    { node, vmCount := d.vmCount, fast := d.currentFast, abuseCount := (d.currentAbuse env).length
      lastUpdate := d.lastUpdate, groupName := g.name, countryCode := g.countryCode }

/-- `_sort_node_detail`: rows without a value come last. -/
def sortNodeDetail (sort : String) (desc : Bool) (rows : List DetailRow) : List DetailRow :=
  let ordered := orderBy false (fun row => env.fold row.node) rows
  if sort = "node" then orderBy desc (fun row => env.fold row.node) ordered
  else
    orderBy desc (fun row => (env.detailColumn sort row).elim (⊥ : WithBot K) (↑)) (ordered.filter fun row => (env.detailColumn sort row).isSome) ++
      ordered.filter fun row => (env.detailColumn sort row).isNone

/-- **`node_group_nodes`**: 404 for a group that is hidden or not there. -/
def nodeGroupNodes (args : GroupNodesArgs) (t : Tables) : Option (List DetailRow) :=
  (t.activeGroup args.groupId).map fun g => sortNodeDetail env args.sort args.desc (nodeGroupDetailRows env args g t)

/-! ## The node list shows -/

variable {env} {t : Tables}

omit [LinearOrder K] in
@[simp] theorem selectedGroupId_erase (group : Nat) : selectedGroupId t.erase group = selectedGroupId t group := by
  simp [selectedGroupId]

theorem shown_of_effectiveVisible {groupId : Nat} {node : String} (h : effectiveVisible t groupId node = true) :
    t.shown node = true := by
  obtain ⟨-, hgroup⟩ := Bool.and_eq_true_iff.mp h
  obtain ⟨g, hg, -⟩ := (Option.any_eq_true _ _).mp hgroup
  simp [Tables.shown, Tables.not_hiddenNode_of_activeGroupOf hg]

@[simp] theorem effectiveVisible_erase (groupId : Nat) (node : String) :
    effectiveVisible t.erase groupId node = effectiveVisible t groupId node := by
  unfold effectiveVisible
  rw [Tables.activeGroupOf_erase]
  cases hhidden : t.hiddenNode node with
  | false => rw [Tables.get?_nodes_erase hhidden]
  | true =>
      have hnone : t.activeGroupOf node = none := by
        rw [← Tables.activeGroupOf_erase, Tables.activeGroupOf, Tables.get?_members_erase_of_hidden hhidden]
        rfl
      simp [hnone]

omit [LinearOrder K] in
theorem liveRow_node {q : String} {row : String × NodeRows} {live : LiveRow} (h : liveRow env q row = some live) :
    live.node = row.1 := by
  obtain ⟨fast, -, hrow⟩ := Option.bind_eq_some_iff.mp h
  split at hrow
  · obtain rfl := Option.some.inj hrow
    rfl
  · cases hrow

/-- The live list of the erased database is the part of the list on nodes that are shown. -/
theorem liveRows_erase (args : NodeRowsArgs) :
    liveRows env args t.erase = (liveRows env args t).filter fun row => t.shown row.node := by
  unfold liveRows
  rw [filter_orderBy, filter_orderBy, Tables.rows_nodes_erase,
    filterMap_filter_fst LiveRow.node (fun _ _ => liveRow_node) t.shown]

omit [LinearOrder K] in
/-- The search of a node that is shown reads the locations on it. -/
theorem historyMatches_erase {q node : String} {d : NodeRows} (h : t.shown node = true) :
    historyMatches env q node t.erase.locations.rows d = historyMatches env q node t.locations.rows d := by
  have hlocations : ∀ f : String × Inventory.LocationRow → Bool,
      (t.erase.locations.rows.any fun row => row.2.node = node && f row) =
        t.locations.rows.any fun row => row.2.node = node && f row := by
    intro f
    show (t.locations.rows.filter fun row => !t.hiddenNode row.2.node).any _ = _
    rw [List.any_filter]
    congr 1
    funext row
    by_cases hnode : row.2.node = node
    · have hshown : t.hiddenNode node = false := by simpa [Tables.shown] using h
      simp [hnode, hshown]
    · simp [hnode]
  have hany := hlocations fun row =>
    d.vmListed row.1 && (env.like row.1 q || env.like row.2.lastIface q || env.like row.2.lastBridge q)
  simp only [← Bool.and_assoc] at hany
  unfold historyMatches
  dsimp only
  rw [hany]

omit [LinearOrder K] in
theorem historyRow_node {args : NodeRowsArgs} {locations : List (String × Inventory.LocationRow)}
    {row : String × NodeRows} {line : HistoryRow} (h : historyRow env args locations row = some line) :
    line.node = row.1 := by
  unfold historyRow at h
  dsimp only at h
  split at h
  · obtain ⟨bucket, -, rfl⟩ := Option.map_eq_some_iff.mp h
    rfl
  · cases h

theorem historyRows_erase (args : NodeRowsArgs) :
    historyRows env args t.erase = (historyRows env args t).filter fun row => t.shown row.node := by
  unfold historyRows
  rw [filter_orderBy, filter_orderBy, Tables.rows_nodes_erase,
    ← filterMap_filter_fst HistoryRow.node (fun _ _ => historyRow_node) t.shown]
  congr 2
  refine List.filterMap_congr fun row hrow => ?_
  unfold historyRow
  dsimp only
  rw [historyMatches_erase (List.mem_filter.mp hrow).2]

/-- What is allowed is shown, so a list loses nothing when its hidden rows go first. -/
theorem filter_allowed {ρ : Type} {name : ρ → String} {groupId : Nat} (rows : List ρ) :
    (rows.filter fun row => t.shown (name row)).filter (fun row => effectiveVisible t groupId (name row)) =
      rows.filter fun row => effectiveVisible t groupId (name row) := by
  rw [List.filter_filter]
  refine List.filter_congr fun row _ => ?_
  cases hvisible : effectiveVisible t groupId (name row) with
  | false => rfl
  | true => simp [shown_of_effectiveVisible hvisible]

/-- **The node list shows nothing hidden exactly when its times do not.** -/
theorem getNodeRows_erase_iff (args : NodeRowsArgs) :
    getNodeRows env args t = getNodeRows env args t.erase ↔ NodeRowsClear env args t := by
  unfold getNodeRows NodeRowsClear
  simp only [selectedGroupId_erase, effectiveVisible_erase]
  split
  · rw [liveRows_erase, filter_allowed, ← newestOr_filter_iff]
    simp
  · rw [historyRows_erase, filter_allowed, ← newestOr_filter_iff]
    have hbuckets : selectedDisplay env args ((historyRows env args t).filter fun row => t.shown row.node) =
        newestOr (requestedPoint env args).1 HistoryRow.selectedBucket
          (((historyRows env args t).filter fun row => 0 < row.selectedBucket).filter fun row => t.shown row.node) := by
      unfold selectedDisplay
      rw [List.filter_filter, List.filter_filter]
      simp only [Bool.and_comm]
    rw [hbuckets]
    simp [selectedDisplay]

/-! ## The Node Groups page shows -/

theorem groupNodes_erase {groupId : Nat} (h : (t.activeGroup groupId).isSome) :
    groupNodes t.erase groupId = groupNodes t groupId := by
  unfold groupNodes
  rw [Tables.rows_nodes_erase, List.filter_filter]
  refine List.filter_congr fun row _ => ?_
  cases hhidden : t.hiddenNode row.1 with
  | false => simp [Tables.shown, hhidden, Tables.get?_members_erase hhidden]
  | true =>
      have hmember : t.members.get? row.1 ≠ some groupId := by
        intro hmember
        rw [Tables.not_hiddenNode_of_member hmember h] at hhidden
        cases hhidden
      simp [Tables.shown, hhidden, hmember]

omit [LinearOrder K] in
theorem summaryOf_erase {groupId : Nat} (h : (t.activeGroup groupId).isSome) (g : GroupRow) :
    summaryOf env t.erase groupId g = summaryOf env t groupId g := by
  unfold summaryOf
  rw [groupNodes_erase h]

theorem activeGroup_of_mem {row : Nat × GroupRow} (hrow : row ∈ t.groups.rows) (hactive : row.2.isActive = true) :
    (t.activeGroup row.1).isSome :=
  Tables.activeGroup_isSome.mpr ⟨row.2, KeyedTable.get?_of_mem_rows hrow, hactive⟩

theorem activeGroups_erase :
    (t.erase.groups.rows.filter fun row => row.2.isActive) = t.groups.rows.filter fun row => row.2.isActive := by
  show (t.groups.rows.filter fun row => !!row.2.isActive).filter _ = _
  rw [List.filter_filter]
  simp only [Bool.not_not, Bool.and_self]

omit [LinearOrder K] in
theorem nodeGroupSummaryData_erase : nodeGroupSummaryData env t.erase = nodeGroupSummaryData env t := by
  unfold nodeGroupSummaryData
  rw [activeGroups_erase]
  refine List.map_congr_left fun row hrow => ?_
  rw [mem_orderBy, mem_orderBy, List.mem_filter] at hrow
  exact summaryOf_erase (activeGroup_of_mem hrow.1 hrow.2) row.2

omit [LinearOrder K] in
/-- Every summary is one of an active group. -/
theorem activeGroup_of_summary {summary : GroupSummary} (h : summary ∈ nodeGroupSummaryData env t) :
    (t.activeGroup summary.id).isSome := by
  obtain ⟨row, hrow, rfl⟩ := List.mem_map.mp h
  rw [mem_orderBy, mem_orderBy, List.mem_filter] at hrow
  exact activeGroup_of_mem hrow.1 hrow.2

omit [LinearOrder K] in
theorem filteredSortedGroupSummaries_erase (args : GroupsArgs) :
    filteredSortedGroupSummaries env args t.erase = filteredSortedGroupSummaries env args t := by
  have hkeeps : (nodeGroupSummaryData env t).filter (args.keeps env t.erase) =
      (nodeGroupSummaryData env t).filter (args.keeps env t) := by
    refine List.filter_congr fun summary hmem => ?_
    unfold GroupsArgs.keeps
    rw [groupNodes_erase (activeGroup_of_summary hmem)]
  unfold filteredSortedGroupSummaries
  rw [nodeGroupSummaryData_erase, hkeeps]

theorem nodeGroupNodes_erase (args : GroupNodesArgs) : nodeGroupNodes env args t.erase = nodeGroupNodes env args t := by
  unfold nodeGroupNodes
  rw [Tables.activeGroup_erase]
  cases hgroup : t.activeGroup args.groupId with
  | none => rfl
  | some g =>
      unfold nodeGroupDetailRows
      rw [groupNodes_erase (by rw [hgroup]; rfl)]

end VirtInfra.Monitoring
