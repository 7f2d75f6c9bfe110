import VirtInfra.Monitoring.Consumption
import VirtInfra.Monitoring.Vm

/-!
# `Invisible` — what a page shows of a hidden Node Group

A page shows nothing of the hidden groups when it is the same on any two databases that differ in their rows only. Six of
the readers filter before they choose. The node list takes its times, the VM search its hit and the VM page the VM's
location from rows of all the nodes, and so they show the hidden rows that come first.
-/

namespace VirtInfra.Monitoring

open Lib Python
open Consumption (NodeColumn)

variable {K : Type} [LinearOrder K] (env : Env K)

/-- A request to one of the readers, with all its arguments. -/
inductive Request
  | nodeRows (args : NodeRowsArgs)
  | groups (args : GroupsArgs)
  | groupNodes (args : GroupNodesArgs)
  | nodeDataset (start stop : Int)
  | nodeTotals (start stop : Int) (selectedNode : String) (group : Nat)
  | consumptionNodes (args : ConsumptionArgs)
  | consumptionGroups (seconds : Int) (sortBy : String) (desc : Bool) (group : Nat)
  | consumptionVms (args : ConsumptionArgs)
  | vmSearch (q : String)
  | vm (args : VmPageArgs)

/-- What a reader returns. -/
inductive View
  | nodeRows (rows : Listing LiveRow ⊕ Listing HistoryRow)
  | groups (rows : List GroupSummary)
  | groupNodes (rows : Option (List DetailRow))
  | nodeDataset (items : List DatasetItem)
  | nodeTotals (totals : NodeColumn → Nat)
  | consumptionNodes (page : PageOf DatasetItem)
  | consumptionGroups (items : List GroupItem)
  | consumptionVms (page : PageOf VmLine)
  | vmSearch (hit : Except String (Option Hit))
  | vm (page : PageResponse)

/-- The answer to a request. -/
def view (request : Request) (db : Database) : View :=
  match request with
  | .nodeRows args => .nodeRows (getNodeRows env args db.toTables)
  | .groups args => .groups (filteredSortedGroupSummaries env args db.toTables)
  | .groupNodes args => .groupNodes (nodeGroupNodes env args db.toTables)
  | .nodeDataset start stop => .nodeDataset (r21NodeDataset env start stop db.toTables)
  | .nodeTotals start stop node group => .nodeTotals (r21Totals env start stop node group db.toTables)
  | .consumptionNodes args => .consumptionNodes (consumptionNodeRows env args db.toTables)
  | .consumptionGroups seconds sortBy desc group => .consumptionGroups (r20GroupPage env seconds sortBy desc group db.toTables)
  | .consumptionVms args => .consumptionVms (consumptionVmRows env args db.toTables)
  | .vmSearch q => .vmSearch (resolveDirectVmSearch env q db.toTables)
  | .vm args => .vm (vmPage args db.toTables)

/-- **No hidden row comes first** in what the request has its reader choose from. -/
def ViewClear (request : Request) (db : Database) : Prop :=
  match request with
  | .nodeRows args => NodeRowsClear env args db.toTables
  | .vmSearch q => SearchClear env q db.toTables
  | .vm args => VmPageClear args db.toTables
  | _ => True

/-- A reader answers as on the database without hidden rows exactly when none of them comes first. -/
theorem view_erase_iff (request : Request) (db : Database) :
    view env request db = view env request db.erase ↔ ViewClear env request db := by
  cases request with
  | nodeRows args =>
      simp only [view, View.nodeRows.injEq]
      exact getNodeRows_erase_iff args
  | vmSearch q =>
      simp only [view, View.vmSearch.injEq]
      exact resolveDirectVmSearch_erase_iff db.named
  | vm args =>
      simp only [view, View.vm.injEq]
      exact vmPage_erase_iff db.named
  | groups args => exact iff_true_intro (congrArg View.groups (filteredSortedGroupSummaries_erase args).symm)
  | groupNodes args => exact iff_true_intro (congrArg View.groupNodes (nodeGroupNodes_erase args).symm)
  | nodeDataset start stop => exact iff_true_intro (congrArg View.nodeDataset (r21NodeDataset_erase start stop).symm)
  | nodeTotals start stop node group =>
      exact iff_true_intro (congrArg View.nodeTotals (r21Totals_erase start stop node group).symm)
  | consumptionNodes args => exact iff_true_intro (congrArg View.consumptionNodes (consumptionNodeRows_erase args).symm)
  | consumptionGroups seconds sortBy desc group =>
      exact iff_true_intro (congrArg View.consumptionGroups (r20GroupPage_erase seconds sortBy desc group).symm)
  | consumptionVms args => exact iff_true_intro (congrArg View.consumptionVms (consumptionVmRows_erase args).symm)

/-- **Hidden groups are invisible where no hidden row comes first**: a page agrees on a database with all the databases that
    differ in hidden rows only, and in which none comes first either, exactly when none comes first in that database. -/
theorem hidden_groups_invisible_iff (request : Request) (db : Database) :
    (∀ db', SameShown Database.erase db db' → ViewClear env request db' → view env request db = view env request db') ↔
      ViewClear env request db :=
  agree_iff Database.erase_erase (view_erase_iff env request) db

/-! ## Two nodes, one of them hidden -/

/-- An environment in which every column to sort by is constant. -/
def sampleEnv : Env Int where
  now := 1000
  like := fun value pattern => value = pattern
  fold := lower
  fastCurrentStaleSeconds := 900
  hourlyRetentionDays := 7
  statusPushSeconds := 300
  statusWarningMisses := 2
  policyRevision := 0
  abuseEngineVersion := ""
  tzOffset := 0
  queryCacheTtl := 300
  slotSeconds := 300
  maxStaleSeconds := 900
  liveColumn := fun _ _ => 0
  historyColumn := fun _ _ => 0
  detailColumn := fun _ _ => none

/-- What a node whose only push was at `lastSeen` has in `node_inventory` and in `node_current_fast`. -/
def sampleNode (lastSeen : Int) : NodeRows where
  inventory := some ⟨lastSeen, lastSeen, .active, none, none⟩
  currentFast := some ⟨lastSeen, fun _ => 0⟩

/-- Two nodes, of which `"b"` is in a hidden group and pushed last. -/
def sampleDatabase : Database where
  groups := ⟨[(1, ⟨"Main", "", "", true, true⟩), (2, ⟨"Hidden", "", "", false, false⟩)], by simp⟩
  members := ⟨[("a", 1), ("b", 2)], by simp⟩
  nodes := ⟨[("a", sampleNode 500), ("b", sampleNode 800)], by simp⟩
  named := by
    constructor
    · intro row hrow
      simp only [List.mem_cons, List.not_mem_nil, or_false] at hrow
      rcases hrow with rfl | rfl
      · exact ⟨by decide, by simp [NodeRows.vmNames, sampleNode, KeyedTable.keys, KeyedTable.empty]⟩
      · exact ⟨by decide, by simp [NodeRows.vmNames, sampleNode, KeyedTable.keys, KeyedTable.empty]⟩
    · intro row hrow
      cases hrow

/-- The live node list, in its default order. -/
def liveRequest : Request := .nodeRows ⟨"5m", "", "node", false, none, 0⟩

/-- **The node list tells when a hidden node last pushed.** -/
theorem hidden_group_visible : ¬ ∀ (request : Request) (db db' : Database), SameShown Database.erase db db' →
    view sampleEnv request db = view sampleEnv request db' := by
  intro h
  have hsame := h liveRequest sampleDatabase sampleDatabase.erase (Database.erase_erase _).symm
  have hclear := (view_erase_iff sampleEnv liveRequest sampleDatabase).mp hsame
  have hnot : ¬ NoneNewer sampleEnv.now (fun row : LiveRow => row.fast.lastSeen) (fun row => sampleDatabase.shown row.node)
      (liveRows sampleEnv ⟨"5m", "", "node", false, none, 0⟩ sampleDatabase.toTables) := by
    unfold NoneNewer
    decide +kernel
  exact hnot hclear

end VirtInfra.Monitoring
