import VirtInfra.Consumption.NodeWindow
import VirtInfra.Consumption.VmWindow

/-!
# `Agreement` — the VM view and the Node view of one window

Both views count guest traffic: what a guest receives is what the host transmits on its tap. The VM view is exact
for every window, so the two agree on a node exactly when the Node reader's boundary bytes balance.
-/

namespace VirtInfra.Consumption

open Lib Python

/-- `vm_agg`: the source rows of each node and VM. -/
def vmAgg (rows : List VmSourceRow) : KeyedTable (String × String) (List VmSourceRow) :=
  KeyedTable.groupBy (fun row => (row.node, row.vmUuid)) rows

/-- `SUM(CASE WHEN bridge=? THEN host_tx ELSE 0 END)` for an rx column, `host_rx` for a tx column. -/
def guestBytes (role : Role) (dir : Direction) (rows : List VmSourceRow) : Nat :=
  (rows.map fun row => if row.bridge = role.bridge then row.bytes dir.swap else 0).sum

/-- **The VM view of a node**: the sum over its VMs of what the window reader returns. -/
def vmViewBytes (off start stop : Int) (selectedNode : String) (t : RollupTables) (node : String) (role : Role)
    (dir : Direction) : Except String Nat := do
  let branches ← vmSource off start stop
  let rows := branches.flatMap (VmBranch.rows selectedNode t)
  return (vmAgg rows).sumOf (fun key => key.1 = node) (guestBytes role dir)

/-- Summing over a node's VMs forgets the VMs. -/
theorem sumOf_vmAgg (rows : List VmSourceRow) (node : String) (role : Role) (dir : Direction) :
    (vmAgg rows).sumOf (fun key => key.1 = node) (guestBytes role dir) =
      sourceBytes rows (Selector.node node role.bridge) dir.swap := by
  refine (KeyedTable.sumOf_groupBy _ rows _ _).trans ?_
  unfold sourceBytes Selector.node
  refine congrArg List.sum (List.map_congr_left fun row _ => ?_)
  simp only [decide_eq_true_eq, ite_and]

/-- A push reports the same guest bytes to both views. -/
theorem vmBytes_node (off : Int) (node : String) (role : Role) (dir : Direction) (s : Sample) :
    vmBytes off (Selector.node node role.bridge) dir.swap s = nodeBytes off node ⟨.vm, role, dir⟩ s := by
  have hrows : ∀ row ∈ s.stage off,
      (if Selector.node node role.bridge row.node row.vmUuid row.bridge then row.deltas.bytes dir.swap else 0) =
        if s.node = node ∧ True then vmShare ⟨.vm, role, dir⟩ row else 0 := by
    intro row hrow
    simp only [Selector.node, vmShare, (Sample.stage_mem hrow).2.2.2, decide_eq_true_eq, and_true, ite_and]
  unfold vmBytes nodeBytes
  rw [sum_shares hrows]
  simp [columnBytes]

variable {cfg : Config} {events : List Event} {node : String}

/-- **The VM view is exact.** -/
theorem vmViewBytes_eq {start stop : Int} {selectedNode : String} (hs : Aligned start) (he : Aligned stop)
    (hlt : start < stop) (hsel : selectedNode = "" ∨ selectedNode = node)
    (hretained : Retained cfg (VmConsulted cfg.tzOffset start stop) Monitor.init events) (role : Role)
    (dir : Direction) :
    vmViewBytes cfg.tzOffset start stop selectedNode (run cfg Monitor.init events).tables node role dir =
      .ok (slotBytes cfg events node ⟨.vm, role, dir⟩ start stop) := by
  obtain ⟨branches, hplan, hexact⟩ := vmSource_exact hs he hlt hretained
  unfold vmViewBytes
  rw [hplan]
  show Except.ok _ = _
  rw [sumOf_vmAgg, hexact _ _ fun n v b hwho => hsel.imp_right fun h => (of_decide_eq_true hwho).1.trans h.symm]
  refine congrArg Except.ok (congrArg List.sum (List.map_congr_left fun s _ => ?_))
  rw [vmBytes_node]
  rfl

/-- **The two views of a window agree**, for both bridges and directions. -/
def ViewsAgree (cfg : Config) (events : List Event) (rawAvailableStart : Int) (selectedNode node : String)
    (start stop : Int) : Prop :=
  ∀ role dir,
    vmViewBytes cfg.tzOffset start stop selectedNode (run cfg Monitor.init events).tables node role dir =
      .ok (nodeWindowBytes cfg.tzOffset start stop rawAvailableStart (run cfg Monitor.init events).tables node
        ⟨.vm, role, dir⟩)

/-- **Exactly when the views agree**: the VM bytes carried into the Node reader's window balance those carried out. -/
theorem views_agree_iff {start stop rawAvailableStart : Int} {selectedNode : String} (hs : Aligned start)
    (he : Aligned stop) (hlt : start < stop) (hsel : selectedNode = "" ∨ selectedNode = node)
    (hvm : Retained cfg (VmConsulted cfg.tzOffset start stop) Monitor.init events)
    (hnode : WindowRetained cfg events rawAvailableStart start stop) :
    ViewsAgree cfg events rawAvailableStart selectedNode node start stop ↔
      ∀ role dir, carriedIn cfg events node ⟨.vm, role, dir⟩ start stop =
        carriedOut cfg events node ⟨.vm, role, dir⟩ start stop := by
  refine forall_congr' fun role => forall_congr' fun dir => ?_
  have hbalance := nodeWindowBytes_add_carriedOut node ⟨.vm, role, dir⟩ hlt.le hnode
  rw [vmViewBytes_eq hs he hlt hsel hvm, Except.ok.injEq]
  constructor
  · intro hagree
    omega
  · intro hbalanced
    omega

/-- At 19:50 the views of 19:00-20:05 agree. -/
theorem views_agree_iff_inside :
    ViewsAgree {} [.push 71400 (publicPush 71400)] 3600 "" "n1" 68400 72300 := by
  have hretained : ∀ consulted, Retained {} consulted Monitor.init [.push 71400 (publicPush 71400)] :=
    fun _ => trivial
  refine (views_agree_iff (by decide) (by decide) (by decide) (Or.inl rfl) (hretained _)
    ⟨hretained _, by decide⟩).mpr ?_
  intro role dir
  cases role <;> cases dir <;> decide

/-- **A push at 20:00 sets the views apart** on 19:00-20:05: the VM view reads its 1000 bytes once, the Node view
    twice. -/
theorem views_disagree :
    ¬ ∀ (cfg : Config) (events : List Event) (rawAvailableStart : Int) (selectedNode node : String)
      (start stop : Int), Aligned start → Aligned stop → start < stop → selectedNode = "" ∨ selectedNode = node →
      Retained cfg (VmConsulted cfg.tzOffset start stop) Monitor.init events →
      WindowRetained cfg events rawAvailableStart start stop →
      ViewsAgree cfg events rawAvailableStart selectedNode node start stop := by
  intro h
  have hretained : ∀ consulted, Retained {} consulted Monitor.init [.push 72000 (publicPush 72000)] :=
    fun _ => trivial
  have hagree := h {} [.push 72000 (publicPush 72000)] 3600 "" "n1" 68400 72300 (by decide) (by decide) (by decide)
    (Or.inl rfl) (hretained _) ⟨hretained _, by decide⟩ .pub .rx
  rw [vmViewBytes_eq (by decide) (by decide) (by decide) (Or.inl rfl) (hretained _)] at hagree
  exact absurd (Except.ok.inj hagree) (by decide)

end VirtInfra.Consumption
