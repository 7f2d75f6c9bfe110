import Mathlib.Data.List.Duplicate
import VirtInfra.Current.FastRow

/-!
# `SameRow` — where the two writers of `vm_current_fast` leave the same row

The loop of `_v5050_current_writer` and the statement of `_v5052_current_writer` add up the same figures of the same
items, so that most columns come out equal for every push. They part where the writers were written apart: `interval_seconds`
is the push's in one and the items' in the other, a longer interval than a day (an hour for `vms`) counts in full in one
and is cut in the other, a late push overwrites a newer row in one and not in the other, and one fails on an interface
that comes twice and on VMs of which only some have a `vms` entry.
-/

namespace VirtInfra.Current

open Lib Python Consumption

/-! ## Lists -/

section Lists

variable {α M : Type}

end Lists

/-! ## The items of a VM -/

/-- The bounds that `_v5052_iface_rows` and `_v5052_vm_rows` put on the interval of an item. -/
def TapItem.bounded (item : TapItem) : TapItem :=
  { item with intervalSeconds := item.intervalSeconds.map (min 86400) }

def PerfItem.bounded (item : PerfItem) : PerfItem :=
  { item with intervalSeconds := item.intervalSeconds.map (min 3600) }

namespace FastPush

variable (push : FastPush)

/-- **The push with its intervals bounded.** -/
def bounded : FastPush :=
  { push with
    interfaces := push.interfaces.map (Option.map TapItem.bounded)
    vms := push.vms.map (Option.map PerfItem.bounded) }

/-- The items of a VM. -/
def taps (vm : String) : List TapItem := (namedTaps push.interfaces).filter fun item => item.vmUuid = vm

/-- The seconds that both writers take an item of the bounded push to cover. -/
def tapSeconds (item : TapItem) : Int := clamp 1 86400 (safeInt item.intervalSeconds push.intervalSeconds)

/-- **The staged rows of a VM**, from its items. -/
theorem group_eq (vm : String) :
    push.group vm = (push.taps vm).map fun item => tapRow (push.tapSeconds item) item := by
  unfold group stage taps
  rw [List.filter_map]
  rfl

end FastPush

/-! ## The columns -/

theorem bridges_ne : publicBridge ≠ privateBridge := by decide

namespace FastVm

variable (rows : List BatchRow) (rec : FastVm)

end FastVm

/-! ## The row of a VM -/

namespace FastPush

variable (push : FastPush) (abuseNetworkPps : ℚ)

/-- A row that the deletes of a complete inventory leave. -/
theorem get?_deleteOlder (table : FastTable) (vm : String) :
    (push.deleteOlder table).get? (push.node, vm) =
      (table.get? (push.node, vm)).filter fun row => !(push.inventoryComplete && decide (row.lastSeen < push.dataTime)) := by
  unfold deleteOlder
  split
  · next hcomplete =>
      rw [KeyedTable.get?_deleteRows]
      simp [hcomplete]
  · next hpart => cases table.get? (push.node, vm) <;> simp [hpart, Option.filter]

/-- **The native writer**, row by row. -/
theorem get?_v5052CurrentWriter (table : FastTable) (vm : String) :
    (v5052CurrentWriter push table).get? (push.node, vm) =
      (if vm ∈ push.vmUuids then
        some ((table.get? (push.node, vm)).elim (push.fastRow vm) (KeyedTable.guarded FastRow.lastSeen · (push.fastRow vm)))
      else table.get? (push.node, vm)).filter
        fun row => !(push.inventoryComplete && decide (row.lastSeen < push.dataTime)) := by
  unfold v5052CurrentWriter
  rw [get?_deleteOlder]
  refine congrArg (Option.filter _) ?_
  split
  · next hvm =>
      have hnodup : (push.vmUuids.map fun vm => (push.node, vm)).Nodup :=
        (List.nodup_dedup _).map fun _ _ h => (Prod.mk.inj h).2
      exact KeyedTable.get?_foldl_upsert_of_mem (fun vm => (push.node, vm)) hnodup hvm push.fastRow _ table
  · next hvm =>
      refine KeyedTable.get?_foldl_upsert_of_ne push.fastRow _ table fun vm' hvm' hkey => hvm ?_
      rw [(Prod.mk.inj hkey).2]
      exact hvm'

end FastPush

namespace FastPush

variable (push : FastPush) (abuseNetworkPps : ℚ)

/-- The interfaces that the items are of. -/
def nics : List (String × String × String) :=
  (namedTaps push.interfaces).map fun item => (item.vmUuid, item.bridge, item.iface)

end FastPush

/-! ## The two writers -/

end VirtInfra.Current
