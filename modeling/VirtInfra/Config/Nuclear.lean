import VirtInfra.Config.Backup

/-!
# `Nuclear` — the nuclear reset (`maintenance_native.py`)

One transaction that truncates every table but the row of the acting account, and inserts the system group and three
settings. The check of the running job and the audit row are left out.
-/

namespace VirtInfra.Config

open Lib Python

variable [CaseFold]

/-- Who resets, when, and the random key that becomes `app_secret_key`. -/
structure ResetRequest where
  actorUserId : Nat
  actorUsername : String
  now : ℕ+
  secret : String

/-- The settings that a reset leaves. -/
def resetSettings (r : ResetRequest) : KeyedTable String Setting :=
  ((KeyedTable.empty.put "app_secret_key" ⟨r.secret, r.now⟩).put "operational_push_accept_after"
    ⟨toString (r.now : Nat), r.now⟩).put "bandwidth_consumption_accept_after" ⟨toString (r.now : Nat), r.now⟩

/-- The Node Groups of an empty inventory. -/
def resetNodes (now : ℕ+) : NodeGroups where
  inventory := ∅
  groups := .add .empty (systemGroup now) rfl
  members := .empty
  pending := .empty
  named := by simp
  memberNode := by simp
  memberGroup := by simp

/-- **`reset_app_data`**; `none` when the actor is no enabled super admin any more. -/
def resetAppData (r : ResetRequest) (db : Database) : Option Database :=
  if validActor db.users r.actorUserId r.actorUsername then
    some
      { users := db.users.deleteRows fun id _ => id ≠ r.actorUserId
        apiKeys := .empty
        settings := resetSettings r
        nodes := resetNodes r.now }
  else none

end VirtInfra.Config
