import VirtInfra.Lib.Lookup
import Mathlib.Data.List.MinMax

/-!
# `RowLocks` — a keyed table under concurrent transactions

An open transaction holds the new versions of the rows it has written; they are published when it commits and dropped
when it rolls back. A row with a new version is locked: no other transaction may write it until the first one ends. The
lock is a field of the structure, so no operation has to re-establish it for its callers, and its one consequence is
`get?_commit_of_holds`: a commit changes no row that another transaction holds.

A unique index `ON t ((1)) WHERE active` allows one active row. It is checked when a version is written, against the
versions of all transactions, so at most one row ever has an active version (`OneActive`).
-/

namespace VirtInfra.Lib

namespace KeyedTable

variable {κ ρ : Type*} [DecidableEq κ]

/-- Store a row, over the one its key may have. -/
def put (t : KeyedTable κ ρ) (k : κ) (r : ρ) : KeyedTable κ ρ := t.upsert k r fun _ new => new

@[simp] theorem get?_put (t : KeyedTable κ ρ) (k k' : κ) (r : ρ) :
    (t.put k r).get? k' = if k' = k then some r else t.get? k' := by
  unfold put
  split
  · subst k'
    rw [get?_upsert_self]
    cases t.get? k <;> rfl
  · next h => exact get?_upsert_of_ne t r _ h

/-- The new versions of the rows that an `UPDATE … SET f WHERE p` writes. -/
def updateWhere (t : KeyedTable κ ρ) (p : κ → ρ → Bool) (f : ρ → ρ) : KeyedTable κ ρ :=
  (t.deleteRows fun k r => !p k r).update fun _ => f

theorem get?_updateWhere (t : KeyedTable κ ρ) (p : κ → ρ → Bool) (f : ρ → ρ) (k : κ) :
    (t.updateWhere p f).get? k = ((t.get? k).filter (p k)).map f := by
  rw [updateWhere, get?_update, get?_deleteRows]
  simp

/-- What an update writes is the update of a row that satisfies its condition. -/
theorem get?_updateWhere_eq_some {t : KeyedTable κ ρ} {p : κ → ρ → Bool} {f : ρ → ρ} {k : κ} {r : ρ} :
    (t.updateWhere p f).get? k = some r ↔ ∃ old, t.get? k = some old ∧ p k old = true ∧ f old = r := by
  rw [get?_updateWhere, Option.map_eq_some_iff]
  constructor
  · rintro ⟨old, hold, hr⟩
    obtain ⟨hget, hp⟩ := Option.filter_eq_some_iff.mp hold
    exact ⟨old, hget, hp, hr⟩
  · rintro ⟨old, hget, hp, hr⟩
    exact ⟨old, Option.filter_eq_some_iff.mpr ⟨hget, hp⟩, hr⟩

/-- The table with the rows of `w` laid over it. -/
def overlay (t w : KeyedTable κ ρ) : KeyedTable κ ρ := w.rows.foldl (fun t row => t.put row.1 row.2) t

theorem get?_overlay (t w : KeyedTable κ ρ) (k : κ) : (t.overlay w).get? k = (w.get? k).or (t.get? k) := by
  obtain ⟨rows, hnodup⟩ := w
  unfold overlay get?
  dsimp only
  -- The induction is on the rows still to lay down; the keys are distinct, so a row once written stays.
  induction rows generalizing t with
  | nil => rfl
  | cons first rest ih =>
      rw [List.map_cons, List.nodup_cons] at hnodup
      have hput := get?_put t first.1 k first.2
      unfold get? at hput
      rw [List.foldl_cons, ih (t.put first.1 first.2) hnodup.2, hput]
      by_cases hk : k = first.1
      · subst hk
        have hnone : rest.find? (fun row => row.1 = first.1) = none := by
          rw [List.find?_eq_none]
          intro row hrow hkey
          exact hnodup.1 (List.mem_map.mpr ⟨row, hrow, by simpa using hkey⟩)
        simp [hnone]
      · simp [hk, Ne.symm hk]

/-- The smallest key among the rows that satisfy `p`: `ORDER BY key LIMIT 1`. -/
def firstKey (t : KeyedTable Nat ρ) (p : Nat → ρ → Bool) : Option Nat :=
  ((t.rows.filter fun row => p row.1 row.2).map Prod.fst).min?

theorem firstKey_eq_some {t : KeyedTable Nat ρ} {p : Nat → ρ → Bool} {i : Nat} (h : t.firstKey p = some i) :
    (∃ r, t.get? i = some r ∧ p i r = true) ∧ ∀ k r, t.get? k = some r → p k r = true → i ≤ k := by
  obtain ⟨hmem, hle⟩ := List.min?_eq_some_iff.mp h
  obtain ⟨⟨i, r⟩, hrow, rfl⟩ := List.mem_map.mp hmem
  rw [List.mem_filter] at hrow
  refine ⟨⟨r, get?_of_mem_rows hrow.1, hrow.2⟩, fun k r' hget hp => ?_⟩
  apply hle
  exact List.mem_map.mpr ⟨(k, r'), List.mem_filter.mpr ⟨mem_rows_of_get? hget, hp⟩, rfl⟩

end KeyedTable

/-! ## Transactions -/

variable {π κ ρ : Type*} [DecidableEq π] [DecidableEq κ]

/-- **A table under transactions**: the committed rows, and for each process with an open transaction the new versions
    it has written. No two transactions hold versions of the same row. -/
structure Transactional (π κ ρ : Type*) [DecidableEq π] [DecidableEq κ] where
  rows : KeyedTable κ ρ
  pending : KeyedTable π (KeyedTable κ ρ)
  exclusive : ∀ p q w w', pending.get? p = some w → pending.get? q = some w' →
    ∀ k, (w.get? k).isSome → (w'.get? k).isSome → p = q

namespace Transactional

variable {db : Transactional π κ ρ} {p q : π} {k : κ} {w : KeyedTable κ ρ}

/-- The process's open transaction has the lock of the row. -/
def Holds (db : Transactional π κ ρ) (p : π) (k : κ) : Prop :=
  ∃ w, db.pending.get? p = some w ∧ (w.get? k).isSome

/-- Another process's open transaction has the lock of the row. -/
def lockedFor (db : Transactional π κ ρ) (p : π) (k : κ) : Bool :=
  db.pending.rows.any fun tx => decide (tx.1 ≠ p) && (tx.2.get? k).isSome

theorem lockedFor_iff : db.lockedFor p k = true ↔ ∃ q, q ≠ p ∧ db.Holds q k := by
  unfold lockedFor Holds
  rw [List.any_eq_true]
  constructor
  · rintro ⟨⟨q, w⟩, hmem, h⟩
    obtain ⟨hne, hkey⟩ := Bool.and_eq_true_iff.mp h
    exact ⟨q, of_decide_eq_true hne, w, KeyedTable.get?_of_mem_rows hmem, hkey⟩
  · rintro ⟨q, hne, w, hget, hkey⟩
    exact ⟨(q, w), KeyedTable.mem_rows_of_get? hget, Bool.and_eq_true_iff.mpr ⟨decide_eq_true hne, hkey⟩⟩

def start (rows : KeyedTable κ ρ) : Transactional π κ ρ :=
  ⟨rows, .empty, by rintro p q w w' ⟨⟩⟩

/-- **Write row versions** in the transaction of `p`; `none` while another transaction holds one of the rows. -/
def write (db : Transactional π κ ρ) (p : π) (w : KeyedTable κ ρ) : Option (Transactional π κ ρ) :=
  if h : ∀ row ∈ w.rows, db.lockedFor p row.1 = false then
    some
      { rows := db.rows
        pending := db.pending.put p w
        exclusive := by
          have hfree : ∀ q w' k, q ≠ p → db.pending.get? q = some w' → (w'.get? k).isSome → ¬ (w.get? k).isSome := by
            intro q w' k hne hq hk' hk
            obtain ⟨r, hr⟩ := Option.isSome_iff_exists.mp hk
            have hlocked : db.lockedFor p k = true := lockedFor_iff.mpr ⟨q, hne, w', hq, hk'⟩
            rw [h (k, r) (KeyedTable.mem_rows_of_get? hr)] at hlocked
            cases hlocked
          intro a b wa wb ha hb k hka hkb
          rw [KeyedTable.get?_put] at ha hb
          split at ha <;> split at hb
          · next hap hbp => exact hap.trans hbp.symm
          · next hbp => cases ha; exact absurd hka (hfree b wb k hbp hb hkb)
          · next hap _ => cases hb; exact absurd hkb (hfree a wa k hap ha hka)
          · exact db.exclusive a b wa wb ha hb k hka hkb }
  else none

/-- End the transaction of `p` without publishing it. -/
def rollback (db : Transactional π κ ρ) (p : π) : Transactional π κ ρ where
  rows := db.rows
  pending := db.pending.deleteRows fun q _ => decide (q = p)
  exclusive := by
    intro a b wa wb ha hb
    rw [KeyedTable.get?_deleteRows] at ha hb
    exact db.exclusive a b wa wb (Option.filter_eq_some_iff.mp ha).1 (Option.filter_eq_some_iff.mp hb).1

/-- End the transaction of `p` and publish its rows. -/
def commit (db : Transactional π κ ρ) (p : π) : Transactional π κ ρ :=
  { db.rollback p with rows := db.rows.overlay ((db.pending.get? p).getD .empty) }

/-- A statement that is its own transaction; `none` while the row is locked. -/
def autocommit (db : Transactional π κ ρ) (p : π) (k : κ) (f : ρ → ρ) : Option (Transactional π κ ρ) :=
  if db.lockedFor p k then none else some { db with rows := db.rows.update fun k' r => if k' = k then f r else r }

theorem write_eq_some {db' : Transactional π κ ρ} (h : db.write p w = some db') :
    db'.rows = db.rows ∧ ∀ q, db'.pending.get? q = if q = p then some w else db.pending.get? q := by
  unfold write at h
  split at h
  · cases h
    exact ⟨rfl, fun q => KeyedTable.get?_put db.pending p q w⟩
  · cases h

theorem pending_rollback (db : Transactional π κ ρ) (p q : π) :
    (db.rollback p).pending.get? q = if q = p then none else db.pending.get? q := by
  unfold rollback
  rw [KeyedTable.get?_deleteRows]
  cases hq : db.pending.get? q with
  | none => simp
  | some w => by_cases h : q = p <;> simp [Option.filter, h]

theorem pending_commit (db : Transactional π κ ρ) (p q : π) :
    (db.commit p).pending.get? q = if q = p then none else db.pending.get? q :=
  pending_rollback db p q

theorem get?_commit (h : db.pending.get? p = some w) (k : κ) :
    (db.commit p).rows.get? k = (w.get? k).or (db.rows.get? k) := by
  unfold commit
  rw [h]
  exact KeyedTable.get?_overlay db.rows w k

/-- **A commit changes no row that another transaction holds.** -/
theorem get?_commit_of_holds (hq : db.Holds q k) (hne : q ≠ p) : (db.commit p).rows.get? k = db.rows.get? k := by
  obtain ⟨w', hw', hk'⟩ := hq
  cases hp : db.pending.get? p with
  | none =>
      unfold commit
      rw [hp]
      exact KeyedTable.get?_overlay db.rows .empty k
  | some w =>
      rw [get?_commit hp]
      cases hk : w.get? k with
      | none => rfl
      | some r =>
          have hsome : (w.get? k).isSome := by rw [hk]; rfl
          exact absurd (db.exclusive q p w' w hw' hp k hk' hsome) hne

theorem autocommit_eq_some {db' : Transactional π κ ρ} {f : ρ → ρ} (h : db.autocommit p k f = some db') :
    db'.pending = db.pending ∧ ∀ k', db'.rows.get? k' = (db.rows.get? k').map fun r => if k' = k then f r else r := by
  unfold autocommit at h
  split at h
  · cases h
  · cases h
    exact ⟨rfl, fun k' => KeyedTable.get?_update db.rows _ k'⟩

/-! ## A unique index over the active rows -/

/-- What the check of the index says: the entry is free, it waits for another transaction to end, or it is a duplicate. -/
inductive IndexCheck | free | waits | duplicate
  deriving DecidableEq, Repr

section Index

variable (active : ρ → Bool)

/-- **The check of the versions that `p` writes**, each against the other rows: a committed one that nobody is changing
    is a duplicate, one with an open transaction may become or cease to be one. -/
def checkIndex (db : Transactional π κ ρ) (p : π) (w : KeyedTable κ ρ) : IndexCheck :=
  let meets := fun row : κ × ρ => active row.2 && w.rows.any fun new => active new.2 && decide (new.1 ≠ row.1)
  if w.rows.any meets || db.rows.rows.any (fun row => meets row && !db.lockedFor p row.1) then .duplicate
  else if db.rows.rows.any meets || db.pending.rows.any (fun tx => decide (tx.1 ≠ p) && tx.2.rows.any meets) then .waits
  else .free

/-- A version of the row, committed or not, is active. -/
def MayBeActive (db : Transactional π κ ρ) (k : κ) : Prop :=
  (∃ r, db.rows.get? k = some r ∧ active r = true) ∨
    ∃ p w r, db.pending.get? p = some w ∧ w.get? k = some r ∧ active r = true

/-- **At most one row has an active version.** -/
def OneActive (db : Transactional π κ ρ) : Prop := ∀ i k, db.MayBeActive active i → db.MayBeActive active k → i = k

variable {active} {db' : Transactional π κ ρ}

/-- Versions without an active one need no check. -/
theorem checkIndex_of_inactive (h : ∀ row ∈ w.rows, active row.2 = false) : db.checkIndex active p w = .free := by
  have hmeets : ∀ k, (w.rows.any fun new => active new.2 && decide (new.1 ≠ k)) = false := by
    intro k
    rw [List.any_eq_false]
    intro row hrow hmeet
    rw [h row hrow] at hmeet
    cases hmeet
  unfold checkIndex
  simp only [hmeets, Bool.and_false, Bool.false_and]
  simp

/-- What the check leaves free is the only active row. -/
theorem eq_of_checkIndex (h : db.checkIndex active p w = .free) {i k : κ} {r new : ρ} (hnew : w.get? k = some new)
    (hactive : active new = true) (hr : active r = true)
    (hrow : db.rows.get? i = some r ∨ w.get? i = some r ∨ ∃ q w', q ≠ p ∧ db.pending.get? q = some w' ∧ w'.get? i = some r) :
    i = k := by
  by_contra hne
  have hmeets : (active r && w.rows.any fun entry => active entry.2 && decide (entry.1 ≠ i)) = true := by
    rw [hr, Bool.true_and, List.any_eq_true]
    exact ⟨(k, new), KeyedTable.mem_rows_of_get? hnew, by simp [hactive, Ne.symm hne]⟩
  unfold checkIndex at h
  dsimp only at h
  split at h
  · cases h
  · next hduplicate =>
      split at h
      · cases h
      · next hwaits =>
          rw [Bool.or_eq_true, not_or, List.any_eq_true, List.any_eq_true] at hduplicate hwaits
          rcases hrow with hrow | hrow | ⟨q, w', hq, hw', hrow⟩
          · exact hwaits.1 ⟨(i, r), KeyedTable.mem_rows_of_get? hrow, hmeets⟩
          · exact hduplicate.1 ⟨(i, r), KeyedTable.mem_rows_of_get? hrow, hmeets⟩
          · refine hwaits.2 ⟨(q, w'), KeyedTable.mem_rows_of_get? hw', ?_⟩
            rw [Bool.and_eq_true, List.any_eq_true]
            exact ⟨decide_eq_true hq, (i, r), KeyedTable.mem_rows_of_get? hrow, hmeets⟩

theorem OneActive.of_le (h : db.OneActive active) (hle : ∀ k, db'.MayBeActive active k → db.MayBeActive active k) :
    db'.OneActive active := fun i k hi hk => h i k (hle i hi) (hle k hk)

/-- **A write that the index lets through.** -/
theorem OneActive.write (h : db.OneActive active) (hrows : db'.rows = db.rows)
    (hpending : ∀ q, db'.pending.get? q = if q = p then some w else db.pending.get? q)
    (hcheck : db.checkIndex active p w = .free) : db'.OneActive active := by
  -- A version after the write is a new one, or one of before that is not the process's.
  have hcase : ∀ k, db'.MayBeActive active k → (∃ new, w.get? k = some new ∧ active new = true) ∨
      db.MayBeActive active k ∧ ∃ r, active r = true ∧ (db.rows.get? k = some r ∨ w.get? k = some r ∨
        ∃ q w', q ≠ p ∧ db.pending.get? q = some w' ∧ w'.get? k = some r) := by
    rintro k (⟨r, hr, hactive⟩ | ⟨q, w', r, hw', hr, hactive⟩)
    · rw [hrows] at hr
      exact .inr ⟨.inl ⟨r, hr, hactive⟩, r, hactive, .inl hr⟩
    · rw [hpending] at hw'
      split at hw'
      · obtain rfl := Option.some.inj hw'
        exact .inl ⟨r, hr, hactive⟩
      · next hq => exact .inr ⟨.inr ⟨q, w', r, hw', hr, hactive⟩, r, hactive, .inr (.inr ⟨q, w', hq, hw', hr⟩)⟩
  intro i k hi hk
  rcases hcase i hi with ⟨ri, hri, hacti⟩ | ⟨hi, ri, hacti, hrowi⟩ <;>
    rcases hcase k hk with ⟨rk, hrk, hactk⟩ | ⟨hk, rk, hactk, hrowk⟩
  · exact eq_of_checkIndex hcheck hrk hactk hacti (.inr (.inl hri))
  · exact (eq_of_checkIndex hcheck hri hacti hactk hrowk).symm
  · exact eq_of_checkIndex hcheck hrk hactk hacti hrowi
  · exact h i k hi hk

theorem OneActive.rollback (h : db.OneActive active) (p : π) : (db.rollback p).OneActive active := by
  refine h.of_le fun k hk => ?_
  rcases hk with hr | ⟨q, w, r, hw, hr, hactive⟩
  · exact .inl hr
  · rw [pending_rollback] at hw
    split at hw
    · cases hw
    · exact .inr ⟨q, w, r, hw, hr, hactive⟩

/-- A commit publishes versions that were there. -/
theorem OneActive.commit (h : db.OneActive active) (p : π) : (db.commit p).OneActive active := by
  refine h.of_le fun k hk => ?_
  rcases hk with ⟨r, hr, hactive⟩ | ⟨q, w, r, hw, hr, hactive⟩
  · cases hw : db.pending.get? p with
    | none =>
        unfold Transactional.commit at hr
        rw [hw] at hr
        exact .inl ⟨r, (KeyedTable.get?_overlay db.rows .empty k).symm.trans hr, hactive⟩
    | some w =>
        rw [get?_commit hw] at hr
        cases hnew : w.get? k with
        | none =>
            rw [hnew] at hr
            exact .inl ⟨r, hr, hactive⟩
        | some new =>
            rw [hnew] at hr
            obtain rfl := Option.some.inj hr
            exact .inr ⟨p, w, new, hw, hnew, hactive⟩
  · rw [pending_commit] at hw
    split at hw
    · cases hw
    · exact .inr ⟨q, w, r, hw, hr, hactive⟩

end Index

end Transactional

end VirtInfra.Lib
