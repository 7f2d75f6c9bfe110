import VirtInfra.Lib.Lookup

/-!
# `OnConflict` — `INSERT … SELECT … ON CONFLICT`, as one statement

A statement that inserts many rows is not the same as inserting them one after another: with `DO UPDATE` it fails when a
row meets one that the same statement has inserted or updated. A row that the `WHERE` of the update leaves alone is not
updated, and neither is one that `DO NOTHING` meets.

`insertSelect_eq_ok_iff` is the rule: the statement does what the single inserts do exactly if no row comes after an
applied one with its key.
-/

namespace VirtInfra.Lib

/-- **What to do with a row that is there.** `set` and `cond` see the old row and the new one. -/
inductive OnConflict (ρ : Type*)
  | doNothing
  | doUpdate (set : ρ → ρ → ρ) (cond : ρ → ρ → Bool)

namespace OnConflict

/-- `DO UPDATE SET … WHERE excluded.stamp >= t.stamp`. -/
def newest {ρ : Type*} (stamp : ρ → Int) : OnConflict ρ := doUpdate (fun _ new => new) fun old new => stamp old ≤ stamp new

variable {κ ρ : Type*} [DecidableEq κ]

/-- What a conflict leaves. -/
def merge (c : OnConflict ρ) (old new : ρ) : ρ :=
  match c with
  | doNothing => old
  | doUpdate set cond => if cond old new then set old new else old

@[simp] theorem merge_newest (stamp : ρ → Int) : (newest stamp).merge = KeyedTable.guarded stamp := by
  funext old new
  simp [newest, merge, KeyedTable.guarded]

/-- The statement on a single row. -/
def upsert (c : OnConflict ρ) (t : KeyedTable κ ρ) (row : κ × ρ) : KeyedTable κ ρ := t.upsert row.1 row.2 c.merge

/-- The row is inserted, or updates the one that is there. -/
def applies (c : OnConflict ρ) (t : KeyedTable κ ρ) (row : κ × ρ) : Bool :=
  match t.get? row.1 with
  | none => true
  | some old =>
      match c with
      | doNothing => false
      | doUpdate _ cond => cond old row.2

def updates : OnConflict ρ → Bool
  | doNothing => false
  | doUpdate _ _ => true

def secondTime : String := "ON CONFLICT DO UPDATE command cannot affect row a second time"

/-- The statement, after it has inserted or updated the rows of `touched`. -/
def insertFrom (c : OnConflict ρ) : List κ → List (κ × ρ) → KeyedTable κ ρ → Except String (KeyedTable κ ρ)
  | _, [], t => .ok t
  | touched, row :: rest, t =>
      if c.updates && decide (row.1 ∈ touched) then .error secondTime
      else c.insertFrom (if c.applies t row then row.1 :: touched else touched) rest (c.upsert t row)

/-- **`INSERT INTO t SELECT rows ON CONFLICT c`.** -/
def insertSelect (c : OnConflict ρ) (rows : List (κ × ρ)) (t : KeyedTable κ ρ) : Except String (KeyedTable κ ρ) :=
  c.insertFrom [] rows t

variable {c : OnConflict ρ} {t t' : KeyedTable κ ρ} {row other : κ × ρ} {rows : List (κ × ρ)} {touched : List κ}

/-- A row that does not apply leaves the one under its key as it is. -/
theorem get?_upsert_of_not_applies (h : c.applies t row = false) (k : κ) : (c.upsert t row).get? k = t.get? k := by
  unfold upsert
  by_cases hk : k = row.1
  · subst hk
    unfold applies at h
    rw [KeyedTable.get?_upsert_self]
    cases hold : t.get? row.1 with
    | none =>
        rw [hold] at h
        cases h
    | some old =>
        rw [hold] at h
        cases c with
        | doNothing => rfl
        | doUpdate set cond => simp_all [merge]
  · exact KeyedTable.get?_upsert_of_ne _ _ _ hk

/-- What applies under another key is not changed by a row. -/
theorem applies_upsert (h : other.1 ≠ row.1 ∨ c.applies t row = false) :
    c.applies (c.upsert t row) other = c.applies t other := by
  have hget : (c.upsert t row).get? other.1 = t.get? other.1 := by
    rcases h with hne | hskip
    · exact KeyedTable.get?_upsert_of_ne _ _ _ hne
    · exact get?_upsert_of_not_applies hskip other.1
  unfold applies
  rw [hget]

/-- What a statement gives, if it gives anything, is what the single inserts give. -/
theorem insertFrom_eq_foldl (h : c.insertFrom touched rows t = .ok t') : t' = rows.foldl c.upsert t := by
  induction rows generalizing touched t with
  | nil => exact (Except.ok.inj h).symm
  | cons row rest ih =>
      unfold insertFrom at h
      split at h
      · cases h
      · exact ih h

/-- **When a statement does not fail.** -/
theorem insertFrom_isOk_iff : (∃ t', c.insertFrom touched rows t = .ok t') ↔
    c.updates = false ∨ (∀ row ∈ rows, row.1 ∉ touched) ∧
      rows.Pairwise fun earlier later => earlier.1 = later.1 → c.applies t earlier = false := by
  induction rows generalizing touched t with
  | nil => simp [insertFrom]
  | cons row rest ih =>
      unfold insertFrom
      by_cases hfails : (c.updates && decide (row.1 ∈ touched)) = true
      · obtain ⟨hupdates, hmem⟩ : c.updates = true ∧ row.1 ∈ touched := by simpa using hfails
        rw [if_pos hfails]
        simp [hupdates, hmem]
      · rw [if_neg hfails, ih]
        by_cases hupdates : c.updates = false
        · simp [hupdates]
        · have hfresh : row.1 ∉ touched := by
            intro hmem
            exact hfails (by simp [hmem, hupdates])
          simp only [hupdates, reduceCtorEq, false_or, List.forall_mem_cons, List.pairwise_cons]
          cases happlies : c.applies t row with
          | false =>
              -- The row is not applied: the table looks as before.
              have hsame : ∀ other, c.applies (c.upsert t row) other = c.applies t other :=
                fun other => applies_upsert (.inr happlies)
              simp only [hsame, Bool.false_eq_true, if_false]
              tauto
          | true =>
              -- It is: no later row has its key, and under other keys the table looks as before.
              simp only [if_true, List.mem_cons, not_or]
              constructor
              · rintro ⟨hall, hpair⟩
                refine ⟨⟨hfresh, fun other hother => (hall other hother).2⟩,
                  fun other hother heq => absurd heq.symm (hall other hother).1, ?_⟩
                refine hpair.imp_of_mem fun {earlier later} hearlier _ hlater heq => ?_
                rw [← applies_upsert (.inl (hall earlier hearlier).1)]
                exact hlater heq
              · rintro ⟨⟨-, hall⟩, hhead, hpair⟩
                have hne : ∀ other ∈ rest, other.1 ≠ row.1 := by
                  intro other hother heq
                  cases hhead other hother heq.symm
                refine ⟨fun other hother => ⟨hne other hother, hall other hother⟩, ?_⟩
                refine hpair.imp_of_mem fun {earlier later} hearlier _ hlater heq => ?_
                rw [applies_upsert (.inl (hne earlier hearlier))]
                exact hlater heq

/-- **A statement does what the single inserts do** exactly if it updates nothing on conflict, or no row comes after an
    applied one with its key. -/
theorem insertSelect_eq_ok_iff : c.insertSelect rows t = .ok (rows.foldl c.upsert t) ↔
    c.updates = false ∨ rows.Pairwise fun earlier later => earlier.1 = later.1 → c.applies t earlier = false := by
  have hiff := @insertFrom_isOk_iff κ ρ _ c t rows []
  simp only [List.not_mem_nil, not_false_eq_true, implies_true, true_and] at hiff
  rw [← hiff]
  constructor
  · intro h
    exact ⟨_, h⟩
  · rintro ⟨t', h⟩
    rw [insertSelect, h, insertFrom_eq_foldl h]

theorem insertSelect_eq_foldl (h : c.insertSelect rows t = .ok t') : t' = rows.foldl c.upsert t := insertFrom_eq_foldl h

/-- **An applied row is what the statement leaves under its key.** -/
theorem get?_insertSelect_of_applies (hupdates : c.updates = true) (h : c.insertSelect rows t = .ok t') (hrow : row ∈ rows)
    (happlies : c.applies t row = true) : t'.get? row.1 = (c.upsert t row).get? row.1 := by
  obtain rfl := insertSelect_eq_foldl h
  have hpair := (insertSelect_eq_ok_iff.mp h).resolve_left (by simp [hupdates])
  clear h
  induction rows generalizing t with
  | nil => cases hrow
  | cons first rest ih =>
      obtain ⟨hhead, htail⟩ := List.pairwise_cons.mp hpair
      rw [List.foldl_cons]
      rcases List.mem_cons.mp hrow with rfl | hrest
      · refine KeyedTable.get?_foldl_upsert_of_ne Prod.snd c.merge _ fun other hother heq => ?_
        rw [hhead other hother heq] at happlies
        cases happlies
      · -- The first row has another key than the later ones, or is passed over.
        have hsame : ∀ other ∈ rest, c.applies (c.upsert t first) other = c.applies t other := by
          intro other hother
          by_cases hkey : first.1 = other.1
          · exact applies_upsert (.inr (hhead other hother hkey))
          · exact applies_upsert (.inl (Ne.symm hkey))
        have hget : (c.upsert t first).get? row.1 = t.get? row.1 := by
          by_cases hkey : first.1 = row.1
          · exact get?_upsert_of_not_applies (hhead row hrest hkey) row.1
          · exact KeyedTable.get?_upsert_of_ne _ _ _ (Ne.symm hkey)
        rw [ih hrest ((hsame row hrest).trans happlies) (htail.imp_of_mem fun hearlier _ hlater heq => ?_)]
        · unfold upsert at hget ⊢
          rw [KeyedTable.get?_upsert_self, KeyedTable.get?_upsert_self, hget]
        · rw [hsame _ hearlier]
          exact hlater heq

end OnConflict

end VirtInfra.Lib
