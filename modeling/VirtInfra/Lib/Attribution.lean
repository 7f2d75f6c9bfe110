import Mathlib.Algebra.BigOperators.Group.List.Basic
import Mathlib.Algebra.GroupWithZero.Nat
import Mathlib.Algebra.BigOperators.Group.Finset.Piecewise
import Mathlib.Data.Finset.Dedup

/-!
# `Attribution` — who the amounts in a table come from

A table holds one amount for each key and column, and each amount is the sum of what several owners put in. A list of
entries keeps the owners apart: `total` is what the table should hold, `share` the part of one owner. Dropping one owner
while every other keeps its share takes exactly that owner's share out of every total (`total_add_share`).
-/

namespace VirtInfra.Lib

/-- What one owner put in under a key. -/
structure Entry (κ ω ι : Type*) where
  key : κ
  owner : ω
  amount : ι → Nat

namespace Attribution

variable {κ ω ι : Type*} [DecidableEq κ] {entries more : List (Entry κ ω ι)} {key : κ} {owner : ω} {column : ι}

/-- What all owners put in under a key. -/
def total (entries : List (Entry κ ω ι)) (key : κ) (column : ι) : Nat :=
  ((entries.filter fun entry => entry.key = key).map fun entry => entry.amount column).sum

@[simp] theorem total_nil : total ([] : List (Entry κ ω ι)) key column = 0 := rfl

@[simp] theorem total_append : total (entries ++ more) key column = total entries key column + total more key column := by
  simp [total]

theorem total_cons (entry : Entry κ ω ι) : total (entry :: entries) key column =
    (if entry.key = key then entry.amount column else 0) + total entries key column := by
  unfold total
  by_cases h : entry.key = key <;> simp [h]

/-- Keeping the entries of some keys keeps the totals of these keys and no other. -/
theorem total_filter_key (keep : κ → Bool) :
    total (entries.filter fun entry => keep entry.key) key column = if keep key then total entries key column else 0 := by
  induction entries with
  | nil => simp
  | cons entry rest ih =>
      rw [List.filter_cons]
      split
      · rename_i hkeep
        rw [total_cons, ih, total_cons]
        by_cases hkey : entry.key = key
        · rw [← hkey, if_pos hkeep, if_pos hkeep]
        · simp [hkey]
      · rename_i hkeep
        rw [ih, total_cons]
        by_cases hkey : entry.key = key
        · rw [← hkey, if_neg hkeep, if_neg hkeep]
        · simp [hkey]

variable [DecidableEq ω]

/-- **The share of one owner.** -/
def share (entries : List (Entry κ ω ι)) (key : κ) (owner : ω) (column : ι) : Nat :=
  total (entries.filter fun entry => entry.owner = owner) key column

@[simp] theorem share_nil : share ([] : List (Entry κ ω ι)) key owner column = 0 := rfl

@[simp] theorem share_append :
    share (entries ++ more) key owner column = share entries key owner column + share more key owner column := by
  simp [share]

theorem share_cons (entry : Entry κ ω ι) : share (entry :: entries) key owner column =
    (if entry.owner = owner then if entry.key = key then entry.amount column else 0 else 0) +
      share entries key owner column := by
  unfold share
  by_cases h : entry.owner = owner
  · rw [List.filter_cons_of_pos (by simpa using h), total_cons, if_pos h]
  · rw [List.filter_cons_of_neg (by simpa using h), if_neg h, Nat.zero_add]

/-- Dropping an owner drops its share and no other. -/
theorem share_filter_owner (dropped : ω) :
    share (entries.filter fun entry => entry.owner ≠ dropped) key owner column =
      if owner = dropped then 0 else share entries key owner column := by
  induction entries with
  | nil => simp
  | cons entry rest ih =>
      rw [List.filter_cons, share_cons]
      split
      · rename_i hkept
        rw [share_cons, ih]
        by_cases h : owner = dropped
        · subst h
          have hne : entry.owner ≠ owner := by simpa using hkept
          simp [hne]
        · simp [h]
      · rename_i hdropped
        rw [ih]
        by_cases h : owner = dropped
        · simp [h]
        · have hother : entry.owner ≠ owner := by
            rintro rfl
            simp [h] at hdropped
          simp [hother]

/-- A total is the sum of the shares of its owners. -/
theorem total_eq_sum {owners : Finset ω} (h : ∀ entry ∈ entries, entry.owner ∈ owners) :
    total entries key column = ∑ owner ∈ owners, share entries key owner column := by
  induction entries with
  | nil => simp
  | cons entry rest ih =>
      rw [total_cons, ih fun other hother => h other (List.mem_cons_of_mem _ hother),
        Finset.sum_congr rfl fun owner _ => share_cons entry, Finset.sum_add_distrib, Finset.sum_ite_eq,
        if_pos (h entry List.mem_cons_self)]

theorem share_le_total : share entries key owner column ≤ total entries key column := by
  induction entries with
  | nil => exact le_refl 0
  | cons entry rest ih =>
      rw [total_cons, share_cons]
      by_cases h : entry.owner = owner
      · rw [if_pos h]
        omega
      · rw [if_neg h]
        omega

/-- **Taking one owner out** takes its share out of every total, when the other shares stay. -/
theorem total_add_share {entries' : List (Entry κ ω ι)} (hgone : share entries' key owner column = 0)
    (hothers : ∀ other, other ≠ owner → share entries' key other column = share entries key other column) :
    total entries' key column + share entries key owner column = total entries key column := by
  let owners : Finset ω := ((entries ++ entries').map Entry.owner).toFinset ∪ {owner}
  have hmem : ∀ entry, entry ∈ entries ++ entries' → entry.owner ∈ owners := fun entry hentry =>
    Finset.mem_union_left _ (List.mem_toFinset.mpr (List.mem_map_of_mem hentry))
  have howner : owner ∈ owners := Finset.mem_union_right _ (Finset.mem_singleton_self _)
  rw [total_eq_sum fun entry hentry => hmem entry (List.mem_append_right _ hentry),
    total_eq_sum fun entry hentry => hmem entry (List.mem_append_left _ hentry),
    ← Finset.add_sum_erase owners _ howner, ← Finset.add_sum_erase owners _ howner, hgone,
    Finset.sum_congr rfl fun other hother => hothers other (Finset.ne_of_mem_erase hother)]
  omega

end Attribution

end VirtInfra.Lib
