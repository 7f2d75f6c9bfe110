import Mathlib.Algebra.BigOperators.Group.List.Basic
import Mathlib.Data.List.Induction
import Mathlib.Data.List.Nodup

/-!
# `KeyedTable` — tables with a primary key, upserts, and sums over their rows

A table is the list of its rows under a key that no two rows share; the key constraint is a field, so
every table a program builds satisfies it. Three statements of SQL act on one: an upsert
(`INSERT … ON CONFLICT (key) DO UPDATE`, `upsert`), a grouped upsert (`INSERT … SELECT … GROUP BY`,
`mergeGroups`) and a delete by predicate (`deleteWhere`).

What a reader of pre-aggregated rows needs is `sumOf`, the sum of a column over the rows whose key
satisfies a predicate. The three rules below say how each statement moves it: an upsert adds exactly the
new row's share (`sumOf_upsert`), a grouped upsert adds exactly the shares of the grouped items
(`sumOf_mergeGroups`), and a delete that misses the selected keys leaves it alone (`sumOf_deleteWhere`).
-/

namespace VirtInfra.Lib

variable {κ ρ α M : Type*} [AddCommMonoid M]

/-- **A table with a primary key.** No two rows share a key. -/
structure KeyedTable (κ ρ : Type*) where
  rows : List (κ × ρ)
  nodupKeys : (rows.map Prod.fst).Nodup

namespace KeyedTable

def empty : KeyedTable κ ρ := ⟨[], List.nodup_nil⟩

instance : Inhabited (KeyedTable κ ρ) := ⟨empty⟩

/-- **`DELETE … WHERE p(key)`.** -/
def deleteWhere (t : KeyedTable κ ρ) (p : κ → Bool) : KeyedTable κ ρ :=
  ⟨t.rows.filter fun row => !p row.1, (List.filter_sublist.map Prod.fst).nodup t.nodupKeys⟩

/-- **`SELECT … WHERE p(key)`**, the rows without their keys' order meaning anything. -/
def select (t : KeyedTable κ ρ) (p : κ → Bool) : List (κ × ρ) := t.rows.filter fun row => p row.1

/-- **`SUM(f(row)) … WHERE p(key)`.** -/
def sumOf (t : KeyedTable κ ρ) (p : κ → Bool) (f : ρ → M) : M :=
  (t.rows.map fun row => if p row.1 then f row.2 else 0).sum

/-- Every row of the table satisfies `P`. -/
def All (t : KeyedTable κ ρ) (P : ρ → Prop) : Prop := ∀ row ∈ t.rows, P row.2

@[simp] theorem sumOf_empty (p : κ → Bool) (f : ρ → M) : (empty : KeyedTable κ ρ).sumOf p f = 0 := rfl

theorem all_empty (P : ρ → Prop) : (empty : KeyedTable κ ρ).All P := by simp [All, empty]

/-- Summing what a second condition keeps of the selected rows is `sumOf` under both conditions. -/
theorem sum_select (t : KeyedTable κ ρ) (p q : κ → Bool) (f : ρ → M) :
    ((t.select p).map fun row => if q row.1 then f row.2 else 0).sum = t.sumOf (fun k => p k && q k) f := by
  unfold select sumOf
  induction t.rows with
  | nil => rfl
  | cons row rest ih => by_cases hp : p row.1 <;> simp [hp, ih]

theorem sumOf_congr {t : KeyedTable κ ρ} {P : ρ → Prop} {p q : κ → Bool} {f g : ρ → M} (ht : t.All P)
    (hpq : ∀ k, p k = q k) (hfg : ∀ row, P row → f row = g row) : t.sumOf p f = t.sumOf q g := by
  unfold sumOf
  refine congrArg List.sum (List.map_congr_left fun row hrow => ?_)
  rw [hpq, hfg _ (ht row hrow)]

theorem All.deleteWhere {t : KeyedTable κ ρ} {P : ρ → Prop} (ht : t.All P) (p : κ → Bool) :
    (t.deleteWhere p).All P :=
  fun row hrow => ht row (List.mem_filter.mp hrow).1

/-- **A delete that spares the selected keys leaves the selection alone.** -/
theorem select_deleteWhere (t : KeyedTable κ ρ) (q p : κ → Bool) (h : ∀ k, p k = true → q k = false) :
    (t.deleteWhere q).select p = t.select p := by
  unfold select deleteWhere
  rw [List.filter_filter]
  refine List.filter_congr fun row _ => ?_
  by_cases hp : p row.1 = true
  · simp [hp, h row.1 hp]
  · simp [hp]

/-- **A delete that hits no selected row leaves the sum alone.** -/
theorem sumOf_deleteWhere (t : KeyedTable κ ρ) (q p : κ → Bool) (f : ρ → M)
    (h : ∀ row ∈ t.rows, q row.1 → p row.1 = false) :
    (t.deleteWhere q).sumOf p f = t.sumOf p f := by
  simp only [sumOf, deleteWhere]
  revert h
  induction t.rows with
  | nil => intro _; rfl
  | cons row rest ih =>
      intro h
      have hrest := ih fun r hr => h r (by simp [hr])
      by_cases hq : q row.1
      · simp [hq, h row (by simp) hq, hrest]
      · simp [hq, hrest]

/-- **A delete splits a sum** into what stays and what goes. -/
theorem sumOf_deleteWhere_add (t : KeyedTable κ ρ) (q p : κ → Bool) (f : ρ → M) :
    (t.deleteWhere q).sumOf p f + t.sumOf (fun k => q k && p k) f = t.sumOf p f := by
  simp only [sumOf, deleteWhere]
  induction t.rows with
  | nil => simp
  | cons row rest ih =>
      rw [List.map_cons, List.map_cons, List.sum_cons, List.sum_cons, ← ih]
      by_cases hq : q row.1
      · simp [hq, add_left_comm]
      · simp [hq, add_assoc]

variable [DecidableEq κ]

/-- Replace the row at `k` by its merge with `new`, or append `new` when there is none. -/
def upsertRows (k : κ) (new : ρ) (merge : ρ → ρ → ρ) : List (κ × ρ) → List (κ × ρ)
  | [] => [(k, new)]
  | (k', old) :: rest =>
      if k' = k then (k', merge old new) :: rest else (k', old) :: upsertRows k new merge rest

theorem mem_keys_upsertRows {k : κ} {new : ρ} {merge : ρ → ρ → ρ} {rows : List (κ × ρ)} {x : κ}
    (h : x ∈ (upsertRows k new merge rows).map Prod.fst) : x = k ∨ x ∈ rows.map Prod.fst := by
  induction rows with
  | nil => simpa [upsertRows] using h
  | cons row rest ih =>
      obtain ⟨k', old⟩ := row
      unfold upsertRows at h
      split at h
      · exact Or.inr (by simpa using h)
      · simp only [List.map_cons, List.mem_cons] at h ⊢
        rcases h with h | h
        · exact Or.inr (Or.inl h)
        · exact (ih h).imp_right Or.inr

theorem nodupKeys_upsertRows {k : κ} {new : ρ} {merge : ρ → ρ → ρ} {rows : List (κ × ρ)}
    (h : (rows.map Prod.fst).Nodup) : ((upsertRows k new merge rows).map Prod.fst).Nodup := by
  induction rows with
  | nil => simp [upsertRows]
  | cons row rest ih =>
      obtain ⟨k', old⟩ := row
      simp only [List.map_cons, List.nodup_cons] at h
      unfold upsertRows
      split
      · simpa using h
      · rename_i hk
        simp only [List.map_cons, List.nodup_cons]
        refine ⟨fun hmem => ?_, ih h.2⟩
        rcases mem_keys_upsertRows hmem with hk' | hmem
        · exact hk hk'
        · exact h.1 hmem

/-- **`INSERT … ON CONFLICT (key) DO UPDATE`.** `merge old new` is the updated row. -/
def upsert (t : KeyedTable κ ρ) (k : κ) (new : ρ) (merge : ρ → ρ → ρ) : KeyedTable κ ρ :=
  ⟨upsertRows k new merge t.rows, nodupKeys_upsertRows t.nodupKeys⟩

/-! ## What each statement does to the rows and to a sum -/

theorem mem_upsertRows {k : κ} {new : ρ} {merge : ρ → ρ → ρ} {rows : List (κ × ρ)} {row : κ × ρ}
    (h : row ∈ upsertRows k new merge rows) :
    row ∈ rows ∨ row = (k, new) ∨ ∃ old, (k, old) ∈ rows ∧ row = (k, merge old new) := by
  induction rows with
  | nil => exact Or.inr (Or.inl (by simpa [upsertRows] using h))
  | cons first rest ih =>
      obtain ⟨k', old⟩ := first
      unfold upsertRows at h
      split at h
      · rename_i hk
        subst hk
        rcases List.mem_cons.mp h with rfl | h
        · exact Or.inr (Or.inr ⟨old, by simp, rfl⟩)
        · exact Or.inl (by simp [h])
      · rcases List.mem_cons.mp h with rfl | h
        · exact Or.inl (by simp)
        · rcases ih h with h | h | ⟨old', hmem, hrow⟩
          · exact Or.inl (by simp [h])
          · exact Or.inr (Or.inl h)
          · exact Or.inr (Or.inr ⟨old', by simp [hmem], hrow⟩)

/-- **A row invariant survives an upsert** when the new row has it and merging keeps it. -/
theorem All.upsert {t : KeyedTable κ ρ} {P : ρ → Prop} {k : κ} {new : ρ} {merge : ρ → ρ → ρ}
    (ht : t.All P) (hnew : P new) (hmerge : ∀ old, P old → P (merge old new)) :
    (t.upsert k new merge).All P := by
  intro row hrow
  rcases mem_upsertRows hrow with h | rfl | ⟨old, hold, rfl⟩
  · exact ht row h
  · exact hnew
  · exact hmerge old (ht _ hold)

/-- **An upsert adds the new row's share.** Only the merge with the row already stored has to be
    additive, so a row invariant may be used to show it. -/
theorem sumOf_upsert (t : KeyedTable κ ρ) (k : κ) (new : ρ) (merge : ρ → ρ → ρ) (p : κ → Bool) (f : ρ → M)
    (hf : ∀ old, (k, old) ∈ t.rows → f (merge old new) = f old + f new) :
    (t.upsert k new merge).sumOf p f = t.sumOf p f + if p k then f new else 0 := by
  simp only [sumOf, upsert]
  revert hf
  induction t.rows with
  | nil => intro _; simp [upsertRows]
  | cons row rest ih =>
      obtain ⟨k', old⟩ := row
      intro hf
      by_cases hk : k' = k
      · subst hk
        have hold := hf old (by simp)
        by_cases hp : p k'
        · simp only [upsertRows, if_true, List.map_cons, List.sum_cons, hp, hold, add_right_comm]
        · simp [upsertRows, hp]
      · have hrest := ih fun old' hmem => hf old' (by simp [hmem])
        simp only [upsertRows, hk, if_false, List.map_cons, List.sum_cons, hrest, add_assoc]

/-! ## Grouped upserts -/

/-- **`GROUP BY key`.** One row per key, holding the items of that key in their order. -/
def groupBy (key : α → κ) (items : List α) : KeyedTable κ (List α) :=
  items.foldl (fun groups a => groups.upsert (key a) [a] (· ++ ·)) empty

/-- **`INSERT … SELECT agg(…) … GROUP BY key ON CONFLICT DO UPDATE`.** -/
def mergeGroups (t : KeyedTable κ ρ) (key : α → κ) (agg : κ → List α → ρ) (merge : ρ → ρ → ρ)
    (items : List α) : KeyedTable κ ρ :=
  (groupBy key items).rows.foldl (fun acc group => acc.upsert group.1 (agg group.1 group.2) merge) t

/-- What `groupBy` puts into a group: items of the input, all under the group's key, at least one. -/
def GroupOf (key : α → κ) (items : List α) (k : κ) (group : List α) : Prop :=
  group ≠ [] ∧ ∀ a ∈ group, a ∈ items ∧ key a = k

theorem groupBy_append (key : α → κ) (items : List α) (a : α) :
    groupBy key (items ++ [a]) = (groupBy key items).upsert (key a) [a] (· ++ ·) := by
  simp [groupBy]

theorem groupBy_groupOf (key : α → κ) (items : List α) :
    ∀ row ∈ (groupBy key items).rows, GroupOf key items row.1 row.2 := by
  induction items using List.reverseRecOn with
  | nil => simp [groupBy, empty]
  | append_singleton items a ih =>
      intro row hrow
      rw [groupBy_append] at hrow
      rcases mem_upsertRows hrow with h | rfl | ⟨old, hold, rfl⟩
      · obtain ⟨hne, hmem⟩ := ih row h
        exact ⟨hne, fun b hb => ⟨List.mem_append_left _ (hmem b hb).1, (hmem b hb).2⟩⟩
      · exact ⟨by simp, by simp⟩
      · obtain ⟨_, hmem⟩ := ih _ hold
        refine ⟨by simp, fun b hb => ?_⟩
        rcases List.mem_append.mp hb with hb | hb
        · exact ⟨List.mem_append_left _ (hmem b hb).1, (hmem b hb).2⟩
        · obtain rfl : b = a := by simpa using hb
          exact ⟨by simp, rfl⟩

/-- **Grouping loses nothing**: summing each group and then the groups is summing the items. -/
theorem sumOf_groupBy (key : α → κ) (items : List α) (p : κ → Bool) (w : α → M) :
    (groupBy key items).sumOf p (fun group => (group.map w).sum) =
      (items.map fun a => if p (key a) then w a else 0).sum := by
  induction items using List.reverseRecOn with
  | nil => rfl
  | append_singleton items a ih =>
      rw [groupBy_append, sumOf_upsert _ _ _ _ _ _ (fun old _ => by simp), ih]
      simp

section MergeGroups

variable {key : α → κ} {agg : κ → List α → ρ} {merge : ρ → ρ → ρ} {items : List α} {P : ρ → Prop}

theorem All.mergeGroups {t : KeyedTable κ ρ} (ht : t.All P)
    (hagg : ∀ k group, GroupOf key items k group → P (agg k group))
    (hmerge : ∀ old k group, GroupOf key items k group → P old → P (merge old (agg k group))) :
    (t.mergeGroups key agg merge items).All P := by
  have hgroups := groupBy_groupOf key items
  unfold KeyedTable.mergeGroups
  revert hgroups ht
  induction (groupBy key items).rows generalizing t with
  | nil => intro ht _; exact ht
  | cons group rest ih =>
      intro ht hgroups
      have hgroup := hgroups group (by simp)
      exact ih (ht.upsert (hagg _ _ hgroup) fun old hold => hmerge old _ _ hgroup hold)
        fun g hg => hgroups g (by simp [hg])

/-- **A grouped upsert adds the shares of the grouped items.** `P` is a row invariant under which merging a
    group's row adds up. -/
theorem sumOf_mergeGroups (t : KeyedTable κ ρ) (p : κ → Bool) (f : ρ → M) (w : α → M) (ht : t.All P)
    (hagg : ∀ k group, GroupOf key items k group → P (agg k group))
    (hmerge : ∀ old k group, GroupOf key items k group → P old → P (merge old (agg k group)))
    (hw : ∀ k group, GroupOf key items k group → f (agg k group) = (group.map w).sum)
    (hf : ∀ old k group, GroupOf key items k group → P old → f (merge old (agg k group)) = f old + f (agg k group)) :
    (t.mergeGroups key agg merge items).sumOf p f =
      t.sumOf p f + (items.map fun a => if p (key a) then w a else 0).sum := by
  rw [← sumOf_groupBy]
  have hgroups := groupBy_groupOf key items
  unfold KeyedTable.mergeGroups
  simp only [sumOf]
  revert hgroups ht
  induction (groupBy key items).rows generalizing t with
  | nil => intro _ _; simp
  | cons group rest ih =>
      intro ht hgroups
      have hgroup := hgroups group (by simp)
      have hstep := sumOf_upsert t group.1 (agg group.1 group.2) merge p f
        fun old hold => hf old _ _ hgroup (ht _ hold)
      have hrest := ih (t.upsert group.1 (agg group.1 group.2) merge)
        (ht.upsert (hagg _ _ hgroup) fun old hold => hmerge old _ _ hgroup hold) fun g hg => hgroups g (by simp [hg])
      simp only [sumOf] at hstep
      simp only [List.foldl_cons, List.map_cons, List.sum_cons, hrest, hstep, hw _ _ hgroup, add_assoc]

end MergeGroups

end KeyedTable

end VirtInfra.Lib
