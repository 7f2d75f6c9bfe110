import VirtInfra.Lib.KeyedTable

/-!
# `Lookup` — keyed tables by their rows

`get?` is the row of a key. Each statement moves it in one way: an upsert changes the row of its key and no other
(`get?_upsert_self`, `get?_upsert_of_ne`), an update and a delete act on every row by itself (`get?_update`,
`get?_deleteRows`), and a grouped upsert merges the row of a key with the aggregate of its group (`get?_mergeGroups`).
An upsert that is `guarded` by a stamp never replaces a row by one with a smaller stamp.
-/

namespace VirtInfra.Lib.KeyedTable

variable {κ ρ : Type*}

/-- **`UPDATE … SET f`**, on every row; `f` may leave a row alone. -/
def update (t : KeyedTable κ ρ) (f : κ → ρ → ρ) : KeyedTable κ ρ where
  rows := t.rows.map fun row => (row.1, f row.1 row.2)
  nodupKeys := by
    rw [List.map_map]
    exact t.nodupKeys

/-- **`SELECT key, f(row)`**, as a table under the same key. -/
def mapRows {σ : Type*} (t : KeyedTable κ ρ) (f : κ → ρ → σ) : KeyedTable κ σ where
  rows := t.rows.map fun row => (row.1, f row.1 row.2)
  nodupKeys := by
    rw [List.map_map]
    exact t.nodupKeys

/-- **`DELETE … WHERE p(row)`.** -/
def deleteRows (t : KeyedTable κ ρ) (p : κ → ρ → Bool) : KeyedTable κ ρ :=
  ⟨t.rows.filter fun row => !p row.1 row.2, (List.filter_sublist.map Prod.fst).nodup t.nodupKeys⟩

/-- A table is its rows. -/
theorem ext_rows {t t' : KeyedTable κ ρ} (h : t.rows = t'.rows) : t = t' := by
  cases t
  cases t'
  cases h
  rfl

/-- The keys that have a row. -/
def keys (t : KeyedTable κ ρ) : List κ := t.rows.map Prod.fst

/-- The keys that a delete leaves. -/
theorem mem_keys_deleteWhere {t : KeyedTable κ ρ} {p : κ → Bool} {k : κ} :
    k ∈ (t.deleteWhere p).keys ↔ k ∈ t.keys ∧ p k = false := by
  unfold keys deleteWhere
  constructor
  · intro h
    obtain ⟨row, hrow, rfl⟩ := List.mem_map.mp h
    obtain ⟨hrow, hleft⟩ := List.mem_filter.mp hrow
    exact ⟨List.mem_map_of_mem hrow, by simpa using hleft⟩
  · rintro ⟨h, hleft⟩
    obtain ⟨row, hrow, rfl⟩ := List.mem_map.mp h
    exact List.mem_map_of_mem (List.mem_filter.mpr ⟨hrow, by simpa using hleft⟩)

variable [DecidableEq κ]

/-- **The row of a key.** -/
def get? (t : KeyedTable κ ρ) (k : κ) : Option ρ := (t.rows.find? fun row => row.1 = k).map Prod.snd

@[simp] theorem get?_empty (k : κ) : (empty : KeyedTable κ ρ).get? k = none := rfl

theorem mem_rows_of_get? {t : KeyedTable κ ρ} {k : κ} {r : ρ} (h : t.get? k = some r) : (k, r) ∈ t.rows := by
  obtain ⟨row, hfind, rfl⟩ := Option.map_eq_some_iff.mp h
  have hkey : row.1 = k := by simpa using List.find?_some hfind
  rw [← hkey]
  exact List.mem_of_find?_eq_some hfind

theorem get?_of_mem_rows {t : KeyedTable κ ρ} {k : κ} {r : ρ} (h : (k, r) ∈ t.rows) : t.get? k = some r := by
  obtain ⟨rows, hnodup⟩ := t
  unfold get?
  dsimp only at h ⊢
  induction rows with
  | nil => cases h
  | cons first rest ih =>
      rw [List.map_cons, List.nodup_cons] at hnodup
      rcases List.mem_cons.mp h with rfl | hrest
      · simp
      · have hne : first.1 ≠ k := by
          intro hkey
          apply hnodup.1
          rw [hkey]
          exact List.mem_map.mpr ⟨(k, r), hrest, rfl⟩
        rw [List.find?_cons_of_neg (by simpa using hne)]
        exact ih hnodup.2 hrest

/-- A table holds a row exactly if it finds it. -/
theorem get?_eq_some_iff {t : KeyedTable κ ρ} {k : κ} {r : ρ} : t.get? k = some r ↔ (k, r) ∈ t.rows :=
  ⟨mem_rows_of_get?, get?_of_mem_rows⟩

theorem get?_isSome_iff {t : KeyedTable κ ρ} {k : κ} : (t.get? k).isSome ↔ k ∈ t.keys := by
  rw [Option.isSome_iff_exists, keys, List.mem_map]
  constructor
  · rintro ⟨r, hr⟩
    exact ⟨(k, r), mem_rows_of_get? hr, rfl⟩
  · rintro ⟨⟨k', r⟩, hmem, rfl⟩
    exact ⟨r, get?_of_mem_rows hmem⟩

theorem get?_mapRows {σ : Type*} (t : KeyedTable κ ρ) (f : κ → ρ → σ) (k : κ) :
    (t.mapRows f).get? k = (t.get? k).map (f k) := by
  ext r
  rw [get?_eq_some_iff, mapRows, Option.map_eq_some_iff]
  simp only [List.mem_map, Prod.mk.injEq]
  constructor
  · rintro ⟨⟨k', old⟩, hmem, rfl, rfl⟩
    exact ⟨old, get?_of_mem_rows hmem, rfl⟩
  · rintro ⟨old, hold, rfl⟩
    exact ⟨(k, old), mem_rows_of_get? hold, rfl, rfl⟩

theorem get?_update (t : KeyedTable κ ρ) (f : κ → ρ → ρ) (k : κ) : (t.update f).get? k = (t.get? k).map (f k) :=
  get?_mapRows t f k

theorem get?_deleteRows (t : KeyedTable κ ρ) (p : κ → ρ → Bool) (k : κ) :
    (t.deleteRows p).get? k = (t.get? k).filter fun r => !p k r := by
  ext r
  rw [get?_eq_some_iff, deleteRows, Option.filter_eq_some_iff, get?_eq_some_iff]
  simp

theorem get?_deleteWhere (t : KeyedTable κ ρ) (p : κ → Bool) (k : κ) :
    (t.deleteWhere p).get? k = if p k then none else t.get? k := by
  refine (get?_deleteRows t (fun k _ => p k) k).trans ?_
  cases p k with
  | true => simp
  | false => cases t.get? k <;> simp

theorem get?_deleteWhere_eq_some {t : KeyedTable κ ρ} {p : κ → Bool} {k : κ} {r : ρ} :
    (t.deleteWhere p).get? k = some r ↔ p k = false ∧ t.get? k = some r := by
  rw [get?_deleteWhere]
  cases p k <;> simp

omit [DecidableEq κ] in
/-- A row invariant survives an update that keeps it. -/
theorem All.update {t : KeyedTable κ ρ} {P : ρ → Prop} (ht : t.All P) {f : κ → ρ → ρ} (hf : ∀ k r, P r → P (f k r)) :
    (t.update f).All P := by
  intro row hrow
  obtain ⟨old, hold, rfl⟩ := List.mem_map.mp hrow
  exact hf old.1 old.2 (ht old hold)

omit [DecidableEq κ] in
/-- A row invariant survives a deletion. -/
theorem All.deleteRows {t : KeyedTable κ ρ} {P : ρ → Prop} (ht : t.All P) (p : κ → ρ → Bool) : (t.deleteRows p).All P :=
  fun row hrow => ht row (List.mem_filter.mp hrow).1

theorem find?_upsertRows (k k' : κ) (new : ρ) (merge : ρ → ρ → ρ) (rows : List (κ × ρ)) :
    ((upsertRows k new merge rows).find? fun row => row.1 = k').map Prod.snd =
      if k' = k then some (((rows.find? fun row => row.1 = k).map Prod.snd).elim new (merge · new))
      else (rows.find? fun row => row.1 = k').map Prod.snd := by
  induction rows with
  | nil =>
      unfold upsertRows
      by_cases hk : k' = k
      · subst hk
        simp
      · simp [hk, Ne.symm hk]
  | cons first rest ih =>
      obtain ⟨k₀, old⟩ := first
      unfold upsertRows
      by_cases h₀ : k₀ = k
      · subst h₀
        by_cases hk : k' = k₀
        · subst hk
          simp
        · simp [hk, Ne.symm hk]
      · rw [if_neg h₀]
        by_cases hk' : k₀ = k'
        · subst hk'
          simp [h₀]
        · simp only [List.find?_cons, hk', decide_false]
          rw [ih]
          simp [h₀]

theorem get?_upsert_self (t : KeyedTable κ ρ) (k : κ) (new : ρ) (merge : ρ → ρ → ρ) :
    (t.upsert k new merge).get? k = some ((t.get? k).elim new (merge · new)) := by
  have h := find?_upsertRows k k new merge t.rows
  rwa [if_pos rfl] at h

/-- **An upsert touches no other row.** -/
theorem get?_upsert_of_ne (t : KeyedTable κ ρ) {k k' : κ} (new : ρ) (merge : ρ → ρ → ρ) (h : k' ≠ k) :
    (t.upsert k new merge).get? k' = t.get? k' := by
  have hrows := find?_upsertRows k k' new merge t.rows
  rwa [if_neg h] at hrows

/-- A batch of upserts touches only its own keys. -/
theorem get?_foldl_upsert_of_ne {α : Type*} {l : List α} {key : α → κ} {k : κ} (row : α → ρ) (merge : ρ → ρ → ρ)
    (t : KeyedTable κ ρ) (h : ∀ a ∈ l, k ≠ key a) :
    (l.foldl (fun t a => t.upsert (key a) (row a) merge) t).get? k = t.get? k := by
  induction l generalizing t with
  | nil => rfl
  | cons a rest ih =>
      rw [List.foldl_cons, ih _ fun b hb => h b (List.mem_cons_of_mem _ hb)]
      exact get?_upsert_of_ne t (row a) merge (h a List.mem_cons_self)

/-- An upsert of a batch without a key twice writes each of its rows. -/
theorem get?_foldl_upsert_of_mem {α : Type*} {l : List α} (key : α → κ) (hnodup : (l.map key).Nodup) {a : α} (ha : a ∈ l)
    (row : α → ρ) (merge : ρ → ρ → ρ) (t : KeyedTable κ ρ) :
    (l.foldl (fun t a => t.upsert (key a) (row a) merge) t).get? (key a) =
      some ((t.get? (key a)).elim (row a) (merge · (row a))) := by
  induction l generalizing t with
  | nil => cases ha
  | cons b rest ih =>
      rw [List.map_cons, List.nodup_cons] at hnodup
      rw [List.foldl_cons]
      rcases List.mem_cons.mp ha with rfl | hrest
      · rw [get?_foldl_upsert_of_ne, get?_upsert_self]
        intro b hb hkey
        apply hnodup.1
        rw [hkey]
        exact List.mem_map_of_mem hb
      · have hne : key a ≠ key b := by
          intro hkey
          apply hnodup.1
          rw [← hkey]
          exact List.mem_map_of_mem hrest
        rw [ih hnodup.2 hrest, get?_upsert_of_ne t _ _ hne]

/-- A row that is set to a default before its first change: `t.setdefault(k, default)`, then `f`. -/
def accumulate (t : KeyedTable κ ρ) (k : κ) (default : ρ) (f : ρ → ρ) : KeyedTable κ ρ :=
  t.upsert k (f default) fun old _ => f old

/-- **What a loop accumulates under a key** is what it does with the items of the key. -/
theorem get?_foldl_accumulate {α : Type*} (items : List α) (key : α → κ) (default : ρ) (f : α → ρ → ρ) (k : κ) :
    ∀ t : KeyedTable κ ρ, (items.foldl (fun t a => t.accumulate (key a) default (f a)) t).get? k =
      if (items.filter fun a => key a = k) = [] then t.get? k
      else some ((items.filter fun a => key a = k).foldl (fun r a => f a r) ((t.get? k).getD default)) := by
  induction items with
  | nil => exact fun t => rfl
  | cons a rest ih =>
      intro t
      rw [List.foldl_cons, ih]
      by_cases hkey : key a = k
      · subst hkey
        have hself : (t.accumulate (key a) default (f a)).get? (key a) = some (f a ((t.get? (key a)).getD default)) := by
          unfold accumulate
          rw [get?_upsert_self]
          cases t.get? (key a) <;> rfl
        rw [hself, List.filter_cons_of_pos (by simp), if_neg (List.cons_ne_nil _ _), List.foldl_cons]
        split
        · next hnil => rw [hnil]; rfl
        · rfl
      · have hother : (t.accumulate (key a) default (f a)).get? k = t.get? k := get?_upsert_of_ne t _ _ (Ne.symm hkey)
        rw [hother, List.filter_cons_of_neg (by simpa using hkey)]

/-- **`INSERT OR IGNORE`.** -/
def insertNew (t : KeyedTable κ ρ) (k : κ) (new : ρ) : KeyedTable κ ρ := t.upsert k new fun old _ => old

/-- Inserting under a key that has a row changes nothing. -/
theorem get?_insertNew_of_mem {t : KeyedTable κ ρ} {k : κ} (h : (t.get? k).isSome) (new : ρ) (k' : κ) :
    (t.insertNew k new).get? k' = t.get? k' := by
  unfold insertNew
  by_cases hk : k' = k
  · subst hk
    obtain ⟨old, hold⟩ := Option.isSome_iff_exists.mp h
    rw [get?_upsert_self, hold]
    rfl
  · exact get?_upsert_of_ne t new _ hk

/-- A batch of inserts whose keys all have rows changes nothing. -/
theorem get?_foldl_insertNew {α : Type*} {l : List α} {key : α → κ} {t : KeyedTable κ ρ}
    (h : ∀ a ∈ l, (t.get? (key a)).isSome) (row : α → ρ) (k : κ) :
    (l.foldl (fun t a => t.insertNew (key a) (row a)) t).get? k = t.get? k := by
  induction l generalizing t with
  | nil => rfl
  | cons a rest ih =>
      have ha := get?_insertNew_of_mem (h a List.mem_cons_self) (row a)
      rw [List.foldl_cons, ih, ha k]
      intro b hb
      rw [ha (key b)]
      exact h b (List.mem_cons_of_mem _ hb)

/-- A batch of inserts leaves the rows that exist. -/
theorem get?_foldl_insertNew_of_some {α : Type*} {l : List α} {key : α → κ} {t : KeyedTable κ ρ} {k : κ} {r : ρ}
    (h : t.get? k = some r) (row : α → ρ) : (l.foldl (fun t a => t.insertNew (key a) (row a)) t).get? k = some r := by
  induction l generalizing t with
  | nil => exact h
  | cons a rest ih =>
      rw [List.foldl_cons]
      apply ih
      by_cases hk : k = key a
      · subst hk
        rw [get?_insertNew_of_mem (Option.isSome_iff_exists.mpr ⟨r, h⟩), h]
      · exact (get?_upsert_of_ne t (row a) _ hk).trans h

/-- A batch of inserts gives each of its keys one. -/
theorem isSome_get?_foldl_insertNew {α : Type*} {l : List α} {key : α → κ} (row : α → ρ) {t : KeyedTable κ ρ} {k : κ}
    (h : (t.get? k).isSome ∨ ∃ a ∈ l, key a = k) :
    ((l.foldl (fun t a => t.insertNew (key a) (row a)) t).get? k).isSome := by
  induction l generalizing t with
  | nil => simpa using h
  | cons a rest ih =>
      rw [List.foldl_cons]
      apply ih
      by_cases hk : k = key a
      · subst hk
        left
        unfold insertNew
        rw [get?_upsert_self]
        rfl
      · have hkeep : (t.insertNew (key a) (row a)).get? k = t.get? k := get?_upsert_of_ne t (row a) _ hk
        rw [hkeep]
        rcases h with hold | ⟨b, hb, hkb⟩
        · exact .inl hold
        · rcases List.mem_cons.mp hb with rfl | hrest
          · exact absurd hkb.symm hk
          · exact .inr ⟨b, hrest, hkb⟩

/-- What a batch of inserts leaves under a key was there, or is the row of an item of that key. -/
theorem get?_foldl_insertNew_eq_some {α : Type*} {l : List α} {key : α → κ} {row : α → ρ} {t : KeyedTable κ ρ} {k : κ}
    {r : ρ} (h : (l.foldl (fun t a => t.insertNew (key a) (row a)) t).get? k = some r) :
    t.get? k = some r ∨ t.get? k = none ∧ ∃ a ∈ l, key a = k ∧ row a = r := by
  cases hold : t.get? k with
  | some old => exact .inl ((get?_foldl_insertNew_of_some hold row).symm.trans h)
  | none =>
      refine .inr ⟨rfl, ?_⟩
      induction l generalizing t with
      | nil => exact absurd (hold.symm.trans h) (by simp)
      | cons a rest ih =>
          rw [List.foldl_cons] at h
          by_cases hk : k = key a
          · subst hk
            have hnew : (t.insertNew (key a) (row a)).get? (key a) = some (row a) := by
              unfold insertNew
              rw [get?_upsert_self, hold]
              rfl
            rw [get?_foldl_insertNew_of_some hnew] at h
            exact ⟨a, List.mem_cons_self, rfl, Option.some.inj h⟩
          · have hother : (t.insertNew (key a) (row a)).get? k = none := (get?_upsert_of_ne t (row a) _ hk).trans hold
            obtain ⟨b, hb, hkey⟩ := ih h hother
            exact ⟨b, List.mem_cons_of_mem a hb, hkey⟩

/-! ## Groups -/

/-- **The group of a key holds the items of that key**, and a key without items has none. -/
theorem get?_groupBy {α : Type*} (key : α → κ) (items : List α) (k : κ) :
    (groupBy key items).get? k =
      if (items.filter fun a => key a = k) = [] then none else some (items.filter fun a => key a = k) := by
  induction items using List.reverseRecOn with
  | nil => rfl
  | append_singleton items a ih =>
      rw [groupBy_append, List.filter_append]
      by_cases hk : k = key a
      · subst hk
        rw [get?_upsert_self, ih]
        split <;> simp [*]
      · rw [get?_upsert_of_ne _ _ _ hk, ih]
        simp [Ne.symm hk]

/-! ## Grouped upserts -/

section Grouped

variable {σ α M : Type*}

/-- A batch of upserts of the rows of a table: a key of the table gets its row, the others keep theirs. -/
theorem get?_foldl_upsert_rows (new : KeyedTable κ σ) (row : κ → σ → ρ) (merge : ρ → ρ → ρ) (t : KeyedTable κ ρ) (k : κ) :
    (new.rows.foldl (fun acc r => acc.upsert r.1 (row r.1 r.2) merge) t).get? k =
      match new.get? k with
      | none => t.get? k
      | some s => some ((t.get? k).elim (row k s) (merge · (row k s))) := by
  obtain ⟨rows, hnodup⟩ := new
  unfold get?
  dsimp only at hnodup ⊢
  induction rows generalizing t with
  | nil => rfl
  | cons first rest ih =>
      rw [List.map_cons, List.nodup_cons] at hnodup
      have hrest := ih (t.upsert first.1 (row first.1 first.2) merge) hnodup.2
      rw [List.foldl_cons]
      refine hrest.trans ?_
      by_cases hk : first.1 = k
      · subst hk
        -- no later row has this key
        have hnone : (rest.find? fun r => decide (r.1 = first.1)) = none := by
          rw [List.find?_eq_none]
          intro r hr hkey
          apply hnodup.1
          rw [← of_decide_eq_true hkey]
          exact List.mem_map_of_mem hr
        have hself := get?_upsert_self t first.1 (row first.1 first.2) merge
        unfold get? at hself
        simp [hnone, hself]
      · have hother := get?_upsert_of_ne t (row first.1 first.2) merge (Ne.symm hk)
        unfold get? at hother
        simp only [List.find?_cons, hk, decide_false, hother]

/-- **The row of a key after a grouped upsert**: merged with the aggregate of its group, if it has one. -/
theorem get?_mergeGroups (t : KeyedTable κ ρ) (key : α → κ) (agg : κ → List α → ρ) (merge : ρ → ρ → ρ)
    (items : List α) (k : κ) :
    (t.mergeGroups key agg merge items).get? k =
      if (items.filter fun a => key a = k) = [] then t.get? k
      else some ((t.get? k).elim (agg k (items.filter fun a => key a = k))
        (merge · (agg k (items.filter fun a => key a = k)))) := by
  unfold mergeGroups
  rw [get?_foldl_upsert_rows, get?_groupBy]
  split_ifs <;> rfl

/-- A grouped upsert adds the keys of its items. -/
theorem mem_keys_mergeGroups {t : KeyedTable κ ρ} {key : α → κ} {agg : κ → List α → ρ} {merge : ρ → ρ → ρ}
    {items : List α} {k : κ} :
    k ∈ (t.mergeGroups key agg merge items).keys ↔ k ∈ t.keys ∨ ∃ a ∈ items, key a = k := by
  rw [← get?_isSome_iff, ← get?_isSome_iff, get?_mergeGroups]
  split_ifs with h
  · constructor
    · exact Or.inl
    · rintro (hold | ⟨a, ha, hk⟩)
      · exact hold
      · have hmem : a ∈ items.filter fun a => key a = k := List.mem_filter.mpr ⟨ha, by simpa using hk⟩
        rw [h] at hmem
        cases hmem
  · obtain ⟨a, ha⟩ := List.exists_mem_of_ne_nil _ h
    obtain ⟨hmem, hk⟩ := List.mem_filter.mp ha
    exact iff_of_true rfl (Or.inr ⟨a, hmem, of_decide_eq_true hk⟩)

/-! ## Selections -/

theorem rows_upsert_of_not_mem {t : KeyedTable κ ρ} {k : κ} (h : k ∉ t.keys) (new : ρ) (merge : ρ → ρ → ρ) :
    (t.upsert k new merge).rows = t.rows ++ [(k, new)] := by
  show upsertRows k new merge t.rows = t.rows ++ [(k, new)]
  replace h : k ∉ t.rows.map Prod.fst := h
  revert h
  induction t.rows with
  | nil => exact fun _ => rfl
  | cons row rest ih =>
      intro h
      rw [List.map_cons, List.mem_cons, not_or] at h
      rw [upsertRows, if_neg (Ne.symm h.1), ih h.2, List.cons_append]

theorem select_upsert_of_false (t : KeyedTable κ ρ) {p : κ → Bool} {k : κ} (h : p k = false) (new : ρ)
    (merge : ρ → ρ → ρ) : (t.upsert k new merge).select p = t.select p := by
  show (upsertRows k new merge t.rows).filter _ = t.rows.filter _
  induction t.rows with
  | nil => simp [upsertRows, h]
  | cons row rest ih =>
      unfold upsertRows
      split
      · rename_i hk
        subst hk
        simp [h]
      · simp only [List.filter_cons, ih]

/-- A batch of upserts under new keys appends its rows. -/
theorem rows_foldl_upsert_of_fresh (row : κ → σ → ρ) (merge : ρ → ρ → ρ) {l : List (κ × σ)} (hnodup : (l.map Prod.fst).Nodup)
    {t : KeyedTable κ ρ} (hfresh : ∀ r ∈ l, r.1 ∉ t.keys) :
    (l.foldl (fun acc r => acc.upsert r.1 (row r.1 r.2) merge) t).rows = t.rows ++ l.map fun r => (r.1, row r.1 r.2) := by
  induction l generalizing t with
  | nil => simp
  | cons first rest ih =>
      rw [List.map_cons, List.nodup_cons] at hnodup
      have hrows := rows_upsert_of_not_mem (hfresh first List.mem_cons_self) (row first.1 first.2) merge
      rw [List.foldl_cons, ih hnodup.2, hrows, List.append_assoc, List.map_cons, List.singleton_append]
      intro r hr hmem
      have hmem : r.1 ∈ (t.upsert first.1 (row first.1 first.2) merge).rows.map Prod.fst := hmem
      rw [hrows, List.map_append, List.mem_append] at hmem
      rcases hmem with hold | hnew
      · exact hfresh r (List.mem_cons_of_mem _ hr) hold
      · apply hnodup.1
        rw [← List.mem_singleton.mp hnew]
        exact List.mem_map_of_mem hr

/-- **A grouped upsert leaves the keys it has no item of.** -/
theorem select_mergeGroups_of_false {t : KeyedTable κ ρ} {key : α → κ} {agg : κ → List α → ρ} {merge : ρ → ρ → ρ}
    {items : List α} {p : κ → Bool} (h : ∀ a ∈ items, p (key a) = false) :
    (t.mergeGroups key agg merge items).select p = t.select p := by
  have hgroups : ∀ row ∈ (groupBy key items).rows, p row.1 = false := by
    intro row hrow
    obtain ⟨hne, hmem⟩ := groupBy_groupOf key items row hrow
    obtain ⟨a, ha⟩ := List.exists_mem_of_ne_nil _ hne
    obtain ⟨hin, hkey⟩ := hmem a ha
    rw [← hkey]
    exact h a hin
  unfold mergeGroups
  revert hgroups
  induction (groupBy key items).rows generalizing t with
  | nil => exact fun _ => rfl
  | cons group rest ih =>
      intro hgroups
      rw [List.foldl_cons, ih fun row hrow => hgroups row (List.mem_cons_of_mem _ hrow)]
      exact select_upsert_of_false t (hgroups group List.mem_cons_self) _ merge

/-- **A grouped upsert into a selection that is empty** leaves there what it would leave in an empty table. -/
theorem select_mergeGroups_of_empty {t : KeyedTable κ ρ} {key : α → κ} {agg : κ → List α → ρ} {merge : ρ → ρ → ρ}
    {items : List α} {p : κ → Bool} (hempty : t.select p = []) (h : ∀ a ∈ items, p (key a) = true) :
    (t.mergeGroups key agg merge items).select p = (empty.mergeGroups key agg merge items).select p := by
  have hgroups : ∀ row ∈ (groupBy key items).rows, p row.1 = true := by
    intro row hrow
    obtain ⟨hne, hmem⟩ := groupBy_groupOf key items row hrow
    obtain ⟨a, ha⟩ := List.exists_mem_of_ne_nil _ hne
    obtain ⟨hin, hkey⟩ := hmem a ha
    rw [← hkey]
    exact h a hin
  have hfresh : ∀ row ∈ (groupBy key items).rows, row.1 ∉ t.keys := by
    intro row hrow hmem
    obtain ⟨old, hold, heq⟩ := List.mem_map.mp hmem
    have hsel : old ∈ t.select p := List.mem_filter.mpr ⟨hold, by rw [heq]; exact hgroups row hrow⟩
    rw [hempty] at hsel
    cases hsel
  have hnew : ∀ row ∈ (groupBy key items).rows, row.1 ∉ (empty : KeyedTable κ ρ).keys := by
    intro row _ hmem
    cases hmem
  unfold mergeGroups select
  rw [rows_foldl_upsert_of_fresh agg merge (groupBy key items).nodupKeys hfresh,
    rows_foldl_upsert_of_fresh agg merge (groupBy key items).nodupKeys hnew, List.filter_append, List.filter_append]
  congr 1

theorem mem_keys_upsert {t : KeyedTable κ ρ} {k k' : κ} {new : ρ} {merge : ρ → ρ → ρ} :
    k' ∈ (t.upsert k new merge).keys ↔ k' ∈ t.keys ∨ k' = k := by
  rw [← get?_isSome_iff, ← get?_isSome_iff]
  by_cases hk : k' = k
  · subst hk
    rw [get?_upsert_self]
    exact iff_of_true rfl (Or.inr rfl)
  · rw [get?_upsert_of_ne t new merge hk]
    simp [hk]

/-- Every row satisfies `P` with its key. -/
def Every (t : KeyedTable κ ρ) (P : κ → ρ → Prop) : Prop := ∀ k r, t.get? k = some r → P k r

section Every

variable {α : Type*} {t : KeyedTable κ ρ} {P : κ → ρ → Prop}

theorem every_empty : (empty : KeyedTable κ ρ).Every P := nofun

theorem Every.deleteWhere (h : t.Every P) (p : κ → Bool) : (t.deleteWhere p).Every P := by
  intro k r hrow
  exact h k r (get?_deleteWhere_eq_some.mp hrow).2

theorem Every.update (h : t.Every P) {f : κ → ρ → ρ} (hf : ∀ k r, P k r → P k (f k r)) : (t.update f).Every P := by
  intro k r hrow
  rw [get?_update] at hrow
  obtain ⟨old, hold, rfl⟩ := Option.map_eq_some_iff.mp hrow
  exact hf k old (h k old hold)

theorem Every.upsert (h : t.Every P) {k : κ} {new : ρ} {merge : ρ → ρ → ρ} (hnew : P k new)
    (hmerge : ∀ old, P k old → P k (merge old new)) : (t.upsert k new merge).Every P := by
  intro k' r hrow
  by_cases hk : k' = k
  · subst hk
    rw [get?_upsert_self] at hrow
    cases hold : t.get? k' with
    | none =>
        rw [hold] at hrow
        exact Option.some.inj hrow ▸ hnew
    | some old =>
        rw [hold] at hrow
        exact Option.some.inj hrow ▸ hmerge old (h k' old hold)
  · rw [get?_upsert_of_ne t new merge hk] at hrow
    exact h k' r hrow

/-- **A grouped upsert keeps what its groups' rows and the merges with them satisfy.** -/
theorem Every.mergeGroups {key : α → κ} {agg : κ → List α → ρ} {merge : ρ → ρ → ρ} {items : List α} (h : t.Every P)
    (hagg : ∀ k group, GroupOf key items k group → P k (agg k group))
    (hmerge : ∀ old k group, GroupOf key items k group → P k old → P k (merge old (agg k group))) :
    (t.mergeGroups key agg merge items).Every P := by
  intro k r hrow
  rw [get?_mergeGroups] at hrow
  split at hrow
  · exact h k r hrow
  · next hne =>
      have hgroup : GroupOf key items k (items.filter fun a => key a = k) :=
        ⟨hne, fun a ha => ⟨(List.mem_filter.mp ha).1, of_decide_eq_true (List.mem_filter.mp ha).2⟩⟩
      cases hold : t.get? k with
      | none =>
          rw [hold] at hrow
          exact Option.some.inj hrow ▸ hagg k _ hgroup
      | some old =>
          rw [hold] at hrow
          exact Option.some.inj hrow ▸ hmerge old k _ hgroup (h k old hold)

end Every

/-! ## Sums by rows -/

variable [AddCommMonoid M]

/-- **A sum over one key is that key's row.** -/
theorem sumOf_of_get? {t : KeyedTable κ ρ} {p : κ → Bool} {k : κ} {r : ρ} (hp : ∀ k', p k' = true ↔ k' = k)
    (h : t.get? k = some r) (f : ρ → M) : t.sumOf p f = f r := by
  obtain ⟨rows, hnodup⟩ := t
  have hmem := mem_rows_of_get? h
  unfold sumOf
  dsimp only at hmem hnodup ⊢
  clear h
  induction rows with
  | nil => cases hmem
  | cons first rest ih =>
      rw [List.map_cons, List.nodup_cons] at hnodup
      rw [List.map_cons, List.sum_cons]
      rcases List.mem_cons.mp hmem with rfl | hrest
      · have hzero : (rest.map fun row => if p row.1 then f row.2 else 0).sum = 0 := by
          refine List.sum_eq_zero fun m hm => ?_
          obtain ⟨row, hrow, rfl⟩ := List.mem_map.mp hm
          refine if_neg fun hkey => hnodup.1 ?_
          have hk : row.1 = k := (hp row.1).mp hkey
          exact List.mem_map.mpr ⟨row, hrow, hk⟩
        rw [hzero, add_zero, if_pos ((hp k).mpr rfl)]
      · have hne : ¬ p first.1 = true := by
          intro hkey
          apply hnodup.1
          rw [(hp first.1).mp hkey]
          exact List.mem_map.mpr ⟨_, hrest, rfl⟩
        rw [if_neg hne, zero_add]
        exact ih hnodup.2 hrest

omit [DecidableEq κ] in
theorem sumOf_mapRows (t : KeyedTable κ ρ) (f : κ → ρ → σ) (p : κ → Bool) (g : σ → M) :
    (t.mapRows f).sumOf p g = (t.rows.map fun row => if p row.1 then g (f row.1 row.2) else 0).sum := by
  unfold sumOf mapRows
  rw [List.map_map]
  rfl

omit [DecidableEq κ] in
theorem sumOf_eq_mapRows (t : KeyedTable κ ρ) (p : κ → Bool) (f : ρ → M) :
    t.sumOf p f = ((t.mapRows fun _ => f).rows.map fun row => if p row.1 then row.2 else 0).sum :=
  (sumOf_mapRows t (fun _ => f) p id).symm

/-- **A sum sees a table by its rows**, not by their order. -/
theorem sumOf_congr_get? {t : KeyedTable κ ρ} {t' : KeyedTable κ σ} {f : ρ → M} {g : σ → M}
    (h : ∀ k, (t.get? k).map f = (t'.get? k).map g) (p : κ → Bool) : t.sumOf p f = t'.sumOf p g := by
  have hperm : (t.mapRows fun _ => f).rows.Perm (t'.mapRows fun _ => g).rows := by
    rw [List.perm_ext_iff_of_nodup (List.Nodup.of_map _ (t.mapRows fun _ => f).nodupKeys)
      (List.Nodup.of_map _ (t'.mapRows fun _ => g).nodupKeys)]
    rintro ⟨k, m⟩
    rw [← get?_eq_some_iff, ← get?_eq_some_iff, get?_mapRows, get?_mapRows, h]
  rw [sumOf_eq_mapRows, sumOf_eq_mapRows]
  exact (hperm.map _).sum_eq

/-- A sum over one key is that key's row, or 0. -/
theorem sumOf_singleton {t : KeyedTable κ ρ} {p : κ → Bool} {k : κ} (hp : ∀ k', p k' = true ↔ k' = k) (f : ρ → M) :
    t.sumOf p f = ((t.get? k).map f).getD 0 := by
  cases hrow : t.get? k with
  | some r => exact sumOf_of_get? hp hrow f
  | none =>
      refine List.sum_eq_zero fun m hm => ?_
      obtain ⟨row, hmem, rfl⟩ := List.mem_map.mp hm
      refine if_neg fun hkey => ?_
      have hsome : (t.get? k).isSome := get?_isSome_iff.mpr ((hp row.1).mp hkey ▸ List.mem_map_of_mem hmem)
      rw [hrow] at hsome
      cases hsome

/-- **A sum after one row of it has changed.** -/
theorem sumOf_change_row {t t' : KeyedTable κ ρ} {p : κ → Bool} {k : κ} (hk : p k = true)
    (h : ∀ k', p k' = true → k' ≠ k → t'.get? k' = t.get? k') (f : ρ → M) :
    t'.sumOf p f + ((t.get? k).map f).getD 0 = t.sumOf p f + ((t'.get? k).map f).getD 0 := by
  have hsingle : ∀ k', ((decide (k' = k) || !p k') && p k') = true ↔ k' = k := by
    intro k'
    by_cases heq : k' = k
    · simp [heq, hk]
    · simp [heq]
  have hrest : (t'.deleteWhere fun k' => decide (k' = k) || !p k').sumOf p f =
      (t.deleteWhere fun k' => decide (k' = k) || !p k').sumOf p f := by
    refine sumOf_congr_get? (fun k' => ?_) p
    rw [get?_deleteWhere, get?_deleteWhere]
    by_cases hgone : (decide (k' = k) || !p k') = true
    · rw [if_pos hgone, if_pos hgone]
    · rw [if_neg hgone, if_neg hgone, h k' (by simp_all) (by simp_all)]
  rw [← sumOf_deleteWhere_add t (fun k' => decide (k' = k) || !p k') p f,
    ← sumOf_deleteWhere_add t' (fun k' => decide (k' = k) || !p k') p f, hrest, sumOf_singleton hsingle,
    sumOf_singleton hsingle, add_right_comm]

end Grouped

/-- **`UPDATE … SET f WHERE key = k`.** -/
def modify (t : KeyedTable κ ρ) (k : κ) (f : ρ → ρ) : KeyedTable κ ρ := t.update fun k' r => if k' = k then f r else r

theorem All.modify {t : KeyedTable κ ρ} {P : ρ → Prop} (ht : t.All P) (k : κ) {f : ρ → ρ} (hf : ∀ r, P r → P (f r)) :
    (t.modify k f).All P := by
  apply All.update ht
  intro key r hr
  split
  · exact hf r hr
  · exact hr

@[simp] theorem get?_modify_self (t : KeyedTable κ ρ) (k : κ) (f : ρ → ρ) :
    (t.modify k f).get? k = (t.get? k).map f := by
  simp [modify, get?_update]

@[simp] theorem get?_modify_of_ne (t : KeyedTable κ ρ) {k k' : κ} (f : ρ → ρ) (h : k' ≠ k) :
    (t.modify k f).get? k' = t.get? k' := by
  simp [modify, get?_update, h]

theorem get?_modify (t : KeyedTable κ ρ) (k k' : κ) (f : ρ → ρ) :
    (t.modify k f).get? k' = (t.get? k').map fun r => if k' = k then f r else r :=
  get?_update t _ k'

/-! ## Upserts guarded by a stamp -/

/-- `DO UPDATE SET … WHERE excluded.stamp >= t.stamp`. -/
def guarded (stamp : ρ → Int) (old new : ρ) : ρ := if stamp new ≥ stamp old then new else old

/-- **A guarded upsert leaves a newer row alone.** -/
theorem get?_upsert_guarded {t : KeyedTable κ ρ} {stamp : ρ → Int} {k k' : κ} {old new : ρ} (hold : t.get? k' = some old)
    (hnewer : stamp new < stamp old) : (t.upsert k new (guarded stamp)).get? k' = some old := by
  by_cases hk : k' = k
  · subst hk
    rw [get?_upsert_self, hold, Option.elim_some, guarded, if_neg (Int.not_le.mpr hnewer)]
  · rw [get?_upsert_of_ne t new (guarded stamp) hk, hold]

/-- **A batch of guarded upserts with smaller stamps leaves a newer row alone.** -/
theorem get?_foldl_upsert_guarded {α : Type*} {l : List α} {stamp : ρ → Int} {key : α → κ} {row : α → ρ}
    {t : KeyedTable κ ρ} {k : κ} {old : ρ} (hold : t.get? k = some old) (hnewer : ∀ a ∈ l, stamp (row a) < stamp old) :
    (l.foldl (fun t a => t.upsert (key a) (row a) (guarded stamp)) t).get? k = some old := by
  induction l generalizing t with
  | nil => exact hold
  | cons a rest ih =>
      rw [List.foldl_cons]
      apply ih
      · exact get?_upsert_guarded hold (hnewer a List.mem_cons_self)
      · exact fun b hb => hnewer b (List.mem_cons_of_mem _ hb)

/-- A delete keeps the rows that do not meet its condition. -/
theorem get?_deleteRows_of_false {t : KeyedTable κ ρ} {p : κ → ρ → Bool} {k : κ} {old : ρ} (hold : t.get? k = some old)
    (hp : p k old = false) : (t.deleteRows p).get? k = some old := by
  rw [get?_deleteRows, hold]
  simp [hp]

end VirtInfra.Lib.KeyedTable
