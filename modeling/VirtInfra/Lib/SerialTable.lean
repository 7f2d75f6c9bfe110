import VirtInfra.Lib.PerKey
import VirtInfra.Lib.RowLocks

/-!
# `SerialTable` — tables with a serial key and a unique column

The rows of such a table have an id from a sequence, which never gives an id twice, and one column (or an expression
over it) in which no two rows agree; both are fields. A row is found by its id (`get?`) or by its name (`named`).
An insert draws an id whether or not it conflicts, as a sequence does.
-/

namespace VirtInfra.Lib

/-- **A table with a serial key and a unique column.** -/
structure SerialTable {ρ ν : Type*} (name : ρ → ν) where
  rows : KeyedTable Nat ρ
  next : Nat
  fresh : ∀ i r, rows.get? i = some r → i < next
  unique : ∀ i j r q, rows.get? i = some r → rows.get? j = some q → name r = name q → i = j

namespace SerialTable

variable {ρ ν : Type*} {name : ρ → ν}

/-- **`TRUNCATE … RESTART IDENTITY`**, and what a table is before its first row. -/
def empty : SerialTable name where
  rows := .empty
  next := 1
  fresh i r h := by simp at h
  unique i j r q h := by simp at h

instance : Inhabited (SerialTable name) := ⟨empty⟩

/-- **The row of an id.** -/
def get? (t : SerialTable name) (i : Nat) : Option ρ := t.rows.get? i

@[simp] theorem get?_empty (i : Nat) : (empty : SerialTable name).get? i = none := rfl

/-- The sequence gives an id that no row keeps. -/
def draw (t : SerialTable name) : SerialTable name where
  rows := t.rows
  next := t.next + 1
  fresh i r h := (t.fresh i r h).trans (Nat.lt_succ_self _)
  unique := t.unique

@[simp] theorem get?_draw (t : SerialTable name) (i : Nat) : t.draw.get? i = t.get? i := rfl

/-- The next id has no row. -/
theorem get?_next (t : SerialTable name) {i : Nat} (h : t.next ≤ i) : t.get? i = none := by
  by_contra hsome
  obtain ⟨r, hr⟩ := Option.ne_none_iff_exists'.mp hsome
  exact absurd (t.fresh i r hr) (by omega)

/-- **`DELETE … WHERE p(row)`.** -/
def deleteRows (t : SerialTable name) (p : Nat → ρ → Bool) : SerialTable name where
  rows := t.rows.deleteRows p
  next := t.next
  fresh i r h := by
    rw [KeyedTable.get?_deleteRows, Option.filter_eq_some_iff] at h
    exact t.fresh i r h.1
  unique i j r q hi hj heq := by
    rw [KeyedTable.get?_deleteRows, Option.filter_eq_some_iff] at hi hj
    exact t.unique i j r q hi.1 hj.1 heq

theorem get?_deleteRows (t : SerialTable name) (p : Nat → ρ → Bool) (i : Nat) :
    (t.deleteRows p).get? i = (t.get? i).filter fun r => !p i r := KeyedTable.get?_deleteRows t.rows p i

/-- **`UPDATE … SET f`** on every row, where `f` keeps the unique column. -/
def update (t : SerialTable name) (f : Nat → ρ → ρ) (hf : ∀ i r, name (f i r) = name r) : SerialTable name where
  rows := t.rows.update f
  next := t.next
  fresh i r h := by
    rw [KeyedTable.get?_update] at h
    obtain ⟨old, hold, -⟩ := Option.map_eq_some_iff.mp h
    exact t.fresh i old hold
  unique i j r q hi hj heq := by
    rw [KeyedTable.get?_update] at hi hj
    obtain ⟨old, hold, rfl⟩ := Option.map_eq_some_iff.mp hi
    obtain ⟨old', hold', rfl⟩ := Option.map_eq_some_iff.mp hj
    rw [hf, hf] at heq
    exact t.unique i j old old' hold hold' heq

theorem get?_update (t : SerialTable name) (f : Nat → ρ → ρ) (hf : ∀ i r, name (f i r) = name r) (i : Nat) :
    (t.update f hf).get? i = (t.get? i).map (f i) := KeyedTable.get?_update t.rows f i

/-- **`UPDATE … SET f WHERE id = i`.** -/
def modify (t : SerialTable name) (i : Nat) (f : ρ → ρ) (hf : ∀ r, name (f r) = name r) : SerialTable name :=
  t.update (fun j r => if j = i then f r else r) fun j r => by split <;> simp [hf]

theorem get?_modify (t : SerialTable name) (i j : Nat) (f : ρ → ρ) (hf : ∀ r, name (f r) = name r) :
    (t.modify i f hf).get? j = (t.get? j).map fun r => if j = i then f r else r := get?_update t _ _ j

@[simp] theorem next_deleteRows (t : SerialTable name) (p : Nat → ρ → Bool) : (t.deleteRows p).next = t.next := rfl

@[simp] theorem next_modify (t : SerialTable name) (i : Nat) (f : ρ → ρ) (hf : ∀ r, name (f r) = name r) :
    (t.modify i f hf).next = t.next := rfl

/-! ## Histories of a table -/

/-- **What writes lead to**: a row keeps its name as long as it is there, and its id is never given again. -/
structure Continues (t t' : SerialTable name) : Prop where
  next : t.next ≤ t'.next
  row : ∀ i r', t'.get? i = some r' → (∃ r, t.get? i = some r ∧ name r = name r') ∨ t.next ≤ i

namespace Continues

variable {t t' t'' : SerialTable name}

theorem refl (t : SerialTable name) : Continues t t := ⟨le_rfl, fun _ r' h => .inl ⟨r', h, rfl⟩⟩

theorem trans (h : Continues t t') (h' : Continues t' t'') : Continues t t'' := by
  refine ⟨h.next.trans h'.next, fun i r'' hget => ?_⟩
  rcases h'.row i r'' hget with ⟨r', hget', hname'⟩ | hnew
  · rcases h.row i r' hget' with ⟨r, hr, hname⟩ | hnew
    · exact .inl ⟨r, hr, hname.trans hname'⟩
    · exact .inr hnew
  · exact .inr (h.next.trans hnew)

theorem deleteRows (t : SerialTable name) (p : Nat → ρ → Bool) : Continues t (t.deleteRows p) := by
  refine ⟨le_rfl, fun i r' hget => ?_⟩
  rw [get?_deleteRows, Option.filter_eq_some_iff] at hget
  exact .inl ⟨r', hget.1, rfl⟩

theorem update (t : SerialTable name) {f : Nat → ρ → ρ} (hf : ∀ i r, name (f i r) = name r) :
    Continues t (t.update f hf) := by
  refine ⟨le_rfl, fun i r' hget => ?_⟩
  rw [get?_update] at hget
  obtain ⟨r, hr, rfl⟩ := Option.map_eq_some_iff.mp hget
  exact .inl ⟨r, hr, (hf i r).symm⟩

theorem modify (t : SerialTable name) (i : Nat) {f : ρ → ρ} (hf : ∀ r, name (f r) = name r) :
    Continues t (t.modify i f hf) := update t _

theorem draw (t : SerialTable name) : Continues t t.draw := ⟨Nat.le_succ _, fun _ r' h => .inl ⟨r', h, rfl⟩⟩

end Continues

/-! ## By name -/

variable [DecidableEq ν]

/-- The row of a name, with its id. -/
def find? (t : SerialTable name) (n : ν) : Option (Nat × ρ) := t.rows.rows.find? fun row => name row.2 = n

/-- **The row of a name.** -/
def named (t : SerialTable name) (n : ν) : Option ρ := (t.find? n).map Prod.snd

theorem find?_eq_some {t : SerialTable name} {n : ν} {i : Nat} {r : ρ} :
    t.find? n = some (i, r) ↔ t.get? i = some r ∧ name r = n := by
  constructor
  · intro h
    have hname : name r = n := by simpa using List.find?_some h
    exact ⟨KeyedTable.get?_of_mem_rows (List.mem_of_find?_eq_some h), hname⟩
  · rintro ⟨hget, hname⟩
    have hmem := KeyedTable.mem_rows_of_get? hget
    cases hfind : t.find? n with
    | none =>
        have hnot := List.find?_eq_none.mp hfind (i, r) hmem
        simp [hname] at hnot
    | some row =>
        obtain ⟨j, q⟩ := row
        have hq : name q = n := by simpa using List.find?_some hfind
        have hj := KeyedTable.get?_of_mem_rows (List.mem_of_find?_eq_some hfind)
        have hij : i = j := t.unique i j r q hget hj (hname.trans hq.symm)
        subst hij
        obtain rfl := Option.some.inj (hget.symm.trans hj)
        rfl

theorem named_eq_some {t : SerialTable name} {n : ν} {r : ρ} :
    t.named n = some r ↔ ∃ i, t.get? i = some r ∧ name r = n := by
  unfold named
  rw [Option.map_eq_some_iff]
  constructor
  · rintro ⟨⟨i, q⟩, hfind, rfl⟩
    exact ⟨i, find?_eq_some.mp hfind⟩
  · rintro ⟨i, h⟩
    exact ⟨(i, r), find?_eq_some.mpr h, rfl⟩

theorem find?_eq_none {t : SerialTable name} {n : ν} : t.find? n = none ↔ ∀ i r, t.get? i = some r → name r ≠ n := by
  constructor
  · intro h i r hget hname
    rw [find?_eq_some.mpr ⟨hget, hname⟩] at h
    cases h
  · intro h
    by_contra hsome
    obtain ⟨⟨i, r⟩, hfind⟩ := Option.ne_none_iff_exists'.mp hsome
    obtain ⟨hget, hname⟩ := find?_eq_some.mp hfind
    exact h i r hget hname

theorem named_eq_none {t : SerialTable name} {n : ν} : t.named n = none ↔ t.find? n = none := by
  unfold named
  rw [Option.map_eq_none_iff]

@[simp] theorem named_empty (n : ν) : (empty : SerialTable name).named n = none := rfl

/-- Tables with the same rows find the same names. -/
theorem named_congr {t t' : SerialTable name} (h : ∀ i, t.get? i = t'.get? i) (n : ν) : t.named n = t'.named n := by
  ext r
  simp only [named_eq_some, h]

@[simp] theorem named_draw (t : SerialTable name) (n : ν) : t.draw.named n = t.named n := named_congr (fun _ => rfl) n

/-- **A row under a name that no row has.** -/
def add (t : SerialTable name) (r : ρ) (h : t.find? (name r) = none) : SerialTable name where
  rows := t.rows.put t.next r
  next := t.next + 1
  fresh i q hget := by
    rw [KeyedTable.get?_put] at hget
    split at hget
    · omega
    · exact (t.fresh i q hget).trans (Nat.lt_succ_self _)
  unique i j q q' hi hj heq := by
    rw [KeyedTable.get?_put] at hi hj
    have hnone := find?_eq_none.mp h
    split at hi <;> split at hj
    · next hi' hj' => exact hi'.trans hj'.symm
    · obtain rfl := Option.some.inj hi
      exact absurd heq.symm (hnone j q' hj)
    · obtain rfl := Option.some.inj hj
      exact absurd heq (hnone i q hi)
    · exact t.unique i j q q' hi hj heq

theorem get?_add (t : SerialTable name) (r : ρ) (h : t.find? (name r) = none) (i : Nat) :
    (t.add r h).get? i = if i = t.next then some r else t.get? i := KeyedTable.get?_put t.rows t.next i r

theorem named_add (t : SerialTable name) (r : ρ) (h : t.find? (name r) = none) (n : ν) :
    (t.add r h).named n = if n = name r then some r else t.named n := by
  ext q
  rw [named_eq_some]
  simp only [get?_add]
  constructor
  · rintro ⟨i, hget, rfl⟩
    split at hget
    · obtain rfl := Option.some.inj hget
      rw [if_pos rfl]
    · rw [if_neg (find?_eq_none.mp h i q hget)]
      exact named_eq_some.mpr ⟨i, hget, rfl⟩
  · intro hq
    split at hq
    · next hn =>
        obtain rfl := Option.some.inj hq
        exact ⟨t.next, if_pos rfl, hn.symm⟩
    · obtain ⟨i, hget, hname⟩ := named_eq_some.mp hq
      have hi : i ≠ t.next := (t.fresh i q hget).ne
      exact ⟨i, (if_neg hi).trans hget, hname⟩

theorem Continues.add (t : SerialTable name) (r : ρ) (h : t.find? (name r) = none) : Continues t (t.add r h) := by
  refine ⟨Nat.le_succ _, fun i r' hget => ?_⟩
  rw [get?_add] at hget
  split at hget
  · next hi => exact .inr hi.ge
  · exact .inl ⟨r', hget, rfl⟩

/-- **`INSERT`**: the id of the row, or none when its name is taken. -/
def insert (t : SerialTable name) (r : ρ) : SerialTable name × Option Nat :=
  if h : t.find? (name r) = none then (t.add r h, some t.next) else (t.draw, none)

theorem insert_of_none {t : SerialTable name} {r : ρ} (h : t.find? (name r) = none) :
    t.insert r = (t.add r h, some t.next) := dif_pos h

theorem Continues.insert (t : SerialTable name) (r : ρ) : Continues t (t.insert r).1 := by
  unfold SerialTable.insert
  split
  · next h => exact Continues.add t r h
  · exact Continues.draw t

/-- **`INSERT … ON CONFLICT (name) DO UPDATE SET f`.** -/
def upsert (t : SerialTable name) (r : ρ) (f : ρ → ρ) (hf : ∀ q, name (f q) = name q) : SerialTable name × Nat :=
  match h : t.find? (name r) with
  | some (i, _) => (t.draw.modify i f hf, i)
  | none => (t.add r h, t.next)

theorem upsert_of_none {t : SerialTable name} {r : ρ} (h : t.find? (name r) = none) (f : ρ → ρ)
    (hf : ∀ q, name (f q) = name q) : t.upsert r f hf = (t.add r h, t.next) := by
  unfold upsert
  split
  · next hfind => rw [h] at hfind; cases hfind
  · rfl

theorem upsert_of_some {t : SerialTable name} {r old : ρ} {i : Nat} (h : t.find? (name r) = some (i, old)) (f : ρ → ρ)
    (hf : ∀ q, name (f q) = name q) : t.upsert r f hf = (t.draw.modify i f hf, i) := by
  unfold upsert
  split
  · next hfind =>
      rw [h] at hfind
      obtain ⟨rfl, -⟩ := Prod.mk.inj (Option.some.inj hfind)
      rfl
  · next hfind => rw [h] at hfind; cases hfind

theorem Continues.upsert (t : SerialTable name) (r : ρ) (f : ρ → ρ) (hf : ∀ q, name (f q) = name q) :
    Continues t (t.upsert r f hf).1 := by
  unfold SerialTable.upsert
  split
  · exact (Continues.draw t).trans (Continues.modify _ _ hf)
  · next h => exact Continues.add t r h

theorem find?_upsert_self (t : SerialTable name) (r : ρ) (f : ρ → ρ) (hf : ∀ q, name (f q) = name q) :
    (t.upsert r f hf).1.find? (name r) = some ((t.upsert r f hf).2, (t.named (name r)).elim r f) := by
  cases hfind : t.find? (name r) with
  | none =>
      rw [upsert_of_none hfind, find?_eq_some, get?_add, named_eq_none.mpr hfind]
      exact ⟨if_pos rfl, rfl⟩
  | some row =>
      obtain ⟨i, old⟩ := row
      obtain ⟨hget, hname⟩ := find?_eq_some.mp hfind
      have hnamed : t.named (name r) = some old := named_eq_some.mpr ⟨i, hget, hname⟩
      rw [upsert_of_some hfind, find?_eq_some, get?_modify, get?_draw, hget, hnamed]
      exact ⟨by simp, (hf old).trans hname⟩

theorem find?_upsert_of_ne (t : SerialTable name) {r : ρ} (f : ρ → ρ) (hf : ∀ q, name (f q) = name q) {n : ν}
    (hn : n ≠ name r) : (t.upsert r f hf).1.find? n = t.find? n := by
  ext ⟨i, q⟩
  rw [find?_eq_some, find?_eq_some]
  refine and_congr_left fun hname => ?_
  cases hfind : t.find? (name r) with
  | none =>
      rw [upsert_of_none hfind, get?_add]
      split
      · next hi =>
          refine iff_of_false ?_ ?_
          · rintro heq
            obtain rfl := Option.some.inj heq
            exact hn hname.symm
          · rw [hi, t.get?_next le_rfl]
            simp
      · rfl
  | some row =>
      obtain ⟨j, old⟩ := row
      obtain ⟨hget, hold⟩ := find?_eq_some.mp hfind
      rw [upsert_of_some hfind, get?_modify, get?_draw]
      by_cases hij : i = j
      · subst hij
        rw [hget]
        refine iff_of_false ?_ ?_
        · simp only [Option.map_some, if_true, Option.some.injEq]
          rintro rfl
          exact hn (hname.symm.trans ((hf old).trans hold))
        · rintro heq
          obtain rfl := Option.some.inj heq
          exact hn (hname.symm.trans hold)
      · simp [hij]

theorem named_upsert_self (t : SerialTable name) (r : ρ) (f : ρ → ρ) (hf : ∀ q, name (f q) = name q) :
    (t.upsert r f hf).1.named (name r) = some ((t.named (name r)).elim r f) := by
  rw [named, find?_upsert_self]
  rfl

theorem named_upsert_of_ne (t : SerialTable name) {r : ρ} (f : ρ → ρ) (hf : ∀ q, name (f q) = name q) {n : ν}
    (hn : n ≠ name r) : (t.upsert r f hf).1.named n = t.named n := by
  rw [named, find?_upsert_of_ne t f hf hn]
  rfl

/-- **An upsert leaves the rows of other names where they are.** -/
theorem get?_upsert_of_name_ne {t : SerialTable name} {r q : ρ} {i : Nat} (hget : t.get? i = some q)
    (hname : name q ≠ name r) (f : ρ → ρ) (hf : ∀ q, name (f q) = name q) : (t.upsert r f hf).1.get? i = some q := by
  have hfind : (t.upsert r f hf).1.find? (name q) = some (i, q) := by
    rw [find?_upsert_of_ne t f hf hname]
    exact find?_eq_some.mpr ⟨hget, rfl⟩
  exact (find?_eq_some.mp hfind).1

/-- An upsert takes no row away. -/
theorem isSome_get?_upsert (t : SerialTable name) (r : ρ) (f : ρ → ρ) (hf : ∀ q, name (f q) = name q) {i : Nat}
    (h : (t.get? i).isSome) : ((t.upsert r f hf).1.get? i).isSome := by
  cases hfind : t.find? (name r) with
  | none =>
      rw [upsert_of_none hfind, get?_add]
      split
      · rfl
      · exact h
  | some row =>
      obtain ⟨j, old⟩ := row
      rw [upsert_of_some hfind, get?_modify, get?_draw, Option.isSome_map]
      exact h

/-- **`UPDATE … WHERE id = i`** of a row with another name; it fails if another row has that name. -/
def replace (t : SerialTable name) (i : Nat) (r : ρ) : Option (SerialTable name) :=
  if h : ∀ row ∈ t.find? (name r), row.1 = i then
    some
      { rows := t.rows.modify i fun _ => r
        next := t.next
        fresh := fun j q hget => by
          rw [KeyedTable.get?_modify] at hget
          obtain ⟨old, hold, -⟩ := Option.map_eq_some_iff.mp hget
          exact t.fresh j old hold
        unique := fun j k q q' hj hk heq => by
          rw [KeyedTable.get?_modify] at hj hk
          obtain ⟨old, hold, rfl⟩ := Option.map_eq_some_iff.mp hj
          obtain ⟨old', hold', rfl⟩ := Option.map_eq_some_iff.mp hk
          have hfree : ∀ l p, t.rows.get? l = some p → name p = name r → l = i := fun l p hl hp =>
            h (l, p) (find?_eq_some.mpr ⟨hl, hp⟩)
          split at heq <;> split at heq
          · next hj' hk' => exact hj'.trans hk'.symm
          · next hj' hk' => exact absurd (hfree k old' hold' heq.symm) hk'
          · next hj' hk' => exact absurd (hfree j old hold heq) hj'
          · exact t.unique j k old old' hold hold' heq }
  else none

theorem replace_eq_some {t t' : SerialTable name} {i : Nat} {r : ρ} (h : t.replace i r = some t') :
    t'.next = t.next ∧ ∀ j, t'.get? j = (t.get? j).map fun q => if j = i then r else q := by
  unfold replace at h
  split at h
  · obtain rfl := Option.some.inj h
    exact ⟨rfl, fun j => KeyedTable.get?_modify _ _ _ _⟩
  · cases h

/-- It takes no row away. -/
theorem isSome_get?_replace {t t' : SerialTable name} {i : Nat} {r : ρ} (h : t.replace i r = some t') {j : Nat}
    (hj : (t.get? j).isSome) : (t'.get? j).isSome := by
  rw [(replace_eq_some h).2, Option.isSome_map]
  exact hj

end SerialTable

end VirtInfra.Lib
