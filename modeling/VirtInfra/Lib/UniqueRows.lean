import Mathlib.Data.List.Pairwise
import Mathlib.Data.List.Perm.Basic

/-!
# `UniqueRows` — a table with several unique indexes

An index gives a row a key, or none: where a column is NULL, or the row is outside of a partial index, the row never meets
another one. A table is a list of rows no two of which meet in an index, and its order says nothing.

SQLite's `INSERT OR REPLACE` deletes every row that the new one meets. PostgreSQL's `ON CONFLICT (index) DO UPDATE` updates
the row that is met in one index, and fails if the result meets another row. `upsertOn_replaces_iff` says when the two leave
the same rows.
-/

namespace VirtInfra.Lib

section Meeting

variable {ρ κ : Type*} [DecidableEq κ]

/-- Both rows have the same key. -/
def meets (key : ρ → Option κ) (r q : ρ) : Bool := (key r).isSome && decide (key r = key q)

/-- They meet in some index. -/
def conflicts (indexes : List (ρ → Option κ)) (r q : ρ) : Bool := indexes.any fun key => meets key r q

variable {key : ρ → Option κ} {indexes : List (ρ → Option κ)} {r q p : ρ}

theorem meets_iff : meets key r q = true ↔ ∃ k, key r = some k ∧ key q = some k := by
  rw [meets, Bool.and_eq_true, decide_eq_true_eq, Option.isSome_iff_exists]
  constructor
  · rintro ⟨⟨k, hk⟩, heq⟩
    exact ⟨k, hk, heq ▸ hk⟩
  · rintro ⟨k, hr, hq⟩
    exact ⟨⟨k, hr⟩, hr.trans hq.symm⟩

theorem meets_comm (key : ρ → Option κ) (r q : ρ) : meets key r q = meets key q r := by
  rw [Bool.eq_iff_iff, meets_iff, meets_iff]
  exact exists_congr fun k => and_comm

theorem meets_trans (h : meets key r q = true) (h' : meets key r p = true) : meets key q p = true := by
  obtain ⟨k, hr, hq⟩ := meets_iff.mp h
  obtain ⟨k', hr', hp⟩ := meets_iff.mp h'
  obtain rfl := Option.some.inj (hr.symm.trans hr')
  exact meets_iff.mpr ⟨k, hq, hp⟩

theorem conflicts_comm (indexes : List (ρ → Option κ)) (r q : ρ) : conflicts indexes r q = conflicts indexes q r := by
  unfold conflicts
  congr 1
  funext key
  exact meets_comm key r q

theorem conflicts_of_meets (hkey : key ∈ indexes) (h : meets key r q = true) : conflicts indexes r q = true :=
  List.any_eq_true.mpr ⟨key, hkey, h⟩

/-- A row that meets another one has a key, and so meets itself. -/
theorem conflicts_self (h : conflicts indexes r q = true) : conflicts indexes r r = true := by
  obtain ⟨key, hkey, hmeets⟩ := List.any_eq_true.mp h
  obtain ⟨k, hr, -⟩ := meets_iff.mp hmeets
  exact conflicts_of_meets hkey (meets_iff.mpr ⟨k, hr, hr⟩)

end Meeting

/-- **A table whose rows do not meet.** -/
structure UniqueRows {ρ κ : Type*} [DecidableEq κ] (indexes : List (ρ → Option κ)) where
  rows : List ρ
  unique : rows.Pairwise fun r q => conflicts indexes r q = false

namespace UniqueRows

variable {ρ κ : Type*} [DecidableEq κ] {indexes : List (ρ → Option κ)}

/-- The new row meets no row of the table. -/
def Free (t : UniqueRows indexes) (r : ρ) : Prop := ∀ q ∈ t.rows, conflicts indexes r q = false

instance (t : UniqueRows indexes) (r : ρ) : Decidable (t.Free r) := by unfold Free; infer_instance

/-- The rows that are kept. -/
def keep (t : UniqueRows indexes) (p : ρ → Bool) : UniqueRows indexes := ⟨t.rows.filter p, t.unique.filter p⟩

/-- A row that meets none. -/
def add (t : UniqueRows indexes) (r : ρ) (h : t.Free r) : UniqueRows indexes where
  rows := t.rows ++ [r]
  unique := by
    refine List.pairwise_append.mpr ⟨t.unique, List.pairwise_singleton _ _, fun q hq p hp => ?_⟩
    rw [List.mem_singleton.mp hp, conflicts_comm]
    exact h q hq

/-- **`INSERT`**, which fails on a row that is met. -/
def insert (t : UniqueRows indexes) (r : ρ) : Option (UniqueRows indexes) :=
  if h : t.Free r then some (t.add r h) else none

/-- **`INSERT OR IGNORE`**, and `ON CONFLICT DO NOTHING`. -/
def insertIgnore (t : UniqueRows indexes) (r : ρ) : UniqueRows indexes := (t.insert r).getD t

/-- **`INSERT OR REPLACE`**: the rows that are met are deleted. -/
def replace (t : UniqueRows indexes) (r : ρ) : UniqueRows indexes :=
  (t.keep fun q => !conflicts indexes r q).add r fun q hq => by
    simpa using (List.mem_filter.mp hq).2

/-- **`INSERT … ON CONFLICT (index) DO UPDATE`**, where `set` sees the old row and the new one. -/
def upsertOn (key : ρ → Option κ) (set : ρ → ρ → ρ) (t : UniqueRows indexes) (r : ρ) : Option (UniqueRows indexes) :=
  match t.rows.find? (meets key r) with
  | none => t.insert r
  | some old => (t.keep fun q => !meets key r q).insert (set old r)

/-- **`INSERT … ON CONFLICT (index) DO NOTHING`.** -/
def insertOn (key : ρ → Option κ) (t : UniqueRows indexes) (r : ρ) : Option (UniqueRows indexes) :=
  if t.rows.any (meets key r) then some t else t.insert r

/-! ## What is in the tables -/

variable {t t' : UniqueRows indexes} {r q old : ρ} {key : ρ → Option κ} {set : ρ → ρ → ρ}

theorem insert_eq_some_iff : t.insert r = some t' ↔ t.Free r ∧ t'.rows = t.rows ++ [r] := by
  unfold insert
  split
  · next h =>
      constructor
      · intro heq
        obtain rfl := Option.some.inj heq
        exact ⟨h, rfl⟩
      · rintro ⟨-, hrows⟩
        cases t'
        cases hrows
        rfl
  · next h => exact ⟨nofun, fun hfree => absurd hfree.1 h⟩

theorem rows_replace (t : UniqueRows indexes) (r : ρ) :
    (t.replace r).rows = t.rows.filter (fun q => !conflicts indexes r q) ++ [r] := rfl

theorem rows_replace_of_free (h : t.Free r) : (t.replace r).rows = t.rows ++ [r] := by
  rw [rows_replace, List.filter_eq_self.mpr fun q hq => by rw [h q hq]; rfl]

/-- Two rows of a table that meet are one. -/
theorem eq_of_conflicts (hr : r ∈ t.rows) (hq : q ∈ t.rows) (h : conflicts indexes r q = true) : r = q := by
  by_contra hne
  have hsymm : Std.Symm fun r q => conflicts indexes r q = false := ⟨fun r q hrq => (conflicts_comm indexes q r).trans hrq⟩
  have hfalse := t.unique.forall hr hq hne
  rw [h] at hfalse
  cases hfalse

/-- A row with a key is in the table once: without it, what it meets is gone. -/
theorem perm_cons_filter (hkey : key ∈ indexes) (hold : old ∈ t.rows) (hmeets : meets key r old = true) :
    t.rows.Perm (old :: t.rows.filter fun q => !meets key r q) := by
  obtain ⟨rows, hunique⟩ := t
  have hmem : old ∈ rows := hold
  show rows.Perm (old :: rows.filter fun q => !meets key r q)
  clear hold
  induction rows with
  | nil => cases hmem
  | cons first rest ih =>
      obtain ⟨hfirst, hrest⟩ := List.pairwise_cons.mp hunique
      rcases List.mem_cons.mp hmem with rfl | hmem
      · have hnone : ∀ q ∈ rest, (!meets key r q) = true := by
          intro q hq
          rw [Bool.not_eq_true', Bool.eq_false_iff]
          intro hq'
          have hconflict := conflicts_of_meets hkey (meets_trans hmeets hq')
          rw [hfirst q hq] at hconflict
          cases hconflict
        rw [List.filter_cons_of_neg (by simp [hmeets]), List.filter_eq_self.mpr hnone]
      · have hne : meets key r first = false := by
          rw [Bool.eq_false_iff]
          intro hfirst'
          have hconflict := conflicts_of_meets hkey (meets_trans hfirst' hmeets)
          rw [hfirst old hmem] at hconflict
          cases hconflict
        rw [List.filter_cons_of_pos (by simp [hne])]
        exact ((ih hrest hmem).cons first).trans (List.Perm.swap old first _)

/-- What is met in one index is met. -/
theorem filter_conflicts (hkey : key ∈ indexes) (rows : List ρ) :
    rows.filter (fun q => !conflicts indexes r q) =
      (rows.filter fun q => !meets key r q).filter fun q => !conflicts indexes r q := by
  rw [List.filter_filter]
  refine List.filter_congr fun q _ => ?_
  cases hconflict : conflicts indexes r q with
  | true => rfl
  | false =>
      have hmeets : meets key r q = false := Bool.eq_false_iff.mpr fun h => by
        rw [conflicts_of_meets hkey h] at hconflict
        cases hconflict
      rw [hmeets]
      rfl

/-- A filter that keeps the length keeps everything. -/
theorem filter_perm_iff {rest : List ρ} {p : ρ → Bool} {u : ρ} :
    (rest ++ [u]).Perm (rest.filter p ++ [r]) ↔ (∀ q ∈ rest, p q = true) ∧ u = r := by
  constructor
  · intro h
    have hlength : (rest.filter p).length = rest.length := by
      have := h.length_eq
      simp only [List.length_append, List.length_singleton] at this
      omega
    have hall := List.length_filter_eq_length_iff.mp hlength
    rw [List.filter_eq_self.mpr hall] at h
    exact ⟨hall, List.singleton_perm_singleton.mp ((List.perm_append_left_iff rest).mp h)⟩
  · rintro ⟨hall, rfl⟩
    rw [List.filter_eq_self.mpr hall]

/-- **When `DO UPDATE` does what `REPLACE` does**: the new row meets nothing, or only the row that is updated, and that becomes
the new one. -/
theorem upsertOn_replaces_iff (hkey : key ∈ indexes) :
    (∃ t', t.upsertOn key set r = some t' ∧ t'.rows.Perm (t.replace r).rows) ↔
      t.Free r ∨ ∃ old ∈ t.rows, meets key r old = true ∧ (∀ q ∈ t.rows, conflicts indexes r q = true → q = old) ∧
        set old r = r := by
  unfold upsertOn
  split
  · next hnone =>
      have hno : ∀ q ∈ t.rows, meets key r q ≠ true := fun q hq => List.find?_eq_none.mp hnone q hq
      constructor
      · rintro ⟨t', hinsert, -⟩
        exact .inl (insert_eq_some_iff.mp hinsert).1
      · rintro (hfree | ⟨old, hold, hmeets, -⟩)
        · refine ⟨t.add r hfree, insert_eq_some_iff.mpr ⟨hfree, rfl⟩, ?_⟩
          rw [rows_replace_of_free hfree]
          rfl
        · exact absurd hmeets (hno old hold)
  · next old hsome =>
      have hold : old ∈ t.rows := List.mem_of_find?_eq_some hsome
      have hmeets : meets key r old = true := List.find?_some hsome
      constructor
      · rintro ⟨t', hinsert, hperm⟩
        obtain ⟨-, hrows⟩ := insert_eq_some_iff.mp hinsert
        rw [hrows, rows_replace, filter_conflicts hkey] at hperm
        obtain ⟨hrest, hset⟩ := filter_perm_iff.mp hperm
        refine .inr ⟨old, hold, hmeets, fun q hq hconflict => ?_, hset⟩
        by_contra hne
        have hq' : q ∈ t.rows.filter fun q => !meets key r q := by
          rcases List.mem_cons.mp ((perm_cons_filter hkey hold hmeets).mem_iff.mp hq) with heq | hq'
          · exact absurd heq hne
          · exact hq'
        have hfree := hrest q hq'
        rw [hconflict] at hfree
        cases hfree
      · rintro (hfree | ⟨old', hold', hmeets', honly, hset⟩)
        · have hconflict := conflicts_of_meets hkey hmeets
          rw [hfree old hold] at hconflict
          cases hconflict
        · obtain rfl : old' = old :=
            eq_of_conflicts hold' hold (conflicts_of_meets hkey (meets_trans hmeets' hmeets))
          rw [hset]
          have hfree : (t.keep fun q => !meets key r q).Free r := by
            intro q hq
            obtain ⟨hq, hq'⟩ := List.mem_filter.mp hq
            by_contra hconflict
            rw [honly q hq (by simpa using hconflict), hmeets] at hq'
            cases hq'
          refine ⟨(t.keep fun q => !meets key r q).add r hfree, insert_eq_some_iff.mpr ⟨hfree, rfl⟩, ?_⟩
          rw [rows_replace, filter_conflicts hkey]
          exact filter_perm_iff.mpr ⟨fun q hq => by rw [hfree q hq]; rfl, rfl⟩

/-- `DO NOTHING` on an index is `DO UPDATE` with the old row. -/
theorem insertOn_perm_iff (hkey : key ∈ indexes) (t : UniqueRows indexes) (r : ρ) {rows : List ρ} :
    (∃ t', t.insertOn key r = some t' ∧ t'.rows.Perm rows) ↔
      ∃ t', t.upsertOn key (fun old _ => old) r = some t' ∧ t'.rows.Perm rows := by
  unfold insertOn upsertOn
  cases hfind : t.rows.find? (meets key r) with
  | none =>
      have hany : t.rows.any (meets key r) = false :=
        List.any_eq_false.mpr fun q hq => List.find?_eq_none.mp hfind q hq
      rw [if_neg (by simp [hany])]
  | some old =>
      have hold : old ∈ t.rows := List.mem_of_find?_eq_some hfind
      have hmeets : meets key r old = true := List.find?_some hfind
      have hperm := perm_cons_filter hkey hold hmeets
      have hfree : (t.keep fun q => !meets key r q).Free old := by
        intro q hq
        obtain ⟨hq, hq'⟩ := List.mem_filter.mp hq
        by_contra hconflict
        obtain rfl := eq_of_conflicts hold hq (by simpa using hconflict)
        rw [hmeets] at hq'
        cases hq'
      rw [if_pos (List.any_eq_true.mpr ⟨old, hold, hmeets⟩)]
      have hsame : t.rows.Perm ((t.keep fun q => !meets key r q).add old hfree).rows :=
        hperm.trans (List.perm_append_singleton old _).symm
      constructor
      · rintro ⟨t', ⟨⟩, hrows⟩
        exact ⟨_, insert_eq_some_iff.mpr ⟨hfree, rfl⟩, hsame.symm.trans hrows⟩
      · rintro ⟨t', hinsert, hrows⟩
        obtain ⟨-, hadded⟩ := insert_eq_some_iff.mp hinsert
        rw [hadded] at hrows
        exact ⟨t, rfl, hsame.trans hrows⟩

/-- **When `DO NOTHING` does what `REPLACE` does**: the new row meets nothing, or it is there. -/
theorem insertIgnore_replaces_iff : (t.insertIgnore r).rows.Perm (t.replace r).rows ↔ t.Free r ∨ r ∈ t.rows := by
  by_cases hfree : t.Free r
  · rw [insertIgnore, insert, dif_pos hfree, rows_replace_of_free hfree]
    exact ⟨fun _ => .inl hfree, fun _ => .refl _⟩
  · rw [insertIgnore, insert, dif_neg hfree, Option.getD_none, or_iff_right hfree]
    constructor
    · intro hperm
      exact hperm.mem_iff.mpr (List.mem_append_right _ (List.mem_singleton.mpr rfl))
    · intro hmem
      -- The row has a key, so that it is there once, and meets only itself.
      obtain ⟨q, hq, hconflict⟩ : ∃ q ∈ t.rows, conflicts indexes r q = true := by
        simpa [Free] using hfree
      obtain ⟨key, hkey, hmeets⟩ := List.any_eq_true.mp (conflicts_self hconflict)
      have honly : ∀ q ∈ t.rows.filter (fun q => !meets key r q), (!conflicts indexes r q) = true := by
        intro q hq
        obtain ⟨hq, hq'⟩ := List.mem_filter.mp hq
        by_contra hconflict
        obtain rfl := eq_of_conflicts hmem hq (by simpa using hconflict)
        rw [hmeets] at hq'
        cases hq'
      rw [rows_replace, filter_conflicts hkey, List.filter_eq_self.mpr honly]
      exact (perm_cons_filter hkey hmem hmeets).trans (List.perm_append_singleton r _).symm

end UniqueRows

end VirtInfra.Lib
