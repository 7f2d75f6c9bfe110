import VirtInfra.Lib.Erasure
import VirtInfra.Lib.Lookup
import Mathlib.Data.List.Nodup
import Mathlib.Data.List.Perm.Basic

/-!
# `Representatives` — one row for each key

A loop goes over rows in no particular order and keeps the lowest of those that have one key. Where no two rows rank the same,
the rows that are kept, and the sorted list of them, do not depend on the order of the loop.
-/

namespace VirtInfra.Lib

/-! ## The lowest row of each key -/

section Lowest

variable {α κ ρ : Type*} [DecidableEq κ] [LinearOrder ρ] (key : α → κ) (rank : α → ρ)

/-- One row more. Of two rows that tie the older one stays. -/
def keepLower (t : KeyedTable κ α) (a : α) : KeyedTable κ α :=
  t.upsert (key a) a fun old new => if rank new < rank old then new else old

/-- **The lowest row of each key**, by the places at which the keys come up. -/
def lowest (rows : List α) : List α := (rows.foldl (keepLower key rank) .empty).rows.map Prod.snd

/-- No row that was seen is lower than the one that is kept for its key. -/
structure KeepsLowest (seen : List α) (t : KeyedTable κ α) : Prop where
  kept : ∀ k a, t.get? k = some a → a ∈ seen ∧ key a = k ∧ ∀ b ∈ seen, key b = k → rank a ≤ rank b
  covers : ∀ b ∈ seen, (t.get? (key b)).isSome

variable {key rank} {rows rows' : List α} {a b : α}

theorem keepsLowest_nil : KeepsLowest key rank [] (.empty : KeyedTable κ α) where
  kept := nofun
  covers := nofun

theorem KeepsLowest.add {seen : List α} {t : KeyedTable κ α} (h : KeepsLowest key rank seen t) (a : α) :
    KeepsLowest key rank (seen ++ [a]) (keepLower key rank t a) := by
  have hself : (keepLower key rank t a).get? (key a) =
      some ((t.get? (key a)).elim a fun old => if rank a < rank old then a else old) := KeyedTable.get?_upsert_self ..
  have hother : ∀ k, k ≠ key a → (keepLower key rank t a).get? k = t.get? k := fun k hk =>
    KeyedTable.get?_upsert_of_ne t _ _ hk
  have hseen : ∀ b ∈ seen ++ [a], b ∈ seen ∨ b = a := fun b hb =>
    (List.mem_append.mp hb).imp_right List.mem_singleton.mp
  constructor
  · intro k c hc
    by_cases hk : k = key a
    · subst hk
      rw [hself] at hc
      obtain rfl := Option.some.inj hc
      cases hold : t.get? (key a) with
      | none =>
          -- No row that was seen has this key, so the new one is alone.
          rw [Option.elim_none]
          refine ⟨by simp, rfl, fun b hb hkey => ?_⟩
          rcases hseen b hb with hb | rfl
          · have hsome := h.covers b hb
            rw [hkey, hold] at hsome
            cases hsome
          · exact le_rfl
      | some old =>
          obtain ⟨hmem, hkey, hle⟩ := h.kept _ _ hold
          rw [Option.elim_some]
          split_ifs with hlt
          · refine ⟨by simp, rfl, fun b hb hkeyb => ?_⟩
            rcases hseen b hb with hb | rfl
            · exact hlt.le.trans (hle b hb hkeyb)
            · exact le_rfl
          · refine ⟨List.mem_append_left _ hmem, hkey, fun b hb hkeyb => ?_⟩
            rcases hseen b hb with hb | rfl
            · exact hle b hb hkeyb
            · exact not_lt.mp hlt
    · rw [hother k hk] at hc
      obtain ⟨hmem, hkey, hle⟩ := h.kept k c hc
      refine ⟨List.mem_append_left _ hmem, hkey, fun b hb hkeyb => ?_⟩
      rcases hseen b hb with hb | rfl
      · exact hle b hb hkeyb
      · exact absurd hkeyb.symm hk
  · intro b hb
    by_cases hk : key b = key a
    · rw [hk, hself]
      rfl
    · rw [hother _ hk]
      rcases hseen b hb with hb | rfl
      · exact h.covers b hb
      · exact absurd rfl hk

theorem KeepsLowest.foldl {seen : List α} {t : KeyedTable κ α} (h : KeepsLowest key rank seen t) (rows : List α) :
    KeepsLowest key rank (seen ++ rows) (rows.foldl (keepLower key rank) t) := by
  induction rows generalizing seen t with
  | nil => rwa [List.append_nil]
  | cons a rest ih =>
      have hstep := ih (h.add a)
      rwa [List.append_assoc, List.singleton_append] at hstep

theorem keepsLowest_lowest (rows : List α) : KeepsLowest key rank rows (rows.foldl (keepLower key rank) .empty) :=
  keepsLowest_nil.foldl rows

theorem mem_lowest : a ∈ lowest key rank rows ↔ (rows.foldl (keepLower key rank) .empty).get? (key a) = some a := by
  have hkept : KeepsLowest key rank rows _ := keepsLowest_lowest rows
  unfold lowest
  rw [List.mem_map, KeyedTable.get?_eq_some_iff]
  constructor
  · rintro ⟨⟨k, c⟩, hmem, rfl⟩
    obtain ⟨-, rfl, -⟩ := hkept.kept k c (KeyedTable.get?_of_mem_rows hmem)
    exact hmem
  · exact fun hmem => ⟨_, hmem, rfl⟩

theorem lowest_le (ha : a ∈ lowest key rank rows) : a ∈ rows ∧ ∀ b ∈ rows, key b = key a → rank a ≤ rank b := by
  obtain ⟨hmem, -, hle⟩ := (keepsLowest_lowest rows).kept _ _ (mem_lowest.mp ha)
  exact ⟨hmem, hle⟩

/-- Every key is represented. -/
theorem exists_lowest (hb : b ∈ rows) : ∃ a ∈ lowest key rank rows, key a = key b := by
  obtain ⟨a, ha⟩ := Option.isSome_iff_exists.mp ((keepsLowest_lowest rows : KeepsLowest key rank rows _).covers b hb)
  obtain ⟨-, hkey, -⟩ := (keepsLowest_lowest rows).kept _ _ ha
  exact ⟨a, mem_lowest.mpr (by rw [hkey, ha]), hkey⟩

/-- No key is represented twice. -/
theorem nodup_lowest : ((lowest key rank rows).map key).Nodup := by
  have hkeys : (lowest key rank rows).map key = (rows.foldl (keepLower key rank) .empty).keys := by
    unfold lowest KeyedTable.keys
    rw [List.map_map]
    refine List.map_congr_left fun row hrow => ?_
    exact ((keepsLowest_lowest rows).kept _ _ (KeyedTable.get?_of_mem_rows hrow)).2.1
  rw [hkeys]
  exact KeyedTable.nodupKeys _

/-- **Where no two rows rank the same, a row is kept exactly if no row of its key is lower.** -/
theorem mem_lowest_iff (hinj : ∀ a ∈ rows, ∀ b ∈ rows, rank a = rank b → a = b) :
    a ∈ lowest key rank rows ↔ a ∈ rows ∧ ∀ b ∈ rows, key b = key a → rank a ≤ rank b := by
  refine ⟨lowest_le, fun ⟨hmem, hle⟩ => ?_⟩
  obtain ⟨c, hc, hkey⟩ : ∃ c ∈ lowest key rank rows, key c = key a := exists_lowest hmem
  obtain ⟨hcmem, hcle⟩ := lowest_le hc
  rwa [hinj a hmem c hcmem (le_antisymm (hle c hcmem hkey) (hcle a hmem hkey.symm))]

/-- **And the loop may take the rows in any order.** -/
theorem lowest_perm (hperm : rows.Perm rows') (hinj : ∀ a ∈ rows, ∀ b ∈ rows, rank a = rank b → a = b) :
    (lowest key rank rows).Perm (lowest key rank rows') := by
  have hinj' : ∀ a ∈ rows', ∀ b ∈ rows', rank a = rank b → a = b := fun a ha b hb =>
    hinj a (hperm.mem_iff.mpr ha) b (hperm.mem_iff.mpr hb)
  rw [List.perm_ext_iff_of_nodup nodup_lowest.of_map nodup_lowest.of_map]
  intro a
  rw [mem_lowest_iff hinj, mem_lowest_iff hinj', hperm.mem_iff]
  simp only [hperm.mem_iff]

end Lowest

/-! ## Sorting, and the first that matches -/

section Sorted

variable {α κ : Type*} [LinearOrder κ] {desc : Bool} {key : α → κ} {rows rows' : List α} {p : α → Bool} {a b : α}

theorem Before.antisymm (hab : Before desc key a b) (hba : Before desc key b a) : key a = key b := by
  unfold Before at hab hba
  split_ifs at hab hba
  · exact le_antisymm hba hab
  · exact le_antisymm hab hba

/-- Rows without ties are sorted in one way. -/
theorem orderBy_perm (hperm : rows.Perm rows') (hinj : ∀ a ∈ rows, ∀ b ∈ rows, key a = key b → a = b) :
    orderBy desc key rows = orderBy desc key rows' := by
  have hsorted : (orderBy desc key rows).Perm (orderBy desc key rows') :=
    (List.perm_insertionSort _ rows).trans (hperm.trans (List.perm_insertionSort _ rows').symm)
  refine hsorted.eq_of_pairwise (fun a b ha hb hab hba => ?_) (orderBy_pairwise rows) (orderBy_pairwise rows')
  exact hinj a (mem_orderBy.mp ha) b (hperm.mem_iff.mpr (mem_orderBy.mp hb)) (hab.antisymm hba)

/-- **The first match in a sorted list comes before all the others.** -/
theorem find?_orderBy (h : (orderBy desc key rows).find? p = some a) :
    a ∈ rows ∧ p a = true ∧ ∀ b ∈ rows, p b = true → Before desc key a b := by
  refine ⟨mem_orderBy.mp (List.mem_of_find?_eq_some h), List.find?_some h, fun b hb hpb => ?_⟩
  have hsorted : (orderBy desc key rows).Pairwise (Before desc key) := orderBy_pairwise rows
  obtain ⟨-, before, after, hsplit, hnone⟩ := List.find?_eq_some_iff_append.mp h
  have hmem : b ∈ orderBy desc key rows := mem_orderBy.mpr hb
  rw [hsplit] at hmem hsorted
  rcases List.mem_append.mp hmem with hmem | hmem
  · simpa [hpb] using hnone b hmem
  · rcases List.mem_cons.mp hmem with rfl | hmem
    · exact (Before.total b b).elim id id
    · exact (List.pairwise_cons.mp (List.pairwise_append.mp hsorted).2.1).1 b hmem

end Sorted

end VirtInfra.Lib
