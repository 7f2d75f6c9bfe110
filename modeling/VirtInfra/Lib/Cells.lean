import Mathlib.Data.Finset.Card
import Mathlib.Algebra.Order.BigOperators.Group.List
import VirtInfra.Lib.Window

/-!
# `Cells` — how much rows can account for

A row stands for one cell of a grid, and a column that counts seconds is capped at the length of the cell. Over a window
such a column adds up to no more than the length of the cells that start in it (`sum_le_gridCells`), which is the distance
of the first boundaries at or after its ends (`mul_card_gridCells`).
-/

namespace VirtInfra.Lib

/-- The cells that start in `[lo, hi)`. -/
def gridCells (g off lo hi : Int) : Finset Int :=
  ((Finset.range (hi - lo).toNat).image fun i : Nat => lo + i).filter (OnGrid g off)

variable {g off lo hi x : Int}

theorem mem_gridCells : x ∈ gridCells g off lo hi ↔ (lo ≤ x ∧ x < hi) ∧ OnGrid g off x := by
  have hrange : (∃ i : Nat, i < (hi - lo).toNat ∧ lo + i = x) ↔ lo ≤ x ∧ x < hi := by
    constructor
    · rintro ⟨i, hi, rfl⟩
      omega
    · intro h
      exact ⟨(x - lo).toNat, by omega, by omega⟩
  unfold gridCells
  simp only [Finset.mem_filter, Finset.mem_image, Finset.mem_range, hrange]

theorem gridCells_of_le (h : hi ≤ lo) : gridCells g off lo hi = ∅ := by
  have hnone : (hi - lo).toNat = 0 := by omega
  unfold gridCells
  rw [hnone]
  rfl

/-- The next boundary, one step on. -/
theorem gridCeil_add_one (hg : 0 < g) (t : Int) :
    gridCeil g off (t + 1) = if OnGrid g off t then gridCeil g off t + g else gridCeil g off t := by
  have hnext : t + 1 ≤ gridCeil g off (t + 1) := le_gridCeil hg
  split
  · next hgrid =>
      have hself : gridCeil g off t = t := hgrid.gridCeil_eq hg
      apply le_antisymm
      · rw [hself]
        exact hgrid.add_cell.gridCeil_le hg (by omega)
      · rw [hself]
        exact hgrid.add_le_of_lt hg onGrid_gridCeil (by omega)
  · next hgrid =>
      have hle : t ≤ gridCeil g off t := le_gridCeil hg
      have hne : gridCeil g off t ≠ t := fun heq => hgrid (heq ▸ onGrid_gridCeil)
      apply le_antisymm
      · exact onGrid_gridCeil.gridCeil_le hg (by omega)
      · exact onGrid_gridCeil.gridCeil_le hg (by omega)

/-- **The cells of a window**, in seconds. -/
theorem mul_card_gridCells (hg : 0 < g) (h : lo ≤ hi) :
    g * (gridCells g off lo hi).card = gridCeil g off hi - gridCeil g off lo := by
  induction hi, h using Int.leInduction with
  | base => simp [gridCells_of_le (le_refl lo)]
  | succ hi hle ih =>
      have hinsert : gridCells g off lo (hi + 1) =
          if OnGrid g off hi then insert hi (gridCells g off lo hi) else gridCells g off lo hi := by
        ext x
        rw [mem_gridCells]
        split
        · next hgrid =>
            rw [Finset.mem_insert, mem_gridCells]
            constructor
            · rintro ⟨hrange, hx⟩
              rcases eq_or_ne x hi with rfl | hne
              · exact .inl rfl
              · exact .inr ⟨⟨hrange.1, by omega⟩, hx⟩
            · rintro (rfl | ⟨hrange, hx⟩)
              · exact ⟨⟨hle, by omega⟩, hgrid⟩
              · exact ⟨⟨hrange.1, by omega⟩, hx⟩
        · next hgrid =>
            rw [mem_gridCells]
            refine ⟨fun ⟨hrange, hx⟩ => ⟨⟨hrange.1, ?_⟩, hx⟩, fun ⟨hrange, hx⟩ => ⟨⟨hrange.1, by omega⟩, hx⟩⟩
            have hne : x ≠ hi := fun heq => hgrid (heq ▸ hx)
            omega
      rw [hinsert, gridCeil_add_one hg]
      split
      · have hnew : hi ∉ gridCells g off lo hi := fun hmem => absurd (mem_gridCells.mp hmem).1.2 (lt_irrefl hi)
        rw [Finset.card_insert_of_notMem hnew, Nat.cast_add_one, mul_add, mul_one, ih]
        omega
      · exact ih

/-- **Rows of different cells account for no more than the cells.** -/
theorem sum_le_gridCells {α : Type*} {l : List α} (start value : α → Int) (hg : 0 ≤ g) (hnodup : (l.map start).Nodup)
    (hcell : ∀ a ∈ l, start a ∈ gridCells g off lo hi) (hcap : ∀ a ∈ l, value a ≤ g) :
    (l.map value).sum ≤ g * (gridCells g off lo hi).card := by
  have hsum : (l.map value).sum ≤ (l.map value).length • g := by
    refine List.sum_le_card_nsmul _ g fun v hv => ?_
    obtain ⟨a, ha, rfl⟩ := List.mem_map.mp hv
    exact hcap a ha
  have hcount : l.length ≤ (gridCells g off lo hi).card := by
    rw [← List.length_map (f := start), ← List.toFinset_card_of_nodup hnodup]
    refine Finset.card_le_card fun x hx => ?_
    obtain ⟨a, ha, rfl⟩ := List.mem_map.mp (List.mem_toFinset.mp hx)
    exact hcell a ha
  calc (l.map value).sum ≤ l.length * g := by simpa using hsum
    _ ≤ (gridCells g off lo hi).card * g := mul_le_mul_of_nonneg_right (by exact_mod_cast hcount) hg
    _ = g * (gridCells g off lo hi).card := mul_comm _ _

end VirtInfra.Lib
