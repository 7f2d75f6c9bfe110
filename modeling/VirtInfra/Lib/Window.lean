import Mathlib.Algebra.BigOperators.Group.List.Basic
import Mathlib.Algebra.Order.Ring.Int
import Mathlib.Data.List.Perm.Basic

/-!
# `Window` — time grids, sums over time windows, and tilings

Events carry integer times, and a pre-aggregated row stands for all events whose time falls into one cell
of a grid. This file has the arithmetic such a scheme rests on:

* `gridFloor` / `gridCeil`, the cell boundaries around a time, with the rule that a boundary lies below a
  time exactly when it lies below the time's cell (`le_gridFloor_iff`);
* `rangeSum`, the weight of the events whose coordinate lies in `[lo, hi)`, additive in the window
  (`rangeSum_split`) and along any tiling of it (`rangeSum_tiles`);
* `carry`, the weight of the events that two coordinates place on different sides of a boundary, and the
  balance `rangeSum_add_carry` that says what reading by one coordinate instead of the other costs.
-/

namespace VirtInfra.Lib

/-! ## Grids -/

/-- The start of the grid cell of width `g` that contains `t`; the cells start at `-off`, modulo `g`. -/
def gridFloor (g off t : Int) : Int := (t + off) / g * g - off

/-- The first cell boundary at or after `t`. -/
def gridCeil (g off t : Int) : Int := if t = gridFloor g off t then gridFloor g off t else gridFloor g off t + g

/-- `x` is a cell boundary. -/
def OnGrid (g off x : Int) : Prop := g ∣ x + off

instance (g off x : Int) : Decidable (OnGrid g off x) := inferInstanceAs (Decidable (g ∣ x + off))

section Grid

variable {g off t x : Int}

theorem onGrid_gridFloor : OnGrid g off (gridFloor g off t) := by
  unfold OnGrid gridFloor
  rw [sub_add_cancel]
  exact dvd_mul_left g _

theorem OnGrid.add_cell (h : OnGrid g off x) : OnGrid g off (x + g) := by
  unfold OnGrid at h ⊢
  rw [add_right_comm]
  exact Int.dvd_add h (Int.dvd_refl g)

theorem onGrid_gridCeil : OnGrid g off (gridCeil g off t) := by
  unfold gridCeil
  split
  · exact onGrid_gridFloor
  · exact onGrid_gridFloor.add_cell

/-- **A coarser grid's boundaries are boundaries of the finer one.** -/
theorem OnGrid.finer {G : Int} (h : OnGrid G off x) (hg : g ∣ G) : OnGrid g off x := hg.trans h

theorem gridFloor_le (hg : 0 < g) : gridFloor g off t ≤ t := by
  have := Int.ediv_mul_le (t + off) hg.ne'
  unfold gridFloor; omega

theorem lt_gridFloor_add (hg : 0 < g) : t < gridFloor g off t + g := by
  have := Int.lt_ediv_add_one_mul_self (t + off) hg
  rw [add_mul, one_mul] at this
  unfold gridFloor; omega

/-- **A boundary is at or below a time exactly when it is at or below the time's cell.** -/
theorem OnGrid.le_gridFloor_iff (hg : 0 < g) (hx : OnGrid g off x) : x ≤ gridFloor g off t ↔ x ≤ t := by
  refine ⟨fun h => h.trans (gridFloor_le hg), fun h => ?_⟩
  obtain ⟨k, hk⟩ := hx
  have hle : k ≤ (t + off) / g := (Int.le_ediv_iff_mul_le hg).mpr (by rw [mul_comm]; omega)
  have := mul_le_mul_of_nonneg_right hle hg.le
  rw [mul_comm k g, ← hk] at this
  unfold gridFloor; omega

theorem OnGrid.gridFloor_lt_iff (hg : 0 < g) (hx : OnGrid g off x) : gridFloor g off t < x ↔ t < x := by
  rw [← not_le, ← not_le, hx.le_gridFloor_iff hg]

/-- **Cells cut by boundaries.** Between two boundaries, a time and its cell are on the same side. -/
theorem OnGrid.mem_range_iff {lo hi : Int} (hg : 0 < g) (hlo : OnGrid g off lo) (hhi : OnGrid g off hi) :
    (lo ≤ gridFloor g off t ∧ gridFloor g off t < hi) ↔ (lo ≤ t ∧ t < hi) :=
  and_congr (hlo.le_gridFloor_iff hg) (hhi.gridFloor_lt_iff hg)

theorem OnGrid.gridFloor_eq (hg : 0 < g) (hx : OnGrid g off x) : gridFloor g off x = x :=
  le_antisymm (gridFloor_le hg) ((hx.le_gridFloor_iff hg).mpr le_rfl)

theorem OnGrid.gridCeil_eq (hg : 0 < g) (hx : OnGrid g off x) : gridCeil g off x = x := by
  simp [gridCeil, hx.gridFloor_eq hg]

theorem le_gridCeil (hg : 0 < g) : t ≤ gridCeil g off t := by
  have hlt : t < gridFloor g off t + g := lt_gridFloor_add hg
  unfold gridCeil; split <;> omega

/-- **Boundaries are a cell apart.** -/
theorem OnGrid.add_le_of_lt {y : Int} (hg : 0 < g) (hx : OnGrid g off x) (hy : OnGrid g off y) (h : x < y) :
    x + g ≤ y := by
  obtain ⟨a, ha⟩ := hx
  obtain ⟨b, hb⟩ := hy
  have hab : a < b := lt_of_mul_lt_mul_left (by omega : g * a < g * b) hg.le
  have hmul := mul_le_mul_of_nonneg_left (Int.add_one_le_of_lt hab) hg.le
  rw [mul_add, mul_one] at hmul
  omega

/-- **A cell is the times from its boundary to the next.** -/
theorem OnGrid.gridFloor_eq_iff (hg : 0 < g) (hx : OnGrid g off x) : gridFloor g off t = x ↔ x ≤ t ∧ t < x + g := by
  constructor
  · rintro rfl
    exact ⟨gridFloor_le hg, lt_gridFloor_add hg⟩
  · rintro ⟨h₁, h₂⟩
    have hle : x ≤ gridFloor g off t := (hx.le_gridFloor_iff hg).mpr h₁
    have hlt : gridFloor g off t < x + g := (hx.add_cell.gridFloor_lt_iff hg).mpr h₂
    by_contra hne
    have hnext := hx.add_le_of_lt hg onGrid_gridFloor (lt_of_le_of_ne hle (Ne.symm hne))
    omega

/-- **`gridCeil` is the least boundary above.** -/
theorem OnGrid.gridCeil_le (hg : 0 < g) (hx : OnGrid g off x) (h : t ≤ x) : gridCeil g off t ≤ x := by
  unfold gridCeil
  split
  · omega
  · rename_i hne
    have htx : t ≠ x := fun heq => hne (by rw [heq, hx.gridFloor_eq hg])
    exact onGrid_gridFloor.add_le_of_lt hg hx ((hx.gridFloor_lt_iff hg).mpr (lt_of_le_of_ne h htx))

end Grid

/-! ## Sums over windows -/

section RangeSum

variable {α M : Type*} [AddCommMonoid M]

/-- **The weight of the events whose coordinate lies in `[lo, hi)`.** -/
def rangeSum (coord : α → Int) (w : α → M) (events : List α) (lo hi : Int) : M :=
  (events.map fun a => if lo ≤ coord a ∧ coord a < hi then w a else 0).sum

/-- The weight of the events that `slot` places before `x` and `coord` places at or after it. -/
def carry (slot coord : α → Int) (w : α → M) (events : List α) (x : Int) : M :=
  (events.map fun a => if slot a < x ∧ x ≤ coord a then w a else 0).sum

variable {coord slot : α → Int} {w : α → M} {events : List α} {lo mid hi x : Int}

theorem rangeSum_congr {coord' : α → Int} {lo' hi' : Int}
    (h : ∀ a ∈ events, (lo ≤ coord a ∧ coord a < hi) ↔ (lo' ≤ coord' a ∧ coord' a < hi')) :
    rangeSum coord w events lo hi = rangeSum coord' w events lo' hi' := by
  unfold rangeSum
  refine congrArg List.sum (List.map_congr_left fun a ha => ?_)
  simp only [h a ha]

theorem rangeSum_eq_zero (h : ∀ a ∈ events, ¬ (lo ≤ coord a ∧ coord a < hi)) :
    rangeSum coord w events lo hi = 0 := by
  unfold rangeSum
  refine List.sum_eq_zero fun m hm => ?_
  obtain ⟨a, ha, rfl⟩ := List.mem_map.mp hm
  rw [if_neg (h a ha)]

theorem rangeSum_of_le (h : hi ≤ lo) : rangeSum coord w events lo hi = 0 :=
  rangeSum_eq_zero fun _ _ hmem => absurd (hmem.1.trans_lt hmem.2) (not_lt.mpr h)

/-- **A window's sum splits at any cut.** -/
theorem rangeSum_split (h₁ : lo ≤ mid) (h₂ : mid ≤ hi) :
    rangeSum coord w events lo hi = rangeSum coord w events lo mid + rangeSum coord w events mid hi := by
  unfold rangeSum
  rw [← List.sum_map_add]
  refine congrArg List.sum (List.map_congr_left fun a _ => ?_)
  by_cases ha : coord a < mid
  · have hmid : ¬ mid ≤ coord a := not_le.mpr ha
    simp [ha, hmid, ha.trans_le h₂]
  · have hlo : lo ≤ coord a := h₁.trans (not_lt.mp ha)
    simp [ha, not_lt.mp ha, hlo]

/-- **Reading cells instead of times changes nothing** between two cell boundaries. -/
theorem rangeSum_gridFloor {g off : Int} (hg : 0 < g) (hlo : OnGrid g off lo) (hhi : OnGrid g off hi) :
    rangeSum (fun a => gridFloor g off (coord a)) w events lo hi = rangeSum coord w events lo hi :=
  rangeSum_congr fun _ _ => hlo.mem_range_iff hg hhi

/-- One event's share in the balance of `rangeSum_add_carry`. -/
theorem share_add_carry {s c : Int} (m : M) (hsc : s ≤ c) (hle : lo ≤ hi) :
    (if lo ≤ c ∧ c < hi then m else 0) + (if s < hi ∧ hi ≤ c then m else 0) =
      (if lo ≤ s ∧ s < hi then m else 0) + (if s < lo ∧ lo ≤ c then m else 0) := by
  split_ifs <;> first | (exfalso; omega) | simp

/-- **The price of reading by the wrong coordinate.** When `coord` never lies before `slot`, a window read by
    `coord` gains the events carried over its start and loses those carried over its end. -/
theorem rangeSum_add_carry (h : ∀ a ∈ events, slot a ≤ coord a) (hle : lo ≤ hi) :
    rangeSum coord w events lo hi + carry slot coord w events hi =
      rangeSum slot w events lo hi + carry slot coord w events lo := by
  unfold rangeSum carry
  rw [← List.sum_map_add, ← List.sum_map_add]
  exact congrArg List.sum (List.map_congr_left fun a ha => share_add_carry (w a) (h a ha) hle)

end RangeSum

/-! ## Tilings -/

/-- **The intervals are consecutive and cover `[lo, hi)`.** -/
inductive Tiles : Int → List (Int × Int) → Int → Prop
  | nil (lo : Int) : Tiles lo [] lo
  | cons {lo mid hi : Int} {rest : List (Int × Int)} (hle : lo ≤ mid) (hrest : Tiles mid rest hi) :
      Tiles lo ((lo, mid) :: rest) hi

section Tiles

variable {α M : Type*} [AddCommMonoid M] {lo mid hi : Int} {parts parts' : List (Int × Int)}

theorem Tiles.le (h : Tiles lo parts hi) : lo ≤ hi := by
  induction h with
  | nil lo => exact le_rfl
  | cons hle _ ih => exact hle.trans ih

theorem Tiles.single (h : lo ≤ hi) : Tiles lo [(lo, hi)] hi := .cons h (.nil hi)

theorem Tiles.append (h₁ : Tiles lo parts mid) (h₂ : Tiles mid parts' hi) : Tiles lo (parts ++ parts') hi := by
  induction h₁ with
  | nil lo => exact h₂
  | cons hle _ ih => exact .cons hle (ih h₂)

theorem Tiles.le_start (h : Tiles lo parts hi) : ∀ part ∈ parts, lo ≤ part.1 := by
  induction h with
  | nil lo => intro part hpart; cases hpart
  | cons hle _ ih =>
      intro part hpart
      rcases List.mem_cons.mp hpart with rfl | hpart
      · exact le_rfl
      · exact hle.trans (ih part hpart)

/-- **A tiling sums to its window.** -/
theorem rangeSum_tiles (coord : α → Int) (w : α → M) (events : List α) (h : Tiles lo parts hi) :
    (parts.map fun part => rangeSum coord w events part.1 part.2).sum = rangeSum coord w events lo hi := by
  induction h with
  | nil lo => rw [rangeSum_of_le le_rfl]; rfl
  | cons hle hrest ih => rw [List.map_cons, List.sum_cons, ih, ← rangeSum_split hle hrest.le]

end Tiles

end VirtInfra.Lib
