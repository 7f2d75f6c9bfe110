import Mathlib.Algebra.BigOperators.Group.Finset.Basic
import Mathlib.Algebra.GroupWithZero.Nat
import Mathlib.Algebra.Order.BigOperators.Group.Finset
import Mathlib.Order.Interval.Finset.Nat

/-!
# `Proration` — a total over cells of which some are known

Some cells of a row have a known value, the total of the row is known as well, and what the total has beyond the known
cells is spread evenly over the unknown ones, rounded half up. Such an estimate of a segment is at most the total and grows
with the segment; over all cells it is the total, unless no cell is left to take the residual.
-/

namespace VirtInfra.Lib.Proration

/-- The sum of `f` over the cells `first … last - 1`. -/
def sumOver (f : Nat → Nat) (first last : Nat) : Nat := ((List.range' first (last - first)).map f).sum

/-- `a / b`, rounded half up. -/
def halfUp (a b : Nat) : Nat := (2 * a + b) / (2 * b)

variable (value : Nat → Nat) (known : Nat → Bool) (cells total : Nat)

def knownIn (first last : Nat) : Nat := sumOver (fun cell => if known cell then 1 else 0) first last

def unknownIn (first last : Nat) : Nat := last - first - knownIn known first last

/-- **The estimate of a segment**: its known cells, and the share of its unknown ones in the residual. -/
def estimate (first last : Nat) : Nat :=
  sumOver value first last +
    if unknownIn known 0 cells = 0 then 0
    else halfUp ((total - sumOver value 0 cells) * unknownIn known first last) (unknownIn known 0 cells)

variable {value known cells total}

/-! ## Sums and quotients -/

theorem sumOver_eq (f : Nat → Nat) (first last : Nat) : sumOver f first last = ∑ cell ∈ Finset.Ico first last, f cell :=
  rfl

theorem sumOver_mono (f : Nat → Nat) {first last first' last' : Nat} (hfirst : first' ≤ first) (hlast : last ≤ last') :
    sumOver f first last ≤ sumOver f first' last' := by
  rw [sumOver_eq, sumOver_eq]
  exact Finset.sum_le_sum_of_subset (Finset.Ico_subset_Ico hfirst hlast)

/-- The unknown cells of a segment, counted one by one. -/
theorem unknownIn_eq (known : Nat → Bool) (first last : Nat) :
    unknownIn known first last = sumOver (fun cell => if known cell then 0 else 1) first last := by
  have hall : knownIn known first last + sumOver (fun cell => if known cell then 0 else 1) first last = last - first := by
    unfold knownIn
    rw [sumOver_eq, sumOver_eq, ← Finset.sum_add_distrib]
    have hone : ∀ cell ∈ Finset.Ico first last,
        ((if known cell then 1 else 0) + if known cell then 0 else 1) = 1 := by
      intro cell _
      cases known cell <;> rfl
    rw [Finset.sum_congr rfl hone]
    simp
  unfold unknownIn
  omega

theorem unknownIn_mono (known : Nat → Bool) {first last first' last' : Nat} (hfirst : first' ≤ first)
    (hlast : last ≤ last') : unknownIn known first last ≤ unknownIn known first' last' := by
  rw [unknownIn_eq, unknownIn_eq]
  exact sumOver_mono _ hfirst hlast

theorem unknownIn_eq_zero_iff : unknownIn known 0 cells = 0 ↔ ∀ cell < cells, known cell = true := by
  rw [unknownIn_eq, sumOver_eq, Finset.sum_eq_zero_iff]
  simp

theorem halfUp_mono {a a' : Nat} (b : Nat) (h : a ≤ a') : halfUp a b ≤ halfUp a' b := by
  unfold halfUp
  apply Nat.div_le_div_right
  omega

theorem halfUp_mul_self (r : Nat) {m : Nat} (hm : 0 < m) : halfUp (r * m) m = r := by
  unfold halfUp
  have hsplit : 2 * (r * m) + m = m + 2 * m * r := by rw [Nat.add_comm, Nat.mul_assoc, Nat.mul_comm r m]
  rw [hsplit, Nat.add_mul_div_left _ _ (by omega), Nat.div_eq_of_lt (by omega), Nat.zero_add]

/-- A share is not above the whole. -/
theorem halfUp_mul_le (r : Nat) {u m : Nat} (hm : 0 < m) (hu : u ≤ m) : halfUp (r * u) m ≤ r :=
  calc halfUp (r * u) m ≤ halfUp (r * m) m := halfUp_mono m (Nat.mul_le_mul_left r hu)
    _ = r := halfUp_mul_self r hm

/-! ## The estimate -/

/-- **An estimate is at most the total**, of known cells that are not above it. -/
theorem estimate_le (hknown : sumOver value 0 cells ≤ total) {first last : Nat} (hlast : last ≤ cells) :
    estimate value known cells total first last ≤ total := by
  have hselected := sumOver_mono value (Nat.zero_le first) hlast
  have hunknown := unknownIn_mono known (Nat.zero_le first) hlast
  unfold estimate
  split
  · omega
  · have hshare := halfUp_mul_le (total - sumOver value 0 cells) (by omega) hunknown
    omega

/-- **An estimate grows with its segment.** -/
theorem estimate_mono {first last first' last' : Nat} (hfirst : first' ≤ first) (hlast : last ≤ last') :
    estimate value known cells total first last ≤ estimate value known cells total first' last' := by
  have hselected := sumOver_mono value hfirst hlast
  have hunknown := unknownIn_mono known hfirst hlast
  unfold estimate
  split
  · exact Nat.add_le_add_right hselected 0
  · exact Nat.add_le_add hselected (halfUp_mono _ (Nat.mul_le_mul_left _ hunknown))

/-- **Over all cells the estimate is the total exactly when there is nothing to spread or a cell to take it.** -/
theorem estimate_all_iff (hknown : sumOver value 0 cells ≤ total) :
    estimate value known cells total 0 cells = total ↔
      ((∀ cell < cells, known cell = true) → sumOver value 0 cells = total) := by
  rw [← unknownIn_eq_zero_iff]
  unfold estimate
  split
  next hall => simp [hall]
  next hsome =>
    rw [halfUp_mul_self _ (by omega), Nat.add_sub_cancel' hknown]
    simp [hsome]

end VirtInfra.Lib.Proration
