import Mathlib.Algebra.Order.Group.Basic
import Mathlib.Algebra.BigOperators.Group.List.Basic

/-!
# `Records` — the new maxima of a sequence, and disjoint intervals

Values come in any order and some of them again. Whoever keeps the largest one so far sees an increasing sequence, its
`records`, and the steps from each to the next one are disjoint intervals: their lengths add up to no more than the whole.
-/

namespace VirtInfra.Lib

section Records

variable {α : Type*} [LinearOrder α]

/-- **The values that are larger than all before them**, where `top` is the largest one so far. -/
def records : α → List α → List α
  | _, [] => []
  | top, x :: rest => if top < x then x :: records x rest else records top rest

/-- From each value to the next one. -/
def stepsFrom : α → List α → List (α × α)
  | _, [] => []
  | top, x :: rest => (top, x) :: stepsFrom x rest

theorem records_cons_of_lt {top x : α} (h : top < x) (rest : List α) : records top (x :: rest) = x :: records x rest :=
  if_pos h

theorem records_cons_of_le {top x : α} (h : x ≤ top) (rest : List α) : records top (x :: rest) = records top rest :=
  if_neg (not_lt.mpr h)

end Records

/-- **Disjoint intervals in order are no longer together than the span that holds them.** -/
theorem sum_length_le {α β : Type*} [AddCommGroup α] [LinearOrder α] [IsOrderedAddMonoid α] {lo hi length : β → α}
    {items : List β} (hlength : ∀ a ∈ items, length a ≤ hi a - lo a) (hdisjoint : items.Pairwise fun a b => hi a ≤ lo b)
    {since stop : α} (hle : since ≤ stop) (hsince : ∀ a ∈ items, since ≤ lo a) (hstop : ∀ a ∈ items, hi a ≤ stop) :
    (items.map length).sum ≤ stop - since := by
  induction items generalizing since with
  | nil => simpa using hle
  | cons a rest ih =>
      obtain ⟨hafter, hdisjoint⟩ := List.pairwise_cons.mp hdisjoint
      have hrest : (rest.map length).sum ≤ stop - hi a :=
        ih (fun b hb => hlength b (List.mem_cons_of_mem _ hb)) hdisjoint (hstop a List.mem_cons_self) hafter
          fun b hb => hstop b (List.mem_cons_of_mem _ hb)
      rw [List.map_cons, List.sum_cons]
      calc length a + (rest.map length).sum ≤ (hi a - lo a) + (stop - hi a) :=
            add_le_add (hlength a List.mem_cons_self) hrest
        _ = stop - lo a := sub_add_sub_cancel' _ _ _
        _ ≤ stop - since := sub_le_sub_left (hsince a List.mem_cons_self) stop

end VirtInfra.Lib
