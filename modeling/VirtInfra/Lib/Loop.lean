import Mathlib.Data.List.Basic

/-!
# `Loop` — a loop that rewrites until there is nothing to rewrite

`while True` around a rewrite that reports whether it changed anything. What such a loop returns is a normal form: if each
rewrite keeps it, and what cannot be rewritten is its own, then a measure that falls with each rewrite bounds the loop and the
normal form is its result.
-/

namespace VirtInfra.Lib

variable {α : Type*}

/-- **The loop**, for as many rounds as there is fuel; `none` while it is still running. -/
def rewriteLoop (rewrite : α → Option α) : Nat → α → Option α
  | 0, _ => none
  | fuel + 1, a =>
      match rewrite a with
      | none => some a
      | some b => rewriteLoop rewrite fuel b

/-- **A normal form**: no rewrite changes it, and what is not rewritten has it. -/
structure NormalForm (rewrite : α → Option α) (normal : α → α) (measure : α → Nat) : Prop where
  smaller : ∀ a b, rewrite a = some b → measure b < measure a
  kept : ∀ a b, rewrite a = some b → normal b = normal a
  done : ∀ a, rewrite a = none → normal a = a

namespace NormalForm

variable {rewrite : α → Option α} {normal : α → α} {measure : α → Nat}

/-- **The loop ends with the normal form.** -/
theorem rewriteLoop_eq (h : NormalForm rewrite normal measure) {fuel : Nat} {a : α} (hfuel : measure a < fuel) :
    rewriteLoop rewrite fuel a = some (normal a) := by
  induction fuel generalizing a with
  | zero => exact absurd hfuel (Nat.not_lt_zero _)
  | succ fuel ih =>
      unfold rewriteLoop
      cases hrewrite : rewrite a with
      | none => exact congrArg some (h.done a hrewrite).symm
      | some b =>
          have hsmaller := h.smaller a b hrewrite
          show rewriteLoop rewrite fuel b = some (normal a)
          rw [ih (by omega), h.kept a b hrewrite]

/-- **The normal form has nothing to rewrite.** -/
theorem rewrite_normal (h : NormalForm rewrite normal measure) (a : α) : rewrite (normal a) = none := by
  -- On the measure: a rewrite leads to something smaller with the same normal form.
  induction hm : measure a using Nat.strongRecOn generalizing a with
  | ind m ih =>
      cases hrewrite : rewrite a with
      | none =>
          rw [h.done a hrewrite]
          exact hrewrite
      | some b =>
          rw [← h.kept a b hrewrite]
          exact ih (measure b) (hm ▸ h.smaller a b hrewrite) b rfl

theorem normal_normal (h : NormalForm rewrite normal measure) (a : α) : normal (normal a) = normal a :=
  h.done _ (h.rewrite_normal a)

end NormalForm

end VirtInfra.Lib
