import Mathlib.Data.List.Basic

/-!
# `Transition` — labelled transition systems, their runs and their invariants

A system is a step function on states, partial where a label is not enabled, and a set of initial states. `Reachable`
takes a condition on the steps as well, so that a statement about the runs whose steps all meet it is a statement about
reachable states; `Reachable.invariant` is the one induction over runs, and `exec` runs a given list of labels.
-/

namespace VirtInfra.Lib

/-- **A labelled transition system.** -/
structure System (σ ℓ : Type*) where
  init : σ → Prop
  step : σ → ℓ → Option σ

namespace System

variable {σ ℓ : Type*} {S : System σ ℓ} {ok ok' : σ → ℓ → Prop}

/-- **The states of the runs whose steps all satisfy `ok`.** -/
inductive Reachable (S : System σ ℓ) (ok : σ → ℓ → Prop) : σ → Prop
  | init {s : σ} (h : S.init s) : Reachable S ok s
  | step {s s' : σ} {l : ℓ} (h : Reachable S ok s) (hok : ok s l) (hstep : S.step s l = some s') : Reachable S ok s'

/-- Every step is allowed. -/
abbrev AnyStep : σ → ℓ → Prop := fun _ _ => True

/-- **An invariant holds in every reachable state.** Each step may use that its source is reachable. -/
theorem Reachable.invariant {I : σ → Prop} (hinit : ∀ s, S.init s → I s)
    (hstep : ∀ s l s', Reachable S ok s → I s → ok s l → S.step s l = some s' → I s') {s : σ}
    (h : Reachable S ok s) : I s := by
  induction h with
  | init h => exact hinit _ h
  | step h hok hs ih => exact hstep _ _ _ h ih hok hs

/-- Runs under a stronger step condition are runs under a weaker one. -/
theorem Reachable.mono (hok : ∀ s l, ok s l → ok' s l) {s : σ} (h : Reachable S ok s) : Reachable S ok' s := by
  induction h with
  | init h => exact .init h
  | step _ h hs ih => exact .step ih (hok _ _ h) hs

/-- Run a list of labels, as long as they are allowed. -/
def exec (S : System σ ℓ) (ok : σ → ℓ → Prop) [∀ s l, Decidable (ok s l)] : σ → List ℓ → Option σ
  | s, [] => some s
  | s, l :: rest => if ok s l then (S.step s l).bind fun s' => S.exec ok s' rest else none

theorem exec_append [∀ s l, Decidable (ok s l)] (s : σ) (labels labels' : List ℓ) :
    S.exec ok s (labels ++ labels') = (S.exec ok s labels).bind fun mid => S.exec ok mid labels' := by
  induction labels generalizing s with
  | nil => rfl
  | cons l rest ih =>
      simp only [List.cons_append, exec]
      split
      · rw [Option.bind_assoc]
        exact congrArg _ (funext fun mid => ih mid)
      · rfl

/-- What a list of labels leads to is reachable. -/
theorem Reachable.exec [∀ s l, Decidable (ok s l)] {s s' : σ} {labels : List ℓ} (h : Reachable S ok s)
    (hrun : S.exec ok s labels = some s') : Reachable S ok s' := by
  induction labels generalizing s with
  | nil => exact Option.some.inj hrun ▸ h
  | cons l rest ih =>
      unfold System.exec at hrun
      split at hrun
      · rename_i hok
        obtain ⟨mid, hmid, hrest⟩ := Option.bind_eq_some_iff.mp hrun
        exact ih (.step h hok hmid) hrest
      · cases hrun

/-- **What every step of a list keeps, its run keeps.** -/
theorem exec_keeps [∀ s l, Decidable (ok s l)] {kept : σ → Prop} {labels : List ℓ}
    (hone : ∀ s l s', l ∈ labels → kept s → ok s l → S.step s l = some s' → kept s') {s s' : σ} (hkept : kept s)
    (hrun : S.exec ok s labels = some s') : kept s' := by
  induction labels generalizing s with
  | nil => exact Option.some.inj hrun ▸ hkept
  | cons l rest ih =>
      unfold System.exec at hrun
      split at hrun
      · next hok =>
          obtain ⟨next, hnext, hrest⟩ := Option.bind_eq_some_iff.mp hrun
          exact ih (fun s l s' hl => hone s l s' (List.mem_cons_of_mem _ hl)) (hone s l next List.mem_cons_self hkept hok hnext)
            hrest
      · cases hrun

/-- **What each step keeps or ends, a run keeps until a step ends it.** -/
theorem Reachable.kept_until [∀ s l, Decidable (ok s l)] {kept ended : σ → Prop}
    (hone : ∀ s l s', Reachable S ok s → kept s → ok s l → S.step s l = some s' → kept s' ∨ ended s') {s s' : σ}
    {labels : List ℓ} (h : Reachable S ok s) (hkept : kept s) (hrun : S.exec ok s labels = some s') :
    kept s' ∨ ∃ before l after mid mid', labels = before ++ l :: after ∧ S.exec ok s before = some mid ∧ kept mid ∧
      S.step mid l = some mid' ∧ ended mid' := by
  induction labels generalizing s with
  | nil => exact .inl (Option.some.inj hrun ▸ hkept)
  | cons l rest ih =>
      unfold System.exec at hrun
      split at hrun
      · rename_i hok
        obtain ⟨next, hnext, hrest⟩ := Option.bind_eq_some_iff.mp hrun
        rcases hone s l next h hkept hok hnext with hkept' | hended
        · rcases ih (.step h hok hnext) hkept' hrest with hdone | ⟨before, l', after, mid, mid', rfl, hbefore, hmid⟩
          · exact .inl hdone
          · refine .inr ⟨l :: before, l', after, mid, mid', rfl, ?_, hmid⟩
            rw [System.exec, if_pos hok, hnext, Option.bind_some, hbefore]
        · exact .inr ⟨[], l, rest, s, next, rfl, rfl, hkept, hnext, hended⟩
      · cases hrun

end System

end VirtInfra.Lib
