import VirtInfra.Lib.Lookup

/-!
# `PerKey` — loops whose every step touches one key

A state is seen through one view per key. A step for a key changes no other key's view, and what it does to its own
depends on that view alone; then a loop over distinct keys does to each view what its own step does, in any order and
whatever runs in between.
-/

namespace VirtInfra.Lib

/-- **Each step touches the view of its own key, and reads no other.** -/
structure PerKey {ι α σ ν : Type*} (key : α → ι) (view : ι → σ → ν) (op : σ → α → σ) : Prop where
  other : ∀ a j s, j ≠ key a → view j (op s a) = view j s
  own : ∀ a s s', view (key a) s = view (key a) s' → view (key a) (op s a) = view (key a) (op s' a)

namespace PerKey

variable {ι α σ ν : Type*} {key : α → ι} {view : ι → σ → ν} {op : σ → α → σ} {l l' : List α} {a : α} {j : ι} {s s' : σ}

/-- A loop leaves the keys it does not name alone. -/
theorem foldl_other (h : PerKey key view op) (hj : ∀ a ∈ l, j ≠ key a) : view j (l.foldl op s) = view j s := by
  induction l generalizing s with
  | nil => rfl
  | cons a rest ih =>
      rw [List.foldl_cons, ih fun b hb => hj b (List.mem_cons_of_mem _ hb)]
      exact h.other a j s (hj a List.mem_cons_self)

/-- **A loop over distinct keys does to each view what its own step does.** -/
theorem foldl_own (h : PerKey key view op) (hnodup : (l.map key).Nodup) (ha : a ∈ l) :
    view (key a) (l.foldl op s) = view (key a) (op s a) := by
  induction l generalizing s with
  | nil => cases ha
  | cons b rest ih =>
      rw [List.map_cons, List.nodup_cons] at hnodup
      rw [List.foldl_cons]
      rcases List.mem_cons.mp ha with rfl | hrest
      · -- Its own step comes first, and no later one has its key.
        apply h.foldl_other
        intro c hc hkey
        exact hnodup.1 (hkey ▸ List.mem_map_of_mem hc)
      · rw [ih hnodup.2 hrest]
        have hne : key a ≠ key b := fun hkey => hnodup.1 (hkey ▸ List.mem_map_of_mem hrest)
        exact h.own a _ _ (h.other b (key a) s hne)

end PerKey

/-- **A loop whose steps never fail is a fold**, if what they need of the state stays. -/
theorem foldlM_eq_foldl {α σ : Type*} {P : σ → Prop} {f : σ → α → Option σ} {g : σ → α → σ}
    (hstep : ∀ s a, P s → f s a = some (g s a) ∧ P (g s a)) (l : List α) {s : σ} (hs : P s) :
    l.foldlM f s = some (l.foldl g s) ∧ P (l.foldl g s) := by
  induction l generalizing s with
  | nil => exact ⟨rfl, hs⟩
  | cons a rest ih =>
      obtain ⟨ha, hnext⟩ := hstep s a hs
      rw [List.foldlM_cons, ha]
      exact ih hnext

/-- **What every step of a loop keeps, the loop keeps.** -/
theorem foldlM_invariant {α σ : Type*} {P : σ → Prop} {f : σ → α → Option σ}
    (hstep : ∀ s a s', P s → f s a = some s' → P s') {l : List α} {s s' : σ} (hs : P s) (hrun : l.foldlM f s = some s') :
    P s' := by
  induction l generalizing s with
  | nil => exact Option.some.inj hrun ▸ hs
  | cons a rest ih =>
      rw [List.foldlM_cons] at hrun
      obtain ⟨mid, hmid, hrest⟩ := Option.bind_eq_some_iff.mp hrun
      exact ih (hstep s a mid hs hmid) hrest

/-! ## Batches of upserts -/

namespace KeyedTable

variable {κ ρ α : Type*} [DecidableEq κ]

theorem perKey_upsert (key : α → κ) (row : α → ρ) (merge : ρ → ρ → ρ) :
    PerKey key (fun k (t : KeyedTable κ ρ) => t.get? k) fun t a => t.upsert (key a) (row a) merge where
  other _ _ t hne := get?_upsert_of_ne t _ merge hne
  own a t t' heq := by
    show (t.upsert _ _ _).get? _ = (t'.upsert _ _ _).get? _
    rw [get?_upsert_self, get?_upsert_self, show t.get? (key a) = t'.get? (key a) from heq]

/-- **A batch of upserts under distinct keys upserts each of its rows.** -/
theorem get?_foldl_upsert_self {l : List α} {key : α → κ} {a : α} (row : α → ρ) (merge : ρ → ρ → ρ)
    (t : KeyedTable κ ρ) (hnodup : (l.map key).Nodup) (ha : a ∈ l) :
    (l.foldl (fun t a => t.upsert (key a) (row a) merge) t).get? (key a) =
      some ((t.get? (key a)).elim (row a) (merge · (row a))) := by
  rw [← get?_upsert_self]
  exact (perKey_upsert key row merge).foldl_own hnodup ha

end KeyedTable

end VirtInfra.Lib
