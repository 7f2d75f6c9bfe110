import VirtInfra.Lib.Erasure
import Mathlib.Data.List.Nodup
import Mathlib.Data.List.Pairwise
import Mathlib.Data.List.Perm.Basic
import Mathlib.Tactic.Tauto

/-!
# `Paging` — the pages of a sorted query

Each page of a list is a query of its own, `ORDER BY … LIMIT … OFFSET …`, and the database may return rows that tie in
another order each time. So the pages need not be the pages of one list: a row may be on two of them, and another on none.

`partition_iff`: the pages show each row once, whatever the order of ties, exactly if rows that tie are always on one page.
-/

namespace VirtInfra.Lib

/-! ## `ORDER BY` with a second key -/

section ThenBy

variable {α : Type*} {r s : α → α → Prop}

/-- `ORDER BY r, s`. -/
def ThenBy (r s : α → α → Prop) (a b : α) : Prop := r a b ∧ (r b a → s a b)

instance [DecidableRel r] [DecidableRel s] : DecidableRel (ThenBy r s) := fun a b =>
  inferInstanceAs (Decidable (r a b ∧ (r b a → s a b)))

instance [IsTrans α r] [IsTrans α s] : IsTrans α (ThenBy r s) where
  trans a b c hab hbc := by
    refine ⟨IsTrans.trans a b c hab.1 hbc.1, fun hca => ?_⟩
    have hba : r b a := IsTrans.trans b c a hbc.1 hca
    have hcb : r c b := IsTrans.trans c a b hca hab.1
    exact IsTrans.trans a b c (hab.2 hba) (hbc.2 hcb)

instance [Std.Total r] [Std.Total s] : Std.Total (ThenBy r s) where
  total a b := by
    by_cases hab : r a b
    · by_cases hba : r b a
      · rcases Std.Total.total (r := s) a b with h | h
        · exact .inl ⟨hab, fun _ => h⟩
        · exact .inr ⟨hba, fun _ => h⟩
      · exact .inl ⟨hab, fun h => absurd h hba⟩
    · exact .inr ⟨(Std.Total.total a b).resolve_left hab, fun h => absurd h hab⟩

variable {κ : Type*} [LinearOrder κ] {desc : Bool} {key : α → κ}

instance : IsTrans α (Before desc key) := ⟨fun _ _ _ => Before.trans⟩

instance : Std.Total (Before desc key) := ⟨Before.total⟩

/-- **Sorting keeps what was in order among the rows of one key.** -/
theorem orderBy_thenBy {rows : List α} (h : rows.Pairwise s) :
    (orderBy desc key rows).Pairwise (ThenBy (Before desc key) s) := by
  induction rows with
  | nil => exact .nil
  | cons a rest ih =>
      obtain ⟨ha, hrest⟩ := List.pairwise_cons.mp h
      have hfirst : ∀ b ∈ orderBy desc key rest, s a b := fun b hb => ha b (mem_orderBy.mp hb)
      show ((orderBy desc key rest).orderedInsert (Before desc key) a).Pairwise _
      generalize orderBy desc key rest = sorted at hfirst ih
      -- The row goes in front of the first that it may stand before; those passed come strictly before it.
      induction sorted with
      | nil => exact List.pairwise_singleton _ _
      | cons b sorted ihsorted =>
          obtain ⟨hb, hsorted⟩ := List.pairwise_cons.mp (ih hrest)
          by_cases hab : Before desc key a b
          · rw [List.orderedInsert_cons_of_le _ _ hab]
            refine List.pairwise_cons.mpr ⟨fun c hc => ?_, ih hrest⟩
            obtain rfl | hmem := List.mem_cons.mp hc
            · exact ⟨hab, fun _ => hfirst _ List.mem_cons_self⟩
            · exact ⟨hab.trans (hb c hmem).1, fun _ => hfirst _ (List.mem_cons_of_mem _ hmem)⟩
          · rw [List.orderedInsert_of_not_le _ _ hab]
            refine List.pairwise_cons.mpr ⟨fun c hc => ?_, ihsorted (fun c hc => hfirst c (List.mem_cons_of_mem _ hc))
              fun _ => hsorted⟩
            obtain rfl | hmem := (List.mem_orderedInsert _).mp hc
            · exact ⟨(Before.total _ _).resolve_left hab, fun h => absurd h hab⟩
            · exact hb c hmem

end ThenBy

namespace Paging

section Pages

variable {α : Type*} (le : α → α → Prop)

/-- The rows, in an order that the database may return them in. -/
structure Arranged (rows l : List α) : Prop where
  perm : l.Perm rows
  sorted : l.Pairwise le

/-- The database's choice, for one query, among the orders of rows that tie. -/
structure Query where
  order : List α → List α
  arranged : ∀ rows, Arranged le rows (order rows)

/-- `LIMIT limit OFFSET p * limit`. -/
def page (limit p : Nat) (l : List α) : List α := (l.drop (p * limit)).take limit

/-- The first `n` pages one after the other, each of its own list. -/
def pages (limit n : Nat) (l : Nat → List α) : List α := (List.range n).flatMap fun p => page limit p (l p)

variable [DecidableRel le] (rows : List α) (limit : Nat) (a : α)

/-- How many rows come strictly before `a`, in every order. -/
def before : Nat := rows.countP fun b => !decide (le a b)

/-- How many rows do not come strictly after `a`: those before it, and those that tie with it. -/
def upTo : Nat := rows.countP fun b => decide (le b a)

/-- **The rows that tie with `a` fall on one page.** -/
def Together : Prop := before le rows a / limit = (upTo le rows a - 1) / limit

instance : Decidable (Together le rows limit a) :=
  inferInstanceAs (Decidable (before le rows a / limit = (upTo le rows a - 1) / limit))

end Pages

/-! ## Where a row may stand -/

section Places

variable {α : Type*} {le : α → α → Prop} {rows l l' : List α} {limit n p : Nat} {a b : α}

theorem mem_page (hlimit : 0 < limit) : a ∈ page limit p l ↔ ∃ i, l[i]? = some a ∧ i / limit = p := by
  unfold page
  rw [List.mem_iff_getElem?]
  constructor
  · rintro ⟨j, hj⟩
    rw [List.getElem?_take] at hj
    split at hj
    · next hlt =>
        rw [List.getElem?_drop] at hj
        refine ⟨_, hj, ?_⟩
        rw [Nat.add_comm, Nat.add_mul_div_right _ _ hlimit, Nat.div_eq_of_lt hlt, Nat.zero_add]
    · cases hj
  · rintro ⟨i, hi, rfl⟩
    refine ⟨i % limit, ?_⟩
    rw [List.getElem?_take, if_pos (Nat.mod_lt _ hlimit), List.getElem?_drop, Nat.mul_comm, Nat.div_add_mod]
    exact hi

/-- The pages of one list make it up. -/
theorem pages_const : pages limit n (fun _ => l) = l.take (n * limit) := by
  induction n with
  | zero => simp [pages]
  | succ n ih =>
      have hsplit : pages limit (n + 1) (fun _ => l) = pages limit n (fun _ => l) ++ page limit n l := by
        unfold pages
        rw [List.range_succ, List.flatMap_append, List.flatMap_singleton]
      rw [hsplit, ih, Nat.succ_mul, List.take_add]
      rfl

variable [DecidableRel le] [Std.Total le] [IsTrans α le]

theorem le_of_before_lt (rows : List α) {a b : α} (h : before le rows a < before le rows b) : le a b := by
  by_contra hab
  have hba : le b a := (Std.Total.total a b).resolve_left hab
  refine absurd h (Nat.not_lt.mpr (List.countP_mono_left fun c _ hc => ?_))
  rw [Bool.not_eq_true', decide_eq_false_iff_not] at hc ⊢
  exact fun hac => hc (IsTrans.trans _ _ _ hba hac)

omit [IsTrans α le] in
/-- **Where a row may stand**: after the rows strictly before it, and before those strictly after it. -/
theorem Arranged.place {i : Nat} (h : Arranged le rows l) (hi : l[i]? = some a) :
    before le rows a ≤ i ∧ i < upTo le rows a := by
  obtain ⟨hlt, hget⟩ := List.getElem?_eq_some_iff.mp hi
  have hdrop : l.drop i = a :: l.drop (i + 1) := by rw [List.drop_eq_getElem_cons hlt, hget]
  have htake : l.take (i + 1) = l.take i ++ [a] := by rw [List.take_add_one, hi, Option.toList_some]
  constructor
  · -- Nothing from `a` on comes strictly before it.
    have hnone : (l.drop i).countP (fun b => !decide (le a b)) = 0 := by
      rw [List.countP_eq_zero]
      intro b hb
      have hsorted := h.sorted.drop (i := i)
      rw [hdrop] at hb hsorted
      obtain rfl | hmem := List.mem_cons.mp hb
      · simp [(Std.Total.total b b).elim id id]
      · simp [(List.pairwise_cons.mp hsorted).1 b hmem]
    unfold before
    rw [← h.perm.countP_eq, ← List.take_append_drop i l, List.countP_append, hnone]
    exact List.countP_le_length.trans (List.length_take_le ..)
  · have hall : (l.take (i + 1)).countP (fun b => decide (le b a)) = i + 1 := by
      rw [List.countP_eq_length.mpr, List.length_take, Nat.min_eq_left hlt]
      intro b hb
      have hsorted := h.sorted.take (i := i + 1)
      rw [htake] at hb hsorted
      obtain hmem | hmem := List.mem_append.mp hb
      · exact decide_eq_true ((List.pairwise_append.mp hsorted).2.2 b hmem a (List.mem_singleton_self a))
      · obtain rfl := List.mem_singleton.mp hmem
        simp [(Std.Total.total b b).elim id id]
    unfold upTo
    rw [← h.perm.countP_eq, ← List.take_append_drop (i + 1) l, List.countP_append, hall]
    omega

omit [IsTrans α le] in
/-- The page of a row whose ties are together does not depend on the order. -/
theorem Arranged.mem_page (h : Arranged le rows l) (hlimit : 0 < limit) (hrows : ∀ a ∈ rows, Together le rows limit a) :
    a ∈ page limit p l ↔ a ∈ rows ∧ before le rows a / limit = p := by
  rw [Paging.mem_page hlimit]
  have hpage : ∀ {i}, a ∈ rows → l[i]? = some a → i / limit = before le rows a / limit := by
    intro i ha hi
    obtain ⟨hlow, hhigh⟩ := h.place hi
    have hfrom := Nat.div_le_div_right (c := limit) hlow
    have hto := Nat.div_le_div_right (c := limit) (Nat.le_sub_one_of_lt hhigh)
    rw [← hrows a ha] at hto
    exact Nat.le_antisymm hto hfrom
  constructor
  · rintro ⟨i, hi, rfl⟩
    have ha : a ∈ rows := h.perm.mem_iff.mp (List.mem_of_getElem? hi)
    exact ⟨ha, (hpage ha hi).symm⟩
  · rintro ⟨ha, rfl⟩
    obtain ⟨i, hi⟩ := List.mem_iff_getElem?.mp (h.perm.mem_iff.mpr ha)
    exact ⟨i, hi, hpage ha hi⟩

theorem nodup_page (h : l.Nodup) : (page limit p l).Nodup :=
  h.sublist ((List.take_sublist ..).trans (List.drop_sublist ..))

/-- If the pages repeat no row, a row is on one page. -/
theorem page_unique {l : Nat → List α} {q : Nat} (h : (pages limit n l).Nodup) (hp : p ∈ List.range n)
    (hq : q ∈ List.range n) (hap : a ∈ page limit p (l p)) (haq : a ∈ page limit q (l q)) : p = q := by
  obtain ⟨-, hdisjoint⟩ := List.nodup_flatMap.mp h
  have : Std.Symm (Function.onFun List.Disjoint fun p => page limit p (l p)) :=
    ⟨fun _ _ hpq _ hx hy => hpq hy hx⟩
  by_contra hne
  exact hdisjoint.forall hp hq hne hap haq

theorem exists_arranged (le : α → α → Prop) [DecidableRel le] [Std.Total le] [IsTrans α le] (rows : List α) :
    ∃ l, Arranged le rows l :=
  ⟨rows.insertionSort le, List.perm_insertionSort le rows, List.pairwise_insertionSort le rows⟩

/-- **Ties on one page give a partition.** -/
theorem arranged_pages (hlimit : 0 < limit) (hnodup : rows.Nodup) (hn : rows.length ≤ n * limit)
    (hrows : ∀ a ∈ rows, Together le rows limit a) {l : Nat → List α} (hl : ∀ p, Arranged le rows (l p)) :
    Arranged le rows (pages limit n l) where
  perm := by
    obtain ⟨l₀, h₀⟩ := exists_arranged le rows
    have hpages : ∀ p ∈ List.range n, (page limit p (l p)).Perm (page limit p l₀) := by
      intro p _
      apply (List.perm_ext_iff_of_nodup (nodup_page ((hl p).perm.nodup_iff.mpr hnodup))
        (nodup_page (h₀.perm.nodup_iff.mpr hnodup))).mpr
      intro a
      rw [(hl p).mem_page hlimit hrows, h₀.mem_page hlimit hrows]
    calc (pages limit n l).Perm (pages limit n fun _ => l₀) := List.Perm.flatMap_left _ hpages
      _ = l₀.take (n * limit) := pages_const
      _ = l₀ := List.take_of_length_le (h₀.perm.length_eq ▸ hn)
      List.Perm _ rows := h₀.perm
  sorted := by
    refine List.pairwise_flatMap.mpr ⟨fun p _ => ((hl p).sorted.drop).take, ?_⟩
    refine List.pairwise_lt_range.imp ?_
    intro p q hlt a ha b hb
    obtain ⟨-, hp⟩ := ((hl p).mem_page hlimit hrows).mp ha
    obtain ⟨-, hq⟩ := ((hl q).mem_page hlimit hrows).mp hb
    apply le_of_before_lt rows
    by_contra hnot
    have hle := Nat.div_le_div_right (c := limit) (Nat.le_of_not_lt hnot)
    omega

omit [IsTrans α le] in
/-- A row that ties with no other is on a page with its ties. -/
theorem together_of_no_tie (hnodup : rows.Nodup) (ha : a ∈ rows) (h : ∀ b ∈ rows, le a b → le b a → b = a) :
    Together le rows limit a := by
  classical
  have hsplit : upTo le rows a = before le rows a + rows.count a := by
    unfold upTo before List.count
    rw [List.countP_eq_countP_filter_add rows _ (fun b => !decide (le a b)), List.countP_filter, List.countP_filter]
    congr 1
    · -- What comes strictly before `a` is not after it.
      apply List.countP_congr
      intro b _
      have htotal := Std.Total.total (r := le) a b
      by_cases hab : le a b
      · simp [hab]
      · simp [hab, htotal.resolve_left hab]
    · apply List.countP_congr
      intro b hb
      by_cases heq : b = a
      · subst heq
        simp [(Std.Total.total (r := le) b b).elim id id]
      · have hno : ¬ (le a b ∧ le b a) := fun hties => heq (h b hb hties.1 hties.2)
        simp only [Bool.not_not, Bool.and_eq_true, decide_eq_true_eq, beq_iff_eq, heq, iff_false]
        tauto
  unfold Together
  rw [hsplit, List.count_eq_one_of_mem hnodup ha, Nat.add_sub_cancel]

/-! ## A tie over the end of a page -/

/-- A row can come first among those that tie with it. -/
theorem exists_first (ha : a ∈ rows) : ∃ l, Arranged le rows l ∧ l[before le rows a]? = some a := by
  classical
  obtain ⟨l₀, h₀⟩ := exists_arranged le rows
  have hmem : a ∈ l₀.filter fun b => decide (le a b) :=
    List.mem_filter.mpr ⟨h₀.perm.mem_iff.mpr ha, decide_eq_true ((Std.Total.total a a).elim id id)⟩
  have hafter : ∀ b ∈ a :: (l₀.filter fun b => decide (le a b)).erase a, le a b := by
    intro b hb
    have hb' : b ∈ l₀.filter fun b => decide (le a b) := (List.perm_cons_erase hmem).mem_iff.mpr hb
    exact of_decide_eq_true (List.mem_filter.mp hb').2
  refine ⟨(l₀.filter fun b => !decide (le a b)) ++ a :: (l₀.filter fun b => decide (le a b)).erase a, ⟨?_, ?_⟩, ?_⟩
  · have herase := (List.perm_cons_erase hmem).symm.append_left (l₀.filter fun b => !decide (le a b))
    have hparts := List.filter_append_perm (fun b => decide (le a b)) l₀
    exact herase.trans ((List.perm_append_comm.trans hparts).trans h₀.perm)
  · refine List.pairwise_append.mpr ⟨h₀.sorted.filter _, ?_, ?_⟩
    · refine List.pairwise_cons.mpr ⟨fun b hb => hafter b (List.mem_cons_of_mem _ hb), ?_⟩
      exact (h₀.sorted.filter _).sublist List.erase_sublist
    · intro b hb c hc
      have hab : ¬ le a b := by simpa using (List.mem_filter.mp hb).2
      exact IsTrans.trans _ _ _ ((Std.Total.total a b).resolve_left hab) (hafter c hc)
  · have hlength : before le rows a = (l₀.filter fun b => !decide (le a b)).length := by
      unfold before
      rw [← h₀.perm.countP_eq, List.countP_eq_length_filter]
    rw [hlength, List.getElem?_append_right (Nat.le_refl _), Nat.sub_self]
    rfl

/-- And it can come last. -/
theorem exists_last (ha : a ∈ rows) : ∃ l, Arranged le rows l ∧ l[upTo le rows a - 1]? = some a := by
  classical
  obtain ⟨l₀, h₀⟩ := exists_arranged le rows
  have hmem : a ∈ l₀.filter fun b => decide (le b a) :=
    List.mem_filter.mpr ⟨h₀.perm.mem_iff.mpr ha, decide_eq_true ((Std.Total.total a a).elim id id)⟩
  have hbefore : ∀ b ∈ (l₀.filter fun b => decide (le b a)).erase a, le b a := by
    intro b hb
    exact of_decide_eq_true (List.mem_filter.mp (List.mem_of_mem_erase hb)).2
  refine ⟨(l₀.filter fun b => decide (le b a)).erase a ++ a :: (l₀.filter fun b => !decide (le b a)), ⟨?_, ?_⟩, ?_⟩
  · have herase : ((l₀.filter fun b => decide (le b a)).erase a ++ a :: (l₀.filter fun b => !decide (le b a))).Perm
        ((l₀.filter fun b => decide (le b a)) ++ l₀.filter fun b => !decide (le b a)) :=
      List.perm_middle.trans ((List.perm_cons_erase hmem).symm.append_right _)
    exact herase.trans ((List.filter_append_perm (fun b => decide (le b a)) l₀).trans h₀.perm)
  · have hafter : ∀ c ∈ l₀.filter fun b => !decide (le b a), le a c := by
      intro c hc
      have hca : ¬ le c a := by simpa using (List.mem_filter.mp hc).2
      exact (Std.Total.total c a).resolve_left hca
    refine List.pairwise_append.mpr ⟨(h₀.sorted.filter _).sublist List.erase_sublist,
      List.pairwise_cons.mpr ⟨hafter, h₀.sorted.filter _⟩, ?_⟩
    intro b hb c hc
    obtain rfl | hmem := List.mem_cons.mp hc
    · exact hbefore b hb
    · exact IsTrans.trans _ _ _ (hbefore b hb) (hafter c hmem)
  · have hlength : upTo le rows a - 1 = ((l₀.filter fun b => decide (le b a)).erase a).length := by
      unfold upTo
      rw [← h₀.perm.countP_eq, List.countP_eq_length_filter, List.length_erase_of_mem hmem]
    rw [hlength, List.getElem?_append_right (Nat.le_refl _), Nat.sub_self]
    rfl

/-- **The pages are a partition of the rows, in order, whatever the order of ties, exactly if rows that tie are on one
    page.** -/
theorem partition_iff (hlimit : 0 < limit) (hnodup : rows.Nodup) (hn : rows.length ≤ n * limit) :
    (∀ l : Nat → List α, (∀ p, Arranged le rows (l p)) → Arranged le rows (pages limit n l)) ↔
      ∀ a ∈ rows, Together le rows limit a := by
  constructor
  · intro h a ha
    by_contra hsplit
    obtain ⟨first, hfirst, hplace⟩ : ∃ l, Arranged le rows l ∧ l[before le rows a]? = some a := exists_first ha
    obtain ⟨last, hlast, hplace'⟩ : ∃ l, Arranged le rows l ∧ l[upTo le rows a - 1]? = some a := exists_last ha
    -- The page where `a` may come first takes that order, and all the others the order where it comes last.
    have hl : ∀ p, Arranged le rows (if p = before le rows a / limit then first else last) := by
      intro p
      split
      · exact hfirst
      · exact hlast
    have hpage : ∀ {l : List α} {i : Nat}, Arranged le rows l → l[i]? = some a → i / limit ∈ List.range n := by
      intro l i harranged hi
      have hlt : i < rows.length := harranged.perm.length_eq ▸ (List.getElem?_eq_some_iff.mp hi).1
      exact List.mem_range.mpr (Nat.div_lt_of_lt_mul (by
        rw [Nat.mul_comm]
        omega))
    have honce := (h _ hl).perm.nodup_iff.mpr hnodup
    refine hsplit (page_unique (a := a) honce (hpage hfirst hplace) (hpage hlast hplace') ?_ ?_)
    · exact (Paging.mem_page hlimit).mpr ⟨_, by rw [if_pos rfl]; exact hplace, rfl⟩
    · exact (Paging.mem_page hlimit).mpr ⟨_, by rw [if_neg (Ne.symm hsplit)]; exact hplace', rfl⟩
  · exact fun hrows l hl => arranged_pages hlimit hnodup hn hrows hl

end Places

end Paging

end VirtInfra.Lib
