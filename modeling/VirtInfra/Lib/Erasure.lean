import Mathlib.Data.List.Sort
import Mathlib.Order.Lattice

/-!
# `Erasure` — readers that should see only part of a state

Some rows of a state are hidden from its readers, and `erase` takes them out. A reader shows nothing of them on a state
when it answers as on the erased one. Readers that filter before they choose do so always; a reader that chooses first, by
sorting, cutting and taking the newest, does so only while no hidden row gets chosen.

`agree_iff` turns a condition for the erased state into one for two states that differ in hidden rows. The other sections
say what filtering does to sorted rows, to the first rows of a list and to the newest time.
-/

namespace VirtInfra.Lib

/-! ## Two states and one reader -/

section Erase

variable {σ ρ : Type*} {erase : σ → σ}

/-- The two states differ in hidden rows only. -/
def SameShown (erase : σ → σ) (s s' : σ) : Prop := erase s = erase s'

/-- **From one state to two.** If `Clear` says when a reader answers as on the erased state, then it says when a reader
    answers alike on all the clear states that show the same. -/
theorem agree_iff (hidem : ∀ s, erase (erase s) = erase s) {f : σ → ρ} {Clear : σ → Prop}
    (hclear : ∀ s, f s = f (erase s) ↔ Clear s) (s : σ) :
    (∀ s', SameShown erase s s' → Clear s' → f s = f s') ↔ Clear s := by
  constructor
  · intro h
    have herased : Clear (erase s) := (hclear _).mp (by rw [hidem])
    exact (hclear s).mp (h (erase s) (hidem s).symm herased)
  · intro hs s' hsame hs'
    rw [(hclear s).mpr hs, (hclear s').mpr hs', show erase s = erase s' from hsame]

end Erase

/-! ## Sorted rows -/

section Sorting

variable {α κ : Type*} [LinearOrder κ] (desc : Bool) (key : α → κ) (p : α → Bool)

/-- `a` may stand before `b`. -/
def Before (a b : α) : Prop := if desc then key b ≤ key a else key a ≤ key b

instance : DecidableRel (Before desc key) := fun a b =>
  inferInstanceAs (Decidable (if desc then key b ≤ key a else key a ≤ key b))

/-- **`ORDER BY key`**, and `sort(key=…, reverse=desc)`: rows with one key keep their order. -/
def orderBy (rows : List α) : List α := rows.insertionSort (Before desc key)

variable {desc key p}

theorem Before.trans {a b c : α} (hab : Before desc key a b) (hbc : Before desc key b c) : Before desc key a c := by
  unfold Before at *
  split_ifs at * with hdesc
  · exact hbc.trans hab
  · exact hab.trans hbc

theorem Before.total (a b : α) : Before desc key a b ∨ Before desc key b a := by
  unfold Before
  split_ifs with hdesc
  · exact le_total _ _
  · exact le_total _ _

theorem orderBy_pairwise (rows : List α) : (orderBy desc key rows).Pairwise (Before desc key) := by
  have : Std.Total (Before desc key) := ⟨Before.total⟩
  have : IsTrans α (Before desc key) := ⟨fun _ _ _ => Before.trans⟩
  exact List.pairwise_insertionSort _ rows

@[simp] theorem mem_orderBy {rows : List α} {a : α} : a ∈ orderBy desc key rows ↔ a ∈ rows :=
  List.mem_insertionSort _

theorem orderedInsert_of_forall {rows : List α} {a : α} (h : ∀ b ∈ rows, Before desc key a b) :
    rows.orderedInsert (Before desc key) a = a :: rows := by
  cases rows with
  | nil => rfl
  | cons b rest => exact List.orderedInsert_cons_of_le _ rest (h b List.mem_cons_self)

/-- Inserting into sorted rows and filtering come to filtering first. -/
theorem filter_orderedInsert {rows : List α} (hrows : rows.Pairwise (Before desc key)) (a : α) :
    (rows.orderedInsert (Before desc key) a).filter p =
      if p a then (rows.filter p).orderedInsert (Before desc key) a else rows.filter p := by
  induction rows with
  | nil =>
      by_cases ha : p a
      · simp [ha]
      · simp [ha]
  | cons b rest ih =>
      obtain ⟨hb, hrest⟩ := List.pairwise_cons.mp hrows
      by_cases hab : Before desc key a b
      · -- The row goes to the front, where it stays in front of all that is kept.
        rw [List.orderedInsert_cons_of_le _ rest hab]
        have hfront : ∀ c ∈ (b :: rest).filter p, Before desc key a c := by
          intro c hc
          rcases List.mem_cons.mp (List.mem_filter.mp hc).1 with rfl | hmem
          · exact hab
          · exact hab.trans (hb c hmem)
        by_cases ha : p a
        · rw [if_pos ha, orderedInsert_of_forall hfront, List.filter_cons_of_pos ha]
        · rw [if_neg ha, List.filter_cons_of_neg ha]
      · rw [List.orderedInsert_of_not_le _ rest hab]
        by_cases hpb : p b
        · rw [List.filter_cons_of_pos hpb, List.filter_cons_of_pos hpb, ih hrest]
          split
          · rw [List.orderedInsert_of_not_le _ _ hab]
          · rfl
        · rw [List.filter_cons_of_neg hpb, List.filter_cons_of_neg hpb, ih hrest]

/-- **Filtering and sorting commute.** -/
theorem filter_orderBy (rows : List α) : (orderBy desc key rows).filter p = orderBy desc key (rows.filter p) := by
  induction rows with
  | nil => rfl
  | cons a rest ih =>
      have hinsert : ∀ (b : α) (rows : List α),
          orderBy desc key (b :: rows) = (orderBy desc key rows).orderedInsert (Before desc key) b := fun _ _ => rfl
      rw [hinsert, filter_orderedInsert (orderBy_pairwise rest), ih]
      split
      · next ha => rw [List.filter_cons_of_pos ha, hinsert]
      · next ha => rw [List.filter_cons_of_neg ha]

/-- A first row that may stand before the others stays first. -/
theorem orderBy_cons {a : α} {rest : List α} (h : ∀ b ∈ rest, Before desc key a b) :
    orderBy desc key (a :: rest) = a :: orderBy desc key rest :=
  List.insertionSort_cons_of_forall_rel _ h

end Sorting

/-! ## Rows made of rows -/

/-- Rows made one by one from named rows keep the names. -/
theorem filterMap_filter_fst {κ ρ β : Type*} {f : κ × ρ → Option β} (name : β → κ)
    (hname : ∀ row b, f row = some b → name b = row.1) (p : κ → Bool) (rows : List (κ × ρ)) :
    (rows.filter fun row => p row.1).filterMap f = (rows.filterMap f).filter fun b => p (name b) := by
  induction rows with
  | nil => rfl
  | cons row rest ih =>
      cases hf : f row with
      | none =>
          rw [List.filterMap_cons_none hf, ← ih, List.filter_cons]
          split
          · rw [List.filterMap_cons_none hf]
          · rfl
      | some b =>
          rw [List.filterMap_cons_some hf, List.filter_cons, List.filter_cons, hname row b hf, ← ih]
          split
          · rw [List.filterMap_cons_some hf]
          · rfl

theorem flatMap_filter_fst {κ ρ β : Type*} {f : κ × ρ → List β} (name : β → κ)
    (hname : ∀ row, ∀ b ∈ f row, name b = row.1) (p : κ → Bool) (rows : List (κ × ρ)) :
    (rows.filter fun row => p row.1).flatMap f = (rows.flatMap f).filter fun b => p (name b) := by
  induction rows with
  | nil => rfl
  | cons row rest ih =>
      rw [List.flatMap_cons, List.filter_append, ← ih, List.filter_cons]
      split
      · next hp =>
          have hall : (f row).filter (fun b => p (name b)) = f row :=
            List.filter_eq_self.mpr fun b hb => by rw [hname row b hb]; exact hp
          rw [List.flatMap_cons, hall]
      · next hp =>
          have hnone : (f row).filter (fun b => p (name b)) = [] :=
            List.filter_eq_nil_iff.mpr fun b hb => by rw [hname row b hb]; exact hp
          rw [hnone, List.nil_append]

/-- Rows that nothing is made of may go first. -/
theorem filterMap_filter_of_none {α β : Type*} {f : α → Option β} {p : α → Bool} {rows : List α}
    (h : ∀ a ∈ rows, p a = false → f a = none) : (rows.filter p).filterMap f = rows.filterMap f := by
  induction rows with
  | nil => rfl
  | cons a rest ih =>
      have hrest := ih fun b hb => h b (List.mem_cons_of_mem _ hb)
      cases ha : p a with
      | true => rw [List.filter_cons_of_pos ha, List.filterMap_cons, List.filterMap_cons, hrest]
      | false =>
          rw [List.filter_cons_of_neg (by simp [ha]), hrest, List.filterMap_cons_none (h a List.mem_cons_self ha)]

theorem flatMap_filter_of_nil {α β : Type*} {f : α → List β} {p : α → Bool} {rows : List α}
    (h : ∀ a ∈ rows, p a = false → f a = []) : (rows.filter p).flatMap f = rows.flatMap f := by
  induction rows with
  | nil => rfl
  | cons a rest ih =>
      have hrest := ih fun b hb => h b (List.mem_cons_of_mem _ hb)
      cases ha : p a with
      | true => rw [List.filter_cons_of_pos ha, List.flatMap_cons, List.flatMap_cons, hrest]
      | false =>
          rw [List.filter_cons_of_neg (by simp [ha]), hrest, List.flatMap_cons, h a List.mem_cons_self ha, List.nil_append]

/-! ## The first rows -/

section Take

variable {α : Type*} {p : α → Bool}

/-- **When the first rows are all kept, they are the first rows of what is kept.** -/
theorem take_filter_of_forall {n : Nat} {rows : List α} (h : ∀ a ∈ rows.take n, p a) :
    (rows.filter p).take n = rows.take n := by
  induction rows generalizing n with
  | nil => rfl
  | cons a rest ih =>
      cases n with
      | zero => simp
      | succ n =>
          rw [List.take_succ_cons] at h ⊢
          rw [List.filter_cons_of_pos (h a List.mem_cons_self), List.take_succ_cons,
            ih fun b hb => h b (List.mem_cons_of_mem _ hb)]

end Take

/-! ## The newest time -/

section Newest

variable {α : Type*} (d : Int) (time : α → Int)

/-- `max([time(row) for row in rows] or [d])`. -/
def newestOr (rows : List α) : Int := (rows.map time).max?.getD d

/-- **No row that is left out is newer than all the rows kept**; with no row kept, the newest is at `d`. -/
def NoneNewer (p : α → Bool) (rows : List α) : Prop :=
  (∀ row ∈ rows, p row = false → ∃ kept ∈ rows, p kept = true ∧ time row ≤ time kept) ∨
    (∀ row ∈ rows, p row = false ∧ time row ≤ d) ∧ ∃ row ∈ rows, time row = d

variable {d time}

theorem newestOr_eq_iff {rows : List α} {t : Int} :
    newestOr d time rows = t ↔
      rows = [] ∧ t = d ∨ (∃ row ∈ rows, time row = t) ∧ ∀ row ∈ rows, time row ≤ t := by
  unfold newestOr
  cases hmax : (rows.map time).max? with
  | none =>
      have hnil : rows = [] := by simpa using hmax
      subst hnil
      simp [eq_comm]
  | some m =>
      obtain ⟨hmem, hle⟩ := List.max?_eq_some_iff.mp hmax
      simp only [List.mem_map, forall_exists_index, and_imp, forall_apply_eq_imp_iff₂] at hmem hle
      obtain ⟨top, htop, rfl⟩ := hmem
      have hne : rows ≠ [] := List.ne_nil_of_mem htop
      simp only [Option.getD_some, hne, false_and, false_or]
      constructor
      · rintro rfl
        exact ⟨⟨top, htop, rfl⟩, hle⟩
      · rintro ⟨⟨row, hrow, rfl⟩, hall⟩
        exact le_antisymm (hall top htop) (hle row hrow)

/-- **The newest time shows nothing of the rows left out** exactly when none of them is newer. -/
theorem newestOr_filter_iff {p : α → Bool} {rows : List α} :
    newestOr d time rows = newestOr d time (rows.filter p) ↔ NoneNewer d time p rows := by
  rw [newestOr_eq_iff]
  cases hkept : rows.filter p with
  | nil =>
      have hout : ∀ row ∈ rows, p row = false := by
        intro row hrow
        simpa using (List.filter_eq_nil_iff.mp hkept) row hrow
      have hd : newestOr d time ([] : List α) = d := rfl
      rw [hd]
      constructor
      · rintro (⟨rfl, -⟩ | ⟨htop, hle⟩)
        · exact Or.inl fun row hrow => absurd hrow List.not_mem_nil
        · exact Or.inr ⟨fun row hrow => ⟨hout row hrow, hle row hrow⟩, htop⟩
      · rintro (hall | ⟨hall, htop⟩)
        · left
          refine ⟨List.eq_nil_iff_forall_not_mem.mpr fun row hrow => ?_, rfl⟩
          obtain ⟨kept, hmem, hp, -⟩ := hall row hrow (hout row hrow)
          rw [hout kept hmem] at hp
          cases hp
        · exact Or.inr ⟨htop, fun row hrow => (hall row hrow).2⟩
  | cons first rest =>
      have hnewest : newestOr d time (first :: rest) = newestOr d time (first :: rest) := rfl
      obtain ⟨⟨top, htop, htime⟩, hle⟩ := (newestOr_eq_iff.mp hnewest).resolve_left fun h => by cases h.1
      have hmem : ∀ row, row ∈ first :: rest ↔ row ∈ rows ∧ p row = true := by
        intro row
        rw [← hkept, List.mem_filter]
      have htop' := (hmem top).mp htop
      constructor
      · rintro (⟨rfl, -⟩ | ⟨-, hall⟩)
        · cases htop'.1
        · left
          intro row hrow _
          exact ⟨top, htop'.1, htop'.2, (hall row hrow).trans htime.ge⟩
      · rintro (hall | ⟨hall, -⟩)
        · right
          refine ⟨⟨top, htop'.1, htime⟩, fun row hrow => ?_⟩
          cases hp : p row with
          | true => exact hle row ((hmem row).mpr ⟨hrow, hp⟩)
          | false =>
              obtain ⟨kept, hk, hpk, hlek⟩ := hall row hrow hp
              exact hlek.trans (hle kept ((hmem kept).mpr ⟨hk, hpk⟩))
        · have hp := (hall top htop'.1).1
          rw [htop'.2] at hp
          cases hp

end Newest

end VirtInfra.Lib
