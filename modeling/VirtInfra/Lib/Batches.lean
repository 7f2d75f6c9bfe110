import VirtInfra.Lib.Lookup

/-!
# `Batches` — deleting by address, so many rows at a time

A large delete runs as a loop: each round reads the addresses of at most `n` of the matching rows, deletes what is at these
addresses and commits, and a round that deletes fewer than `n` is the last. Which rows a round picks is left to the
database; here it is the first ones, and nothing depends on it: the loop deletes the rows that share an address with a
matching one (`deleteInBatches_eq`). Where an address names one row, these are the matching rows. In a table that is kept
in parts, each with addresses of its own, rows of other parts go with them.
-/

namespace VirtInfra.Lib

/-- The address of a stored row in its part of the table: a page, and an item of the page. -/
abbrev Ctid := Nat × Nat

variable {α β : Type*} [DecidableEq β]

/-- A row with `p` is at the address of `a`. -/
def sharesAddress (addr : α → β) (p : α → Bool) (rows : List α) (a : α) : Bool :=
  rows.any fun b => p b && decide (addr b = addr a)

/-- **One round**: what is at the addresses of the first `n` rows with `p` goes. -/
def deleteRound (addr : α → β) (p : α → Bool) (n : Nat) (rows : List α) : List α :=
  rows.filter fun a => addr a ∉ ((rows.filter p).take n).map addr

/-- **The loop**: rounds of `batch` rows, until one deletes fewer. -/
def deleteInBatches (addr : α → β) (p : α → Bool) (batch : { n : Nat // 0 < n }) (rows : List α) : List α :=
  if rows.length - (deleteRound addr p batch rows).length < batch then deleteRound addr p batch rows
  else deleteInBatches addr p batch (deleteRound addr p batch rows)
termination_by rows.length
decreasing_by
  have := batch.property
  omega

section Addresses

variable {addr : α → β} {p : α → Bool} {rows : List α}

theorem sharesAddress_iff {a : α} : sharesAddress addr p rows a = true ↔ ∃ b ∈ rows, p b = true ∧ addr b = addr a := by
  unfold sharesAddress
  simp only [List.any_eq_true, Bool.and_eq_true, decide_eq_true_eq]

theorem sharesAddress_self {a : α} (ha : a ∈ rows) (hp : p a = true) : sharesAddress addr p rows a = true :=
  sharesAddress_iff.mpr ⟨a, ha, hp, rfl⟩

/-- What a round leaves shares an address with what it did before. -/
theorem sharesAddress_deleteRound {n : Nat} {a : α} (ha : a ∈ deleteRound addr p n rows) :
    sharesAddress addr p (deleteRound addr p n rows) a = sharesAddress addr p rows a := by
  rw [Bool.eq_iff_iff, sharesAddress_iff, sharesAddress_iff]
  constructor
  · rintro ⟨b, hb, hp, haddr⟩
    exact ⟨b, (List.mem_filter.mp hb).1, hp, haddr⟩
  · rintro ⟨b, hb, hp, haddr⟩
    -- a row at the address of one that is left is left itself
    have hleft := (List.mem_filter.mp ha).2
    rw [← haddr] at hleft
    exact ⟨b, List.mem_filter.mpr ⟨hb, hleft⟩, hp, haddr⟩

/-- **A round deletes no row that is at no such address.** -/
theorem filter_deleteRound (addr : α → β) (p : α → Bool) (n : Nat) (rows : List α) :
    (deleteRound addr p n rows).filter (fun a => !sharesAddress addr p rows a) =
      rows.filter fun a => !sharesAddress addr p rows a := by
  unfold deleteRound
  rw [List.filter_filter]
  apply List.filter_congr
  intro a _
  cases hshares : sharesAddress addr p rows a with
  | true => rfl
  | false =>
      rw [Bool.not_false, Bool.true_and, decide_eq_true_eq]
      intro hmem
      obtain ⟨b, hb, haddr⟩ := List.mem_map.mp hmem
      obtain ⟨hin, hp⟩ := List.mem_filter.mp (List.mem_of_mem_take hb)
      rw [sharesAddress_iff.mpr ⟨b, hin, hp, haddr⟩] at hshares
      cases hshares

/-- A round deletes at least as many rows as it picks. -/
theorem length_deleteRound_le (addr : α → β) (p : α → Bool) (n : Nat) (rows : List α) :
    (deleteRound addr p n rows).length + min n (rows.countP p) ≤ rows.length := by
  have hpicked : ((rows.filter p).take n).Sublist
      (rows.filter fun a => addr a ∈ ((rows.filter p).take n).map addr) := by
    have hall : ((rows.filter p).take n).filter (fun a => addr a ∈ ((rows.filter p).take n).map addr) =
        (rows.filter p).take n := by
      apply List.filter_eq_self.mpr
      intro a ha
      exact decide_eq_true (List.mem_map_of_mem ha)
    have hsub := ((List.take_sublist n (rows.filter p)).trans List.filter_sublist).filter
      fun a => decide (addr a ∈ ((rows.filter p).take n).map addr)
    rwa [hall] at hsub
  have hle := hpicked.length_le
  -- what a round takes and what it leaves make up the table
  have hsplit := List.length_eq_countP_add_countP (fun a => decide (addr a ∈ ((rows.filter p).take n).map addr)) (l := rows)
  rw [List.length_take, ← List.countP_eq_length_filter, ← List.countP_eq_length_filter] at hle
  unfold deleteRound
  rw [← List.countP_eq_length_filter]
  simp only [decide_eq_true_eq] at hsplit
  omega

/-- **The loop deletes the rows at the addresses of rows with `p`**, and no others. -/
theorem deleteInBatches_eq (addr : α → β) (p : α → Bool) (batch : { n : Nat // 0 < n }) (rows : List α) :
    deleteInBatches addr p batch rows = rows.filter fun a => !sharesAddress addr p rows a := by
  induction rows using deleteInBatches.induct addr p batch with
  | case1 rows hshort =>
      -- a short round picks every row with `p`
      unfold deleteInBatches
      rw [if_pos hshort]
      have hpicked := length_deleteRound_le addr p batch rows
      have hall : (rows.filter p).take batch = rows.filter p := by
        apply List.take_of_length_le
        rw [← List.countP_eq_length_filter]
        omega
      unfold deleteRound
      rw [hall]
      apply List.filter_congr
      intro a _
      rw [Bool.eq_iff_iff, decide_eq_true_eq, Bool.not_eq_true', ← Bool.not_eq_true, sharesAddress_iff, not_iff_not,
        List.mem_map]
      simp only [List.mem_filter, and_assoc]
  | case2 rows hlong ih =>
      unfold deleteInBatches
      rw [if_neg hlong, ih, ← filter_deleteRound addr p batch rows]
      apply List.filter_congr
      intro a ha
      rw [sharesAddress_deleteRound ha]

/-- **The rows with `p` are apart**: no other row is at one of their addresses. -/
def Apart (addr : α → β) (p : α → Bool) (rows : List α) : Prop :=
  ∀ a ∈ rows, sharesAddress addr p rows a = true → p a = true

theorem Apart.shares_eq (h : Apart addr p rows) {a : α} (ha : a ∈ rows) : sharesAddress addr p rows a = p a := by
  rw [Bool.eq_iff_iff]
  exact ⟨h a ha, sharesAddress_self ha⟩

end Addresses

/-- What a filter takes away is what it does not keep. -/
theorem length_sub_length_filter_not (p : α → Bool) (l : List α) :
    l.length - (l.filter fun a => !p a).length = l.countP p := by
  rw [← List.countP_eq_length_filter]
  have hsplit := List.length_eq_countP_add_countP p (l := l)
  simp only [decide_not, Bool.decide_eq_true] at hsplit
  omega

/-- Two predicates, of which one implies the other, count alike exactly when they agree. -/
theorem countP_eq_countP_iff {p q : α → Bool} {l : List α} (h : ∀ a ∈ l, p a = true → q a = true) :
    l.countP p = l.countP q ↔ ∀ a ∈ l, q a = true → p a = true := by
  constructor
  · intro heq
    -- the rows with `p` are a sublist of those with `q`, and as many
    have hnested : l.filter p = (l.filter q).filter p := by
      rw [List.filter_filter]
      apply List.filter_congr
      intro a ha
      cases hp : p a with
      | false => rfl
      | true => rw [h a ha hp, Bool.and_self]
    have hsub : (l.filter p).Sublist (l.filter q) := hnested ▸ List.filter_sublist
    have hsame := hsub.eq_of_length (by rw [← List.countP_eq_length_filter, ← List.countP_eq_length_filter, heq])
    intro a ha hq
    have hmem : a ∈ l.filter p := hsame ▸ List.mem_filter.mpr ⟨ha, hq⟩
    exact (List.mem_filter.mp hmem).2
  · intro hback
    apply List.countP_congr
    intro a ha
    exact ⟨h a ha, hback a ha⟩

/-! ## Tables whose rows have a position -/

/-- The loop on a table, with an address for every position. -/
def deleteStored (addr : Nat → β) (p : α → Bool) (batch : { n : Nat // 0 < n }) (rows : List α) : List α :=
  (deleteInBatches (fun row : α × Nat => addr row.2) (fun row => p row.1) batch rows.zipIdx).map Prod.fst

/-- A row with `p` is at the address of the position `i`. -/
def sharesAddressAt (addr : Nat → β) (p : α → Bool) (rows : List α) (i : Nat) : Bool :=
  rows.zipIdx.any fun row => p row.1 && decide (addr row.2 = addr i)

section Positions

variable {addr : Nat → β} {p q : α → Bool} {rows : List α} {batch : { n : Nat // 0 < n }}

theorem deleteStored_eq : deleteStored addr p batch rows =
    (rows.zipIdx.filter fun row => !sharesAddressAt addr p rows row.2).map Prod.fst := by
  unfold deleteStored
  rw [deleteInBatches_eq]
  rfl

theorem sharesAddressAt_iff {i : Nat} :
    sharesAddressAt addr p rows i = true ↔ ∃ (j : Nat) (b : α), rows[j]? = some b ∧ p b = true ∧ addr j = addr i := by
  unfold sharesAddressAt
  simp only [List.any_eq_true, Bool.and_eq_true, decide_eq_true_eq, Prod.exists, List.mem_zipIdx_iff_getElem?]
  exact ⟨fun ⟨b, j, hb, hrest⟩ => ⟨j, b, hb, hrest⟩, fun ⟨j, b, hb, hrest⟩ => ⟨b, j, hb, hrest⟩⟩

theorem mem_deleteStored_iff {a : α} : a ∈ deleteStored addr p batch rows ↔
    ∃ i : Nat, rows[i]? = some a ∧ sharesAddressAt addr p rows i = false := by
  rw [deleteStored_eq]
  simp only [List.mem_map, List.mem_filter, List.mem_zipIdx_iff_getElem?, Bool.not_eq_true', Prod.exists, exists_and_right,
    exists_eq_right]

/-- The rows with `p` are gone, and what is left was there. -/
theorem mem_deleteStored {a : α} (h : a ∈ deleteStored addr p batch rows) : a ∈ rows ∧ p a = false := by
  obtain ⟨i, ha, hleft⟩ := mem_deleteStored_iff.mp h
  refine ⟨List.mem_of_getElem? ha, ?_⟩
  rw [← Bool.not_eq_true]
  intro hp
  rw [sharesAddressAt_iff.mpr ⟨i, a, ha, hp, rfl⟩] at hleft
  cases hleft

/-- **The rows with `q` are all left** exactly when none of them is at the address of a row with `p`. -/
theorem filter_deleteStored_iff : (deleteStored addr p batch rows).filter q = rows.filter q ↔
    ∀ (i : Nat) (a : α), rows[i]? = some a → q a = true → sharesAddressAt addr p rows i = false := by
  have hall : rows.filter q = (rows.zipIdx.filter fun row => q row.1).map Prod.fst := by
    have hmap := List.filter_map (p := q) (f := Prod.fst) (l := rows.zipIdx)
    rw [List.zipIdx_map_fst] at hmap
    exact hmap
  have hleft : (deleteStored addr p batch rows).filter q =
      ((rows.zipIdx.filter fun row => q row.1).filter fun row => !sharesAddressAt addr p rows row.2).map Prod.fst := by
    rw [deleteStored_eq, List.filter_map, List.filter_filter, List.filter_filter]
    congr 2
    funext row
    exact Bool.and_comm _ _
  have hiff : (∀ row ∈ rows.zipIdx.filter fun row => q row.1, (!sharesAddressAt addr p rows row.2) = true) ↔
      ∀ (i : Nat) (a : α), rows[i]? = some a → q a = true → sharesAddressAt addr p rows i = false := by
    simp only [List.mem_filter, List.mem_zipIdx_iff_getElem?, Bool.not_eq_true', Prod.forall, and_imp]
    exact ⟨fun h i a => h a i, fun h a i => h i a⟩
  rw [← hiff, ← List.filter_eq_self, hleft, hall]
  constructor
  · intro heq
    apply List.filter_sublist.eq_of_length
    have hlength := congrArg List.length heq
    rwa [List.length_map, List.length_map] at hlength
  · intro heq
    rw [heq]

/-- **The rows with `p` are apart**, by position. -/
def ApartAt (addr : Nat → β) (p : α → Bool) (rows : List α) : Prop :=
  ∀ (i : Nat) (a : α), rows[i]? = some a → sharesAddressAt addr p rows i = true → p a = true

theorem deleteStored_of_apart (h : ApartAt addr p rows) :
    deleteStored addr p batch rows = rows.filter fun a => !p a := by
  -- a row without `p` is at the address of none that has it
  have hall : (deleteStored addr p batch rows).filter (fun a => !p a) = rows.filter fun a => !p a := by
    refine filter_deleteStored_iff.mpr fun i a ha hleft => ?_
    rw [← Bool.not_eq_true]
    intro hshares
    rw [h i a ha hshares] at hleft
    cases hleft
  rw [← hall, List.filter_eq_self.mpr]
  intro a ha
  rw [(mem_deleteStored ha).2]
  rfl

theorem apartAt_of_injective (hinj : Function.Injective addr) : ApartAt addr p rows := by
  intro i a ha hshares
  obtain ⟨j, b, hb, hp, haddr⟩ := sharesAddressAt_iff.mp hshares
  obtain rfl := hinj haddr
  obtain rfl := Option.some.inj (ha.symm.trans hb)
  exact hp

/-- **The loop reports as many rows as have `c`**, which implies `p`, exactly when `p` implies `c` and no other row shares
    an address with a row that has `p`. -/
theorem countP_eq_deleted_iff {c : α → Bool} (hc : ∀ a ∈ rows, c a = true → p a = true) :
    rows.countP c = rows.length - (deleteStored addr p batch rows).length ↔
      ApartAt addr p rows ∧ ∀ a ∈ rows, p a = true → c a = true := by
  have hdeleted : rows.length - (deleteStored addr p batch rows).length =
      rows.zipIdx.countP fun row => sharesAddressAt addr p rows row.2 := by
    rw [← length_sub_length_filter_not, List.length_zipIdx, deleteStored_eq, List.length_map]
  have hcount : rows.countP c = rows.zipIdx.countP fun row => c row.1 := by
    conv_lhs => rw [← List.zipIdx_map_fst 0 rows]
    rw [List.countP_map]
    rfl
  rw [hdeleted, hcount, countP_eq_countP_iff]
  · constructor
    · intro hback
      have hpos : ∀ (i : Nat) (a : α), rows[i]? = some a → sharesAddressAt addr p rows i = true → c a = true :=
        fun i a ha hshares => hback (a, i) (List.mem_zipIdx_iff_getElem?.mpr ha) hshares
      refine ⟨fun i a ha hshares => hc a (List.mem_of_getElem? ha) (hpos i a ha hshares), fun a hmem hp => ?_⟩
      obtain ⟨i, ha⟩ := List.mem_iff_getElem?.mp hmem
      exact hpos i a ha (sharesAddressAt_iff.mpr ⟨i, a, ha, hp, rfl⟩)
    · rintro ⟨hapart, hback⟩ ⟨a, i⟩ hrow hshares
      have ha := List.mem_zipIdx_iff_getElem?.mp hrow
      exact hback a (List.mem_of_getElem? ha) (hapart i a ha hshares)
  · rintro ⟨a, i⟩ hrow hca
    have ha := List.mem_zipIdx_iff_getElem?.mp hrow
    exact sharesAddressAt_iff.mpr ⟨i, a, ha, hc a (List.mem_of_getElem? ha) hca, rfl⟩

end Positions

/-! ## Tables with a key -/

namespace KeyedTable

variable {κ ρ : Type*} {t t' : KeyedTable κ ρ} {addr : κ → β} {p : κ → Bool}

/-- A row of the table with `p` is at the address of the key. -/
def sharesAddress (t : KeyedTable κ ρ) (addr : κ → β) (p : κ → Bool) (k : κ) : Bool := Lib.sharesAddress addr p t.keys k

/-- The loop on a keyed table, by a predicate of the key and with an address for every key. -/
def deleteWhereInBatches (t : KeyedTable κ ρ) (addr : κ → β) (p : κ → Bool) (batch : { n : Nat // 0 < n }) :
    KeyedTable κ ρ where
  rows := deleteInBatches (fun row => addr row.1) (fun row => p row.1) batch t.rows
  nodupKeys := by
    rw [deleteInBatches_eq]
    exact (List.filter_sublist.map Prod.fst).nodup t.nodupKeys

theorem deleteWhereInBatches_eq (batch : { n : Nat // 0 < n }) :
    t.deleteWhereInBatches addr p batch = t.deleteWhere (t.sharesAddress addr p) := by
  apply ext_rows
  show deleteInBatches _ _ batch t.rows = t.rows.filter fun row => !t.sharesAddress addr p row.1
  rw [deleteInBatches_eq]
  apply List.filter_congr
  intro row _
  congr 1
  unfold sharesAddress Lib.sharesAddress keys
  rw [List.any_map]
  rfl

/-- The loop leaves what is selected by a predicate, where no row that has it is at the address of a row with `p`. -/
theorem select_deleteWhereInBatches {q : κ → Bool} (batch : { n : Nat // 0 < n })
    (h : ∀ k ∈ t.keys, q k = true → t.sharesAddress addr p k = false) :
    (t.deleteWhereInBatches addr p batch).select q = t.select q := by
  rw [deleteWhereInBatches_eq]
  unfold select deleteWhere
  rw [List.filter_filter]
  apply List.filter_congr
  intro row hrow
  cases hq : q row.1 with
  | false => rfl
  | true => rw [h row.1 (List.mem_map_of_mem hrow) hq, Bool.not_false, Bool.and_self]

/-- What the loop leaves of the keys. -/
theorem keys_deleteWhereInBatches (batch : { n : Nat // 0 < n }) :
    (t.deleteWhereInBatches addr p batch).keys = t.keys.filter fun k => !t.sharesAddress addr p k := by
  rw [deleteWhereInBatches_eq]
  unfold keys deleteWhere
  rw [List.filter_map]
  rfl

/-- The loop leaves no key with `p`. -/
theorem mem_keys_deleteWhereInBatches {batch : { n : Nat // 0 < n }} {k : κ}
    (h : k ∈ (t.deleteWhereInBatches addr p batch).keys) : k ∈ t.keys ∧ p k = false := by
  rw [deleteWhereInBatches_eq, mem_keys_deleteWhere] at h
  obtain ⟨hk, hleft⟩ := h
  refine ⟨hk, ?_⟩
  rw [← Bool.not_eq_true]
  intro hp
  rw [sharesAddress, sharesAddress_self hk hp] at hleft
  cases hleft

/-- Of keys that are among others, as many have `p` exactly when all the others with `p` are among them. -/
theorem countP_keys_eq_iff (hsub : ∀ k ∈ t.keys, k ∈ t'.keys) :
    t.keys.countP p = t'.keys.countP p ↔ ∀ k ∈ t'.keys, p k = true → k ∈ t.keys := by
  have hfilter : ∀ k ∈ t.keys.filter p, k ∈ t'.keys.filter p := by
    intro k hk
    obtain ⟨hmem, hp⟩ := List.mem_filter.mp hk
    exact List.mem_filter.mpr ⟨hsub k hmem, hp⟩
  have hnodup : (t.keys.filter p).Nodup := List.Nodup.filter p t.nodupKeys
  have hnodup' : (t'.keys.filter p).Nodup := List.Nodup.filter p t'.nodupKeys
  rw [List.countP_eq_length_filter, List.countP_eq_length_filter]
  constructor
  · intro heq k hk hp
    have hperm := (List.subperm_of_subset hnodup hfilter).perm_of_length_le (Nat.le_of_eq heq.symm)
    exact (List.mem_filter.mp (hperm.mem_iff.mpr (List.mem_filter.mpr ⟨hk, hp⟩))).1
  · intro hback
    apply List.Perm.length_eq
    rw [List.perm_ext_iff_of_nodup hnodup hnodup']
    intro k
    refine ⟨hfilter k, fun hk => ?_⟩
    obtain ⟨hmem, hp⟩ := List.mem_filter.mp hk
    exact List.mem_filter.mpr ⟨hback k hmem hp, hp⟩

/-- **The loop reports as many rows as had `p` before some came in under new keys** exactly when `p` holds of none of those
    and no other row shares an address with a row that has `p`. -/
theorem countP_keys_eq_deleted_iff (hsub : ∀ k ∈ t.keys, k ∈ t'.keys) (batch : { n : Nat // 0 < n }) :
    t.keys.countP p = t'.keys.length - (t'.deleteWhereInBatches addr p batch).keys.length ↔
      Apart addr p t'.keys ∧ ∀ k ∈ t'.keys, p k = true → k ∈ t.keys := by
  have hshared : ∀ k ∈ t'.keys, p k = true → t'.sharesAddress addr p k = true :=
    fun k hk hp => sharesAddress_self hk hp
  have hapart : t'.keys.countP p = t'.keys.countP (t'.sharesAddress addr p) ↔ Apart addr p t'.keys :=
    countP_eq_countP_iff hshared
  -- the keys of before with `p` are at most the later ones, and these at most what the loop deletes
  have hbefore : t.keys.countP p ≤ t'.keys.countP p :=
    (List.subperm_of_subset t.nodupKeys hsub).countP_le p
  have hafter : t'.keys.countP p ≤ t'.keys.countP (t'.sharesAddress addr p) := List.countP_mono_left hshared
  rw [keys_deleteWhereInBatches, length_sub_length_filter_not, ← hapart, ← countP_keys_eq_iff hsub]
  constructor
  · intro heq
    exact ⟨by omega, by omega⟩
  · rintro ⟨heq, heq'⟩
    rw [heq', heq]

end KeyedTable

/-! ## Updates in rounds -/

section Rounds

variable {σ : Type*}

/-- Rounds of an update of at most `size` rows, until one updates fewer or there are no more `rounds`. -/
def inRounds (size : Nat) (changed : σ → Nat) (round : σ → σ) : Nat → σ → σ
  | 0, s => s
  | rounds + 1, s => if changed s < size then round s else inRounds size changed round rounds (round s)

/-- **Enough rounds update every row that is due**, when each updates as many of them as it may. -/
theorem inRounds_done {size : Nat} {changed : σ → Nat} (due : σ → Nat) {round : σ → σ} (hchanged : ∀ s, changed s = min size (due s))
    (hround : ∀ s, due (round s) + min size (due s) ≤ due s) (rounds : Nat) {s : σ} (henough : due s ≤ size * rounds) :
    due (inRounds size changed round rounds s) = 0 := by
  induction rounds generalizing s with
  | zero =>
      unfold inRounds
      omega
  | succ rounds ih =>
      have hfewer := hround s
      have hcount := hchanged s
      unfold inRounds
      split
      · omega
      · apply ih
        rw [Nat.mul_succ] at henough
        omega

/-- What each round keeps, all of them keep. -/
theorem inRounds_keeps {P : σ → Prop} {size : Nat} {changed : σ → Nat} {round : σ → σ} (hround : ∀ s, P s → P (round s))
    (rounds : Nat) {s : σ} (h : P s) : P (inRounds size changed round rounds s) := by
  induction rounds generalizing s with
  | zero => exact h
  | succ rounds ih =>
      unfold inRounds
      split
      · exact hround s h
      · exact ih (hround s h)

end Rounds

/-- **A round that updates the first `n` due rows**, in any order, leaves that many fewer due. -/
theorem countP_update_first {κ ρ : Type*} [DecidableEq κ] {due : ρ → Bool} {mark : ρ → ρ} (hmark : ∀ r, due (mark r) = false)
    {rows sorted : List (κ × ρ)} (hperm : sorted.Perm (rows.filter fun row => due row.2)) (n : Nat) :
    (rows.map fun row => (row.1, if row.1 ∈ (sorted.take n).map Prod.fst then mark row.2 else row.2)).countP
        (fun row => due row.2) + min n (rows.countP fun row => due row.2) ≤ rows.countP fun row => due row.2 := by
  have hlength : sorted.length = rows.countP fun row => due row.2 := by
    rw [hperm.length_eq, List.countP_eq_length_filter]
  obtain ⟨keys, hkeys⟩ : ∃ keys, keys = (sorted.take n).map Prod.fst := ⟨_, rfl⟩
  rw [← hkeys, ← hlength]
  -- what is due afterwards was due before and not selected
  have hafter : (rows.map fun row => (row.1, if row.1 ∈ keys then mark row.2 else row.2)).countP (fun row => due row.2) =
      sorted.countP fun row => decide (row.1 ∉ keys) := by
    rw [hperm.countP_eq, List.countP_filter, List.countP_map]
    apply List.countP_congr
    intro row _
    by_cases hkey : row.1 ∈ keys <;> simp [hkey, hmark]
  have hselected : min n sorted.length ≤ sorted.countP fun row => decide (row.1 ∈ keys) := by
    have hall : (sorted.take n).countP (fun row => decide (row.1 ∈ keys)) = (sorted.take n).length := by
      rw [List.countP_eq_length]
      intro row hrow
      rw [hkeys]
      exact decide_eq_true (List.mem_map_of_mem hrow)
    rw [← List.length_take, ← hall]
    exact (List.take_sublist n sorted).countP_le
  have hsplit := List.length_eq_countP_add_countP (fun row : κ × ρ => decide (row.1 ∈ keys)) (l := sorted)
  simp only [decide_eq_true_eq] at hsplit
  rw [hafter]
  omega

end VirtInfra.Lib
