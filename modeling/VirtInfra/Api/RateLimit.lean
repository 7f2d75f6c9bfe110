import VirtInfra.Lib.RowLocks
import Mathlib.Data.List.Dedup

/-!
# `RateLimit` — the request windows of the API (`21_api_v1.py`, `22_api_hub_logs.py`)

Every key and address has a counter for each minute. The counters of past minutes are of no use, and a few thousand of them
are dropped when there are more than ten thousand. The answers are those of counters that are never dropped, as long as the
clock does not go back by more than the two minutes that the pruning spares.
-/

namespace VirtInfra.Api

open Lib

/-- The key of a window: key id, address and minute. -/
abbrev Bucket := String × String × Int

/-- `_api_rate_windows`. -/
abbrev RateWindows := KeyedTable Bucket Nat

/-- The windows that a request of `minute` drops. -/
def staleWindows (minute : Int) (windows : RateWindows) : List Bucket :=
  (windows.keys.filter fun key => key.2.2 < minute - 2).take 8000

/-- `if len(_api_rate_windows) > 10000: …`. -/
def pruneWindows (minute : Int) (windows : RateWindows) : RateWindows :=
  if 10000 < windows.rows.length then windows.deleteWhere fun key => key ∈ staleWindows minute windows else windows

/-- **`_api_rate_allowed`**: the answer with its count, and the windows. -/
def apiRateAllowed (limit : Nat) (bucket : Bucket) (windows : RateWindows) : (Bool × Nat) × RateWindows :=
  let windows := pruneWindows bucket.2.2 windows
  let count := (windows.get? bucket).getD 0 + 1
  ((count ≤ limit, count), windows.put bucket count)

/-- What happens to the windows: a request, the permanent deletion of a key, or the reset of all API data. -/
inductive RateOp | request (bucket : Bucket) | deleteKey (keyId : String) | clear

def RateOp.apply (limit : Nat) (windows : RateWindows) : RateOp → RateWindows
  | .request bucket => (apiRateAllowed limit bucket windows).2
  | .deleteKey keyId => windows.deleteWhere fun key => key.1 = keyId
  | .clear => .empty

/-- The windows after a run of the process. -/
def rateWindows (limit : Nat) (ops : List RateOp) : RateWindows := ops.foldl (RateOp.apply limit) .empty

/-! ## Plain counters -/

/-- A counter that is never dropped. -/
def RateOp.count (bucket : Bucket) (n : Nat) : RateOp → Nat
  | .request bucket' => if bucket' = bucket then n + 1 else n
  | .deleteKey keyId => if bucket.1 = keyId then 0 else n
  | .clear => 0

/-- **The requests of a window**, since its key was last deleted. -/
def requestsOf (ops : List RateOp) (bucket : Bucket) : Nat := ops.foldl (RateOp.count bucket) 0

/-- The requests of a window that are let through, one more if this one is. -/
def RateOp.allow (limit : Nat) (bucket : Bucket) (windows : RateWindows) (n : Nat) : RateOp → Nat
  | .request bucket' =>
      if bucket' = bucket ∧ (apiRateAllowed limit bucket windows).1.1 = true then n + 1 else n
  | .deleteKey keyId => if bucket.1 = keyId then 0 else n
  | .clear => 0

/-- The windows, and the requests of one of them that were let through. -/
def RateOp.track (limit : Nat) (bucket : Bucket) (state : RateWindows × Nat) (op : RateOp) : RateWindows × Nat :=
  (op.apply limit state.1, op.allow limit bucket state.1 state.2)

/-- **The requests of a window that were let through**, since its key was last deleted. -/
def admittedOf (limit : Nat) (ops : List RateOp) (bucket : Bucket) : Nat :=
  (ops.foldl (RateOp.track limit bucket) (.empty, 0)).2

def RateOp.bucket? : RateOp → Option Bucket
  | .request bucket => some bucket
  | _ => none

/-- **The clock never goes back by more than two minutes.** -/
def Steady (ops : List RateOp) : Prop :=
  ops.Pairwise fun earlier later => ∀ a ∈ earlier.bucket?, ∀ b ∈ later.bucket?, a.2.2 - 2 ≤ b.2.2

section Snoc

variable (limit : Nat) (ops : List RateOp) (op : RateOp) (bucket : Bucket)

theorem rateWindows_append : rateWindows limit (ops ++ [op]) = op.apply limit (rateWindows limit ops) := by
  rw [rateWindows, List.foldl_append]
  rfl

theorem requestsOf_append : requestsOf (ops ++ [op]) bucket = op.count bucket (requestsOf ops bucket) := by
  rw [requestsOf, List.foldl_append]
  rfl

theorem track_windows : (ops.foldl (RateOp.track limit bucket) (.empty, 0)).1 = rateWindows limit ops := by
  induction ops using List.reverseRecOn with
  | nil => rfl
  | append_singleton ops op ih =>
      rw [List.foldl_append, rateWindows_append, ← ih]
      rfl

theorem admittedOf_append : admittedOf limit (ops ++ [op]) bucket =
    op.allow limit bucket (rateWindows limit ops) (admittedOf limit ops bucket) := by
  rw [admittedOf, List.foldl_append, ← track_windows limit ops bucket]
  rfl

end Snoc

/-! ## Dropping windows -/

variable {limit : Nat} {ops : List RateOp} {bucket : Bucket}

/-- A window of the last three minutes is not dropped. -/
theorem get?_pruneWindows {minute : Int} (windows : RateWindows) (h : minute - 2 ≤ bucket.2.2) :
    (pruneWindows minute windows).get? bucket = windows.get? bucket := by
  unfold pruneWindows
  split
  · rw [KeyedTable.get?_deleteWhere, if_neg]
    intro hmem
    have hstale : bucket.2.2 < minute - 2 :=
      of_decide_eq_true (List.mem_filter.mp (List.mem_of_mem_take (of_decide_eq_true hmem))).2
    omega
  · rfl

/-- **What the windows count.** For the minutes that the clock may still come back to, they are the plain counters. -/
theorem get?_rateWindows (h : Steady ops) (hlive : ∀ op ∈ ops, ∀ a ∈ op.bucket?, a.2.2 - 2 ≤ bucket.2.2) :
    ((rateWindows limit ops).get? bucket).getD 0 = requestsOf ops bucket := by
  induction ops using List.reverseRecOn generalizing bucket with
  | nil => rfl
  | append_singleton ops op ih =>
      obtain ⟨hsteady, -, hlast⟩ := List.pairwise_append.mp h
      have hbefore : ∀ op ∈ ops, ∀ a ∈ op.bucket?, a.2.2 - 2 ≤ bucket.2.2 :=
        fun op hop => hlive op (List.mem_append_left _ hop)
      have hself := hlive op (List.mem_append_right _ (List.mem_singleton_self op))
      rw [rateWindows_append, requestsOf_append]
      cases op with
      | request bucket' =>
          have hbucket : bucket'.2.2 - 2 ≤ bucket.2.2 := hself bucket' rfl
          simp only [RateOp.apply, RateOp.count, apiRateAllowed, KeyedTable.get?_put]
          by_cases heq : bucket' = bucket
          · subst heq
            rw [if_pos rfl, if_pos rfl, get?_pruneWindows _ hbucket, Option.getD_some, ih hsteady hbefore]
          · rw [if_neg fun h => heq h.symm, if_neg heq, get?_pruneWindows _ hbucket, ih hsteady hbefore]
      | deleteKey keyId =>
          simp only [RateOp.apply, RateOp.count, KeyedTable.get?_deleteWhere, decide_eq_true_eq]
          split
          · rfl
          · exact ih hsteady hbefore
      | clear => rfl

/-- A request that comes next finds its own window. -/
theorem live_of_steady (h : Steady (ops ++ [.request bucket])) :
    ∀ op ∈ ops, ∀ a ∈ op.bucket?, a.2.2 - 2 ≤ bucket.2.2 :=
  fun op hop a ha => (List.pairwise_append.mp h).2.2 op hop (.request bucket) (List.mem_singleton_self _) a ha bucket rfl

/-- **The answer to a request** is that of the plain counter. -/
theorem apiRateAllowed_eq (h : Steady (ops ++ [.request bucket])) :
    (apiRateAllowed limit bucket (rateWindows limit ops)).1 =
      (decide (requestsOf ops bucket < limit), requestsOf ops bucket + 1) := by
  have hcount : ((rateWindows limit ops).get? bucket).getD 0 = requestsOf ops bucket :=
    get?_rateWindows (List.pairwise_append.mp h).1 (live_of_steady h)
  have hkept := get?_pruneWindows (rateWindows limit ops) (by omega : bucket.2.2 - 2 ≤ bucket.2.2)
  simp only [apiRateAllowed, hkept, hcount, Nat.succ_le_iff]

/-- **The limit is kept exactly**, whatever was dropped in between: of the requests of one key and address in one minute, the
first ones up to the limit are let through and all others are refused. -/
theorem rate_limit_exact (limit : Nat) {ops : List RateOp} (h : Steady ops) (bucket : Bucket) :
    admittedOf limit ops bucket = min (requestsOf ops bucket) limit ∧
      ∀ before after, ops = before ++ .request bucket :: after →
        (apiRateAllowed limit bucket (rateWindows limit before)).1 =
          (decide (requestsOf before bucket < limit), requestsOf before bucket + 1) := by
  constructor
  · induction ops using List.reverseRecOn with
    | nil => exact (Nat.zero_min limit).symm
    | append_singleton ops op ih =>
        have hadmitted := ih (List.pairwise_append.mp h).1
        rw [admittedOf_append, requestsOf_append]
        cases op with
        | request bucket' =>
            simp only [RateOp.allow, RateOp.count]
            by_cases heq : bucket' = bucket
            · subst heq
              rw [apiRateAllowed_eq h, hadmitted, if_pos rfl]
              simp only [true_and, decide_eq_true_eq]
              split <;> omega
            · rw [if_neg fun h => heq h.1, if_neg heq, hadmitted]
        | deleteKey keyId =>
            simp only [RateOp.allow, RateOp.count]
            split
            · exact (Nat.zero_min limit).symm
            · exact hadmitted
        | clear => exact (Nat.zero_min limit).symm
  · rintro before after rfl
    refine apiRateAllowed_eq ?_
    rw [List.append_cons] at h
    exact (List.pairwise_append.mp h).1

/-- Requests whose clock goes back by a minute, and a key that is deleted in between. -/
def lateRequests : List RateOp :=
  [.request ("a", "192.0.2.1", 7), .request ("a", "192.0.2.1", 8), .request ("b", "192.0.2.1", 7), .deleteKey "b",
    .request ("a", "192.0.2.1", 7), .request ("a", "192.0.2.1", 7)]

theorem rate_limit_late :
    admittedOf 2 lateRequests ("a", "192.0.2.1", 7) = min (requestsOf lateRequests ("a", "192.0.2.1", 7)) 2 ∧
      ∀ before after, lateRequests = before ++ .request ("a", "192.0.2.1", 7) :: after →
        (apiRateAllowed 2 ("a", "192.0.2.1", 7) (rateWindows 2 before)).1 =
          (decide (requestsOf before ("a", "192.0.2.1", 7) < 2), requestsOf before ("a", "192.0.2.1", 7) + 1) :=
  rate_limit_exact 2 (show Steady lateRequests by simp [Steady, lateRequests, RateOp.bucket?]) _

/-! ## Memory -/

/-- The windows of the requests from two minutes before `minute` on. -/
def liveBuckets (ops : List RateOp) (minute : Int) : List Bucket :=
  ((ops.filterMap RateOp.bucket?).filter fun bucket => minute - 2 ≤ bucket.2.2).dedup

theorem mem_liveBuckets {minute : Int} :
    bucket ∈ liveBuckets ops minute ↔ .request bucket ∈ ops ∧ minute - 2 ≤ bucket.2.2 := by
  rw [liveBuckets, List.mem_dedup, List.mem_filter, decide_eq_true_eq]
  refine and_congr_left fun _ => ?_
  constructor
  · intro h
    obtain ⟨op, hop, hbucket⟩ := List.mem_filterMap.mp h
    cases op with
    | request bucket' =>
        obtain rfl := Option.some.inj hbucket
        exact hop
    | deleteKey keyId => cases hbucket
    | clear => cases hbucket
  · exact fun h => List.mem_filterMap.mpr ⟨.request bucket, h, rfl⟩

theorem mem_keys_put {windows : RateWindows} {count : Nat} {bucket' : Bucket} :
    bucket' ∈ (windows.put bucket count).keys ↔ bucket' = bucket ∨ bucket' ∈ windows.keys := by
  rw [← KeyedTable.get?_isSome_iff, KeyedTable.get?_put, ← KeyedTable.get?_isSome_iff]
  split <;> simp [*]

theorem mem_keys_pruneWindows {windows : RateWindows} {minute : Int} (h : bucket ∈ (pruneWindows minute windows).keys) :
    bucket ∈ windows.keys := by
  unfold pruneWindows at h
  split at h
  · exact (List.filter_sublist.map Prod.fst).subset h
  · exact h

/-- There are windows only of requests. -/
theorem requested_of_mem_rateWindows (limit : Nat) (h : bucket ∈ (rateWindows limit ops).keys) : .request bucket ∈ ops := by
  induction ops using List.reverseRecOn with
  | nil => cases h
  | append_singleton ops op ih =>
      rw [rateWindows_append] at h
      cases op with
      | request bucket' =>
          rcases mem_keys_put.mp h with rfl | h
          · exact List.mem_append_right _ (List.mem_singleton_self _)
          · exact List.mem_append_left _ (ih (mem_keys_pruneWindows h))
      | deleteKey keyId => exact List.mem_append_left _ (ih ((List.filter_sublist.map Prod.fst).subset h))
      | clear => cases h

/-- No two windows have one key. -/
theorem length_le_of_keys_subset {windows : RateWindows} {buckets : List Bucket} (h : windows.keys ⊆ buckets) :
    windows.rows.length ≤ buckets.length := by
  have hlength := (List.subperm_of_subset windows.nodupKeys h).length_le
  rwa [List.length_map] at hlength

theorem length_put (windows : RateWindows) (bucket : Bucket) (count : Nat) :
    (windows.put bucket count).rows.length ≤ windows.rows.length + 1 := by
  have hsub : (windows.put bucket count).keys ⊆ bucket :: windows.keys := by
    intro bucket' h
    rcases mem_keys_put.mp h with rfl | h
    · exact List.mem_cons_self
    · exact List.mem_cons_of_mem _ h
  have hlength := length_le_of_keys_subset hsub
  rwa [List.length_cons, KeyedTable.keys, List.length_map] at hlength

/-- **A request adds a window, unless there are too many**: then either one is dropped for it, or only windows of the last
three minutes are left. -/
theorem length_request (limit : Nat) (bucket : Bucket) (windows : RateWindows) :
    (apiRateAllowed limit bucket windows).2.rows.length ≤ max 10001 windows.rows.length ∨
      ∀ bucket' ∈ (apiRateAllowed limit bucket windows).2.keys, bucket.2.2 - 2 ≤ bucket'.2.2 := by
  have hput := length_put (pruneWindows bucket.2.2 windows) bucket (((pruneWindows bucket.2.2 windows).get? bucket).getD 0 + 1)
  by_cases hmany : 10000 < windows.rows.length
  · have hprune : pruneWindows bucket.2.2 windows =
        windows.deleteWhere fun key => key ∈ staleWindows bucket.2.2 windows := if_pos hmany
    cases hstale : staleWindows bucket.2.2 windows with
    | cons stale rest =>
        left
        have hmem : stale ∈ staleWindows bucket.2.2 windows := by rw [hstale]; exact List.mem_cons_self
        obtain ⟨row, hrow, hkey⟩ := List.mem_map.mp (List.mem_filter.mp (List.mem_of_mem_take hmem)).1
        -- At least the first one of the stale windows goes.
        have hlt : (pruneWindows bucket.2.2 windows).rows.length < windows.rows.length := by
          rw [hprune]
          refine List.length_filter_lt_length_iff_exists.mpr ⟨row, hrow, ?_⟩
          rw [hkey]
          simpa using hmem
        exact le_max_of_le_right (hput.trans hlt)
    | nil =>
        right
        intro bucket' hbucket'
        rcases mem_keys_put.mp hbucket' with rfl | hbucket'
        · omega
        · by_contra hold
          have hnone : windows.keys.filter (fun key => key.2.2 < bucket.2.2 - 2) = [] := by
            rw [staleWindows, List.take_eq_nil_iff] at hstale
            exact hstale.resolve_left (by decide)
          have hmem := List.filter_eq_nil_iff.mp hnone bucket' (mem_keys_pruneWindows hbucket')
          exact hmem (decide_eq_true (by omega))
  · left
    have hprune : pruneWindows bucket.2.2 windows = windows := if_neg hmany
    rw [hprune] at hput
    have hkept := hput
    simp only [apiRateAllowed, hprune]
    omega

/-- **The memory of the limiter is bounded**: it never has more than 10001 windows, or the largest number of different windows
that were requested from two minutes before a request on. Only where the clock has gone back are there later ones among them. -/
theorem rate_windows_bounded (limit : Nat) {ops : List RateOp} {peak : Nat}
    (hpeak : ∀ before bucket after, ops = before ++ .request bucket :: after →
      (liveBuckets (before ++ [.request bucket]) bucket.2.2).length ≤ peak) :
    (rateWindows limit ops).rows.length ≤ max 10001 peak := by
  induction ops using List.reverseRecOn with
  | nil => exact Nat.zero_le _
  | append_singleton ops op ih =>
      have hbefore := ih fun before bucket after heq =>
        hpeak before bucket (after ++ [op]) (by rw [heq, List.append_assoc, List.cons_append])
      rw [rateWindows_append]
      cases op with
      | request bucket =>
          rcases length_request limit bucket (rateWindows limit ops) with hle | hlive
          · exact hle.trans (max_le (le_max_left _ _) hbefore)
          · have hsub : (apiRateAllowed limit bucket (rateWindows limit ops)).2.keys ⊆
                liveBuckets (ops ++ [.request bucket]) bucket.2.2 := by
              intro bucket' hmem
              refine mem_liveBuckets.mpr ⟨requested_of_mem_rateWindows limit ?_, hlive bucket' hmem⟩
              rwa [rateWindows_append]
            exact le_max_of_le_right ((length_le_of_keys_subset hsub).trans (hpeak ops bucket [] rfl))
      | deleteKey keyId => exact (List.length_filter_le _ _).trans hbefore
      | clear => exact Nat.zero_le _

/-- The requests of 6000 addresses in one minute. -/
def burst (minute : Int) : List RateOp := (List.range 6000).map fun i => .request ("a", toString i, minute)

theorem mem_burst {minute : Int} (h : RateOp.request bucket ∈ burst minute) : bucket.2.2 = minute := by
  obtain ⟨i, -, heq⟩ := List.mem_map.mp h
  rw [← RateOp.request.inj heq]

/-- Two bursts ask for 12000 windows, and the second one finds those of the first stale. -/
theorem rate_windows_bursts : (rateWindows 100 (burst 0 ++ burst 10)).rows.length ≤ max 10001 6000 := by
  refine rate_windows_bounded 100 fun before bucket after heq => ?_
  have hordered : (burst 0 ++ burst 10).Pairwise fun a b => ∀ x ∈ a.bucket?, ∀ y ∈ b.bucket?, x.2.2 ≤ y.2.2 := by
    have hminute : ∀ {minute : Int} {op : RateOp} {x : Bucket}, op ∈ burst minute → x ∈ op.bucket? → x.2.2 = minute := by
      intro minute op x hop hx
      obtain ⟨i, -, rfl⟩ := List.mem_map.mp hop
      rw [← Option.some.inj hx]
    refine List.pairwise_append.mpr ⟨List.pairwise_of_forall_mem_list fun a ha b hb x hx y hy => ?_,
      List.pairwise_of_forall_mem_list fun a ha b hb x hx y hy => ?_, fun a ha b hb x hx y hy => ?_⟩
    · rw [hminute ha hx, hminute hb hy]
    · rw [hminute ha hx, hminute hb hy]
    · rw [hminute ha hx, hminute hb hy]
      decide
  have hmem : ∀ bucket' : Bucket, .request bucket' ∈ burst 0 ++ burst 10 →
      .request bucket' ∈ burst bucket'.2.2 ∧ (bucket'.2.2 = 0 ∨ bucket'.2.2 = 10) := by
    intro bucket' h
    rcases List.mem_append.mp h with h | h
    · exact ⟨(mem_burst h).symm ▸ h, .inl (mem_burst h)⟩
    · exact ⟨(mem_burst h).symm ▸ h, .inr (mem_burst h)⟩
  -- What is live at a request came with its own burst.
  have hsub : liveBuckets (before ++ [.request bucket]) bucket.2.2 ⊆ (burst bucket.2.2).filterMap RateOp.bucket? := by
    intro bucket' hlive
    obtain ⟨hrequest, hrecent⟩ := mem_liveBuckets.mp hlive
    have hle : bucket'.2.2 ≤ bucket.2.2 := by
      rcases List.mem_append.mp hrequest with hbefore | hself
      · rw [heq] at hordered
        exact (List.pairwise_append.mp hordered).2.2 _ hbefore _ List.mem_cons_self _ rfl _ rfl
      · rw [RateOp.request.inj (List.mem_singleton.mp hself)]
    have hin : RateOp.request bucket' ∈ burst 0 ++ burst 10 := by
      rw [heq, List.append_cons]
      exact List.mem_append_left _ hrequest
    have hself : RateOp.request bucket ∈ burst 0 ++ burst 10 := by
      rw [heq]
      exact List.mem_append_right _ List.mem_cons_self
    have hsame : bucket'.2.2 = bucket.2.2 := by
      have htimes := (hmem _ hin).2
      have htimes' := (hmem _ hself).2
      omega
    exact List.mem_filterMap.mpr ⟨_, hsame ▸ (hmem _ hin).1, rfl⟩
  have hlength := (List.subperm_of_subset (List.nodup_dedup _) hsub).length_le
  refine hlength.trans ((List.length_filterMap_le _ _).trans ?_)
  rw [burst, List.length_map, List.length_range]

end VirtInfra.Api
