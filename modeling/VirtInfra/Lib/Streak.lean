import Mathlib.Algebra.Order.Ring.Int
import Mathlib.Tactic.Linarith
import Mathlib.Tactic.Ring

/-!
# `Streak` — counting consecutive cycles

A counter is told, one observation after another, whether a condition held and in which cycle. It counts the cycles in a
row in which it held. It stores nothing but the count and the last cycle, `0` standing for none; `cycles_iff` says what
the count means for the observations themselves.
-/

namespace VirtInfra.Lib

/-- A count of cycles and the cycle that was observed last. -/
structure Streak where
  cycles : Int
  last : Int
  deriving DecidableEq, Repr

namespace Streak

def blank : Streak := { cycles := 0, last := 0 }

/-- **Take in one observation.** A second hit in one cycle does not count again, and a gap starts over. -/
def observe (period : Int) (streak : Streak) (observation : Int × Bool) : Streak :=
  { last := observation.1
    cycles :=
      if !observation.2 then 0
      else if streak.last = observation.1 then max 1 streak.cycles
      else if streak.last ≠ 0 ∧ observation.1 - streak.last = period then streak.cycles + 1
      else 1 }

/-- The counter after some observations, the newest first. -/
def of (period : Int) : List (Int × Bool) → Streak
  | [] => blank
  | observation :: older => observe period (of period older) observation

/-- Observations in the order of their cycles, which are multiples of the period. -/
structure Ordered (period : Int) (observations : List (Int × Bool)) : Prop where
  sorted : observations.Pairwise fun newer older => older.1 ≤ newer.1
  aligned : ∀ observation ∈ observations, period ∣ observation.1

/-- **The condition held through `n` cycles** up to `cycle`: each of them was observed, and the condition held at every
    observation since the last one of the first of them. No cycle but the first may be the cycle after `0`. -/
structure Sustained (period n cycle : Int) (observations : List (Int × Bool)) : Prop where
  observed : ∀ k, 0 ≤ k → k < n → ∃ observation ∈ observations, observation.1 = cycle - period * k
  since : ∀ observation ∈ observations, cycle - period * (n - 1) < observation.1 → observation.2 = true
  first : ((observations.find? fun observation => observation.1 = cycle - period * (n - 1)).any Prod.snd) = true
  anchored : ∀ k, 1 ≤ k → k < n → cycle - period * k ≠ 0

variable {period n cycle : Int} {observation : Int × Bool} {hit : Bool} {observations older : List (Int × Bool)}

theorem observe_blank : (observe period blank (cycle, true)).cycles = 1 := by
  by_cases hzero : 0 = cycle
  · subst hzero
    rfl
  · simp [observe, blank, hzero]

theorem observe_miss (streak : Streak) : (observe period streak (cycle, false)).cycles = 0 := rfl

theorem observe_last (streak : Streak) : (observe period streak observation).last = observation.1 := rfl

theorem observe_same (streak : Streak) (h : streak.last = cycle) :
    (observe period streak (cycle, true)).cycles = max 1 streak.cycles := by
  simp [observe, h]

theorem observe_next (streak : Streak) (hlast : streak.last ≠ 0) (hperiod : 0 < period)
    (h : cycle = streak.last + period) : (observe period streak (cycle, true)).cycles = streak.cycles + 1 := by
  have hne : streak.last ≠ cycle := by omega
  have hdiff : cycle - streak.last = period := by omega
  simp [observe, hne, hlast, hdiff]

theorem observe_gap (streak : Streak) (hne : streak.last ≠ cycle)
    (h : streak.last = 0 ∨ cycle - streak.last ≠ period) : (observe period streak (cycle, true)).cycles = 1 := by
  have hcond : ¬ (streak.last ≠ 0 ∧ cycle - streak.last = period) := by tauto
  simp only [observe, Bool.not_true, Bool.false_eq_true, if_false, hne, hcond]

theorem cycles_nonneg (period : Int) (observations : List (Int × Bool)) : 0 ≤ (of period observations).cycles := by
  induction observations with
  | nil => exact le_refl 0
  | cons observation older ih =>
      unfold of observe
      dsimp only
      split_ifs <;> omega

/-- One observation counts for one cycle at most. -/
theorem observe_le (streak : Streak) (h : 0 ≤ streak.cycles) :
    (observe period streak observation).cycles ≤ streak.cycles + 1 := by
  unfold observe
  dsimp only
  split_ifs <;> omega

/-- A hit counts for one cycle at least. -/
theorem one_le_observe (streak : Streak) (h : 0 ≤ streak.cycles) :
    1 ≤ (observe period streak (cycle, true)).cycles := by
  unfold observe
  dsimp only
  split_ifs with hmiss <;> first | omega | cases hmiss

/-- In one cycle a count only starts. -/
theorem observe_le_of_last (streak : Streak) (hlast : streak.last = observation.1) :
    (observe period streak observation).cycles ≤ max 1 streak.cycles := by
  unfold observe
  dsimp only
  split_ifs <;> omega

/-- A hit after a cycle without any observation starts a new count. -/
theorem cycles_gap (h : ∀ other ∈ older, other.1 ≠ cycle ∧ other.1 ≠ cycle - period) :
    (of period ((cycle, true) :: older)).cycles = 1 := by
  cases older with
  | nil => exact observe_blank
  | cons observation rest =>
      obtain ⟨hsame, hnext⟩ := h observation List.mem_cons_self
      have hlast : (of period (observation :: rest)).last = observation.1 := rfl
      exact observe_gap _ (by rwa [hlast]) (.inr (by rw [hlast]; omega))

theorem Ordered.tail (h : Ordered period (observation :: older)) : Ordered period older :=
  ⟨(List.pairwise_cons.mp h.sorted).2, fun other hother => h.aligned other (List.mem_cons_of_mem _ hother)⟩

theorem Ordered.le_head (h : Ordered period (observation :: older)) {other : Int × Bool} (hother : other ∈ older) :
    other.1 ≤ observation.1 :=
  (List.pairwise_cons.mp h.sorted).1 other hother

/-- A miss ends every stretch. -/
theorem not_sustained_miss (hperiod : 0 < period) (hn : 1 ≤ n) :
    ¬ Sustained period n cycle ((cycle, false) :: older) := by
  intro h
  by_cases hone : n = 1
  · subst hone
    have hfirst := h.first
    simp at hfirst
  · have hpositive : 0 < period * (n - 1) := mul_pos hperiod (by omega)
    have hlt : cycle - period * (n - 1) < cycle := by omega
    cases h.since _ List.mem_cons_self hlt

/-- A single cycle is sustained by a hit. -/
theorem sustained_one (hordered : ∀ other ∈ older, other.1 ≤ cycle) :
    Sustained period 1 cycle ((cycle, true) :: older) := by
  refine ⟨fun k h0 h1 => ⟨_, List.mem_cons_self, ?_⟩, ?_, by simp, by omega⟩
  · obtain rfl : k = 0 := by omega
    simp
  · intro other hother hlt
    rcases List.mem_cons.mp hother with rfl | hother
    · rfl
    · have hle := hordered other hother
      simp at hlt
      omega

/-- A second hit in one cycle changes nothing for longer stretches. -/
theorem sustained_same (hperiod : 0 < period) (hn : 1 < n) {before : Bool} {rest : List (Int × Bool)} :
    Sustained period n cycle ((cycle, true) :: (cycle, before) :: rest) ↔
      Sustained period n cycle ((cycle, before) :: rest) := by
  have hstart : cycle ≠ cycle - period * (n - 1) := by nlinarith
  constructor
  · intro h
    refine ⟨fun k h0 h1 => ?_, fun other hother => h.since other (List.mem_cons_of_mem _ hother), ?_, h.anchored⟩
    · obtain ⟨other, hother, heq⟩ := h.observed k h0 h1
      rcases List.mem_cons.mp hother with rfl | hother
      · exact ⟨_, List.mem_cons_self, heq⟩
      · exact ⟨other, hother, heq⟩
    · have hfirst := h.first
      rwa [List.find?_cons_of_neg (by simpa using hstart)] at hfirst
  · intro h
    refine ⟨fun k h0 h1 => ?_, ?_, ?_, h.anchored⟩
    · obtain ⟨other, hother, heq⟩ := h.observed k h0 h1
      exact ⟨other, List.mem_cons_of_mem _ hother, heq⟩
    · intro other hother hlt
      rcases List.mem_cons.mp hother with rfl | hother
      · rfl
      · exact h.since other hother hlt
    · rw [List.find?_cons_of_neg (by simpa using hstart)]
      exact h.first

/-- A hit in the next cycle makes every stretch one longer. -/
theorem sustained_next (hperiod : 0 < period) (hn : 1 < n) (hcycle : cycle ≠ 0) : Sustained period n (cycle + period) ((cycle + period, true) :: older) ↔
      Sustained period (n - 1) cycle older := by
  have hstart : cycle + period ≠ cycle + period - period * (n - 1) := by nlinarith
  have hshift : cycle + period - period * (n - 1) = cycle - period * (n - 1 - 1) := by ring
  constructor
  · intro h
    refine ⟨fun k h0 h1 => ?_, ?_, ?_, fun k h1 hlt => ?_⟩
    · obtain ⟨other, hother, heq⟩ := h.observed (k + 1) (by omega) (by omega)
      rcases List.mem_cons.mp hother with rfl | hother
      · exact absurd heq (by dsimp only; nlinarith)
      · exact ⟨other, hother, by rw [heq]; ring⟩
    · intro other hother hlt
      exact h.since other (List.mem_cons_of_mem _ hother) (by rwa [hshift])
    · have hfirst := h.first
      rwa [List.find?_cons_of_neg (by simpa using hstart), hshift] at hfirst
    · have hanchored := h.anchored (k + 1) (by omega) (by omega)
      intro hzero
      exact hanchored (by rw [← hzero]; ring)
  · intro h
    refine ⟨fun k h0 h1 => ?_, ?_, ?_, fun k h1 hlt => ?_⟩
    · by_cases hk : k = 0
      · exact ⟨_, List.mem_cons_self, by simp [hk]⟩
      · obtain ⟨other, hother, heq⟩ := h.observed (k - 1) (by omega) (by omega)
        exact ⟨other, List.mem_cons_of_mem _ hother, by rw [heq]; ring⟩
    · intro other hother hlt
      rcases List.mem_cons.mp hother with rfl | hother
      · rfl
      · exact h.since other hother (by rwa [← hshift])
    · rw [List.find?_cons_of_neg (by simpa using hstart), hshift]
      exact h.first
    · by_cases hk : k = 1
      · subst hk
        simpa using hcycle
      · have hanchored := h.anchored (k - 1) (by omega) (by omega)
        intro hzero
        exact hanchored (by rw [← hzero]; ring)

/-- Nothing longer than one cycle is sustained when the cycle before was not observed. -/
theorem not_sustained_gap (hn : 1 < n)
    (h : ∀ other ∈ observations, other.1 = cycle - period → other.1 = 0) : ¬ Sustained period n cycle observations := by
  intro hsustained
  obtain ⟨other, hother, heq⟩ := hsustained.observed 1 (by omega) hn
  have hanchored := hsustained.anchored 1 (by omega) hn
  rw [mul_one] at heq hanchored
  exact hanchored (by rw [← heq, h other hother heq])

/-- Cycles that do not coincide are a period apart. -/
theorem Ordered.le_sub (hordered : Ordered period ((cycle, hit) :: observation :: older))
    (hne : observation.1 ≠ cycle) : observation.1 ≤ cycle - period := by
  have hle := hordered.le_head List.mem_cons_self
  obtain ⟨a, ha⟩ := hordered.aligned _ List.mem_cons_self
  obtain ⟨b, hb⟩ := hordered.aligned _ (List.mem_cons_of_mem _ List.mem_cons_self)
  dsimp only at ha hle
  have hperiod : period ∣ cycle - observation.1 := ⟨a - b, by rw [ha, hb]; ring⟩
  have hpositive : 0 < cycle - observation.1 := by omega
  have := Int.le_of_dvd hpositive hperiod
  omega

/-- **What the counter counts.** After an observation of `cycle` the count has reached `n` exactly if the condition held
    through the last `n` cycles. -/
theorem cycles_iff (hperiod : 0 < period) (hn : 1 ≤ n) (hordered : Ordered period ((cycle, hit) :: older)) :
    n ≤ (of period ((cycle, hit) :: older)).cycles ↔ Sustained period n cycle ((cycle, hit) :: older) := by
  induction older generalizing n cycle hit with
  | nil =>
      cases hit with
      | false =>
          rw [iff_false_right (not_sustained_miss hperiod hn), of, observe_miss]
          omega
      | true =>
          rw [of, of, observe_blank]
          by_cases hone : n = 1
          · subst hone
            exact iff_of_true (le_refl 1) (sustained_one nofun)
          · refine iff_of_false (by omega) (not_sustained_gap (by omega) fun other hother heq => ?_)
            obtain rfl := List.mem_singleton.mp hother
            dsimp only at heq
            omega
  | cons observation rest ih =>
      obtain ⟨last, before⟩ := observation
      cases hit with
      | false =>
          rw [iff_false_right (not_sustained_miss hperiod hn), of, observe_miss]
          omega
      | true =>
          have hlast : (of period ((last, before) :: rest)).last = last := observe_last _
          by_cases hone : n = 1
          · subst hone
            exact iff_of_true (one_le_observe _ (cycles_nonneg ..)) (sustained_one fun _ => hordered.le_head)
          have hlong : 1 < n := by omega
          by_cases hsame : last = cycle
          · -- a further hit in the cycle
            subst hsame
            rw [sustained_same hperiod hlong, ← ih hn hordered.tail, of, observe_same _ hlast]
            omega
          by_cases hnext : last ≠ 0 ∧ cycle = last + period
          · -- the next cycle
            obtain ⟨hzero, rfl⟩ := hnext
            rw [sustained_next hperiod hlong hzero, ← ih (by omega) hordered.tail, of,
              observe_next _ (by rwa [hlast]) hperiod (by rw [hlast])]
            omega
          · -- a gap
            have hle := hordered.le_sub hsame
            rw [of, observe_gap _ (by rwa [hlast]) (by rw [hlast]; omega)]
            refine iff_of_false (by omega) (not_sustained_gap hlong fun other hother heq => ?_)
            dsimp only at hle
            rcases List.mem_cons.mp hother with rfl | hother
            · dsimp only at heq
              omega
            · have hother : other.1 ≤ last := by
                rcases List.mem_cons.mp hother with rfl | hother
                · exact le_refl _
                · exact hordered.tail.le_head hother
              omega

end Streak

end VirtInfra.Lib
