import Mathlib.Algebra.BigOperators.Group.List.Basic
import Mathlib.Algebra.GroupWithZero.Nat

/-!
# `Counters` — the eight counters of an interface

Agent and monitor speak about the same eight counters: the agent reads them, sends differences, and the monitor adds
the differences up. They add, subtract and compare field by field.
-/

namespace VirtInfra

/-- The eight counters of an interface, or as many differences or sums of them. -/
@[ext] structure Counters where
  rx : Nat
  tx : Nat
  rxPackets : Nat
  txPackets : Nat
  rxDrop : Nat
  txDrop : Nat
  rxError : Nat
  txError : Nat
  deriving DecidableEq, Repr

namespace Counters

instance : Zero Counters := ⟨⟨0, 0, 0, 0, 0, 0, 0, 0⟩⟩

instance : Add Counters :=
  ⟨fun a b => ⟨a.rx + b.rx, a.tx + b.tx, a.rxPackets + b.rxPackets, a.txPackets + b.txPackets,
    a.rxDrop + b.rxDrop, a.txDrop + b.txDrop, a.rxError + b.rxError, a.txError + b.txError⟩⟩

/-- Field by field, from one operation on a field. -/
def zipWith (f : Nat → Nat → Nat) (a b : Counters) : Counters :=
  ⟨f a.rx b.rx, f a.tx b.tx, f a.rxPackets b.rxPackets, f a.txPackets b.txPackets,
    f a.rxDrop b.rxDrop, f a.txDrop b.txDrop, f a.rxError b.rxError, f a.txError b.txError⟩

instance : AddCommMonoid Counters where
  add_assoc a b c := Counters.ext (Nat.add_assoc ..) (Nat.add_assoc ..) (Nat.add_assoc ..) (Nat.add_assoc ..)
    (Nat.add_assoc ..) (Nat.add_assoc ..) (Nat.add_assoc ..) (Nat.add_assoc ..)
  zero_add a := Counters.ext (Nat.zero_add _) (Nat.zero_add _) (Nat.zero_add _) (Nat.zero_add _)
    (Nat.zero_add _) (Nat.zero_add _) (Nat.zero_add _) (Nat.zero_add _)
  add_zero _ := rfl
  add_comm a b := Counters.ext (Nat.add_comm ..) (Nat.add_comm ..) (Nat.add_comm ..) (Nat.add_comm ..)
    (Nat.add_comm ..) (Nat.add_comm ..) (Nat.add_comm ..) (Nat.add_comm ..)
  nsmul := nsmulRec

/-- No counter of `a` is above the one of `b`. -/
instance : LE Counters :=
  ⟨fun a b => a.rx ≤ b.rx ∧ a.tx ≤ b.tx ∧ a.rxPackets ≤ b.rxPackets ∧ a.txPackets ≤ b.txPackets ∧
    a.rxDrop ≤ b.rxDrop ∧ a.txDrop ≤ b.txDrop ∧ a.rxError ≤ b.rxError ∧ a.txError ≤ b.txError⟩

instance (a b : Counters) : Decidable (a ≤ b) := inferInstanceAs (Decidable (_ ∧ _))

theorem le_refl (a : Counters) : a ≤ a :=
  ⟨Nat.le_refl _, Nat.le_refl _, Nat.le_refl _, Nat.le_refl _, Nat.le_refl _, Nat.le_refl _, Nat.le_refl _,
    Nat.le_refl _⟩

theorem le_trans {a b c : Counters} (h : a ≤ b) (h' : b ≤ c) : a ≤ c := by
  obtain ⟨h₁, h₂, h₃, h₄, h₅, h₆, h₇, h₈⟩ := h
  obtain ⟨h₁', h₂', h₃', h₄', h₅', h₆', h₇', h₈'⟩ := h'
  exact ⟨Nat.le_trans h₁ h₁', Nat.le_trans h₂ h₂', Nat.le_trans h₃ h₃', Nat.le_trans h₄ h₄',
    Nat.le_trans h₅ h₅', Nat.le_trans h₆ h₆', Nat.le_trans h₇ h₇', Nat.le_trans h₈ h₈'⟩

end Counters

/-! ## The byte counters by direction -/

/-- The two directions of traffic, as the host's tap device sees them. -/
inductive Direction | rx | tx
  deriving DecidableEq, Repr

/-- A guest receives what the host transmits on its tap device. -/
def Direction.swap : Direction → Direction
  | rx => tx
  | tx => rx

def Counters.bytes (c : Counters) : Direction → Nat
  | .rx => c.rx
  | .tx => c.tx

@[simp] theorem Counters.zero_bytes (dir : Direction) : (0 : Counters).bytes dir = 0 := by cases dir <;> rfl

@[simp] theorem Counters.add_bytes (a b : Counters) (dir : Direction) :
    (a + b).bytes dir = a.bytes dir + b.bytes dir := by
  cases dir <;> rfl

theorem Counters.sum_bytes (l : List Counters) (dir : Direction) :
    l.sum.bytes dir = (l.map fun c => c.bytes dir).sum := by
  induction l with
  | nil => simp
  | cons c l ih => simp [ih]

end VirtInfra
