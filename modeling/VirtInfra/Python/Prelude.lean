import Mathlib.Data.List.DropRight
import Mathlib.Data.Rat.Defs

/-!
# `Prelude` — the Python built-ins the modelled code leans on

A value taken out of a JSON payload reaches arithmetic only through `safe_int`, so a numeric field is modelled
by what `int(value)` gives: `some n`, or `none` when the conversion raises or the key is absent. Python's floor
division by a positive literal is Lean's `/` on `Int`.
-/

namespace VirtInfra.Python

/-- `safe_int(value, default)`. -/
def safeInt (value : Option Int) (default : Int) : Int := value.getD default

/-- `max(lo, min(hi, x))`. -/
def clamp (lo hi x : Int) : Int := max lo (min hi x)

/-- `max(0, safe_int(value, 0))`, the reading of every counter and delta of a payload. -/
def counter (value : Option Int) : Nat := (safeInt value 0).toNat

/-- `safe_float(value, default)`, of what `float(value)` gives. -/
def safeFloat (value : Option ℚ) (default : ℚ) : ℚ := value.getD default

/-- The characters `str.strip()` removes. -/
def isSpace (c : Char) : Bool :=
  let n := c.toNat
  (9 ≤ n && n ≤ 13) || (28 ≤ n && n ≤ 32) || n == 0x85 || n == 0xA0 || n == 0x1680 ||
    (0x2000 ≤ n && n ≤ 0x200A) || n == 0x2028 || n == 0x2029 || n == 0x202F || n == 0x205F || n == 0x3000

/-- `s.strip()`. -/
def strip (s : String) : String :=
  String.ofList (((s.toList.dropWhile isSpace).reverse.dropWhile isSpace).reverse)

/-- `s.lower()` on ASCII; the results are only compared with lower-case ASCII words whose letters no other
    character folds to. -/
def lower (s : String) : String := String.ofList (s.toList.map Char.toLower)

/-- `s.upper()` on ASCII, under the same restriction. -/
def upper (s : String) : String := String.ofList (s.toList.map Char.toUpper)

/-- `s[:n]`. -/
def clip (n : Nat) (s : String) : String := String.ofList (s.toList.take n)

theorem clamp_of_mem {lo hi x : Int} (h₁ : lo ≤ x) (h₂ : x ≤ hi) : clamp lo hi x = x := by
  unfold clamp; omega

/-! Fields between separators. -/

/-- What stands before the first separator is known. -/
theorem append_cons_inj_of_prefix {α : Type*} {c : α} {a a' r r' : List α} (ha : c ∉ a) (ha' : c ∉ a')
    (h : a ++ c :: r = a' ++ c :: r') : a = a' ∧ r = r' := by
  induction a generalizing a' with
  | nil =>
      cases a' with
      | nil => exact ⟨rfl, (List.cons.inj h).2⟩
      | cons b rest =>
          obtain ⟨rfl, -⟩ := List.cons.inj h
          exact absurd List.mem_cons_self ha'
  | cons b rest ih =>
      cases a' with
      | nil =>
          obtain ⟨rfl, -⟩ := List.cons.inj h
          exact absurd List.mem_cons_self ha
      | cons b' rest' =>
          obtain ⟨rfl, htail⟩ := List.cons.inj h
          obtain ⟨rfl, rfl⟩ := ih (fun hc => ha (List.mem_cons_of_mem _ hc)) (fun hc => ha' (List.mem_cons_of_mem _ hc))
            htail
          exact ⟨rfl, rfl⟩

/-- So is what stands after the last one. -/
theorem append_cons_inj_of_suffix {α : Type*} {c : α} {a a' r r' : List α} (hr : c ∉ r) (hr' : c ∉ r')
    (h : a ++ c :: r = a' ++ c :: r') : a = a' ∧ r = r' := by
  have hrev := congrArg List.reverse h
  rw [List.reverse_append, List.reverse_append, List.reverse_cons, List.reverse_cons, List.append_assoc,
    List.append_assoc] at hrev
  obtain ⟨hr, ha⟩ := append_cons_inj_of_prefix (by simpa using hr) (by simpa using hr') hrev
  exact ⟨List.reverse_inj.mp ha, List.reverse_inj.mp hr⟩

section Strip

variable {α : Type*} {p : α → Bool} {l : List α}

/-- Dropping at the end keeps a start that is not dropped. -/
theorem dropWhile_rdropWhile (h : l.dropWhile p = l) : (l.rdropWhile p).dropWhile p = l.rdropWhile p := by
  obtain ⟨rest, hrest⟩ := List.rdropWhile_prefix p l
  cases hkept : l.rdropWhile p with
  | nil => rfl
  | cons a kept =>
      rw [hkept, List.cons_append] at hrest
      rw [← hrest, List.dropWhile_cons] at h
      split at h
      · have hlen := (List.dropWhile_sublist p (l := kept ++ rest)).length_le
        rw [h, List.length_cons] at hlen
        omega
      · next ha => rw [List.dropWhile_cons_of_neg ha]

@[simp] theorem strip_strip (s : String) : strip (strip s) = strip s := by
  have hstrip : ∀ s, strip s = String.ofList ((s.toList.dropWhile isSpace).rdropWhile isSpace) := fun _ => rfl
  rw [hstrip, hstrip, String.toList_ofList, dropWhile_rdropWhile (List.dropWhile_idempotent isSpace _),
    List.rdropWhile_idempotent]

end Strip

end VirtInfra.Python
