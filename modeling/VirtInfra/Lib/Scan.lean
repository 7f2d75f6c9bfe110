import Mathlib.Data.List.Basic

/-!
# `Scan` — text read from left to right, piece by piece

A scanner stands at a position of a text, looks at the character before it and at all that follows, says what stands here and
how many further characters belong to it, and goes on behind them. Lexers, global replacements of a pattern and percent
escapes are all of this kind; what differs is the step.

`scan_induction` is the induction that follows a scanner: a statement about a text may be assumed of what is left behind the
first piece. `flatten_scan` is the round trip of a scanner whose pieces hold what they were read from.
-/

namespace VirtInfra.Lib

section Scan

variable {α β : Type*} (step : Option α → α → List α → β × Nat)

/-- Reads on behind the next `skip` characters; `prev` is the character before the text. -/
def scanFrom : Option α → Nat → List α → List β
  | _, _, [] => []
  | _, skip + 1, a :: rest => scanFrom (some a) skip rest
  | prev, 0, a :: rest => (step prev a rest).1 :: scanFrom (some a) (step prev a rest).2 rest

attribute [local simp] scanFrom

/-- **Reads the whole text.** -/
def scan (text : List α) : List β := scanFrom step none 0 text

/-- The character before what is left of a text after `n` of it. -/
def before (prev : Option α) (text : List α) (n : Nat) : Option α := (text.take n).getLast?.or prev

@[simp] theorem before_zero (prev : Option α) (text : List α) : before prev text 0 = prev := by
  simp [before]

theorem before_cons (prev : Option α) (a : α) (text : List α) (n : Nat) :
    before prev (a :: text) (n + 1) = before (some a) text n := by
  unfold before
  rw [List.take_succ_cons, List.getLast?_cons]
  cases (text.take n).getLast? with
  | none => simp
  | some b => simp

variable {step}

/-- To skip is to start further on. -/
theorem scanFrom_drop (prev : Option α) (skip : Nat) (text : List α) :
    scanFrom step prev skip text = scanFrom step (before prev text skip) 0 (text.drop skip) := by
  induction text generalizing prev skip with
  | nil => cases skip <;> simp
  | cons a rest ih =>
      cases skip with
      | zero => simp
      | succ skip => rw [scanFrom, ih, before_cons, List.drop_succ_cons]

theorem scanFrom_cons (prev : Option α) (a : α) (rest : List α) :
    scanFrom step prev 0 (a :: rest) = (step prev a rest).1 ::
      scanFrom step (before (some a) rest (step prev a rest).2) 0 (rest.drop (step prev a rest).2) := by
  rw [scanFrom, scanFrom_drop]

variable (step) in
/-- **The induction that follows a scanner.** -/
theorem scan_induction {motive : Option α → List α → Prop} (nil : ∀ prev, motive prev [])
    (cons : ∀ prev a rest,
      motive (before (some a) rest (step prev a rest).2) (rest.drop (step prev a rest).2) → motive prev (a :: rest))
    (prev : Option α) (text : List α) : motive prev text := by
  -- The text that is left gets shorter, by what was skipped and the character itself.
  induction hlen : text.length using Nat.strongRecOn generalizing prev text with
  | ind n ih =>
      cases text with
      | nil => exact nil prev
      | cons a rest =>
          apply cons
          apply ih (rest.drop (step prev a rest).2).length
          · rw [← hlen, List.length_drop, List.length_cons]
            omega
          · rfl

/-- **Pieces that hold what they were read from give back the text.** -/
theorem flatten_scan {text : β → List α}
    (h : ∀ prev a rest, text (step prev a rest).1 = a :: rest.take (step prev a rest).2) (prev : Option α) (s : List α) :
    (scanFrom step prev 0 s).flatMap text = s := by
  induction prev, s using scan_induction step with
  | nil prev => simp
  | cons prev a rest ih => rw [scanFrom_cons, List.flatMap_cons, ih, h, List.cons_append, List.take_append_drop]

end Scan

/-! ## Scanners that do not look back -/

section Free

variable {α β : Type*} {step : α → List α → β × Nat}

/-- A step that does not look at the character before. -/
def ahead (step : α → List α → β × Nat) : Option α → α → List α → β × Nat := fun _ => step

theorem scanFrom_ahead (prev : Option α) (text : List α) : scanFrom (ahead step) prev 0 text = scan (ahead step) text := by
  cases text with
  | nil => simp [scan, scanFrom]
  | cons a rest => simp [scan, scanFrom, ahead]

@[simp] theorem scan_nil : scan (ahead step) [] = [] := by
  simp [scan, scanFrom]

theorem scan_cons (a : α) (rest : List α) :
    scan (ahead step) (a :: rest) = (step a rest).1 :: scan (ahead step) (rest.drop (step a rest).2) := by
  unfold scan
  rw [scanFrom_cons, scanFrom_ahead]
  rfl

end Free

end VirtInfra.Lib
