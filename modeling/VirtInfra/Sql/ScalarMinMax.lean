import VirtInfra.Lib.Loop
import VirtInfra.Lib.Scan
import VirtInfra.Python.Prelude

/-!
# `ScalarMinMax` — `MAX(a, b)` becomes `GREATEST(a, b)` (`bw_pg.py`)

SQLite's `MAX` and `MIN` are aggregates with one argument and scalar functions with more. `_translate_scalar_minmax` looks for
the first call with a comma among its arguments, renames it, and starts all over until it finds none. A comma counts outside
of quotes and of inner parentheses, so a call may hold others of either kind.

The loop ends, and what it returns is one pass over the text that renames the calls that are scalar in the text as it was: no
renaming changes which of the other calls are. Quotes are read from where a call starts, so a call inside of a literal is
taken for one; that is how the source reads it.
-/

namespace VirtInfra.Sql

open Lib Python

/-! ## A call -/

/-- A letter of the pattern under `re.I`, where both dotted and dotless letters stand for an `I`. -/
def isLetter (letter : Char) (c : Char) : Bool :=
  c = letter || c = letter.toLower || (letter = 'I' && (c = 'İ' || c = 'ı'))

/-- `MAX|MIN`: whether it is `MAX`, and what follows. -/
def keyword : List Char → Option (Bool × List Char)
  | a :: b :: c :: rest =>
      if isLetter 'M' a && isLetter 'A' b && isLetter 'X' c then some (true, rest)
      else if isLetter 'M' a && isLetter 'I' b && isLetter 'N' c then some (false, rest)
      else none
  | _ => none

/-- `\s*\(`: what follows the parenthesis. -/
def openParen (text : List Char) : Option (List Char) :=
  match text.dropWhile isSpace with
  | '(' :: rest => some rest
  | _ => none

/-- `\b(MAX|MIN)\s*\(`, where `word` is `\w` and `prev` the character before: whether it is `MAX`, and the arguments with all
that follows. A match holds one letter M, so that no two matches overlap. -/
def callAt (word : Char → Bool) (prev : Option Char) (text : List Char) : Option (Bool × List Char) :=
  if prev.any word then none
  else (keyword text).bind fun call => (openParen call.2).map fun args => (call.1, args)

/-- **The scan of the arguments**, inside of `quote` and of `depth` parentheses: whether there is a comma between them, and
how many characters they have. There is no end to a call that is not closed. -/
def arguments : Option Char → Nat → List Char → Option (Bool × Nat)
  | _, _, [] => none
  | some _, _, [_] => none
  | some quote, depth, c :: nxt :: rest =>
      if c = quote then
        if nxt = quote then (arguments (some quote) depth rest).map fun r => (r.1, r.2 + 2)
        else (arguments none depth (nxt :: rest)).map fun r => (r.1, r.2 + 1)
      else (arguments (some quote) depth (nxt :: rest)).map fun r => (r.1, r.2 + 1)
  | none, depth, c :: rest =>
      if c = '\'' ∨ c = '"' then (arguments (some c) depth rest).map fun r => (r.1, r.2 + 1)
      else if c = '(' then (arguments none (depth + 1) rest).map fun r => (r.1, r.2 + 1)
      else if c = ')' then
        if depth = 1 then some (false, 0) else (arguments none (depth - 1) rest).map fun r => (r.1, r.2 + 1)
      else if c = ',' ∧ depth = 1 then (arguments none depth rest).map fun r => (true, r.2 + 1)
      else (arguments none depth rest).map fun r => (r.1, r.2 + 1)

attribute [local simp] arguments

/-- `"GREATEST(" if … else "LEAST("`, up to the parenthesis. -/
def scalarName (isMax : Bool) : List Char :=
  if isMax then ['G', 'R', 'E', 'A', 'T', 'E', 'S', 'T'] else ['L', 'E', 'A', 'S', 'T']

/-! ## The loop of the source -/

/-- The renaming of the first call with a comma. -/
def rewriteCall (word : Char → Bool) (prev : Option Char) (text : List Char) : Option (List Char) :=
  (callAt word prev text).bind fun call =>
    match arguments none 1 call.2 with
    | some (true, n) => some (scalarName call.1 ++ '(' :: call.2.take n ++ ')' :: call.2.drop (n + 1))
    | _ => none

/-- The text after one round of the loop, if it changed. -/
def rewriteFrom (word : Char → Bool) : Option Char → List Char → Option (List Char)
  | _, [] => none
  | prev, c :: rest =>
      match rewriteCall word prev (c :: rest) with
      | some text => some text
      | none => (rewriteFrom word (some c) rest).map (c :: ·)

/-- **`_translate_scalar_minmax`**, for as many rounds as there is fuel. -/
def translateScalarMinmax (word : Char → Bool) (fuel : Nat) (sql : List Char) : Option (List Char) :=
  rewriteLoop (rewriteFrom word none) fuel sql

/-! ## One pass -/

/-- The call that starts here is scalar. -/
def scalarCallAt (word : Char → Bool) (prev : Option Char) (text : List Char) : Option (Bool × List Char) :=
  (callAt word prev text).filter fun call => (arguments none 1 call.2).any Prod.fst

/-- What is put out here, and how many more characters it stands for. -/
def renameAt (word : Char → Bool) (prev : Option Char) (c : Char) (rest : List Char) : List Char × Nat :=
  match scalarCallAt word prev (c :: rest) with
  | some (isMax, args) => (scalarName isMax ++ ['('], rest.length - args.length)
  | none => ([c], 0)

/-- **Every scalar call under its new name**, and everything else as it is. -/
def renameScalarCalls (word : Char → Bool) (sql : List Char) : List Char := (scan (renameAt word) sql).flatten

/-- How many calls there are. -/
def countCalls (word : Char → Bool) : Option Char → List Char → Nat
  | _, [] => 0
  | prev, c :: rest => (if (callAt word prev (c :: rest)).isSome then 1 else 0) + countCalls word (some c) rest

/-! ## What the scan of the arguments sees -/

/-- One character more. -/
def longer (r : Bool × Nat) : Bool × Nat := (r.1, r.2 + 1)

@[simp] theorem map_fst_longer (r : Option (Bool × Nat)) : (r.map longer).map Prod.fst = r.map Prod.fst := by
  cases r <;> rfl

/-- What opens a literal. -/
abbrev IsQuote (c : Char) : Prop := c = '\'' ∨ c = '"'

/-- A quote closes: that a doubled one does not is the same, as the second one opens again. -/
theorem arguments_close {quote : Char} (h : IsQuote quote) (depth : Nat) (rest : List Char) :
    arguments (some quote) depth (quote :: rest) = (arguments none depth rest).map longer := by
  cases rest with
  | nil => simp
  | cons nxt rest =>
      by_cases hnxt : nxt = quote
      · subst hnxt
        rw [arguments, if_pos rfl, if_pos rfl, arguments, if_pos h, Option.map_map]
        rfl
      · rw [arguments, if_pos rfl, if_neg hnxt]
        rfl

theorem arguments_inside {quote c : Char} (h : c ≠ quote) (depth : Nat) (rest : List Char) :
    arguments (some quote) depth (c :: rest) = (arguments (some quote) depth rest).map longer := by
  cases rest with
  | nil => simp
  | cons nxt rest =>
      rw [arguments, if_neg h]
      rfl

/-- Characters that mean nothing to the scan. -/
def Neutral (chars : List Char) : Prop := ∀ c ∈ chars, ¬ IsQuote c ∧ c ≠ '(' ∧ c ≠ ')' ∧ c ≠ ','

theorem arguments_neutral {quote : Option Char} (hquote : ∀ c ∈ quote, IsQuote c) {chars : List Char} (h : Neutral chars)
    (depth : Nat) (rest : List Char) :
    (arguments quote depth (chars ++ rest)).map Prod.fst = (arguments quote depth rest).map Prod.fst := by
  induction chars with
  | nil => rfl
  | cons c chars ih =>
      obtain ⟨hc, hopen, hclose, hcomma⟩ := h c List.mem_cons_self
      have hstep : arguments quote depth (c :: (chars ++ rest)) = (arguments quote depth (chars ++ rest)).map longer := by
        cases quote with
        | none =>
            rw [arguments, if_neg hc, if_neg hopen, if_neg hclose, if_neg fun h => hcomma h.1]
            rfl
        | some quote =>
            have hne : c ≠ quote := by
              rintro rfl
              exact hc (hquote c rfl)
            exact arguments_inside hne depth _
      rw [List.cons_append, hstep, map_fst_longer]
      exact ih fun d hd => h d (List.mem_cons_of_mem _ hd)

/-- **What means nothing can be exchanged**, wherever it stands. -/
theorem arguments_exchange {quote : Option Char} (hquote : ∀ c ∈ quote, IsQuote c) {w w' : List Char} (hw : Neutral w)
    (hw' : Neutral w') (p u : List Char) (depth : Nat) :
    (arguments quote depth (p ++ (w ++ u))).map Prod.fst = (arguments quote depth (p ++ (w' ++ u))).map Prod.fst := by
  induction p generalizing quote depth with
  | nil => rw [List.nil_append, List.nil_append, arguments_neutral hquote hw, arguments_neutral hquote hw']
  | cons c p ih =>
      rw [List.cons_append, List.cons_append]
      cases quote with
      | some quote =>
          by_cases hc : c = quote
          · subst hc
            rw [arguments_close (hquote c rfl), arguments_close (hquote c rfl), map_fst_longer, map_fst_longer]
            exact ih (by simp) depth
          · rw [arguments_inside hc, arguments_inside hc, map_fst_longer, map_fst_longer]
            exact ih hquote depth
      | none =>
          rw [arguments, arguments]
          by_cases hq : c = '\'' ∨ c = '"'
          · rw [if_pos hq, if_pos hq]
            exact (map_fst_longer _).trans ((ih (by simpa [IsQuote] using hq) depth).trans (map_fst_longer _).symm)
          rw [if_neg hq, if_neg hq]
          by_cases hopen : c = '('
          · rw [if_pos hopen, if_pos hopen]
            exact (map_fst_longer _).trans ((ih (by simp) (depth + 1)).trans (map_fst_longer _).symm)
          rw [if_neg hopen, if_neg hopen]
          by_cases hclose : c = ')'
          · rw [if_pos hclose, if_pos hclose]
            by_cases hdepth : depth = 1
            · rw [if_pos hdepth, if_pos hdepth]
            · rw [if_neg hdepth, if_neg hdepth]
              exact (map_fst_longer _).trans ((ih (by simp) (depth - 1)).trans (map_fst_longer _).symm)
          rw [if_neg hclose, if_neg hclose]
          by_cases hcomma : c = ',' ∧ depth = 1
          · -- Only whether the call is closed counts behind its comma.
            rw [if_pos hcomma, if_pos hcomma]
            have hsome := congrArg (Option.map fun _ => true) (ih (by simp : ∀ c ∈ (none : Option Char), IsQuote c) depth)
            simpa [Option.map_map, Function.comp_def] using hsome
          · rw [if_neg hcomma, if_neg hcomma]
            exact (map_fst_longer _).trans ((ih (by simp) depth).trans (map_fst_longer _).symm)

/-- The arguments end before a closing parenthesis. -/
theorem arguments_take {quote : Option Char} (hquote : ∀ c ∈ quote, IsQuote c) {depth : Nat} {text : List Char}
    {comma : Bool} {n : Nat} (h : arguments quote depth text = some (comma, n)) :
    text.take n ++ ')' :: text.drop (n + 1) = text := by
  induction text generalizing quote depth comma n with
  | nil => cases quote <;> simp at h
  | cons c rest ih =>
      have hrest : ∀ {quote : Option Char} {depth : Nat} {g : Bool → Bool}, (∀ c ∈ quote, IsQuote c) →
          (arguments quote depth rest).map (fun r => (g r.1, r.2 + 1)) = some (comma, n) →
          (c :: rest).take n ++ ')' :: (c :: rest).drop (n + 1) = c :: rest := by
        intro quote depth g hquote hmap
        obtain ⟨⟨comma', n'⟩, hr, heq⟩ := Option.map_eq_some_iff.mp hmap
        obtain ⟨-, rfl⟩ := Prod.mk.inj heq
        rw [List.take_succ_cons, List.drop_succ_cons, List.cons_append, ih hquote hr]
      cases quote with
      | some quote =>
          by_cases hc : c = quote
          · subst hc
            rw [arguments_close (hquote c rfl)] at h
            exact hrest (g := id) (by simp) h
          · rw [arguments_inside hc] at h
            exact hrest (g := id) hquote h
      | none =>
          rw [arguments] at h
          split_ifs at h with hq hopen hclose hdepth hcomma
          · exact hrest (g := id) (by simpa using hq) h
          · exact hrest (g := id) (by simp) h
          · obtain ⟨-, rfl⟩ := Prod.mk.inj (Option.some.inj h)
            rw [hclose, List.take_zero, List.drop_succ_cons, List.drop_zero, List.nil_append]
          · exact hrest (g := id) (by simp) h
          · exact hrest (g := fun _ => true) (by simp) h
          · exact hrest (g := id) (by simp) h

/-! ## What a call is made of -/

/-- A character that no call goes on with, behind its first letter. -/
def foreign (c : Char) : Bool :=
  !isLetter 'A' c && !isLetter 'X' c && !isLetter 'I' c && !isLetter 'N' c && !isSpace c && c != '('

/-- **What stands before the parenthesis of a call**, and what is put in its place: it means nothing to the scan of another
call's arguments, and no other call goes on with it. -/
structure Inert (chars : List Char) : Prop where
  neutral : Neutral chars
  foreign : ∃ f rest, chars = f :: rest ∧ foreign f = true

theorem inert_scalarName (isMax : Bool) : Inert (scalarName isMax) := by
  cases isMax with
  | true => exact ⟨by simp [Neutral, scalarName, IsQuote], 'G', _, rfl, by decide⟩
  | false => exact ⟨by simp [Neutral, scalarName, IsQuote], 'L', _, rfl, by decide⟩

section Foreign

variable {f : Char} {x : List Char}

theorem foreign_iff : foreign f = true ↔ isLetter 'A' f = false ∧ isLetter 'X' f = false ∧ isLetter 'I' f = false ∧
    isLetter 'N' f = false ∧ isSpace f = false ∧ f ≠ '(' := by
  simp [foreign, and_assoc]

theorem openParen_append (hf : foreign f = true) (text : List Char) :
    openParen (text ++ f :: x) = (openParen text).map (· ++ f :: x) := by
  obtain ⟨-, -, -, -, hspace, hparen⟩ := foreign_iff.mp hf
  unfold openParen
  rw [List.dropWhile_append]
  cases hdrop : text.dropWhile isSpace with
  | nil =>
      rw [List.isEmpty_nil, if_pos rfl, List.dropWhile_cons_of_neg (by simp [hspace])]
      split
      · next heq => exact absurd (List.cons.inj heq).1 hparen
      · rfl
  | cons c rest =>
      rw [List.isEmpty_cons, if_neg Bool.false_ne_true, List.cons_append]
      by_cases hc : c = '('
      · subst hc
        rfl
      · split
        · next heq => exact absurd (List.cons.inj heq).1 hc
        · split
          · next heq => exact absurd (List.cons.inj heq).1 hc
          · rfl

theorem keyword_append (hf : foreign f = true) {text : List Char} (hne : text ≠ []) :
    keyword (text ++ f :: x) = (keyword text).map fun call => (call.1, call.2 ++ f :: x) := by
  obtain ⟨hA, hX, hI, hN, -, -⟩ := foreign_iff.mp hf
  match text with
  | [] => exact absurd rfl hne
  | [a] => cases x <;> simp [keyword, hA, hI]
  | [a, b] => simp [keyword, hX, hN]
  | a :: b :: c :: rest =>
      simp only [List.cons_append, keyword]
      split_ifs <;> rfl

/-- **A call before a foreign character ends before it.** -/
theorem callAt_append (word : Char → Bool) (prev : Option Char) (hf : foreign f = true) {text : List Char}
    (hne : text ≠ []) :
    callAt word prev (text ++ f :: x) = (callAt word prev text).map fun call => (call.1, call.2 ++ f :: x) := by
  unfold callAt
  split
  · rfl
  · rw [keyword_append hf hne]
    cases keyword text with
    | none => rfl
    | some call =>
        simp only [Option.map_some, Option.bind_some, openParen_append hf, Option.map_map]
        rfl

end Foreign

/-- No call starts with another letter. -/
theorem callAt_of_not_letter (word : Char → Bool) (prev : Option Char) {c : Char} (hc : isLetter 'M' c = false)
    (rest : List Char) : callAt word prev (c :: rest) = none := by
  have hkeyword : keyword (c :: rest) = none := by
    match rest with
    | [] => rfl
    | [_] => rfl
    | a :: b :: rest => simp [keyword, hc]
  unfold callAt
  rw [hkeyword]
  split <;> rfl

theorem keyword_eq_some {text rest : List Char} {isMax : Bool} (h : keyword text = some (isMax, rest)) :
    ∃ m b c, text = m :: b :: c :: rest ∧ isLetter 'M' m = true ∧ (isLetter 'A' b = true ∨ isLetter 'I' b = true) ∧
      (isLetter 'X' c = true ∨ isLetter 'N' c = true) := by
  match text, h with
  | m :: b :: c :: more, h =>
      simp only [keyword, Bool.and_eq_true] at h
      split_ifs at h with hmax hmin
      · obtain ⟨-, rfl⟩ := Prod.mk.inj (Option.some.inj h)
        exact ⟨m, b, c, rfl, hmax.1.1, .inl hmax.1.2, .inl hmax.2⟩
      · obtain ⟨-, rfl⟩ := Prod.mk.inj (Option.some.inj h)
        exact ⟨m, b, c, rfl, hmin.1.1, .inr hmin.1.2, .inr hmin.2⟩

theorem openParen_eq_some {text rest : List Char} (h : openParen text = some rest) :
    ∃ blanks, text = blanks ++ '(' :: rest ∧ ∀ c ∈ blanks, isSpace c = true := by
  refine ⟨text.takeWhile isSpace, ?_, fun c hc => List.mem_takeWhile_imp hc⟩
  unfold openParen at h
  split at h
  · next more hdrop =>
      obtain rfl := Option.some.inj h
      rw [← hdrop, List.takeWhile_append_dropWhile]
  · cases h

/-- **The head of a call**: one letter M, and what can stand between it and the parenthesis. -/
theorem callAt_head {word : Char → Bool} {prev : Option Char} {text args : List Char} {isMax : Bool}
    (h : callAt word prev text = some (isMax, args)) :
    ∃ m tail, text = m :: tail ++ '(' :: args ∧ Inert (m :: tail) ∧ ∀ c ∈ tail, isLetter 'M' c = false := by
  unfold callAt at h
  split at h
  · cases h
  obtain ⟨⟨isMax', rest⟩, hkeyword, hopen⟩ := Option.bind_eq_some_iff.mp h
  obtain ⟨args', hparen, heq⟩ := Option.map_eq_some_iff.mp hopen
  obtain ⟨rfl, rfl⟩ := Prod.mk.inj heq
  obtain ⟨m, b, c, rfl, hm, hb, hc⟩ := keyword_eq_some hkeyword
  obtain ⟨blanks, rfl, hblanks⟩ := openParen_eq_some hparen
  have hletter : ∀ {c}, isLetter 'A' c = true ∨ isLetter 'I' c = true ∨ isLetter 'X' c = true ∨ isLetter 'N' c = true ∨
      isSpace c = true → isLetter 'M' c = false ∧ ¬ IsQuote c ∧ c ≠ '(' ∧ c ≠ ')' ∧ c ≠ ',' := by
    intro c hc
    refine ⟨Bool.eq_false_iff.mpr fun hM => ?_, ?_, ?_, ?_, ?_⟩
    · have hcases : c = 'M' ∨ c = 'm' := by simpa [isLetter] using hM
      rcases hcases with rfl | rfl <;> revert hc <;> decide
    · rintro (rfl | rfl) <;> revert hc <;> decide
    all_goals
      rintro rfl
      revert hc
      decide
  have hfirst : m = 'M' ∨ m = 'm' := by simpa [isLetter] using hm
  have htail : ∀ d ∈ b :: c :: blanks, isLetter 'M' d = false ∧ ¬ IsQuote d ∧ d ≠ '(' ∧ d ≠ ')' ∧ d ≠ ',' := by
    intro d hd
    rcases List.mem_cons.mp hd with rfl | hd
    · exact hletter (hb.elim .inl fun h => .inr (.inl h))
    rcases List.mem_cons.mp hd with rfl | hd
    · exact hletter (hc.elim (fun h => .inr (.inr (.inl h))) fun h => .inr (.inr (.inr (.inl h))))
    · exact hletter (.inr (.inr (.inr (.inr (hblanks d hd)))))
  refine ⟨m, b :: c :: blanks, rfl, ⟨fun d hd => ?_, m, _, rfl, ?_⟩, fun d hd => (htail d hd).1⟩
  · rcases List.mem_cons.mp hd with rfl | hd
    · rcases hfirst with rfl | rfl <;> decide
    · exact (htail d hd).2
  · rcases hfirst with rfl | rfl <;> decide

/-! ## What a renaming leaves -/

/-- **A text and what is left of it when one inert part is exchanged.** -/
def Exchanged (text text' : List Char) : Prop :=
  ∃ p w w' u, text = p ++ (w ++ u) ∧ text' = p ++ (w' ++ u) ∧ Inert w ∧ Inert w'

theorem Exchanged.cons {text text' : List Char} (h : Exchanged text text') (c : Char) :
    Exchanged (c :: text) (c :: text') := by
  obtain ⟨p, w, w', u, rfl, rfl, hw, hw'⟩ := h
  exact ⟨c :: p, w, w', u, rfl, rfl, hw, hw'⟩

section Exchange

variable {text text' : List Char}

/-- **Another call stays a call, scalar or not.** -/
theorem Exchanged.callAt (h : Exchanged text text') (word : Char → Bool) (prev : Option Char) (c : Char) :
    (callAt word prev (c :: text)).isSome = (Sql.callAt word prev (c :: text')).isSome ∧
      (scalarCallAt word prev (c :: text)).map Prod.fst = (scalarCallAt word prev (c :: text')).map Prod.fst := by
  obtain ⟨p, w, w', u, rfl, rfl, hw, hw'⟩ := h
  obtain ⟨f, more, rfl, hf⟩ := hw.foreign
  obtain ⟨f', more', rfl, hf'⟩ := hw'.foreign
  have hbefore := callAt_append word prev (x := more ++ u) hf (List.cons_ne_nil c p)
  have hafter := callAt_append word prev (x := more' ++ u) hf' (List.cons_ne_nil c p)
  simp only [List.cons_append] at hbefore hafter ⊢
  unfold scalarCallAt
  rw [hbefore, hafter, Option.isSome_map, Option.isSome_map]
  refine ⟨rfl, ?_⟩
  cases Sql.callAt word prev (c :: p) with
  | none => rfl
  | some call =>
      have hsame := arguments_exchange (by simp : ∀ c ∈ (none : Option Char), IsQuote c) hw.neutral hw'.neutral call.2 u 1
      simp only [List.cons_append] at hsame
      have hany : ∀ r : Option (Bool × Nat), r.any Prod.fst = (r.map Prod.fst).any id := fun r => by cases r <;> rfl
      simp only [Option.map_some, Option.filter_some, hany, hsame]
      split <;> rfl

end Exchange

/-! ## The pass, piece by piece -/

section Pass

variable {word : Char → Bool}

/-- The pass from a position on. -/
def renameFrom (word : Char → Bool) (prev : Option Char) (text : List Char) : List Char :=
  (scanFrom (renameAt word) prev 0 text).flatten

theorem renameFrom_of_none {prev : Option Char} {c : Char} {rest : List Char}
    (h : scalarCallAt word prev (c :: rest) = none) :
    renameFrom word prev (c :: rest) = c :: renameFrom word (some c) rest := by
  have hstep : renameAt word prev c rest = ([c], 0) := by
    unfold renameAt
    rw [h]
  rw [renameFrom, scanFrom_cons, hstep, before_zero, List.drop_zero, List.flatten_cons]
  rfl

/-- The pass puts out a scalar call under its new name, and goes on with its arguments. -/
theorem renameFrom_call {prev : Option Char} {m : Char} {tail args : List Char} {isMax : Bool}
    (h : scalarCallAt word prev (m :: tail ++ '(' :: args) = some (isMax, args)) :
    renameFrom word prev (m :: tail ++ '(' :: args) = scalarName isMax ++ '(' :: renameFrom word (some '(') args := by
  have hstep : renameAt word prev m (tail ++ '(' :: args) = (scalarName isMax ++ ['('], tail.length + 1) := by
    unfold renameAt
    rw [List.cons_append] at h
    rw [h]
    simp only [Prod.mk.injEq, true_and, List.length_append, List.length_cons]
    omega
  have hbefore : before (some m) (tail ++ '(' :: args) (tail.length + 1) = some '(' := by
    simp [before, List.take_append]
  have hdrop : (tail ++ '(' :: args).drop (tail.length + 1) = args := by
    simp [List.drop_append]
  rw [renameFrom, List.cons_append, scanFrom_cons, hstep, hbefore, hdrop, List.flatten_cons, List.append_assoc]
  rfl

/-- Where no call can start, nothing is renamed and nothing is counted. -/
theorem pass_of_no_letter (word : Char → Bool) {w : List Char} (hw : ∀ c ∈ w, isLetter 'M' c = false) (prev : Option Char) (text : List Char) :
    renameFrom word prev (w ++ text) = w ++ renameFrom word (w.getLast?.or prev) text ∧
      countCalls word prev (w ++ text) = countCalls word (w.getLast?.or prev) text := by
  induction w generalizing prev with
  | nil => exact ⟨rfl, rfl⟩
  | cons c w ih =>
      have hnone := callAt_of_not_letter word prev (hw c List.mem_cons_self) (w ++ text)
      obtain ⟨hrename, hcount⟩ := ih (fun d hd => hw d (List.mem_cons_of_mem _ hd)) (some c)
      have hlast : (c :: w).getLast?.or prev = w.getLast?.or (some c) := by
        rw [List.getLast?_cons]
        cases w.getLast? <;> rfl
      rw [List.cons_append, hlast]
      constructor
      · rw [renameFrom_of_none (by rw [scalarCallAt, hnone]; rfl), hrename]
        rfl
      · rw [countCalls, hnone, hcount]
        simp

end Pass

/-! ## The loop and the pass -/

section Loop

variable {word : Char → Bool}

/-- A round renames what the pass renames. -/
theorem rewriteCall_eq_some {prev : Option Char} {text text' : List Char} (h : rewriteCall word prev text = some text') :
    ∃ isMax args, scalarCallAt word prev text = some (isMax, args) ∧ text' = scalarName isMax ++ '(' :: args := by
  obtain ⟨⟨isMax, args⟩, hcall, h⟩ := Option.bind_eq_some_iff.mp h
  dsimp only at h
  split at h
  · next n hargs =>
      obtain rfl := Option.some.inj h
      refine ⟨isMax, args, ?_, ?_⟩
      · rw [scalarCallAt, hcall, Option.filter_some, hargs]
        rfl
      · rw [List.append_assoc, List.cons_append, arguments_take (by simp) hargs]
  · cases h

theorem rewriteCall_eq_none {prev : Option Char} {text : List Char} (h : rewriteCall word prev text = none) :
    scalarCallAt word prev text = none := by
  unfold scalarCallAt
  cases hcall : callAt word prev text with
  | none => rfl
  | some call =>
      rw [rewriteCall, hcall, Option.bind_some] at h
      rw [Option.filter_some]
      cases hargs : arguments none 1 call.2 with
      | none => simp
      | some r =>
          obtain ⟨comma, n⟩ := r
          cases comma with
          | false => simp
          | true => rw [hargs] at h; cases h

/-- **One round**: it exchanges one inert part, and leaves the pass what it is with one call less to come. -/
theorem rewriteFrom_eq_some {prev : Option Char} {text text' : List Char} (h : rewriteFrom word prev text = some text') :
    Exchanged text text' ∧ renameFrom word prev text' = renameFrom word prev text ∧
      countCalls word prev text' + 1 = countCalls word prev text := by
  induction text generalizing prev text' with
  | nil => simp [rewriteFrom] at h
  | cons c rest ih =>
      unfold rewriteFrom at h
      cases hrewrite : rewriteCall word prev (c :: rest) with
      | some found =>
          rw [hrewrite] at h
          obtain rfl := Option.some.inj h
          obtain ⟨isMax, args, hscalar, rfl⟩ := rewriteCall_eq_some hrewrite
          have hcall : callAt word prev (c :: rest) = some (isMax, args) := (Option.filter_eq_some_iff.mp hscalar).1
          obtain ⟨m, tail, htext, hinert, htail⟩ := callAt_head hcall
          obtain ⟨rfl, rfl⟩ := List.cons.inj htext
          -- Neither the new name nor what is left of the old one starts a call.
          have hname : ∀ d ∈ scalarName isMax ++ ['('], isLetter 'M' d = false := by
            cases isMax <;> simp [scalarName, isLetter]
          obtain ⟨hrename, hcount⟩ := pass_of_no_letter word hname prev args
          have htail' : ∀ d ∈ tail ++ ['('], isLetter 'M' d = false := by
            intro d hd
            rcases List.mem_append.mp hd with hd | hd
            · exact htail d hd
            · rw [List.mem_singleton.mp hd]
              decide
          obtain ⟨-, hcount'⟩ := pass_of_no_letter word htail' (some c) args
          simp only [List.append_assoc, List.cons_append, List.nil_append, List.getLast?_append, List.getLast?_singleton,
            Option.some_or] at hrename hcount hcount'
          refine ⟨⟨[], c :: tail, scalarName isMax, '(' :: args, rfl, rfl, hinert, inert_scalarName isMax⟩, ?_, ?_⟩
          · rw [hrename]
            exact (renameFrom_call hscalar).symm
          · rw [hcount, countCalls, hcall, ← hcount']
            exact Nat.add_comm _ 1
      | none =>
          rw [hrewrite] at h
          obtain ⟨rest', hrest, rfl⟩ := Option.map_eq_some_iff.mp h
          obtain ⟨hexchanged, hrename, hcount⟩ := ih hrest
          obtain ⟨hcall, hscalar⟩ := hexchanged.callAt word prev c
          have hnone := rewriteCall_eq_none hrewrite
          have hnone' : scalarCallAt word prev (c :: rest') = none := by
            rw [hnone, Option.map_none] at hscalar
            exact Option.map_eq_none_iff.mp hscalar.symm
          refine ⟨hexchanged.cons c, ?_, ?_⟩
          · rw [renameFrom_of_none hnone, renameFrom_of_none hnone', hrename]
          · rw [countCalls, countCalls, ← hcall, ← hcount, Nat.add_assoc]

/-- Where no round changes anything, no call is scalar. -/
theorem scalarCallAt_of_rewriteFrom {prev : Option Char} {text : List Char} (h : rewriteFrom word prev text = none) :
    renameFrom word prev text = text ∧
      ∀ before after, text = before ++ after → scalarCallAt word (before.getLast?.or prev) after = none := by
  induction text generalizing prev with
  | nil =>
      refine ⟨rfl, fun before after heq => ?_⟩
      obtain ⟨rfl, rfl⟩ := List.append_eq_nil_iff.mp heq.symm
      unfold scalarCallAt callAt
      split <;> rfl
  | cons c rest ih =>
      unfold rewriteFrom at h
      cases hrewrite : rewriteCall word prev (c :: rest) with
      | some found => rw [hrewrite] at h; cases h
      | none =>
          rw [hrewrite] at h
          obtain ⟨hrename, hscalar⟩ := ih (Option.map_eq_none_iff.mp h)
          have hnone := rewriteCall_eq_none hrewrite
          refine ⟨by rw [renameFrom_of_none hnone, hrename], fun before after heq => ?_⟩
          cases before with
          | nil =>
              rw [List.nil_append] at heq
              rw [← heq]
              exact hnone
          | cons a before =>
              obtain ⟨rfl, hrest⟩ := List.cons.inj heq
              have hlast : (c :: before).getLast?.or prev = before.getLast?.or (some c) := by
                rw [List.getLast?_cons]
                cases before.getLast? <;> rfl
              rw [hlast]
              exact hscalar before after hrest

/-- **The pass is the normal form of the rounds**, and each round takes one call away. -/
theorem normalForm_renameScalarCalls (word : Char → Bool) :
    NormalForm (rewriteFrom word none) (renameScalarCalls word) (countCalls word none) where
  smaller text text' h := by
    have hcount := (rewriteFrom_eq_some h).2.2
    omega
  kept _ _ h := (rewriteFrom_eq_some h).2.1
  done _ h := (scalarCallAt_of_rewriteFrom h).1

end Loop

/-- **The loop ends, with one pass over the text that renames exactly the calls that are scalar in it.** In what it returns
no call is scalar, so that a second translation changes nothing. -/
theorem translateScalarMinmax_eq (word : Char → Bool) (sql : List Char) :
    (∀ fuel, countCalls word none sql < fuel →
      translateScalarMinmax word fuel sql = some (renameScalarCalls word sql)) ∧
    (∀ before after, renameScalarCalls word sql = before ++ after → scalarCallAt word before.getLast? after = none) ∧
    renameScalarCalls word (renameScalarCalls word sql) = renameScalarCalls word sql := by
  have hnormal := normalForm_renameScalarCalls word
  refine ⟨fun fuel hfuel => hnormal.rewriteLoop_eq hfuel, fun before after heq => ?_, hnormal.normal_normal sql⟩
  have hscalar := (scalarCallAt_of_rewriteFrom (hnormal.rewrite_normal sql)).2 before after heq
  rwa [Option.or_none] at hscalar

/-- The word characters of ASCII. -/
def asciiWord (c : Char) : Bool := c.isAlphanum || c = '_'

example : renameScalarCalls asciiWord "MAX(MIN(a, b)), max (c, MIN(d))".toList = "MAX(LEAST(a, b)), GREATEST(c, MIN(d))".toList := by
  decide +kernel

theorem translate_nested_calls :
    translateScalarMinmax asciiWord 5 "MAX(MIN(a, b)), max (c, MIN(d))".toList =
      some (renameScalarCalls asciiWord "MAX(MIN(a, b)), max (c, MIN(d))".toList) :=
  (translateScalarMinmax_eq asciiWord "MAX(MIN(a, b)), max (c, MIN(d))".toList).1 5 (by decide +kernel)

end VirtInfra.Sql
