import VirtInfra.Sql.Lexical

/-!
# `Placeholders` — question marks become psycopg placeholders (`bw_pg.py`)

The application writes `?` where a parameter goes, psycopg reads `%s`. One scanner replaces the question marks outside of
quotes and comments; for a query with parameters a second one doubles the percent signs, except where it takes them for a
placeholder. It cannot tell the placeholders of the first scanner from a percent sign of the query.
-/

namespace VirtInfra.Sql

open Lib

/-! ## `_qmarks_to_psycopg` -/

/-- `quote`, `line_comment` and `block_comment`, of which one is set at most. -/
inductive Mode
  | plain
  | quote (quote : Char)
  | lineComment
  | blockComment
  deriving DecidableEq, Repr

/-- The loop, from a position on. -/
def qmarksFrom : Mode → List Char → List Char
  | _, [] => []
  | .lineComment, c :: rest => c :: qmarksFrom (if c = '\n' then .plain else .lineComment) rest
  | .blockComment, [c] => [c]
  | .blockComment, c :: nxt :: rest =>
      if c = '*' ∧ nxt = '/' then c :: nxt :: qmarksFrom .plain rest else c :: qmarksFrom .blockComment (nxt :: rest)
  | .quote _, [c] => [c]
  | .quote quote, c :: nxt :: rest =>
      if c = quote then
        if nxt = quote then c :: nxt :: qmarksFrom (.quote quote) rest else c :: qmarksFrom .plain (nxt :: rest)
      else c :: qmarksFrom (.quote quote) (nxt :: rest)
  | .plain, [c] => if c = '?' then ['%', 's'] else [c]
  | .plain, c :: nxt :: rest =>
      if c = '-' ∧ nxt = '-' then c :: nxt :: qmarksFrom .lineComment rest
      else if c = '/' ∧ nxt = '*' then c :: nxt :: qmarksFrom .blockComment rest
      else if c = '\'' ∨ c = '"' then c :: qmarksFrom (.quote c) (nxt :: rest)
      else if c = '?' then '%' :: 's' :: qmarksFrom .plain (nxt :: rest)
      else c :: qmarksFrom .plain (nxt :: rest)

attribute [local simp] qmarksFrom

/-- **`_qmarks_to_psycopg`**. -/
def qmarksToPsycopg (sql : String) : String := String.ofList (qmarksFrom .plain sql.toList)

/-! ## `_escape_psycopg_percent` -/

/-- `[A-Za-z_][A-Za-z0-9_]*`, in full. -/
def isName : List Char → Bool
  | [] => false
  | c :: rest => (c.isAlpha || c = '_') && rest.all fun c => c.isAlphanum || c = '_'

/-- What stands before the next `)s`. -/
def untilClose : List Char → Option (List Char)
  | [] => none
  | [_] => none
  | c :: d :: rest => if c = ')' ∧ d = 's' then some [] else (untilClose (d :: rest)).map (c :: ·)

/-- The name in `(name)s`, if that follows. -/
def namedPlaceholder : List Char → Option (List Char)
  | '(' :: rest => (untilClose rest).filter isName
  | _ => none

/-- What is put out for the character `c` and those that are read with it, and how many these are. -/
def escapeAt (c : Char) (rest : List Char) : List Char × Nat :=
  if c ≠ '%' then ([c], 0)
  else
    match namedPlaceholder rest with
    | some name => ('%' :: '(' :: name ++ [')', 's'], name.length + 3)
    | none =>
        match rest with
        | [] => (['%', '%'], 0)
        | nxt :: _ => if nxt ∈ ['s', 'b', 't', '%'] then (['%', nxt], 1) else (['%', '%'], 0)

def escapeChars (text : List Char) : List Char := (scan (ahead escapeAt) text).flatten

/-- **`_escape_psycopg_percent`**. -/
def escapePsycopgPercent (sql : String) : String := String.ofList (escapeChars sql.toList)

/-! ## What psycopg reads -/

/-- A character of the query, or a parameter. -/
inductive Symbol
  | char (c : Char)
  | placeholder
  deriving DecidableEq, Repr

/-- The placeholders are `%s`, `%b`, `%t` and `%(name)s` with one of these letters at its end; `%%` is a percent sign, and
    a percent sign with anything else behind it is an error. -/
def readAt (c : Char) (rest : List Char) : Option Symbol × Nat :=
  if c ≠ '%' then (some (.char c), 0)
  else
    match rest with
    | [] => (some (.char '%'), 0)
    | f :: tail =>
        if f = '%' then (some (.char '%'), 1)
        else if f ∈ ['s', 'b', 't'] then (some .placeholder, 1)
        else if f = '(' then
          let name := tail.takeWhile fun c => c ≠ ')'
          match tail.drop (name.length + 1) with
          | [] => (none, 0)
          | format :: _ => if name ≠ [] ∧ format ∈ ['s', 'b', 't'] then (some .placeholder, name.length + 3) else (none, 0)
        else (none, 0)

def readChars (text : List Char) : Option (List Symbol) := (scan (ahead readAt) text).mapM id

/-- The query as psycopg takes it from `execute` with parameters. -/
def psycopgRead (sql : String) : Option (List Symbol) := readChars sql.toList

/-! ## What it should read -/

/-- The question marks outside of quotes and comments are parameters. -/
def Lexeme.symbols : Lexeme → List Symbol
  | .plain c => [if c = '?' then .placeholder else .char c]
  | lexeme => lexeme.text.map .char

def symbols (sql : String) : List Symbol := (lex sharedDialect sql.toList).flatMap Lexeme.symbols

/-- The query text of a symbol. -/
def Symbol.source : Symbol → Char
  | .char c => c
  | .placeholder => '?'

/-- What the first scanner writes for a symbol. -/
def Symbol.write : Symbol → List Char
  | .char c => [c]
  | .placeholder => ['%', 's']

/-- **psycopg finds a placeholder for each question mark outside of quotes and comments, where it stands, and every other
    character as it is.** -/
def Faithful (sql : String) : Prop := psycopgRead (escapePsycopgPercent (qmarksToPsycopg sql)) = some (symbols sql)

/-- With a percent sign before it, this would look like a placeholder or a doubled percent sign. -/
def Confusable (rest : List Symbol) : Prop :=
  rest.head? ∈ [some .placeholder, some (.char 's'), some (.char 'b'), some (.char 't'), some (.char '%')] ∨
    ∃ name, isName name = true ∧ ('(' :: name ++ [')', 's']).map .char <+: rest

/-- **No percent sign has such a text behind it.** -/
def PercentsClear (query : List Symbol) : Prop := ∀ pre post, query = pre ++ .char '%' :: post → ¬ Confusable post

/-! ## The first scanner finds the lexemes -/

theorem qmarksFrom_quote (quote : Char) (text : List Char) :
    qmarksFrom (.quote quote) text =
      quotedBody quote text ++ qmarksFrom .plain (text.drop (quotedBody quote text).length) := by
  induction text using quotedBody.induct quote with
  | case1 => simp [quotedBody]
  | case2 c => simp [quotedBody]
  | case3 rest ih => simp [quotedBody, ih]
  | case4 d rest hd => simp [quotedBody, hd]
  | case5 c d rest hc ih => simp [quotedBody, hc, ih]

theorem qmarksFrom_line (text : List Char) :
    qmarksFrom .lineComment text = lineBody false text ++ qmarksFrom .plain (text.drop (lineBody false text).length) := by
  induction text with
  | nil => simp [lineBody]
  | cons c rest ih => by_cases hc : c = '\n' <;> simp [lineBody, hc, ih]

theorem qmarksFrom_block (text : List Char) :
    qmarksFrom .blockComment text =
      blockBody false 0 text ++ qmarksFrom .plain (text.drop (blockBody false 0 text).length) := by
  -- The depth stays at zero, as comments do not nest.
  induction hdepth : 0, text using blockBody.induct false with
  | case1 depth => simp [blockBody]
  | case2 depth c => simp [blockBody]
  | case3 depth c d rest hclose ih => simp [blockBody, hclose, ← hdepth]
  | case4 depth c d rest hclose hopen ih => simp at hopen
  | case5 depth c d rest hclose hopen ih => simp [blockBody, hclose, ih hdepth]

@[simp] theorem write_chars (chars : List Char) : (chars.map Symbol.char).flatMap Symbol.write = chars := by
  simp [List.flatMap_map, Symbol.write]

/-- One lexeme of the first scanner. -/
theorem qmarksFrom_plain_cons (c : Char) (rest : List Char) :
    qmarksFrom .plain (c :: rest) = (lexemeAt sharedDialect c rest).1.symbols.flatMap Symbol.write ++
      qmarksFrom .plain (rest.drop (lexemeAt sharedDialect c rest).2) := by
  unfold lexemeAt
  cases rest with
  | nil =>
      -- The last character cannot open a comment.
      by_cases hquote : c = '\'' ∨ c = '"'
      · have hmark : c ≠ '?' := by rcases hquote with rfl | rfl <;> decide
        simp [hquote, hmark, quotedBody, Lexeme.symbols, Lexeme.text, Symbol.write]
      · by_cases hmark : c = '?'
        · simp [hmark, sharedDialect, Lexeme.symbols, Symbol.write]
        · simp [hquote, hmark, sharedDialect, Lexeme.symbols, Symbol.write]
  | cons nxt rest =>
      conv_lhs => unfold qmarksFrom
      by_cases hline : c = '-' ∧ nxt = '-'
      · simp [hline, qmarksFrom_line, Lexeme.symbols, Lexeme.text, Symbol.write, sharedDialect]
      by_cases hblock : c = '/' ∧ nxt = '*'
      · simp [hblock, qmarksFrom_block, Lexeme.symbols, Lexeme.text, Symbol.write, sharedDialect]
      by_cases hquote : c = '\'' ∨ c = '"'
      · simp [hline, hblock, hquote, qmarksFrom_quote, Lexeme.symbols, Lexeme.text, Symbol.write]
      by_cases hmark : c = '?'
      · simp [hmark, sharedDialect, Lexeme.symbols, Symbol.write]
      · simp [hline, hblock, hquote, hmark, sharedDialect, Lexeme.symbols, Symbol.write]

/-- **The first scanner writes the symbols of the query.** -/
theorem qmarksFrom_plain (text : List Char) :
    qmarksFrom .plain text = ((lex sharedDialect text).flatMap Lexeme.symbols).flatMap Symbol.write := by
  induction text using lex_induction sharedDialect with
  | nil => simp
  | cons c rest ih => rw [qmarksFrom_plain_cons, lex_cons, List.flatMap_cons, List.flatMap_append, ih]

theorem toList_qmarksToPsycopg (sql : String) : (qmarksToPsycopg sql).toList = (symbols sql).flatMap Symbol.write := by
  unfold qmarksToPsycopg symbols
  rw [String.toList_ofList, qmarksFrom_plain]

/-- The symbols stand for the query as it is. -/
theorem map_source_symbols (sql : String) : (symbols sql).map Symbol.source = sql.toList := by
  have hlexeme : ∀ lexeme : Lexeme, lexeme.symbols.map Symbol.source = lexeme.text := by
    intro lexeme
    cases lexeme with
    | plain c =>
        unfold Lexeme.symbols Lexeme.text
        by_cases hmark : c = '?'
        · simp [hmark, Symbol.source]
        · simp [hmark, Symbol.source]
    | word chars => simp [Lexeme.symbols, Function.comp_def, Symbol.source]
    | quoted quote body => simp [Lexeme.symbols, Function.comp_def, Symbol.source]
    | dollarQuoted tag body => simp [Lexeme.symbols, Function.comp_def, Symbol.source]
    | lineComment body => simp [Lexeme.symbols, Function.comp_def, Symbol.source]
    | blockComment body => simp [Lexeme.symbols, Function.comp_def, Symbol.source]
  unfold symbols
  rw [List.map_flatMap]
  simp only [hlexeme, flatMap_text_lex]

/-! ## One percent sign at a time -/

theorem escapeChars_cons (c : Char) (rest : List Char) :
    escapeChars (c :: rest) = (escapeAt c rest).1 ++ escapeChars (rest.drop (escapeAt c rest).2) := by
  unfold escapeChars
  rw [scan_cons, List.flatten_cons]

theorem readChars_cons (c : Char) (rest : List Char) :
    readChars (c :: rest) =
      (readAt c rest).1.bind fun symbol => (readChars (rest.drop (readAt c rest).2)).map (symbol :: ·) := by
  unfold readChars
  rw [scan_cons, List.mapM_cons]
  cases (readAt c rest).1 with
  | none => rfl
  | some symbol =>
      simp only [id, Option.bind_eq_bind, Option.bind_some]
      cases (scan (ahead readAt) (rest.drop (readAt c rest).2)).mapM id with
      | none => rfl
      | some symbols => rfl

theorem untilClose_eq_some {text name : List Char} (h : untilClose text = some name) :
    ∃ after, text = name ++ ')' :: 's' :: after := by
  induction text using untilClose.induct generalizing name with
  | case1 => simp [untilClose] at h
  | case2 c => simp [untilClose] at h
  | case3 c d rest hclose =>
      obtain ⟨rfl, rfl⟩ := hclose
      simp only [untilClose, and_self, if_true, Option.some.injEq] at h
      exact ⟨rest, by simp [← h]⟩
  | case4 c d rest hclose ih =>
      unfold untilClose at h
      rw [if_neg hclose, Option.map_eq_some_iff] at h
      obtain ⟨more, hmore, rfl⟩ := h
      obtain ⟨after, hafter⟩ := ih hmore
      exact ⟨after, by rw [hafter, List.cons_append]⟩

theorem untilClose_append {name : List Char} (hname : ')' ∉ name) (after : List Char) :
    untilClose (name ++ ')' :: 's' :: after) = some name := by
  induction name with
  | nil => simp [untilClose]
  | cons c name ih =>
      rw [List.mem_cons, not_or] at hname
      obtain ⟨hc, hrest⟩ := hname
      cases name with
      | nil => simp [untilClose, Ne.symm hc]
      | cons d name =>
          simp only [List.cons_append] at ih ⊢
          unfold untilClose
          rw [if_neg (by simp [Ne.symm hc]), ih hrest]
          rfl

/-- The characters of a name are no punctuation. -/
theorem isName_spec {name : List Char} (h : isName name = true) :
    name ≠ [] ∧ ')' ∉ name ∧ '%' ∉ name := by
  cases name with
  | nil => simp [isName] at h
  | cons c rest =>
      simp only [isName, Bool.and_eq_true, List.all_eq_true] at h
      obtain ⟨hc, hrest⟩ := h
      have hfirst : ∀ x : Char, x ∈ c :: rest → x.isAlpha = true ∨ x.isAlphanum = true ∨ x = '_' := by
        intro x hx
        rcases List.mem_cons.mp hx with rfl | hx
        · simp only [Bool.or_eq_true, decide_eq_true_eq] at hc
          exact hc.elim Or.inl fun h => Or.inr (Or.inr h)
        · have := hrest x hx
          simp only [Bool.or_eq_true, decide_eq_true_eq] at this
          exact Or.inr this
      refine ⟨by simp, ?_, ?_⟩
      · intro hmem
        exact absurd (hfirst _ hmem) (by decide)
      · intro hmem
        exact absurd (hfirst _ hmem) (by decide)

theorem namedPlaceholder_eq_some {rest name : List Char} :
    namedPlaceholder rest = some name ↔ isName name = true ∧ '(' :: name ++ [')', 's'] <+: rest := by
  constructor
  · intro h
    unfold namedPlaceholder at h
    split at h
    · obtain ⟨huntil, hname⟩ := Option.filter_eq_some_iff.mp h
      obtain ⟨after, rfl⟩ := untilClose_eq_some huntil
      exact ⟨hname, after, by simp⟩
    · cases h
  · rintro ⟨hname, after, rfl⟩
    have huntil := untilClose_append (isName_spec hname).2.1 after
    simp [namedPlaceholder, huntil, Option.filter, hname]

/-- Text without percent signs was written for characters. -/
theorem eq_append_of_write {text after : List Char} (htext : '%' ∉ text) {query : List Symbol}
    (h : query.flatMap Symbol.write = text ++ after) :
    ∃ rest, query = text.map .char ++ rest ∧ rest.flatMap Symbol.write = after := by
  induction text generalizing query with
  | nil => exact ⟨query, rfl, h⟩
  | cons c text ih =>
      rw [List.mem_cons, not_or] at htext
      obtain ⟨hc, hrest⟩ := htext
      cases query with
      | nil => simp at h
      | cons symbol query =>
          cases symbol with
          | placeholder =>
              simp only [List.flatMap_cons, Symbol.write, List.cons_append, List.cons.injEq] at h
              exact absurd h.1 hc
          | char d =>
              simp only [List.flatMap_cons, Symbol.write, List.cons_append, List.nil_append, List.cons.injEq] at h
              obtain ⟨rfl, h⟩ := h
              obtain ⟨rest, rfl, hafter⟩ := ih hrest h
              exact ⟨rest, rfl, hafter⟩

/-- What psycopg reads of the symbols after both scanners. -/
def reread (query : List Symbol) : Option (List Symbol) := readChars (escapeChars (query.flatMap Symbol.write))

@[simp] theorem reread_nil : reread [] = some [] := by
  simp [reread, escapeChars, readChars]

variable {query rest : List Symbol}

/-- **A placeholder and a character are read as they are**, a percent sign if nothing confusable is behind it. -/
theorem reread_cons {symbol : Symbol} (h : symbol = .char '%' → ¬ Confusable rest) :
    reread (symbol :: rest) = (reread rest).map (symbol :: ·) := by
  unfold reread
  rw [List.flatMap_cons]
  cases symbol with
  | placeholder => simp [Symbol.write, escapeChars_cons, escapeAt, namedPlaceholder, readChars_cons, readAt]
  | char c =>
      by_cases hc : c = '%'
      · subst hc
        have hclear := h rfl
        have hnamed : namedPlaceholder (rest.flatMap Symbol.write) = none := by
          rw [Option.eq_none_iff_forall_ne_some]
          intro name hread
          obtain ⟨hname, after, hafter⟩ := namedPlaceholder_eq_some.mp hread
          obtain ⟨tail, rfl, -⟩ := eq_append_of_write (by simp [(isName_spec hname).2.2]) hafter.symm
          exact hclear (Or.inr ⟨name, hname, by simp⟩)
        -- So the sign is doubled, and read back as one.
        have hescape : escapeAt '%' (rest.flatMap Symbol.write) = (['%', '%'], 0) := by
          unfold escapeAt
          rw [if_neg (by simp), hnamed]
          cases rest with
          | nil => simp
          | cons next rest =>
              cases next with
              | placeholder => exact absurd (Or.inl (by simp)) hclear
              | char d =>
                  have hd : d ∉ ['s', 'b', 't', '%'] := by
                    intro hmem
                    apply hclear
                    left
                    simpa using hmem
                  simp [Symbol.write] at hd ⊢
                  simp [hd]
        simp [Symbol.write, escapeChars_cons, hescape, readChars_cons, readAt]
      · simp [Symbol.write, escapeChars_cons, escapeAt, hc, readChars_cons, readAt]

/-- A name in parentheses is read as a placeholder. -/
theorem reread_named {name : List Char} (hname : isName name = true) (rest : List Symbol) :
    reread (.char '%' :: (('(' :: name ++ [')', 's']).map .char ++ rest)) = (reread rest).map (.placeholder :: ·) := by
  obtain ⟨hne, hclose, hpercent⟩ := isName_spec hname
  have htext : (('(' :: name ++ [')', 's']).map Symbol.char ++ rest).flatMap Symbol.write =
      '(' :: name ++ ')' :: 's' :: rest.flatMap Symbol.write := by
    rw [List.flatMap_append, write_chars]
    simp
  have hnamed : namedPlaceholder ('(' :: name ++ ')' :: 's' :: rest.flatMap Symbol.write) = some name := by
    apply namedPlaceholder_eq_some.mpr
    exact ⟨hname, rest.flatMap Symbol.write, by simp⟩
  have hescape : escapeChars ('%' :: ('(' :: name ++ ')' :: 's' :: rest.flatMap Symbol.write)) =
      '%' :: '(' :: (name ++ ')' :: 's' :: escapeChars (rest.flatMap Symbol.write)) := by
    rw [escapeChars_cons]
    unfold escapeAt
    rw [if_neg (by simp), hnamed]
    have hdrop : name.drop (name.length + 2) = [] := List.drop_eq_nil_of_le (by omega)
    simp [List.drop_append, hdrop]
  -- psycopg reads up to the parenthesis that closes the name.
  have huntil : (name ++ ')' :: 's' :: escapeChars (rest.flatMap Symbol.write)).takeWhile (fun c => c ≠ ')') = name := by
    rw [List.takeWhile_append_of_pos]
    · simp
    · intro c hc
      simpa using fun h : c = ')' => hclose (h ▸ hc)
  unfold reread
  rw [List.flatMap_cons, htext]
  show readChars (escapeChars ('%' :: ('(' :: name ++ ')' :: 's' :: rest.flatMap Symbol.write))) = _
  rw [hescape, readChars_cons]
  unfold readAt
  rw [if_neg (by simp)]
  simp only [huntil]
  have hdrop : name.drop (name.length + 1) = [] := List.drop_eq_nil_of_le (by omega)
  have hdrop' : name.drop (name.length + 2) = [] := List.drop_eq_nil_of_le (by omega)
  simp [List.drop_append, hne, hdrop, hdrop']

/-- **A percent sign with confusable text behind it is not read as it is**, whatever the rest is read as. -/
theorem reread_confusable (h : Confusable rest) :
    ∃ out behind, reread (.char '%' :: rest) = (reread behind).map (out ++ ·) ∧ behind.length < rest.length ∧
      out.length + behind.length ≤ rest.length + 1 ∧
        ∀ tail : List Symbol, tail.length ≤ behind.length → out ++ tail ≠ .char '%' :: rest := by
  rcases h with hhead | ⟨name, hname, behind, rfl⟩
  · cases rest with
    | nil => simp at hhead
    | cons symbol behind =>
        cases symbol with
        | placeholder =>
            refine ⟨[.char '%', .char 's'], behind, ?_, by simp, by simp; omega, by simp⟩
            simp [reread, Symbol.write, escapeChars_cons, escapeAt, namedPlaceholder, readChars_cons, readAt]
            rfl
        | char d =>
            by_cases hd : d = '%'
            · -- The two signs are read as one.
              subst hd
              refine ⟨[.char '%'], behind, ?_, by simp, by simp; omega, ?_⟩
              · simp [reread, Symbol.write, escapeChars_cons, escapeAt, namedPlaceholder, readChars_cons, readAt]
              · intro tail htail heq
                rw [List.cons_append, List.nil_append] at heq
                have hlen := congrArg List.length (List.cons.inj heq).2
                rw [List.length_cons] at hlen
                omega
            · have hformat : d = 's' ∨ d = 'b' ∨ d = 't' := by simpa [hd] using hhead
              refine ⟨[.placeholder], behind, ?_, by simp, by simp; omega, by simp⟩
              rcases hformat with rfl | rfl | rfl
              all_goals simp [reread, Symbol.write, escapeChars_cons, escapeAt, namedPlaceholder, readChars_cons, readAt]
  · refine ⟨[.placeholder], behind, reread_named hname behind, by simp; omega, by simp; omega, by simp⟩

/-! ## The whole query -/

/-- psycopg reads something, and no more symbols than there are. -/
theorem reread_length (query : List Symbol) : ∃ out, reread query = some out ∧ out.length ≤ query.length := by
  induction hlen : query.length using Nat.strongRecOn generalizing query with
  | ind n ih =>
      cases query with
      | nil => exact ⟨[], reread_nil, by simp⟩
      | cons symbol rest =>
          rw [List.length_cons] at hlen
          by_cases hconfused : symbol = .char '%' ∧ Confusable rest
          · obtain ⟨rfl, hrest⟩ := hconfused
            obtain ⟨out, behind, hread, hshorter, hbound, -⟩ := reread_confusable hrest
            obtain ⟨tail, htail, hle⟩ := ih behind.length (by omega) behind rfl
            refine ⟨out ++ tail, by rw [hread, htail, Option.map_some], ?_⟩
            rw [List.length_append]
            omega
          · obtain ⟨tail, htail, hle⟩ := ih rest.length (by omega) rest rfl
            have hread : reread (symbol :: rest) = (reread rest).map (symbol :: ·) :=
              reread_cons fun hsymbol hrest => hconfused ⟨hsymbol, hrest⟩
            refine ⟨symbol :: tail, by rw [hread, htail, Option.map_some], ?_⟩
            rw [List.length_cons]
            omega

theorem percentsClear_cons {symbol : Symbol} :
    PercentsClear (symbol :: rest) ↔ (symbol = .char '%' → ¬ Confusable rest) ∧ PercentsClear rest := by
  constructor
  · intro h
    constructor
    · rintro rfl
      exact h [] rest rfl
    · rintro pre post rfl
      exact h (symbol :: pre) post rfl
  · rintro ⟨hhead, hrest⟩ pre post heq
    cases pre with
    | nil =>
        obtain ⟨rfl, rfl⟩ := List.cons.inj heq
        exact hhead rfl
    | cons first pre =>
        obtain ⟨rfl, rfl⟩ := List.cons.inj heq
        exact hrest pre post rfl

/-- **psycopg reads the symbols that were written** exactly when no percent sign has confusable text behind it. -/
theorem reread_eq_iff (query : List Symbol) : reread query = some query ↔ PercentsClear query := by
  induction query with
  | nil => simp [PercentsClear]
  | cons symbol rest ih =>
      rw [percentsClear_cons]
      by_cases hconfused : symbol = .char '%' ∧ Confusable rest
      · obtain ⟨rfl, hrest⟩ := hconfused
        obtain ⟨out, behind, hread, -, -, hne⟩ := reread_confusable hrest
        obtain ⟨tail, htail, hle⟩ := reread_length behind
        rw [hread, htail, Option.map_some, Option.some.injEq]
        simp [hne tail hle, hrest]
      · have hclear : symbol = .char '%' → ¬ Confusable rest := fun hsymbol hrest => hconfused ⟨hsymbol, hrest⟩
        rw [reread_cons hclear, ← ih]
        cases reread rest with
        | none => simp
        | some read => simpa using fun _ => hclear

/-- **Placeholders are translated faithfully** exactly when no percent sign of the query is followed by `s`, `b`, `t`, `%`,
    `(name)s` or a question mark outside of quotes and comments. -/
theorem placeholders_faithful_iff (sql : String) : Faithful sql ↔ PercentsClear (symbols sql) := by
  unfold Faithful psycopgRead escapePsycopgPercent
  rw [String.toList_ofList, toList_qmarksToPsycopg]
  exact reread_eq_iff (symbols sql)

/-- **A search for a word with `s` has its percent sign taken for a placeholder.** -/
theorem placeholder_in_literal : ¬ ∀ sql : String, Faithful sql := by
  intro h
  have hread := h "SELECT node FROM usage WHERE iface LIKE '%s%' AND bucket>?"
  unfold Faithful at hread
  revert hread
  decide +kernel

end VirtInfra.Sql
