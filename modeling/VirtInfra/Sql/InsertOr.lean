import VirtInfra.Lib.UniqueRows
import VirtInfra.Python.Strings
import VirtInfra.Sql.ScalarMinMax
import Mathlib.Data.List.DropRight

/-!
# `InsertOr` — `INSERT OR REPLACE` becomes `ON CONFLICT` (`bw_pg.py`)

The application writes SQLite's `INSERT OR REPLACE` and `INSERT OR IGNORE`. `_translate_insert_or` cuts the `OR` out and puts an
`ON CONFLICT` clause at the end. For `REPLACE` it takes the first unique index, the primary key before the others, whose columns
are all among those that are inserted, and updates the other inserted columns; a statement for which there is none does nothing
on a conflict.

The text is translated whatever its blanks and its case. On a table whose only constraints are unique indexes a row is then
written as SQLite would write it: for `IGNORE`, where both leave a row out that meets another one, and for `REPLACE` exactly
under `Replaces`: the row meets no other one but the one that is updated, and what is not inserted is there as it would be after
a fresh insert.
-/

namespace VirtInfra.Sql

open Lib Python

/-! ## The text -/

inductive InsertMode | replace | ignore
  deriving DecidableEq

/-- A letter of a pattern under `re.I`. -/
def letterOf (letter : Char) (c : Char) : Bool := isLetter letter c || (letter = 'S' && c = 'ſ')

/-- A word of a pattern: what follows it. -/
def skip : List Char → List Char → Option (List Char)
  | [], text => some text
  | letter :: word, c :: rest => if letterOf letter c then skip word rest else none
  | _ :: _, [] => none

/-- `\s+`: what follows the blanks. -/
def blanks : List Char → Option (List Char)
  | [] => none
  | c :: rest => if isSpace c then some (rest.dropWhile isSpace) else none

def InsertMode.word : InsertMode → List Char
  | .replace => ['R', 'E', 'P', 'L', 'A', 'C', 'E']
  | .ignore => ['I', 'G', 'N', 'O', 'R', 'E']

/-- `(REPLACE|IGNORE)`, and `mode.upper() == "IGNORE"`: the pattern takes a dotted capital for the `I`, `upper` leaves it. -/
def modeAt (text : List Char) : Option (InsertMode × List Char) :=
  match skip InsertMode.replace.word text with
  | some rest => some (.replace, rest)
  | none =>
      (skip InsertMode.ignore.word text).map fun rest => (if text.head? = some 'İ' then .replace else .ignore, rest)

/-- `^\s*INSERT\s+OR\s+(REPLACE|IGNORE)\s+INTO`, and what follows. -/
def insertOrPrefix (sql : List Char) : Option (InsertMode × List Char) := do
  let text ← skip ['I', 'N', 'S', 'E', 'R', 'T'] (sql.dropWhile isSpace)
  let text ← skip ['O', 'R'] (← blanks text)
  let (mode, text) ← modeAt (← blanks text)
  let rest ← skip ['I', 'N', 'T', 'O'] (← blanks text)
  return (mode, rest)

variable (word : Char → Bool)

/-- `[\w\."]`. -/
def isNameChar (c : Char) : Bool := word c || c = '.' || c = '"'

/-- `\s+([\w\."]+)\s*\((.*?)\)`: the table and the columns as they are written. -/
def insertHeader (rest : List Char) : Option (List Char × List Char) := do
  let text ← blanks rest
  let table := text.takeWhile (isNameChar word)
  if table = [] then none
  else
    match (text.dropWhile (isNameChar word)).dropWhile isSpace with
    | '(' :: columns => if ')' ∈ columns then some (table, columns.takeWhile (· ≠ ')')) else none
    | _ => none

/-- `s.strip().strip('"')`. -/
def stripQuotes (text : List Char) : List Char :=
  (((text.dropWhile isSpace).rdropWhile isSpace).dropWhile (· = '"')).rdropWhile (· = '"')

/-- **`_normalize_table_name`.** -/
def normalizeTableName (raw : List Char) : List Char := (stripQuotes raw).rtakeWhile (· ≠ '.')

abbrev Column := List Char

/-- **`_parse_columns`.** -/
def parseColumns (raw : List Char) : List Column :=
  ((raw.splitOn ',').filter fun part => !part.all isSpace).map stripQuotes

/-- **`_unique_conflict_columns`**, of the rows that the catalog query gives: the columns of the full unique indexes. -/
def uniqueConflictColumns (rows : List (List Column)) (insertColumns : List Column) : List Column :=
  (rows.find? fun cols => cols ≠ [] && cols.all (· ∈ insertColumns)).getD []

/-- `\bON\s+CONFLICT\b`, here. -/
def onConflictAt (prev : Option Char) (text : List Char) : Bool :=
  !prev.any word &&
    match (skip ['O', 'N'] text).bind blanks with
    | none => false
    | some text =>
        match skip ['C', 'O', 'N', 'F', 'L', 'I', 'C', 'T'] text with
        | none => false
        | some rest => !rest.head?.any word

/-- `re.search(r"\bON\s+CONFLICT\b", text, re.I)`. -/
def hasOnConflict : Option Char → List Char → Bool
  | _, [] => false
  | prev, c :: rest => onConflictAt word prev (c :: rest) || hasOnConflict (some c) rest

/-- **The clause that is put at the end.** -/
inductive ConflictClause
  | doNothing
  | onTarget (target updates : List Column)
  deriving DecidableEq

def quoted (c : Column) : List Char := '"' :: (c ++ ['"'])

/-- The clause as it is written. -/
def ConflictClause.text : ConflictClause → List Char
  | .doNothing => " ON CONFLICT DO NOTHING".toList
  | .onTarget target [] => " ON CONFLICT (".toList ++ [','].intercalate (target.map quoted) ++ ") DO NOTHING".toList
  | .onTarget target updates =>
      " ON CONFLICT (".toList ++ [','].intercalate (target.map quoted) ++ ") DO UPDATE SET ".toList ++
        [','].intercalate (updates.map fun c => quoted c ++ "=EXCLUDED.".toList ++ quoted c)

/-- The clause of a mode, of the catalog's rows for the table, and of the columns that are inserted. -/
def conflictClause (mode : InsertMode) (rows : List (List Column)) (cols : List Column) : ConflictClause :=
  match mode with
  | .ignore => .doNothing
  | .replace =>
      let keys := uniqueConflictColumns rows cols
      -- No index is covered: nothing is deleted.
      if keys = [] then .doNothing else .onTarget keys (cols.filter (· ∉ keys))

def insertInto (rest : List Char) : List Char := "INSERT INTO".toList ++ rest

/-- `s.rstrip().rstrip(";")`. -/
def stripEnd (text : List Char) : List Char := (text.rdropWhile isSpace).rdropWhile (· = ';')

/-- **`_translate_insert_or`**, where `catalog` answers for a table. -/
def translateInsertOr (catalog : List Char → List (List Column)) (sql : List Char) : List Char :=
  match insertOrPrefix sql with
  | none => sql
  | some (mode, rest) =>
      match insertHeader word rest with
      | none => sql
      | some (rawTable, rawCols) =>
          let translated := insertInto rest
          if hasOnConflict word none translated then translated
          else stripEnd translated ++
            (conflictClause mode (catalog (normalizeTableName rawTable)) (parseColumns rawCols)).text

/-! ## Statements of the application -/

/-- A text that stands for a word of a pattern. -/
def Spelled (w text : List Char) : Prop := List.Forall₂ (fun letter c => letterOf letter c = true) w text

/-- `\s+`. -/
def Gap (text : List Char) : Prop := text ≠ [] ∧ ∀ c ∈ text, isSpace c = true

/-- **An `INSERT OR` statement**, in any blanks and any case. What comes after the columns is not looked at. -/
structure InsertOr where
  mode : InsertMode
  before : List Char
  insert : List Char
  gap₁ : List Char
  or : List Char
  gap₂ : List Char
  modeWord : List Char
  gap₃ : List Char
  into : List Char
  gap₄ : List Char
  table : List Char
  gap₅ : List Char
  columns : List Char
  tail : List Char
  blank_before : ∀ c ∈ before, isSpace c = true
  spelled_insert : Spelled ['I', 'N', 'S', 'E', 'R', 'T'] insert
  isGap₁ : Gap gap₁
  spelled_or : Spelled ['O', 'R'] or
  isGap₂ : Gap gap₂
  spelled_mode : Spelled mode.word modeWord
  undotted : modeWord.head? ≠ some 'İ'
  isGap₃ : Gap gap₃
  spelled_into : Spelled ['I', 'N', 'T', 'O'] into
  isGap₄ : Gap gap₄
  table_ne : table ≠ []
  table_name : ∀ c ∈ table, isNameChar word c = true
  blank₅ : ∀ c ∈ gap₅, isSpace c = true
  columns_closed : ')' ∉ columns

namespace InsertOr

variable {word}

/-- What follows `INTO`. -/
def rest (s : InsertOr word) : List Char :=
  s.gap₄ ++ (s.table ++ (s.gap₅ ++ '(' :: (s.columns ++ ')' :: s.tail)))

def text (s : InsertOr word) : List Char :=
  s.before ++ (s.insert ++ (s.gap₁ ++ (s.or ++ (s.gap₂ ++ (s.modeWord ++ (s.gap₃ ++ (s.into ++ s.rest)))))))

/-- The columns that are inserted. -/
def cols (s : InsertOr word) : List Column := parseColumns s.columns

end InsertOr

theorem skip_spelled {w text : List Char} (h : Spelled w text) (rest : List Char) : skip w (text ++ rest) = some rest := by
  induction h with
  | nil => rfl
  | cons hletter _ ih => rw [List.cons_append, skip, if_pos hletter, ih]

/-- No blank stands for a letter. -/
theorem isSpace_letterOf {letter c : Char} (hletter : letter ∈ ['I', 'O', 'R']) (h : letterOf letter c = true) :
    isSpace c = false := by
  simp only [letterOf, isLetter, Bool.or_eq_true, Bool.and_eq_true, decide_eq_true_eq] at h
  simp only [List.mem_cons, List.not_mem_nil, or_false] at hletter
  rcases hletter with rfl | rfl | rfl <;> rcases h with ((rfl | rfl) | ⟨-, rfl | rfl⟩) | ⟨-, rfl⟩ <;> decide

/-- A word begins with no blank. -/
theorem head_spelled {letter : Char} {w text : List Char} (hletter : letter ∈ ['I', 'O', 'R'])
    (h : Spelled (letter :: w) text) (rest : List Char) : ∀ c ∈ (text ++ rest).head?, isSpace c = false := by
  cases h with
  | cons hc _ =>
      intro c heq
      obtain rfl := Option.some.inj heq
      exact isSpace_letterOf hletter hc

theorem blanks_gap {gap text : List Char} (h : Gap gap) (htext : ∀ c ∈ text.head?, isSpace c = false) :
    blanks (gap ++ text) = some text := by
  obtain ⟨hne, hall⟩ := h
  cases gap with
  | nil => exact absurd rfl hne
  | cons c rest =>
      have hrest : ∀ c ∈ rest, isSpace c = true := fun c hc => hall c (List.mem_cons_of_mem _ hc)
      rw [List.cons_append, blanks, if_pos (hall c List.mem_cons_self), List.dropWhile_append_of_pos hrest,
        dropWhile_of_head htext]

theorem modeAt_spelled {mode : InsertMode} {text : List Char} (h : Spelled mode.word text) (hdot : text.head? ≠ some 'İ')
    (rest : List Char) : modeAt (text ++ rest) = some (mode, rest) := by
  cases mode with
  | replace => rw [modeAt, skip_spelled h]
  | ignore =>
      have hreplace : skip InsertMode.replace.word (text ++ rest) = none := by
        cases h with
        | cons hc _ =>
            rw [List.cons_append, InsertMode.word, skip, if_neg]
            simp only [letterOf, isLetter, Bool.or_eq_true, Bool.and_eq_true, decide_eq_true_eq] at hc
            rcases hc with ((rfl | rfl) | ⟨-, rfl | rfl⟩) | ⟨-, rfl⟩ <;> decide
      have hhead : (text ++ rest).head? ≠ some 'İ' := by
        rwa [List.head?_append_of_ne_nil _ (by rintro rfl; cases h)]
      rw [modeAt, hreplace, skip_spelled h, Option.map_some, if_neg hhead]

namespace InsertOr

variable {word}

theorem insertOrPrefix_text (s : InsertOr word) : insertOrPrefix s.text = some (s.mode, s.rest) := by
  have hmode : ∀ rest, ∀ c ∈ (s.modeWord ++ rest).head?, isSpace c = false := by
    have hspelled := s.spelled_mode
    cases hm : s.mode with
    | replace =>
        rw [hm] at hspelled
        exact fun rest => head_spelled (by decide) hspelled rest
    | ignore =>
        rw [hm] at hspelled
        exact fun rest => head_spelled (by decide) hspelled rest
  simp only [insertOrPrefix, text, List.dropWhile_append_of_pos s.blank_before,
    dropWhile_of_head (head_spelled (by decide) s.spelled_insert _), skip_spelled s.spelled_insert,
    blanks_gap s.isGap₁ (head_spelled (by decide) s.spelled_or _), skip_spelled s.spelled_or,
    blanks_gap s.isGap₂ (hmode _), modeAt_spelled s.spelled_mode s.undotted,
    blanks_gap s.isGap₃ (head_spelled (by decide) s.spelled_into _), skip_spelled s.spelled_into,
    Option.bind_eq_bind, Option.bind_some, Option.pure_def]

theorem insertHeader_rest (hspace : ∀ c, isSpace c = true → word c = false) (hparen : word '(' = false)
    (s : InsertOr word) : insertHeader word s.rest = some (s.table, s.columns) := by
  -- The name is between blanks, and neither a blank nor the parenthesis is part of it.
  have hname : ∀ c, isSpace c = true → isNameChar word c = false := by
    intro c hc
    have hdot : c ≠ '.' := by
      rintro rfl
      cases hc
    have hquote : c ≠ '"' := by
      rintro rfl
      cases hc
    simp [isNameChar, hspace c hc, hdot, hquote]
  have hafter : ∀ c ∈ (s.gap₅ ++ '(' :: (s.columns ++ ')' :: s.tail)).head?, isNameChar word c = false := by
    intro c hc
    cases hgap : s.gap₅ with
    | nil =>
        rw [hgap] at hc
        obtain rfl := Option.some.inj hc
        simp [isNameChar, hparen]
    | cons d rest =>
        rw [hgap] at hc
        obtain rfl := Option.some.inj hc
        exact hname d (s.blank₅ d (by rw [hgap]; exact List.mem_cons_self))
  have hhead : ∀ c ∈ (s.table ++ (s.gap₅ ++ '(' :: (s.columns ++ ')' :: s.tail))).head?, isSpace c = false := by
    intro c hc
    rw [List.head?_append_of_ne_nil _ s.table_ne] at hc
    by_contra hspace'
    have hno := hname c (by simpa using hspace')
    rw [s.table_name c (List.mem_of_mem_head? hc)] at hno
    cases hno
  have htake : (s.table ++ (s.gap₅ ++ '(' :: (s.columns ++ ')' :: s.tail))).takeWhile (isNameChar word) = s.table := by
    rw [List.takeWhile_append_of_pos s.table_name]
    cases hrest : s.gap₅ ++ '(' :: (s.columns ++ ')' :: s.tail) with
    | nil => simp
    | cons c rest =>
        rw [hrest] at hafter
        rw [List.takeWhile_cons_of_neg (by rw [hafter c rfl]; decide), List.append_nil]
  have hdrop : (s.table ++ (s.gap₅ ++ '(' :: (s.columns ++ ')' :: s.tail))).dropWhile (isNameChar word) =
      s.gap₅ ++ '(' :: (s.columns ++ ')' :: s.tail) := by
    rw [List.dropWhile_append_of_pos s.table_name]
    cases hrest : s.gap₅ ++ '(' :: (s.columns ++ ')' :: s.tail) with
    | nil => rfl
    | cons c rest =>
        rw [hrest] at hafter
        rw [List.dropWhile_cons_of_neg (by rw [hafter c rfl]; decide)]
  have hcolumns := (span_field s.tail s.columns_closed).1
  simp only [insertHeader, rest, blanks_gap s.isGap₄ hhead, Option.bind_eq_bind, Option.bind_some, htake, hdrop,
    if_neg s.table_ne, List.dropWhile_append_of_pos s.blank₅]
  rw [List.dropWhile_cons_of_neg (by decide)]
  simp only [List.mem_append, List.mem_cons, true_or, or_true, if_true, hcolumns]

/-- **A statement without `ON CONFLICT` of its own gets one.** -/
theorem translateInsertOr_text (hspace : ∀ c, isSpace c = true → word c = false) (hparen : word '(' = false)
    (catalog : List Char → List (List Column)) (s : InsertOr word) (hno : hasOnConflict word none (insertInto s.rest) = false) :
    translateInsertOr word catalog s.text =
      stripEnd (insertInto s.rest) ++ (conflictClause s.mode (catalog (normalizeTableName s.table)) s.cols).text := by
  simp [translateInsertOr, s.insertOrPrefix_text, s.insertHeader_rest hspace hparen, hno, cols]

end InsertOr

/-! ## What the statements do -/

section Meaning

variable {ν : Type*} [DecidableEq ν]

/-- A row, where `none` is NULL. -/
abbrev Row (ν : Type*) := Column → Option ν

/-- The key of a row in an index on columns. -/
def columnsKey (columns : List Column) (r : Row ν) : Option (List ν) := columns.mapM r

/-- A unique index: on columns, or another one, partial or on an expression. -/
inductive UniqueIndex (ν : Type*)
  | onColumns (columns : List Column)
  | other (key : Row ν → Option (List ν))

def UniqueIndex.key : UniqueIndex ν → Row ν → Option (List ν)
  | .onColumns columns => columnsKey columns
  | .other key => key

/-- The tables of these indexes. -/
abbrev Table (indexes : List (UniqueIndex ν)) := UniqueRows (indexes.map UniqueIndex.key)

/-- `SET "c"=EXCLUDED."c", …`. -/
def setColumns (updates : List Column) (old new : Row ν) : Row ν := fun c => if c ∈ updates then new c else old c

variable {indexes : List (UniqueIndex ν)}

/-- **PostgreSQL inserts a row**, with a clause. The row breaks no other constraint. -/
def ConflictClause.run (clause : ConflictClause) (t : Table indexes) (r : Row ν) : Option (Table indexes) :=
  match clause with
  | .doNothing => some (t.insertIgnore r)
  | .onTarget target [] => t.insertOn (columnsKey target) r
  | .onTarget target updates => t.upsertOn (columnsKey target) (setColumns updates) r

/-- **SQLite inserts a row** that breaks no other constraint. -/
def InsertMode.run (mode : InsertMode) (t : Table indexes) (r : Row ν) : Table indexes :=
  match mode with
  | .ignore => t.insertIgnore r
  | .replace => t.replace r

/-- **The row replaces what is updated, and nothing else**, where `keys` are the columns of the index and `cols` those that are
inserted. -/
def Replaces (keys cols : List Column) (t : Table indexes) (r : Row ν) : Prop :=
  t.Free r ∨
    if keys = [] then r ∈ t.rows
    else ∃ old ∈ t.rows, meets (columnsKey keys) r old = true ∧
      (∀ q ∈ t.rows, conflicts (indexes.map UniqueIndex.key) r q = true → q = old) ∧ ∀ c ∉ cols, old c = r c

omit [DecidableEq ν] in
/-- Rows that meet in an index on columns agree on them. -/
theorem eq_of_columnsKey {columns : List Column} {r q : Row ν} {k : List ν} (hr : columnsKey columns r = some k)
    (hq : columnsKey columns q = some k) : ∀ c ∈ columns, r c = q c := by
  induction columns generalizing k with
  | nil => simp
  | cons first rest ih =>
      simp only [columnsKey, List.mapM_cons, Option.bind_eq_bind, Option.bind_eq_some_iff, Option.pure_def,
        Option.some.injEq] at hr hq
      obtain ⟨v, hv, vs, hvs, rfl⟩ := hr
      obtain ⟨w, hw, ws, hws, heq⟩ := hq
      obtain ⟨rfl, rfl⟩ := List.cons.inj heq
      intro c hc
      rcases List.mem_cons.mp hc with rfl | hc
      · rw [hv, hw]
      · exact ih hvs hws c hc

theorem uniqueConflictColumns_mem {rows : List (List Column)} {cols : List Column}
    (h : uniqueConflictColumns rows cols ≠ []) : uniqueConflictColumns rows cols ∈ rows := by
  unfold uniqueConflictColumns at h ⊢
  cases hfind : rows.find? fun cs => cs ≠ [] && cs.all (· ∈ cols) with
  | none => exact absurd (by rw [hfind]; rfl) h
  | some keys => exact List.mem_of_find?_eq_some hfind

/-- The updated row is the new one if nothing else is in what is not inserted. -/
theorem setColumns_eq_iff {keys cols : List Column} {old r : Row ν} (hmeets : meets (columnsKey keys) r old = true) :
    setColumns (cols.filter (· ∉ keys)) old r = r ↔ ∀ c ∉ cols, old c = r c := by
  obtain ⟨k, hr, hold⟩ := meets_iff.mp hmeets
  have hsame := eq_of_columnsKey hr hold
  rw [funext_iff]
  refine forall_congr' fun c => ?_
  by_cases hcols : c ∈ cols
  · by_cases hkey : c ∈ keys
    · simp [setColumns, hcols, hkey, (hsame c hkey).symm]
    · simp [setColumns, hcols, hkey]
  · simp [setColumns, hcols]

/-- A clause on a target, with or without updates. -/
theorem run_onTarget_iff {target updates : List Column} (hkey : columnsKey target ∈ indexes.map UniqueIndex.key)
    (t : Table indexes) (r : Row ν) {rows : List (Row ν)} :
    (∃ t', (ConflictClause.onTarget target updates).run t r = some t' ∧ t'.rows.Perm rows) ↔
      ∃ t', t.upsertOn (columnsKey target) (setColumns updates) r = some t' ∧ t'.rows.Perm rows := by
  cases updates with
  | nil =>
      have hset : (setColumns [] : Row ν → Row ν → Row ν) = fun old _ => old := by
        funext old new c
        simp [setColumns]
      rw [hset]
      exact UniqueRows.insertOn_perm_iff hkey t r
  | cons c rest => rfl

/-- **The translated statement does what SQLite does** for `IGNORE`, and for `REPLACE` exactly if the row replaces what is
updated and nothing else. -/
theorem run_conflictClause_iff {rows : List (List Column)} {cols : List Column}
    (hrows : ∀ columns ∈ rows, UniqueIndex.onColumns columns ∈ indexes) (mode : InsertMode) (t : Table indexes) (r : Row ν) :
    (∃ t', (conflictClause mode rows cols).run t r = some t' ∧ t'.rows.Perm (mode.run t r).rows) ↔
      mode = .ignore ∨ Replaces (uniqueConflictColumns rows cols) cols t r := by
  cases mode with
  | ignore => exact ⟨fun _ => .inl rfl, fun _ => ⟨_, rfl, .refl _⟩⟩
  | replace =>
      rw [or_iff_right (by decide)]
      unfold conflictClause Replaces
      by_cases hkeys : uniqueConflictColumns rows cols = []
      · simp only [hkeys, if_true]
        rw [← UniqueRows.insertIgnore_replaces_iff]
        constructor
        · rintro ⟨t', h, hperm⟩
          exact Option.some.inj h ▸ hperm
        · exact fun hperm => ⟨_, rfl, hperm⟩
      · have hmem := uniqueConflictColumns_mem hkeys
        have hkey : columnsKey (uniqueConflictColumns rows cols) ∈ indexes.map (UniqueIndex.key (ν := ν)) :=
          List.mem_map.mpr ⟨_, hrows _ hmem, rfl⟩
        simp only [hkeys, if_false]
        rw [run_onTarget_iff hkey, InsertMode.run, UniqueRows.upsertOn_replaces_iff hkey]
        refine or_congr Iff.rfl (exists_congr fun old => and_congr_right fun _ => and_congr_right fun hmeets =>
          and_congr_right fun _ => ?_)
        exact setColumns_eq_iff hmeets

/-- One index whose columns are inserted, and no columns but those that are inserted: every row replaces what it updates. -/
theorem replaces_of_one_index {keys cols : List Column} (hkeys : keys ≠ []) (t : Table [UniqueIndex.onColumns (ν := ν) keys])
    (r : Row ν) (hwhole : ∀ q ∈ t.rows, ∀ c ∉ cols, q c = r c) : Replaces keys cols t r := by
  by_cases hfree : t.Free r
  · exact .inl hfree
  · obtain ⟨old, hold, hconflict⟩ : ∃ q ∈ t.rows, conflicts _ r q = true := by
      simpa [UniqueRows.Free] using hfree
    have hmeets : meets (columnsKey keys) r old = true := by
      simpa [conflicts, UniqueIndex.key] using hconflict
    refine .inr ?_
    rw [if_neg hkeys]
    refine ⟨old, hold, hmeets, fun q hq hconflict' => ?_, hwhole old hold⟩
    have hmeets' : meets (columnsKey keys) r q = true := by
      simpa [conflicts, UniqueIndex.key] using hconflict'
    exact UniqueRows.eq_of_conflicts hq hold (conflicts_of_meets (List.mem_singleton.mpr rfl) (meets_trans hmeets' hmeets))

/-- **An `INSERT OR` statement is translated into one that does the same**: whatever its blanks and its case, the text gets the
clause of its mode, its table and its columns. With this clause a row is written as SQLite writes it, for `IGNORE` always, and
for `REPLACE` exactly if the row replaces what is updated and nothing else. -/
theorem insert_or_translation (hspace : ∀ c, isSpace c = true → word c = false) (hparen : word '(' = false)
    (catalog : List Char → List (List Column)) (s : InsertOr word) (hno : hasOnConflict word none (insertInto s.rest) = false)
    (hcatalog : ∀ columns ∈ catalog (normalizeTableName s.table), UniqueIndex.onColumns columns ∈ indexes) :
    translateInsertOr word catalog s.text = stripEnd (insertInto s.rest) ++
        (conflictClause s.mode (catalog (normalizeTableName s.table)) s.cols).text ∧
      ∀ (t : Table indexes) (r : Row ν),
        (∃ t', (conflictClause s.mode (catalog (normalizeTableName s.table)) s.cols).run t r = some t' ∧
            t'.rows.Perm (s.mode.run t r).rows) ↔
          s.mode = .ignore ∨ Replaces (uniqueConflictColumns (catalog (normalizeTableName s.table)) s.cols) s.cols t r :=
  ⟨s.translateInsertOr_text hspace hparen catalog hno, run_conflictClause_iff hcatalog s.mode⟩

end Meaning

/-! ## Saving a setting -/

theorem Gap.blank {c : Char} (h : isSpace c = true) : Gap [c] := ⟨List.cons_ne_nil c [], by simpa using h⟩

/-- What may be decided of a list of characters. -/
theorem forall_of_all {p : Char → Bool} {text : List Char} (h : text.all p = true) : ∀ c ∈ text, p c = true :=
  List.all_eq_true.mp h

/-- `INSERT or REPLACE INTO admin_settings(key, value)` over several lines, and its values. -/
def saveSetting : InsertOr asciiWord where
  mode := .replace
  before := ['\n', ' ']
  insert := "INSERT".toList
  gap₁ := [' ']
  or := "or".toList
  gap₂ := ['\n']
  modeWord := "REPLACE".toList
  gap₃ := [' ']
  into := "INTO".toList
  gap₄ := ['\n']
  table := "admin_settings".toList
  gap₅ := []
  columns := "key, value".toList
  tail := "\n VALUES (?, ?);".toList
  blank_before := forall_of_all rfl
  spelled_insert := by unfold Spelled; decide
  isGap₁ := .blank rfl
  spelled_or := by unfold Spelled; decide
  isGap₂ := .blank rfl
  spelled_mode := by unfold Spelled; decide
  undotted := by decide
  isGap₃ := .blank rfl
  spelled_into := by unfold Spelled; decide
  isGap₄ := .blank rfl
  table_ne := by decide
  table_name := forall_of_all (by decide)
  blank₅ := no_blanks
  columns_closed := by decide

theorem asciiWord_of_isSpace (c : Char) (h : isSpace c = true) : asciiWord c = false := by
  have hrange : c.toNat ≤ 32 ∨ 123 ≤ c.toNat := by
    simp only [isSpace, Bool.or_eq_true, Bool.and_eq_true, decide_eq_true_eq, beq_iff_eq] at h
    omega
  rw [Bool.eq_false_iff]
  intro hword
  have hdef : asciiWord c =
      ((decide (c.val ≥ 'A'.val ∧ c.val ≤ 'Z'.val) || (c.val ≥ 'a'.val && c.val ≤ 'z'.val) ||
        (c.val ≥ '0'.val && c.val ≤ '9'.val)) || decide (c = '_')) := rfl
  simp only [hdef, Bool.or_eq_true, Bool.and_eq_true, decide_eq_true_eq, ge_iff_le, UInt32.le_iff_toNat_le] at hword
  have hval : c.val.toNat = c.toNat := rfl
  rcases hword with hword | rfl
  · rw [hval] at hword
    have hbounds : ('A'.val.toNat, 'Z'.val.toNat, 'a'.val.toNat, 'z'.val.toNat, '0'.val.toNat, '9'.val.toNat) =
        (65, 90, 97, 122, 48, 57) := rfl
    simp only [Prod.mk.injEq] at hbounds
    omega
  · revert hrange
    decide

/-- The unique index of `admin_settings`. -/
def settingsIndexes : List (UniqueIndex Nat) := [.onColumns ["key".toList]]

/-- A setting and its value. -/
def setting (key value : Nat) : Row Nat := fun c =>
  if c = "key".toList then some key else if c = "value".toList then some value else none

/-- Two settings. -/
def storedSettings : Table settingsIndexes := ((UniqueRows.mk [] List.Pairwise.nil).replace (setting 1 10)).replace (setting 2 20)

theorem save_setting_translated :
    translateInsertOr asciiWord (fun _ => [["key".toList]]) saveSetting.text =
        "INSERT INTO\nadmin_settings(key, value)\n VALUES (?, ?) ON CONFLICT (\"key\") DO UPDATE SET \"value\"=EXCLUDED.\"value\"".toList ∧
      ∃ t', (ConflictClause.onTarget ["key".toList] ["value".toList]).run storedSettings (setting 1 30) = some t' ∧
        t'.rows.Perm (storedSettings.replace (setting 1 30)).rows := by
  have hcatalog : ∀ columns ∈ [["key".toList]], UniqueIndex.onColumns columns ∈ settingsIndexes := by
    simp [settingsIndexes]
  have hcols : saveSetting.cols = ["key".toList, "value".toList] := by decide +kernel
  have hkeys : uniqueConflictColumns [["key".toList]] ["key".toList, "value".toList] = ["key".toList] := by decide +kernel
  have hrows : storedSettings.rows = [setting 1 10, setting 2 20] := rfl
  have hnone : ∀ key value, ∀ c ∉ ["key".toList, "value".toList], setting key value c = none := by
    intro key value c hc
    simp only [List.mem_cons, List.not_mem_nil, or_false, not_or] at hc
    rw [setting, if_neg hc.1, if_neg hc.2]
  have htranslated := insert_or_translation asciiWord asciiWord_of_isSpace (by decide) (fun _ => [["key".toList]]) saveSetting
    (by decide +kernel) hcatalog
  refine ⟨htranslated.1.trans (by decide +kernel), ?_⟩
  have hrun := htranslated.2 storedSettings (setting 1 30)
  rw [hcols, hkeys] at hrun
  refine hrun.mpr (.inr (replaces_of_one_index (by decide) storedSettings (setting 1 30) fun q hq c hc => ?_))
  rw [hrows] at hq
  rcases List.mem_cons.mp hq with rfl | hq
  · rw [hnone _ _ c hc, hnone _ _ c hc]
  · rw [List.mem_singleton.mp hq, hnone _ _ c hc, hnone _ _ c hc]

end VirtInfra.Sql
