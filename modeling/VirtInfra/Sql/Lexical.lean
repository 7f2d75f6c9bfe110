import VirtInfra.Lib.Scan

/-!
# `Lexical` — what SQL text is made of

A lexeme is a string in quotes, a dollar-quoted string, a comment, a word, or one character outside of all these. The
dialects differ in whether block comments nest, in whether a bare carriage return ends a line, in what opens a
dollar-quoted string, and in whether a word is read in one go, with the dollar signs in it. A construct that is not closed
goes on to the end of the text.
-/

namespace VirtInfra.Sql

open Lib

/-- A lexical element, with its text up to and with what closes it. -/
inductive Lexeme
  | plain (c : Char)
  | word (chars : List Char)
  | quoted (quote : Char) (body : List Char)
  | dollarQuoted (tag body : List Char)
  | lineComment (body : List Char)
  | blockComment (body : List Char)
  deriving DecidableEq, Repr

def Lexeme.text : Lexeme → List Char
  | .plain c => [c]
  | .word chars => chars
  | .quoted quote body => quote :: body
  | .dollarQuoted tag body => tag ++ body
  | .lineComment body => '-' :: '-' :: body
  | .blockComment body => '/' :: '*' :: body

/-- What a word may start with and go on with: a letter, any character beyond ASCII, or an underscore; digits and dollar
    signs only behind the first. -/
def isWordStart (c : Char) : Bool := c.isAlpha || c = '_' || 128 ≤ c.toNat

def isTagChar (c : Char) : Bool := isWordStart c || c.isDigit

def isWordChar (c : Char) : Bool := isTagChar c || c = '$'

/-- **The lexical rules of a dialect.** `returns` says that a carriage return ends a line also where no newline follows,
    and `dollarTag` which `$tag$` opens a string here. -/
structure Dialect where
  nested : Bool
  returns : Bool
  words : Bool
  dollarTag : List Char → Option (List Char)
  dollarTag_isPrefix : ∀ text tag, dollarTag text = some tag → tag <+: text ∧ tag ≠ []

/-- The rules that SQLite and PostgreSQL share: plain quotes and comments, in texts whose lines end with a newline. -/
def sharedDialect : Dialect where
  nested := false
  returns := false
  words := false
  dollarTag := fun _ => none
  dollarTag_isPrefix := by simp

/-! ## Bodies -/

/-- Up to the closing quote; a doubled quote does not close. -/
def quotedBody (quote : Char) : List Char → List Char
  | [] => []
  | [c] => [c]
  | c :: d :: rest =>
      if c = quote then if d = quote then c :: d :: quotedBody quote rest else [c] else c :: quotedBody quote (d :: rest)

/-- Up to the end of the line. -/
def lineBody (returns : Bool) : List Char → List Char
  | [] => []
  | c :: rest =>
      if c = '\n' ∨ returns = true ∧ c = '\r' ∧ rest.head? ≠ some '\n' then [c] else c :: lineBody returns rest

/-- Up to the closing `*/`, inside of `depth` comments of the comment. -/
def blockBody (nested : Bool) : Nat → List Char → List Char
  | _, [] => []
  | _, [c] => [c]
  | depth, c :: d :: rest =>
      if c = '*' ∧ d = '/' then c :: d :: if depth = 0 then [] else blockBody nested (depth - 1) rest
      else if nested = true ∧ c = '/' ∧ d = '*' then c :: d :: blockBody nested (depth + 1) rest
      else c :: blockBody nested depth (d :: rest)

/-- Up to the closing tag. -/
def dollarBody (tag : List Char) : List Char → List Char
  | [] => []
  | c :: rest => if tag.isPrefixOf (c :: rest) then tag else c :: dollarBody tag rest

/-! ## Lexemes -/

variable (d : Dialect)

/-- The lexeme that starts here, and how many characters it has behind its first. -/
def lexemeAt (c : Char) (rest : List Char) : Lexeme × Nat :=
  if c = '-' ∧ rest.head? = some '-' then
    (.lineComment (lineBody d.returns rest.tail), (lineBody d.returns rest.tail).length + 1)
  else if c = '/' ∧ rest.head? = some '*' then
    (.blockComment (blockBody d.nested 0 rest.tail), (blockBody d.nested 0 rest.tail).length + 1)
  else if c = '\'' ∨ c = '"' then (.quoted c (quotedBody c rest), (quotedBody c rest).length)
  else if d.words = true ∧ isWordStart c = true then
    (.word (c :: rest.takeWhile isWordChar), (rest.takeWhile isWordChar).length)
  else
    match d.dollarTag (c :: rest) with
    | some tag =>
        let body := dollarBody tag ((c :: rest).drop tag.length)
        (.dollarQuoted tag body, tag.length + body.length - 1)
    | none => (.plain c, 0)

/-- **The lexemes of a text.** -/
def lex (text : List Char) : List Lexeme := scan (ahead (lexemeAt d)) text

/-! ## A text is its lexemes -/

theorem quotedBody_isPrefix (quote : Char) (text : List Char) : quotedBody quote text <+: text := by
  induction text using quotedBody.induct quote with
  | case1 => simp [quotedBody]
  | case2 c => simp [quotedBody]
  | case3 rest ih => simp [quotedBody, ih]
  | case4 d rest hd => simp [quotedBody, hd]
  | case5 c d rest hc ih => simp [quotedBody, hc, ih]

theorem lineBody_isPrefix (returns : Bool) (text : List Char) : lineBody returns text <+: text := by
  induction text using lineBody.induct returns with
  | case1 => simp [lineBody]
  | case2 c rest hends =>
      unfold lineBody
      rw [if_pos hends]
      simp
  | case3 c rest hends ih =>
      unfold lineBody
      rw [if_neg hends]
      simp [ih]

theorem blockBody_isPrefix (nested : Bool) (depth : Nat) (text : List Char) : blockBody nested depth text <+: text := by
  induction depth, text using blockBody.induct nested with
  | case1 depth => simp [blockBody]
  | case2 depth c => simp [blockBody]
  | case3 depth c d rest hclose ih =>
      unfold blockBody
      rw [if_pos hclose]
      by_cases hdepth : depth = 0
      · simp [hdepth]
      · simp [hdepth, ih]
  | case4 depth c d rest hclose hopen ih =>
      unfold blockBody
      rw [if_neg hclose, if_pos hopen]
      simp [ih]
  | case5 depth c d rest hclose hopen ih =>
      unfold blockBody
      rw [if_neg hclose, if_neg hopen]
      simp [ih]

theorem dollarBody_isPrefix (tag text : List Char) : dollarBody tag text <+: text := by
  induction text using dollarBody.induct tag with
  | case1 => simp [dollarBody]
  | case2 c rest htag =>
      unfold dollarBody
      rw [if_pos htag]
      exact List.isPrefixOf_iff_prefix.mp htag
  | case3 c rest htag ih =>
      unfold dollarBody
      rw [if_neg htag]
      simp [ih]

/-- A prefix is what is taken of the text. -/
theorem take_of_isPrefix {body text : List Char} (h : body <+: text) : text.take body.length = body :=
  (List.prefix_iff_eq_take.mp h).symm

/-- **A lexeme holds the characters it was read from.** -/
theorem text_lexemeAt (c : Char) (rest : List Char) :
    (lexemeAt d c rest).1.text = c :: rest.take (lexemeAt d c rest).2 := by
  unfold lexemeAt
  split_ifs with hline hblock hquote hword
  · obtain ⟨rfl, hnext⟩ := hline
    obtain ⟨tail, rfl⟩ := List.head?_eq_some_iff.mp hnext
    simp [Lexeme.text, take_of_isPrefix (lineBody_isPrefix d.returns tail)]
  · obtain ⟨rfl, hnext⟩ := hblock
    obtain ⟨tail, rfl⟩ := List.head?_eq_some_iff.mp hnext
    simp [Lexeme.text, take_of_isPrefix (blockBody_isPrefix d.nested 0 tail)]
  · simp [Lexeme.text, take_of_isPrefix (quotedBody_isPrefix c rest)]
  · simp [Lexeme.text, take_of_isPrefix (List.takeWhile_prefix isWordChar)]
  · cases htag : d.dollarTag (c :: rest) with
    | none => simp [Lexeme.text]
    | some tag =>
        obtain ⟨⟨after, hafter⟩, hne⟩ := d.dollarTag_isPrefix _ tag htag
        -- The tag starts with the character itself.
        cases tag with
        | nil => exact absurd rfl hne
        | cons a more =>
            obtain ⟨rfl, rfl⟩ := List.cons.inj hafter
            have hbody := take_of_isPrefix (dollarBody_isPrefix (a :: more) after)
            have hmore : more.take (more.length + (dollarBody (a :: more) after).length) = more :=
              List.take_of_length_le (Nat.le_add_right _ _)
            simp [Lexeme.text, List.take_append, hbody, hmore]

/-- **The lexemes of a text give back the text.** -/
@[simp] theorem flatMap_text_lex (text : List Char) : (lex d text).flatMap Lexeme.text = text :=
  flatten_scan (fun _ => text_lexemeAt d) none text

@[simp] theorem lex_nil : lex d [] = [] := scan_nil

theorem lex_cons (c : Char) (rest : List Char) :
    lex d (c :: rest) = (lexemeAt d c rest).1 :: lex d (rest.drop (lexemeAt d c rest).2) :=
  scan_cons c rest

/-- **The induction that follows the lexemes.** -/
theorem lex_induction {motive : List Char → Prop} (nil : motive [])
    (cons : ∀ c rest, motive (rest.drop (lexemeAt d c rest).2) → motive (c :: rest)) (text : List Char) : motive text :=
  scan_induction (ahead (lexemeAt d)) (motive := fun _ => motive) (fun _ => nil) (fun _ => cons) none text

end VirtInfra.Sql
