import Mathlib.Data.List.ReduceOption
import VirtInfra.Python.Prelude
import VirtInfra.Sql.Lexical

/-!
# `Script` — a script is split into statements (`bw_pg.py`)

`_split_sql_script` walks over the script with one mode for each construct and cuts at the semicolons outside of all of
them. It reads comments without nesting, and takes every `$`, letters, digits or underscores, `$` for a dollar quote.
-/

namespace VirtInfra.Sql

open Lib Python

/-! ## `_split_sql_script` -/

/-- `re.match(r"\$[A-Za-z_0-9]*\$", text)`. -/
def codeTag : List Char → Option (List Char)
  | '$' :: rest =>
      let name := rest.takeWhile fun c => c.isAlphanum || c = '_'
      if (rest.drop name.length).head? = some '$' then some ('$' :: name ++ ['$']) else none
  | _ => none

/-- `quote`, `dollar_tag`, `line_comment` and `block_comment`, of which one is set at most. -/
inductive SplitMode
  | plain
  | quote (quote : Char)
  | dollar (tag : List Char)
  | lineComment
  | blockComment
  deriving DecidableEq, Repr

/-- `statement = "".join(buf).strip()`, which goes out if it is not empty. -/
def emit (buf : List Char) : List String :=
  let statement := strip (String.ofList buf)
  if statement = "" then [] else [statement]

/-- The loop, from a position on, after `copy` characters that go into the buffer as they are. -/
def splitFrom : SplitMode → Nat → List Char → List Char → List String
  | _, _, buf, [] => emit buf
  | mode, copy + 1, buf, c :: rest => splitFrom mode copy (buf ++ [c]) rest
  | .lineComment, 0, buf, c :: rest => splitFrom (if c = '\n' then .plain else .lineComment) 0 (buf ++ [c]) rest
  | .blockComment, 0, buf, c :: rest =>
      if c = '*' ∧ rest.head? = some '/' then splitFrom .plain 1 (buf ++ [c]) rest
      else splitFrom .blockComment 0 (buf ++ [c]) rest
  | .quote quote, 0, buf, c :: rest =>
      if c = quote then
        if rest.head? = some quote then splitFrom (.quote quote) 1 (buf ++ [c]) rest
        else splitFrom .plain 0 (buf ++ [c]) rest
      else splitFrom (.quote quote) 0 (buf ++ [c]) rest
  | .dollar tag, 0, buf, c :: rest =>
      if tag.isPrefixOf (c :: rest) then splitFrom .plain (tag.length - 1) (buf ++ [c]) rest
      else splitFrom (.dollar tag) 0 (buf ++ [c]) rest
  | .plain, 0, buf, c :: rest =>
      if c = '-' ∧ rest.head? = some '-' then splitFrom .lineComment 1 (buf ++ [c]) rest
      else if c = '/' ∧ rest.head? = some '*' then splitFrom .blockComment 1 (buf ++ [c]) rest
      else if c = '\'' ∨ c = '"' then splitFrom (.quote c) 0 (buf ++ [c]) rest
      else
        match codeTag (c :: rest) with
        | some tag => splitFrom (.dollar tag) (tag.length - 1) (buf ++ [c]) rest
        | none =>
            if c = ';' then emit buf ++ splitFrom .plain 0 [] rest else splitFrom .plain 0 (buf ++ [c]) rest

attribute [local simp] splitFrom

/-- **`_split_sql_script`**. -/
def splitSqlScript (script : String) : List String := splitFrom .plain 0 [] script.toList

/-! ## The statements of a script -/

/-- The tag of a dollar quote in PostgreSQL: what a word is made of, but no dollar sign. -/
def postgresTag : List Char → Option (List Char)
  | '$' :: rest =>
      let name := rest.takeWhile isTagChar
      if name.head?.all isWordStart = true ∧ (rest.drop name.length).head? = some '$' then some ('$' :: name ++ ['$'])
      else none
  | _ => none

/-- A tag stands at the start of the text. -/
theorem tag_isPrefix {p : Char → Bool} {rest : List Char} (h : (rest.drop (rest.takeWhile p).length).head? = some '$') :
    '$' :: rest.takeWhile p ++ ['$'] <+: '$' :: rest := by
  obtain ⟨tail, htail⟩ := List.head?_eq_some_iff.mp h
  have hrest := List.take_append_drop (rest.takeWhile p).length rest
  rw [take_of_isPrefix (List.takeWhile_prefix p), htail] at hrest
  exact ⟨tail, by simp [hrest]⟩

/-- The rules of the scanner. -/
def codeDialect : Dialect where
  nested := false
  returns := false
  words := false
  dollarTag := codeTag
  dollarTag_isPrefix text tag h := by
    unfold codeTag at h
    split at h
    · dsimp only at h
      split at h
      · next hclose =>
          obtain rfl := Option.some.inj h
          exact ⟨tag_isPrefix hclose, by simp⟩
      · cases h
    · cases h

/-- PostgreSQL's rules, for strings in which a backslash is a character like any other. -/
def postgresDialect : Dialect where
  nested := true
  returns := true
  words := true
  dollarTag := postgresTag
  dollarTag_isPrefix text tag h := by
    unfold postgresTag at h
    split at h
    · dsimp only at h
      split at h
      · next hclose =>
          obtain rfl := Option.some.inj h
          exact ⟨tag_isPrefix hclose.2, by simp⟩
      · cases h
    · cases h

/-- The characters of a lexeme, and `none` for a semicolon that ends a statement. -/
def Lexeme.marks : Lexeme → List (Option Char)
  | .plain c => [if c = ';' then none else some c]
  | lexeme => lexeme.text.map some

def marks (d : Dialect) (text : List Char) : List (Option Char) := (lex d text).flatMap Lexeme.marks

/-- The texts between the semicolons outside of all constructs. -/
def parts (d : Dialect) (script : String) : List (List Char) :=
  ((marks d script.toList).splitOn none).map List.reduceOption

/-- **The statements**: these texts without surrounding blanks, where they are not empty. -/
def statements (d : Dialect) (script : String) : List String := (parts d script).flatMap emit

/-- What is left of a text at each of its lexemes. -/
def starts (d : Dialect) (text : List Char) : List (List Char) :=
  scan (ahead fun c rest => (c :: rest, (lexemeAt d c rest).2)) text

/-- **A script that the scanner reads as PostgreSQL does**: no line comment ends with a bare carriage return, no comment is
    inside of another, no word has what looks like a dollar quote in it, and what looks like one outside of words is one. -/
structure Readable (text : List Char) : Prop where
  lines : ∀ body, .lineComment body ∈ lex postgresDialect text → body.getLast? ≠ some '\r'
  comments : ∀ body, .blockComment body ∈ lex postgresDialect text → ¬ ['/', '*'] <:+: body
  words : ∀ chars, .word chars ∈ lex postgresDialect text → ∀ post, post <:+ chars → codeTag post = none
  tags : ∀ left ∈ starts postgresDialect text, codeTag left = postgresTag left

/-! ## The scanner cuts at its semicolons -/

/-- The statements of marked text, behind what is in the buffer. -/
def cut (buf : List Char) (text : List (Option Char)) : List String :=
  (((buf.map some ++ text).splitOn none).map List.reduceOption).flatMap emit

theorem reduceOption_map_some (buf : List Char) : (buf.map some).reduceOption = buf := by
  simp [List.reduceOption, List.filterMap_map]

theorem cut_nil (buf : List Char) : cut buf [] = emit buf := by
  unfold cut
  rw [List.append_nil, List.splitOn_eq_singleton (by simp)]
  simp [reduceOption_map_some]

theorem cut_none (buf : List Char) (text : List (Option Char)) : cut buf (none :: text) = emit buf ++ cut [] text := by
  unfold cut
  rw [List.splitOn_append_cons_self_of_not_mem (by simp)]
  simp [reduceOption_map_some]

theorem cut_chars (buf chars : List Char) (text : List (Option Char)) :
    cut buf (chars.map some ++ text) = cut (buf ++ chars) text := by
  simp [cut]

theorem splitFrom_copy (mode : SplitMode) (copy : Nat) (buf text : List Char) :
    splitFrom mode copy buf text = splitFrom mode 0 (buf ++ text.take copy) (text.drop copy) := by
  induction text generalizing copy buf with
  | nil => cases mode <;> cases copy <;> simp
  | cons c rest ih =>
      cases copy with
      | zero => simp
      | succ copy => simp [ih copy (buf ++ [c])]

theorem splitFrom_quote (quote : Char) (buf text : List Char) :
    splitFrom (.quote quote) 0 buf text =
      splitFrom .plain 0 (buf ++ quotedBody quote text) (text.drop (quotedBody quote text).length) := by
  induction text using quotedBody.induct quote generalizing buf with
  | case1 => simp [quotedBody]
  | case2 c => by_cases hc : c = quote <;> simp [quotedBody, hc]
  | case3 rest ih => simp [quotedBody, ih]
  | case4 d rest hd => simp [quotedBody, hd]
  | case5 c d rest hc ih =>
      conv_lhs => unfold splitFrom
      rw [if_neg hc, ih]
      simp [quotedBody, hc]

theorem splitFrom_line (buf text : List Char) :
    splitFrom .lineComment 0 buf text =
      splitFrom .plain 0 (buf ++ lineBody false text) (text.drop (lineBody false text).length) := by
  induction text generalizing buf with
  | nil => simp [lineBody]
  | cons c rest ih => by_cases hc : c = '\n' <;> simp [lineBody, hc, ih]

theorem splitFrom_block (buf text : List Char) :
    splitFrom .blockComment 0 buf text =
      splitFrom .plain 0 (buf ++ blockBody false 0 text) (text.drop (blockBody false 0 text).length) := by
  induction hdepth : 0, text using blockBody.induct false generalizing buf with
  | case1 depth => simp [blockBody]
  | case2 depth c =>
      subst hdepth
      simp [blockBody]
  | case3 depth c d rest hclose ih =>
      subst hdepth
      simp [blockBody, hclose]
  | case4 depth c d rest hclose hopen ih => simp at hopen
  | case5 depth c d rest hclose hopen ih =>
      subst hdepth
      conv_lhs => unfold splitFrom
      rw [if_neg (by simpa using hclose), ih _ rfl]
      simp [blockBody, hclose]

theorem splitFrom_dollar {tag : List Char} (htag : tag ≠ []) (buf text : List Char) :
    splitFrom (.dollar tag) 0 buf text =
      splitFrom .plain 0 (buf ++ dollarBody tag text) (text.drop (dollarBody tag text).length) := by
  induction text using dollarBody.induct tag generalizing buf with
  | case1 => simp [dollarBody]
  | case2 c rest hclose =>
      obtain ⟨after, hafter⟩ := List.isPrefixOf_iff_prefix.mp hclose
      cases tag with
      | nil => exact absurd rfl htag
      | cons a more =>
          obtain ⟨rfl, rfl⟩ := List.cons.inj hafter
          conv_lhs => unfold splitFrom
          unfold dollarBody
          rw [if_pos hclose, if_pos hclose, splitFrom_copy]
          simp
  | case3 c rest hclose ih =>
      conv_lhs => unfold splitFrom
      unfold dollarBody
      rw [if_neg hclose, if_neg hclose, ih]
      simp

/-- One lexeme of the scanner. -/
theorem splitFrom_plain_cons (buf : List Char) (c : Char) (rest : List Char) :
    splitFrom .plain 0 buf (c :: rest) =
      if (lexemeAt codeDialect c rest).1 = .plain ';' then emit buf ++ splitFrom .plain 0 [] rest
      else splitFrom .plain 0 (buf ++ (lexemeAt codeDialect c rest).1.text)
        (rest.drop (lexemeAt codeDialect c rest).2) := by
  conv_lhs => unfold splitFrom
  unfold lexemeAt
  by_cases hline : c = '-' ∧ rest.head? = some '-'
  · obtain ⟨tail, rfl⟩ := List.head?_eq_some_iff.mp hline.2
    simp [hline, splitFrom_line, Lexeme.text, codeDialect]
  by_cases hblock : c = '/' ∧ rest.head? = some '*'
  · obtain ⟨tail, rfl⟩ := List.head?_eq_some_iff.mp hblock.2
    simp [hblock, splitFrom_block, Lexeme.text, codeDialect]
  by_cases hquote : c = '\'' ∨ c = '"'
  · simp [hline, hblock, hquote, splitFrom_quote, Lexeme.text]
  have hdialect : codeDialect.dollarTag = codeTag := rfl
  have hwords : codeDialect.words = false := rfl
  simp only [if_neg hline, if_neg hblock, if_neg hquote, hdialect, hwords, Bool.false_eq_true, false_and, if_false]
  cases htag : codeTag (c :: rest) with
  | none =>
      by_cases hsemicolon : c = ';'
      · simp [hsemicolon]
      · simp [hsemicolon, Lexeme.text]
  | some tag =>
      obtain ⟨⟨after, hafter⟩, hne⟩ := codeDialect.dollarTag_isPrefix _ tag htag
      cases tag with
      | nil => exact absurd rfl hne
      | cons a more =>
          obtain ⟨rfl, rfl⟩ := List.cons.inj hafter
          have hmore : more.length + (dollarBody (a :: more) after).length - more.length =
              (dollarBody (a :: more) after).length := by omega
          have hdrop : more.drop (more.length + (dollarBody (a :: more) after).length) = [] :=
            List.drop_eq_nil_of_le (by omega)
          simp [splitFrom_copy _ more.length, splitFrom_dollar hne, Lexeme.text, List.drop_append, hmore, hdrop]

/-- A lexeme that ends no statement keeps its text. -/
theorem marks_of_ne {lexeme : Lexeme} (h : lexeme ≠ .plain ';') : lexeme.marks = lexeme.text.map some := by
  cases lexeme with
  | plain c =>
      have hc : c ≠ ';' := fun heq => h (congrArg Lexeme.plain heq)
      simp [Lexeme.marks, Lexeme.text, hc]
  | word chars => rfl
  | quoted quote body => rfl
  | dollarQuoted tag body => rfl
  | lineComment body => rfl
  | blockComment body => rfl

theorem marks_cons (d : Dialect) (c : Char) (rest : List Char) :
    marks d (c :: rest) = (lexemeAt d c rest).1.marks ++ marks d (rest.drop (lexemeAt d c rest).2) := by
  unfold marks
  rw [lex_cons, List.flatMap_cons]

/-- **The scanner cuts at the semicolons that its rules leave outside.** -/
theorem splitFrom_plain (buf text : List Char) : splitFrom .plain 0 buf text = cut buf (marks codeDialect text) := by
  induction text using lex_induction codeDialect generalizing buf with
  | nil => simp [marks, cut_nil]
  | cons c rest ih =>
      rw [splitFrom_plain_cons, marks_cons]
      by_cases hsemicolon : (lexemeAt codeDialect c rest).1 = .plain ';'
      · have hdrop : rest.drop (lexemeAt codeDialect c rest).2 = rest := by
          -- The lexeme is one character, and so nothing was skipped.
          have htext := text_lexemeAt codeDialect c rest
          rw [hsemicolon] at htext
          have htake := (List.cons.inj htext).2
          have hsplit := List.take_append_drop (lexemeAt codeDialect c rest).2 rest
          rwa [← htake, List.nil_append] at hsplit
        rw [hdrop] at ih ⊢
        rw [if_pos hsemicolon, hsemicolon, ih]
        simp [Lexeme.marks, cut_none]
      · rw [if_neg hsemicolon, marks_of_ne hsemicolon, cut_chars, ih]

/-- **`_split_sql_script` gives the statements by the rules of the scanner.** -/
theorem splitSqlScript_eq (script : String) : splitSqlScript script = statements codeDialect script := by
  unfold splitSqlScript statements parts
  rw [splitFrom_plain]
  rfl

/-! ## Its rules against PostgreSQL's -/

/-- A line without a bare carriage return at its end goes up to the newline. -/
theorem lineBody_of_newline {text : List Char} (h : (lineBody true text).getLast? ≠ some '\r') :
    lineBody false text = lineBody true text := by
  induction text with
  | nil => rfl
  | cons c rest ih =>
      by_cases hline : c = '\n'
      · simp [lineBody, hline]
      by_cases hreturn : c = '\r' ∧ rest.head? ≠ some '\n'
      · -- Here the line would end at the carriage return.
        exact absurd (by simp [lineBody, hreturn]) h
      · have hcons : lineBody true (c :: rest) = c :: lineBody true rest := by
          conv_lhs => unfold lineBody
          rw [if_neg (by simp [hline, hreturn])]
        rw [hcons, List.getLast?_cons] at h
        rw [hcons, ← ih fun hlast => h (by rw [hlast, Option.getD_some])]
        simp [lineBody, hline]

/-- A comment without another one in it ends where the first `*/` is. -/
theorem blockBody_of_flat {text : List Char} (h : ¬ ['/', '*'] <:+: blockBody true 0 text) :
    blockBody false 0 text = blockBody true 0 text := by
  induction hdepth : 0, text using blockBody.induct true with
  | case1 depth => simp [blockBody]
  | case2 depth c => simp [blockBody]
  | case3 depth c d rest hclose ih =>
      subst hdepth
      simp [blockBody, hclose]
  | case4 depth c d rest hclose hopen ih =>
      -- Here another comment would open.
      subst hdepth
      exfalso
      apply h
      obtain ⟨-, rfl, rfl⟩ := hopen
      exact ⟨[], blockBody true 1 rest, by simp [blockBody]⟩
  | case5 depth c d rest hclose hopen ih =>
      subst hdepth
      have hcons : blockBody true 0 (c :: d :: rest) = c :: blockBody true 0 (d :: rest) := by
        conv_lhs => unfold blockBody
        rw [if_neg hclose, if_neg hopen]
      rw [hcons] at h ⊢
      have hrest := ih (fun hin => h (List.infix_cons hin)) rfl
      conv_lhs => unfold blockBody
      rw [if_neg hclose, if_neg (by simp), hrest]

theorem Readable.tail {c : Char} {rest : List Char} (h : Readable (c :: rest)) :
    Readable (rest.drop (lexemeAt postgresDialect c rest).2) where
  lines body hbody := h.lines body (by rw [lex_cons]; exact List.mem_cons_of_mem _ hbody)
  comments body hbody := h.comments body (by rw [lex_cons]; exact List.mem_cons_of_mem _ hbody)
  words chars hchars := h.words chars (by rw [lex_cons]; exact List.mem_cons_of_mem _ hchars)
  tags left hleft := h.tags left (by
    unfold starts at hleft ⊢
    rw [scan_cons]
    exact List.mem_cons_of_mem _ hleft)

/-- Outside of words the lexemes are the same. -/
theorem lexemeAt_alike {c : Char} {rest : List Char} (h : Readable (c :: rest)) (hword : isWordStart c = false) :
    lexemeAt codeDialect c rest = lexemeAt postgresDialect c rest := by
  have hmem : (lexemeAt postgresDialect c rest).1 ∈ lex postgresDialect (c :: rest) := by
    rw [lex_cons]
    exact List.mem_cons_self
  have htag : codeTag (c :: rest) = postgresTag (c :: rest) := by
    apply h.tags
    unfold starts
    rw [scan_cons]
    exact List.mem_cons_self
  unfold lexemeAt at hmem ⊢
  by_cases hline : c = '-' ∧ rest.head? = some '-'
  · rw [if_pos hline] at hmem
    have hbody := lineBody_of_newline (h.lines _ hmem)
    have hreturns : codeDialect.returns = false ∧ postgresDialect.returns = true := ⟨rfl, rfl⟩
    rw [if_pos hline, if_pos hline, hreturns.1, hreturns.2, hbody]
  by_cases hblock : c = '/' ∧ rest.head? = some '*'
  · rw [if_neg hline, if_pos hblock] at hmem
    have hbody := blockBody_of_flat (h.comments _ hmem)
    have hnested : codeDialect.nested = false ∧ postgresDialect.nested = true := ⟨rfl, rfl⟩
    rw [if_neg hline, if_pos hblock, if_neg hline, if_pos hblock, hnested.1, hnested.2, hbody]
  by_cases hquote : c = '\'' ∨ c = '"'
  · simp [hline, hblock, hquote]
  have hcode : codeDialect.dollarTag = codeTag := rfl
  have hpostgres : postgresDialect.dollarTag = postgresTag := rfl
  simp [hline, hblock, hquote, hword, hcode, hpostgres, htag]

/-- What follows a word does not make a dollar quote in it. -/
theorem codeTag_append {post rest : List Char} (hrest : ∀ c ∈ rest.head?, isWordChar c = false) :
    codeTag (post ++ rest) = codeTag post := by
  have hdollar : rest.head? ≠ some '$' := fun h => absurd (hrest _ h) (by decide)
  cases post with
  | nil =>
      unfold codeTag
      split
      · next more heq => exact absurd (by rw [show rest = '$' :: more from heq]; rfl) hdollar
      · rfl
  | cons c more =>
      by_cases hc : c = '$'
      · -- The name ends before what follows the word.
        have hnone : rest.takeWhile (fun c => c.isAlphanum || c = '_') = [] := by
          cases rest with
          | nil => rfl
          | cons d rest =>
              have hd := hrest d rfl
              rw [List.takeWhile_cons_of_neg]
              intro hname
              have hword : isWordChar d = true := by
                simp only [isWordChar, isTagChar, isWordStart, Char.isAlphanum, Bool.or_eq_true] at hname ⊢
                tauto
              rw [hword] at hd
              cases hd
        have hopen : ∀ text, codeTag ('$' :: text) =
            if (text.drop (text.takeWhile fun c => c.isAlphanum || c = '_').length).head? = some '$' then
              some ('$' :: (text.takeWhile fun c => c.isAlphanum || c = '_') ++ ['$'])
            else none := fun _ => rfl
        subst hc
        rw [List.cons_append, hopen, hopen, List.takeWhile_append]
        split
        · next hall =>
            rw [hnone, List.append_nil]
            have hlen : more.takeWhile (fun c => c.isAlphanum || c = '_') = more :=
              (List.takeWhile_prefix _).eq_of_length hall
            simp [hlen, hdollar]
        · next hnot =>
            have hlt : (more.takeWhile fun c => c.isAlphanum || c = '_').length < more.length :=
              lt_of_le_of_ne (List.takeWhile_prefix _).length_le hnot
            rw [List.drop_append_of_le_length hlt.le, List.head?_append_of_ne_nil]
            simpa using hlt
      · simp [codeTag, hc]

theorem drop_length_takeWhile {α : Type*} (p : α → Bool) (text : List α) :
    text.drop (text.takeWhile p).length = text.dropWhile p := by
  induction text with
  | nil => rfl
  | cons a rest ih =>
      by_cases ha : p a
      · simp [ha, ih]
      · simp [ha]

/-- The scanner reads a word character by character. -/
theorem marks_word {chars rest : List Char} (hchars : ∀ c ∈ chars, isWordChar c = true)
    (htags : ∀ post, post <:+ chars → codeTag post = none) (hrest : ∀ c ∈ rest.head?, isWordChar c = false) :
    marks codeDialect (chars ++ rest) = chars.map some ++ marks codeDialect rest := by
  induction chars with
  | nil => simp
  | cons c chars ih =>
      have hc := hchars c List.mem_cons_self
      have htag : codeTag (c :: (chars ++ rest)) = none := by
        rw [← List.cons_append, codeTag_append hrest]
        exact htags _ (List.suffix_refl _)
      have hlexeme : lexemeAt codeDialect c (chars ++ rest) = (.plain c, 0) := by
        have hline : c ≠ '-' := by rintro rfl; exact absurd hc (by decide)
        have hblock : c ≠ '/' := by rintro rfl; exact absurd hc (by decide)
        have hquote : c ≠ '\'' := by rintro rfl; exact absurd hc (by decide)
        have hidentifier : c ≠ '"' := by rintro rfl; exact absurd hc (by decide)
        have hcode : codeDialect.dollarTag = codeTag := rfl
        have hwords : codeDialect.words = false := rfl
        unfold lexemeAt
        simp [hline, hblock, hquote, hidentifier, hcode, hwords, htag]
      have hsemicolon : c ≠ ';' := by rintro rfl; exact absurd hc (by decide)
      have hmore := ih (fun x hx => hchars x (List.mem_cons_of_mem _ hx))
        (fun post hpost => htags post (hpost.trans (List.suffix_cons c chars)))
      rw [List.cons_append, marks_cons, hlexeme]
      simp [Lexeme.marks, hsemicolon, hmore]

/-- **Both rules leave the same semicolons outside** of a readable script. -/
theorem marks_alike {text : List Char} (h : Readable text) : marks codeDialect text = marks postgresDialect text := by
  induction text using lex_induction postgresDialect with
  | nil => rfl
  | cons c rest ih =>
      have htail := ih h.tail
      by_cases hword : isWordStart c = true
      · have hlexeme : lexemeAt postgresDialect c rest =
            (.word (c :: rest.takeWhile isWordChar), (rest.takeWhile isWordChar).length) := by
          have hline : c ≠ '-' := by rintro rfl; exact absurd hword (by decide)
          have hblock : c ≠ '/' := by rintro rfl; exact absurd hword (by decide)
          have hquote : c ≠ '\'' := by rintro rfl; exact absurd hword (by decide)
          have hidentifier : c ≠ '"' := by rintro rfl; exact absurd hword (by decide)
          have hwords : postgresDialect.words = true := rfl
          unfold lexemeAt
          simp [hline, hblock, hquote, hidentifier, hwords, hword]
        have hmem : .word (c :: rest.takeWhile isWordChar) ∈ lex postgresDialect (c :: rest) := by
          rw [lex_cons, hlexeme]
          exact List.mem_cons_self
        have htext : c :: rest = (c :: rest.takeWhile isWordChar) ++ rest.drop (rest.takeWhile isWordChar).length := by
          have hsplit := List.take_append_drop (rest.takeWhile isWordChar).length rest
          rw [take_of_isPrefix (List.takeWhile_prefix isWordChar)] at hsplit
          rw [List.cons_append, hsplit]
        have hchars : ∀ x ∈ c :: rest.takeWhile isWordChar, isWordChar x = true := by
          intro x hx
          rcases List.mem_cons.mp hx with rfl | hx
          · simp [isWordChar, isTagChar, hword]
          · exact List.mem_takeWhile_imp hx
        have hafter : ∀ x ∈ (rest.drop (rest.takeWhile isWordChar).length).head?, isWordChar x = false := by
          intro x hx
          have hstop := List.head?_dropWhile_not isWordChar rest
          rw [drop_length_takeWhile] at hx
          rw [hx] at hstop
          exact hstop
        rw [hlexeme] at htail
        rw [marks_cons postgresDialect, hlexeme, htext, marks_word hchars (h.words _ hmem) hafter, htail]
        rfl
      · have hlexeme := lexemeAt_alike h (by simpa using hword)
        rw [marks_cons, marks_cons, hlexeme, htail]

/-! ## The statements of a script -/

/-- The parts, with the semicolons between them, are the script. -/
theorem intercalate_parts (d : Dialect) (script : String) : [';'].intercalate (parts d script) = script.toList := by
  -- A mark stands for its character, `none` for the semicolon.
  have hunmark : ∀ text : List (Option Char), [';'].intercalate ((text.splitOn none).map List.reduceOption) =
      text.map fun mark => mark.getD ';' := by
    intro text
    induction text with
    | nil => simp
    | cons mark rest ih =>
        obtain ⟨first, others, hsplit⟩ := List.exists_cons_of_ne_nil (List.splitOn_ne_nil none rest)
        rw [List.splitOn_cons_eq_if_modifyHead]
        rw [hsplit] at ih ⊢
        cases mark with
        | none =>
            rw [if_pos (by simp), List.map_cons, List.intercalate_cons_of_ne_nil (by simp), ih]
            simp
        | some c =>
            rw [if_neg (by simp), List.modifyHead_cons, List.map_cons, List.reduceOption_cons_of_some,
              List.intercalate_cons_cons_left, ← List.map_cons, ih]
            simp
  have hlexeme : ∀ lexeme : Lexeme, lexeme.marks.map (fun mark => mark.getD ';') = lexeme.text := by
    intro lexeme
    by_cases hsemicolon : lexeme = .plain ';'
    · simp [hsemicolon, Lexeme.marks, Lexeme.text]
    · simp [marks_of_ne hsemicolon, Function.comp_def]
  unfold parts marks
  rw [hunmark, List.map_flatMap]
  simp only [hlexeme, flatMap_text_lex]

/-- **A readable script is cut exactly at PostgreSQL's statement boundaries**, and no character but the semicolons there is
    lost before the blanks around the parts and the empty parts go. -/
theorem split_at_boundaries (script : String) (h : Readable script.toList) :
    splitSqlScript script = statements postgresDialect script ∧
      [';'].intercalate (parts postgresDialect script) = script.toList := by
  constructor
  · rw [splitSqlScript_eq]
    unfold statements parts
    rw [marks_alike h]
  · exact intercalate_parts postgresDialect script

theorem codeTag_of_no_dollar {text : List Char} (h : '$' ∉ text) : codeTag text = none := by
  cases text with
  | nil => rfl
  | cons c rest =>
      have hc : c ≠ '$' := fun heq => h (heq ▸ List.mem_cons_self)
      simp [codeTag, hc]

/-- A script with each of the constructs. -/
def sampleScript : String := "DO $f$ x; $f$; -- ;\n/* ; */ SELECT ';''b' \";\";;"

theorem readable_sampleScript : Readable sampleScript.toList := by
  -- The lexemes that the conditions are about.
  have hlex : ∀ lexeme ∈ lex postgresDialect sampleScript.toList,
      (match lexeme with
      | .lineComment body => decide (body.getLast? ≠ some '\r')
      | .blockComment body => decide (¬ ['/', '*'] <:+: body)
      | .word chars => decide ('$' ∉ chars)
      | _ => true) = true := by
    decide +kernel
  constructor
  · intro body hbody
    simpa using hlex _ hbody
  · intro body hbody
    simpa using hlex _ hbody
  · intro chars hchars post hpost
    apply codeTag_of_no_dollar
    intro hmem
    have hdollar := hlex _ hchars
    simp only [decide_eq_true_eq] at hdollar
    exact hdollar (hpost.mem hmem)
  · decide +kernel

/-- **The sample is cut into its two statements.** -/
theorem split_at_boundaries_sample :
    splitSqlScript sampleScript = ["DO $f$ x; $f$", "-- ;\n/* ; */ SELECT ';''b' \";\""] := by
  obtain ⟨hsplit, -⟩ := split_at_boundaries sampleScript readable_sampleScript
  rw [hsplit]
  decide +kernel

/-- **The semicolon at the end and empty statements do not come back.** -/
theorem split_not_at_boundaries :
    ¬ ∀ script, splitSqlScript script = statements postgresDialect script ∧
      strip (String.intercalate ";" (splitSqlScript script)) = strip script := by
  intro h
  have hend := (h "SELECT 1;").2
  revert hend
  decide +kernel

/-- A comment in a comment ends the outer one. -/
example : splitSqlScript "/* a /* b */ ; */ SELECT 1" ≠ statements postgresDialect "/* a /* b */ ; */ SELECT 1" := by
  decide +kernel

end VirtInfra.Sql
