import VirtInfra.Python.Prelude
import Mathlib.Data.List.Infix

/-!
# `Strings` — splitting, joining and stripping

The string methods of Python that take a text apart and put it together again, on lists of characters. Each comes with what
it gives on a text that was put together: `strip` on a text between blanks, `split` on fields between separators, and
`" ".join(text.split())`, which changes nothing the second time.
-/

namespace VirtInfra.Python

/-- `s.split(sep, n)`. -/
def splitMax (sep : Char) : Nat → List Char → List (List Char)
  | 0, text => [text]
  | n + 1, text =>
      match text.dropWhile (· ≠ sep) with
      | [] => [text]
      | _ :: rest => text.takeWhile (· ≠ sep) :: splitMax sep n rest

/-- `s.partition(sep)`, without the middle part: it is empty where the separator is not found. -/
def partition (sep : Char) (text : List Char) : Option (List Char × List Char) :=
  match text.dropWhile (· ≠ sep) with
  | [] => none
  | _ :: rest => some (text.takeWhile (· ≠ sep), rest)

/-- `s.split()`. -/
def words (text : List Char) : List (List Char) := (text.splitOnP isSpace).filter (· ≠ [])

/-- `" ".join(s.split())`. -/
def squeeze (text : List Char) : List Char := [' '].intercalate (words text)

section Fields

variable {sep : Char} {field : List Char} (rest : List Char)

/-- The text up to a separator, and what is behind it. -/
theorem span_field (hfield : sep ∉ field) :
    (field ++ sep :: rest).takeWhile (· ≠ sep) = field ∧ (field ++ sep :: rest).dropWhile (· ≠ sep) = sep :: rest := by
  have hall : ∀ c ∈ field, decide (c ≠ sep) = true := fun c hc => decide_eq_true fun h => hfield (h ▸ hc)
  constructor
  · rw [List.takeWhile_append_of_pos hall, List.takeWhile_cons_of_neg (by simp), List.append_nil]
  · rw [List.dropWhile_append_of_pos hall, List.dropWhile_cons_of_neg (by simp)]

theorem splitMax_field (hfield : sep ∉ field) (n : Nat) :
    splitMax sep (n + 1) (field ++ sep :: rest) = field :: splitMax sep n rest := by
  obtain ⟨htake, hdrop⟩ := span_field rest hfield
  rw [splitMax, hdrop, htake]

theorem partition_field (hfield : sep ∉ field) : partition sep (field ++ sep :: rest) = some (field, rest) := by
  obtain ⟨htake, hdrop⟩ := span_field rest hfield
  rw [partition, hdrop, htake]

end Fields

/-! ## Blanks around a text -/

/-- A text that neither begins nor ends with a blank. -/
structure Trim (text : List Char) : Prop where
  head : ∀ c ∈ text.head?, isSpace c = false
  last : ∀ c ∈ text.getLast?, isSpace c = false

theorem Trim.of_no_space {text : List Char} (h : ∀ c ∈ text, isSpace c = false) : Trim text :=
  ⟨fun c hc => h c (List.mem_of_mem_head? hc), fun c hc => h c (List.mem_of_mem_getLast? hc)⟩

theorem dropWhile_of_head {text : List Char} (h : ∀ c ∈ text.head?, isSpace c = false) : text.dropWhile isSpace = text := by
  cases text with
  | nil => rfl
  | cons c rest => rw [List.dropWhile_cons_of_neg (by rw [h c rfl]; decide)]

/-- No blanks. -/
theorem no_blanks : ∀ c ∈ ([] : List Char), isSpace c = true := by simp

/-- **Blanks around a text are stripped**, and nothing of the text is. -/
theorem strip_blanks {before text after : List Char} (hbefore : ∀ c ∈ before, isSpace c = true)
    (hafter : ∀ c ∈ after, isSpace c = true) (h : Trim text) :
    strip (String.ofList (before ++ (text ++ after))) = String.ofList text := by
  have hstrip : (text ++ after).dropWhile isSpace = text ++ after ∨ text = [] := by
    by_cases hne : text = []
    · exact .inr hne
    · refine .inl (dropWhile_of_head ?_)
      rw [List.head?_append_of_ne_nil _ hne]
      exact h.head
  unfold strip
  rw [String.toList_ofList, List.dropWhile_append_of_pos hbefore]
  congr 1
  rcases hstrip with hstrip | rfl
  · have hreverse : ∀ c ∈ after.reverse, isSpace c = true := fun c hc => hafter c (List.mem_reverse.mp hc)
    have hlast : text.reverse.dropWhile isSpace = text.reverse := dropWhile_of_head (by rw [List.head?_reverse]; exact h.last)
    rw [hstrip, List.reverse_append, List.dropWhile_append_of_pos hreverse, hlast, List.reverse_reverse]
  · rw [List.nil_append, List.dropWhile_eq_nil_iff.mpr hafter]
    rfl

theorem strip_of_trim {text : List Char} (h : Trim text) : strip (String.ofList text) = String.ofList text := by
  simpa using strip_blanks no_blanks no_blanks h

/-! ## Words -/

/-- A word has characters, and no blank among them. -/
def IsWord (w : List Char) : Prop := w ≠ [] ∧ ∀ c ∈ w, isSpace c = false

/-- A word and a blank behind it. -/
theorem words_word {w : List Char} (hw : IsWord w) (rest : List Char) :
    words (w ++ ' ' :: rest) = w :: words rest := by
  unfold words
  rw [List.splitOnP_append_cons_of_forall_mem hw.2 ' ' (by decide), List.filter_cons_of_pos (by simpa using hw.1)]

theorem words_last {w : List Char} (hw : IsWord w) : words w = [w] := by
  unfold words
  rw [List.splitOnP_eq_singleton hw.2, List.filter_cons_of_pos (by simpa using hw.1), List.filter_nil]

/-- No field of a split text has a separator in it. -/
theorem not_separator_of_mem_splitOnP {α : Type*} {p : α → Bool} {text field : List α} (h : field ∈ text.splitOnP p) :
    ∀ c ∈ field, p c = false := by
  induction text generalizing field with
  | nil =>
      rw [List.splitOnP_nil, List.mem_singleton] at h
      simp [h]
  | cons c rest ih =>
      rw [List.splitOnP_cons_eq_if_modifyHead] at h
      split at h
      · rcases List.mem_cons.mp h with rfl | h
        · simp
        · exact ih h
      · next hc =>
          -- The character stays in the first field of what follows.
          cases hsplit : rest.splitOnP p with
          | nil => exact absurd hsplit (List.splitOnP_ne_nil p rest)
          | cons first others =>
              rw [hsplit, List.modifyHead_cons, List.mem_cons] at h
              rcases h with rfl | h
              · rintro d (_ | ⟨_, hd⟩)
                · exact Bool.eq_false_iff.mpr hc
                · exact ih (hsplit ▸ List.mem_cons_self) d hd
              · exact ih (hsplit ▸ List.mem_cons_of_mem _ h)

theorem isWord_of_mem_words {text w : List Char} (hw : w ∈ words text) : IsWord w := by
  obtain ⟨hmem, hne⟩ := List.mem_filter.mp hw
  exact ⟨by simpa using hne, not_separator_of_mem_splitOnP hmem⟩

/-- **Words joined by blanks are the words of the text.** -/
theorem words_intercalate {ws : List (List Char)} (h : ∀ w ∈ ws, IsWord w) : words ([' '].intercalate ws) = ws := by
  induction ws with
  | nil => rfl
  | cons w rest ih =>
      cases rest with
      | nil => simpa using words_last (h w List.mem_cons_self)
      | cons w' rest =>
          rw [List.intercalate_cons_cons, List.append_assoc, List.singleton_append, words_word (h w List.mem_cons_self),
            ih fun w hw => h w (List.mem_cons_of_mem _ hw)]

theorem squeeze_squeeze (text : List Char) : squeeze (squeeze text) = squeeze text := by
  unfold squeeze
  rw [words_intercalate fun _ => isWord_of_mem_words]

/-- A squeezed text has no blanks around it. -/
theorem trim_squeeze (text : List Char) : Trim (squeeze text) := by
  have htrim : ∀ ws : List (List Char), (∀ w ∈ ws, IsWord w) → Trim ([' '].intercalate ws) ∧
      (ws ≠ [] → [' '].intercalate ws ≠ []) := by
    intro ws
    induction ws with
    | nil => exact fun _ => ⟨⟨by simp, by simp⟩, by simp⟩
    | cons w rest ih =>
        intro h
        have hw := h w List.mem_cons_self
        cases rest with
        | nil => simpa using ⟨Trim.of_no_space hw.2, hw.1⟩
        | cons w' rest =>
            obtain ⟨hrest, hne⟩ := ih fun w hw => h w (List.mem_cons_of_mem _ hw)
            have hne := hne (List.cons_ne_nil _ _)
            rw [List.intercalate_cons_cons, List.append_assoc]
            refine ⟨⟨fun c hc => ?_, fun c hc => ?_⟩, fun _ => by simp⟩
            · rw [List.head?_append_of_ne_nil _ hw.1] at hc
              exact (Trim.of_no_space hw.2).head c hc
            · rw [List.getLast?_append_of_ne_nil _ (by simp), List.getLast?_append_of_ne_nil _ hne] at hc
              exact hrest.last c hc
  exact (htrim _ fun _ => isWord_of_mem_words).1

end VirtInfra.Python
