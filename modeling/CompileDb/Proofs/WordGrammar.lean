import CompileDb.Words

/-!
# The grammar of command texts

A command text is written of tokens with blanks between them, and a token of plain characters, escaped ones and quoted
regions. Reading a command text gives the values of its tokens, however they are written (`Written.scan`). Every other
text is read as the command text that it becomes when its open end is completed (`reads_scan`).
-/

namespace CompileDb.Words

/-! ## Tokens -/

/-- What may stand between quotes. -/
inductive Inner where
  | literal (c : Char) (other : c ≠ '"' ∧ c ≠ '\\')
  | escape (c : Char)

namespace Inner

/-- The characters as they are written. -/
def text : Inner → List Char
  | literal c _ => [c]
  | escape c => ['\\', c]

/-- The character that they stand for. -/
def value : Inner → Char
  | literal c _ => c
  | escape c => c

end Inner

/-- A part of a token. -/
inductive Segment where
  | plain (c : Char) (other : c ≠ '"' ∧ c ≠ '\\') (filled : Text.isBlank c = false)
  | escape (c : Char)
  | quoted (region : List Inner)

namespace Segment

/-- The characters as they are written. -/
def text : Segment → List Char
  | plain c _ _ => [c]
  | escape c => ['\\', c]
  | quoted region => '"' :: region.flatMap Inner.text ++ ['"']

/-- The characters that they stand for. -/
def value : Segment → List Char
  | plain c _ _ => [c]
  | escape c => [c]
  | quoted region => region.map Inner.value

end Segment

/-- A word as it is written: parts that touch. -/
structure Token where
  segments : List Segment
  written : segments ≠ []

namespace Token

/-- The token as it is written. -/
def text (t : Token) : List Char := t.segments.flatMap Segment.text

/-- The characters of the word that it stands for. -/
def chars (t : Token) : List Char := t.segments.flatMap Segment.value

/-- The word that it stands for. -/
def value (t : Token) : String := String.ofList t.chars

end Token

/-! ## Command texts -/

/-- Nothing, or something that begins with a blank. -/
def Apart (text : List Char) : Prop := ∀ c ∈ text.head?, Text.isBlank c = true

/-- The command texts of tokens: blanks may stand anywhere around them, and one at least between any two. -/
inductive Written : List Token → List Char → Prop where
  | nil : Written [] []
  | blank {tokens : List Token} {text : List Char} {c : Char} : Text.isBlank c = true → Written tokens text →
      Written tokens (c :: text)
  | token {tokens : List Token} {text : List Char} (t : Token) : Written tokens text → Apart text →
      Written (t :: tokens) (t.text ++ text)

/-! ## Completed texts -/

/-- The text without a backslash at its end that has nothing to escape. -/
def dropDangling : List Char → List Char
  | [] => []
  | ['\\'] => []
  | '\\' :: c :: rest => '\\' :: c :: dropDangling rest
  | c :: rest => c :: dropDangling rest

/-- Whether a quoted region is open at the end of a text. `quoted` tells whether one is open at its beginning. -/
def endsQuoted (quoted : Bool) : List Char → Bool
  | '\\' :: _ :: rest => endsQuoted quoted rest
  | '"' :: rest => endsQuoted (!quoted) rest
  | _ :: rest => endsQuoted quoted rest
  | [] => quoted

/-- The text with the quoted region closed that is open at its end, if one is. -/
def closeQuote (quoted : Bool) (text : List Char) : List Char :=
  if endsQuoted quoted text then text ++ ['"'] else text

/-- The text as it is read: without a dangling backslash, and then with its last quoted region closed. -/
def completed (quoted : Bool) (text : List Char) : List Char := closeQuote quoted (dropDangling text)

/-! ## Reading tokens -/

theorem scan_char {quoted : Bool} {c : Char} (other : c ≠ '"' ∧ c ≠ '\\')
    (filled : quoted = true ∨ Text.isBlank c = false) (word : Option (List Char)) (rest : List Char) :
    scan quoted word (c :: rest) = scan quoted (some (c :: word.getD [])) rest := by
  have filled : (!quoted && Text.isBlank c) = false := by rcases filled with h | h <;> simp [h]
  rw [scan]
  · rw [filled, if_neg Bool.false_ne_true]
  · exact fun same _ => other.2 same
  · exact fun _ _ same _ => other.2 same
  · exact fun same => other.1 same

theorem ne_of_isBlank {c : Char} (blank : Text.isBlank c = true) : c ≠ '"' ∧ c ≠ '\\' := by
  constructor
  · rintro rfl
    exact absurd blank (by decide)
  · rintro rfl
    exact absurd blank (by decide)

/-- A blank outside quotes ends the word at hand. -/
theorem scan_blank {c : Char} (blank : Text.isBlank c = true) (word : Option (List Char)) (rest : List Char) :
    scan false word (c :: rest) = (word.map List.reverse).toList ++ scan false none rest := by
  have other := ne_of_isBlank blank
  rw [scan]
  · simp [blank]
  · exact fun same _ => other.2 same
  · exact fun _ _ same _ => other.2 same
  · exact fun same => other.1 same

/-- A character between quotes adds its value to the word. -/
theorem scan_inner (i : Inner) (word rest : List Char) :
    scan true (some word) (i.text ++ rest) = scan true (some (i.value :: word)) rest := by
  cases i with
  | literal c other => exact scan_char other (.inl rfl) (some word) rest
  | escape c => rfl

/-- A quoted region is read up to the quote behind it. -/
theorem scan_region (region : List Inner) (word rest : List Char) :
    scan true (some word) (region.flatMap Inner.text ++ '"' :: rest) =
      scan false (some ((region.map Inner.value).reverse ++ word)) rest := by
  induction region generalizing word with
  | nil => rfl
  | cons i region ih =>
    rw [List.flatMap_cons, List.append_assoc, scan_inner, ih, List.map_cons, List.reverse_cons, List.append_assoc]
    rfl

/-- A segment adds its value to the word, or begins one. -/
theorem scan_segment (s : Segment) (word : Option (List Char)) (rest : List Char) :
    scan false word (s.text ++ rest) = scan false (some (s.value.reverse ++ word.getD [])) rest := by
  cases s with
  | plain c other filled => exact scan_char other (.inr filled) word rest
  | escape c => rfl
  | quoted region =>
    rw [Segment.text, List.append_assoc]
    exact scan_region region (word.getD []) rest

theorem scan_segments (segments : List Segment) (word rest : List Char) :
    scan false (some word) (segments.flatMap Segment.text ++ rest) =
      scan false (some ((segments.flatMap Segment.value).reverse ++ word)) rest := by
  induction segments generalizing word with
  | nil => rfl
  | cons s segments ih =>
    rw [List.flatMap_cons, List.append_assoc, scan_segment, ih, List.flatMap_cons, List.reverse_append,
      List.append_assoc]
    rfl

/-- A token is one word. -/
theorem scan_token (t : Token) (rest : List Char) :
    scan false none (t.text ++ rest) = scan false (some t.chars.reverse) rest := by
  obtain ⟨segments, written⟩ := t
  cases segments with
  | nil => exact absurd rfl written
  | cons s segments =>
    rw [Token.text, List.flatMap_cons, List.append_assoc, scan_segment, scan_segments, Token.chars, List.flatMap_cons,
      List.reverse_append, Option.getD_none, List.append_nil]

/-- A word ends where nothing follows, or a blank. -/
theorem scan_apart {rest : List Char} (apart : Apart rest) (word : List Char) :
    scan false (some word) rest = word.reverse :: scan false none rest := by
  cases rest with
  | nil => rfl
  | cons c rest =>
    have blank := apart c rfl
    rw [scan_blank blank, scan_blank blank]
    rfl

/-- A command text is read as the values of its tokens. -/
theorem Written.scan {tokens : List Token} {text : List Char} (written : Written tokens text) :
    scan false none text = tokens.map Token.chars := by
  induction written with
  | nil => rfl
  | blank blank _ ih =>
    rw [scan_blank blank, ih]
    rfl
  | token t _ apart ih => rw [scan_token, scan_apart apart, ih, List.reverse_reverse, List.map_cons]

/-! ## Reading any text -/

/-- The text finishes a word of which these characters have been read, and the rest of it is a command text. -/
def Finishes (text begun : List Char) (words : List (List Char)) : Prop :=
  ∃ (segments : List Segment) (tokens : List Token) (rest : List Char),
    text = segments.flatMap Segment.text ++ rest ∧ Written tokens rest ∧ Apart rest ∧
      words = (begun ++ segments.flatMap Segment.value) :: tokens.map Token.chars

/-- The text is written so that these words are read from within it: outside words, within a word, or within a quoted
region of a word. -/
def Reads : Bool → Option (List Char) → List Char → List (List Char) → Prop
  | false, none, text, words => ∃ tokens, Written tokens text ∧ words = tokens.map Token.chars
  | false, some word, text, words => Finishes text word.reverse words
  | true, some word, text, words => ∃ (region : List Inner) (rest : List Char),
      text = region.flatMap Inner.text ++ '"' :: rest ∧ Finishes rest (word.reverse ++ region.map Inner.value) words
  -- A region is open only within a word, so nothing is asked here.
  | true, none, _, _ => True

theorem Finishes.nil (begun : List Char) : Finishes [] begun [begun] :=
  ⟨[], [], [], rfl, .nil, by simp [Apart], by simp⟩

/-- One more segment in front continues a word, or begins one. -/
theorem Finishes.segment {s : Segment} {word : Option (List Char)} {text : List Char} {words : List (List Char)}
    (finishes : Finishes text ((word.getD []).reverse ++ s.value) words) : Reads false word (s.text ++ text) words := by
  obtain ⟨segments, tokens, rest, rfl, written, apart, rfl⟩ := finishes
  cases word with
  | none =>
    refine ⟨⟨s :: segments, List.cons_ne_nil s segments⟩ :: tokens, ?_, rfl⟩
    rw [← List.append_assoc]
    exact .token ⟨s :: segments, List.cons_ne_nil s segments⟩ written apart
  | some word =>
    refine ⟨s :: segments, tokens, rest, ?_, written, apart, ?_⟩
    · rw [List.flatMap_cons, List.append_assoc]
    · rw [List.flatMap_cons, List.append_assoc]
      rfl

namespace Reads

variable {quoted : Bool} {word : Option (List Char)} {text : List Char} {words : List (List Char)} {c : Char}

theorem nil (quoted : Bool) (word : Option (List Char)) :
    Reads quoted word (completed quoted []) (word.map List.reverse).toList := by
  cases quoted with
  | false =>
    cases word with
    | none => exact ⟨[], .nil, rfl⟩
    | some word => exact Finishes.nil word.reverse
  | true =>
    cases word with
    | none => exact trivial
    | some word =>
      refine ⟨[], [], rfl, ?_⟩
      rw [List.map_nil, List.append_nil]
      exact Finishes.nil word.reverse

/-- One more character between quotes. -/
theorem inner (i : Inner) (reads : Reads true (some (i.value :: word.getD [])) text words) :
    Reads true word (i.text ++ text) words := by
  cases word with
  | none => exact trivial
  | some word =>
    obtain ⟨region, rest, rfl, finishes⟩ := reads
    refine ⟨i :: region, rest, ?_, ?_⟩
    · rw [List.flatMap_cons, List.append_assoc]
    · rw [List.reverse_cons, List.append_assoc] at finishes
      exact finishes

/-- One more segment that stands for one character. -/
theorem segment {s : Segment} (single : s.value = [c])
    (reads : Reads false (some (c :: word.getD [])) text words) : Reads false word (s.text ++ text) words := by
  apply Finishes.segment
  rw [single, ← List.reverse_cons]
  exact reads

theorem escape (c : Char) (reads : Reads quoted (some (c :: word.getD [])) text words) :
    Reads quoted word ('\\' :: c :: text) words := by
  cases quoted with
  | false => exact @segment word text words c (.escape c) rfl reads
  | true => exact inner (.escape c) reads

theorem char (other : c ≠ '"' ∧ c ≠ '\\') (filled : quoted = true ∨ Text.isBlank c = false)
    (reads : Reads quoted (some (c :: word.getD [])) text words) : Reads quoted word (c :: text) words := by
  cases quoted with
  | false => exact @segment word text words c (.plain c other (filled.resolve_left Bool.false_ne_true)) rfl reads
  | true => exact inner (.literal c other) reads

/-- A quote opens a region, which is a segment once it is closed, or closes one. -/
theorem quote (reads : Reads (!quoted) (some (word.getD [])) text words) : Reads quoted word ('"' :: text) words := by
  cases quoted with
  | false =>
    obtain ⟨region, rest, rfl, finishes⟩ := reads
    have written : '"' :: (region.flatMap Inner.text ++ '"' :: rest) = (Segment.quoted region).text ++ rest := by
      simp [Segment.text]
    rw [written]
    exact Finishes.segment finishes
  | true =>
    cases word with
    | none => exact trivial
    | some word =>
      refine ⟨[], text, rfl, ?_⟩
      rw [List.map_nil, List.append_nil]
      exact reads

theorem blank (separates : Text.isBlank c = true) (reads : Reads false none text words) :
    Reads false word (c :: text) ((word.map List.reverse).toList ++ words) := by
  obtain ⟨tokens, written, rfl⟩ := reads
  cases word with
  | none => exact ⟨tokens, .blank separates written, rfl⟩
  | some word =>
    refine ⟨[], tokens, c :: text, rfl, .blank separates written, ?_, ?_⟩
    · rintro first ⟨⟩
      exact separates
    · rw [List.flatMap_nil, List.append_nil]
      rfl

end Reads

/-- What is missing at the end depends on the quotes still open there. -/
theorem closeQuote_append {quoted quoted' : Bool} {front rest : List Char}
    (same : endsQuoted quoted (front ++ rest) = endsQuoted quoted' rest) :
    closeQuote quoted (front ++ rest) = front ++ closeQuote quoted' rest := by
  rw [closeQuote, closeQuote, same]
  split
  · exact List.append_assoc front rest ['"']
  · rfl

theorem completed_escape (quoted : Bool) (c : Char) (rest : List Char) :
    completed quoted ('\\' :: c :: rest) = '\\' :: c :: completed quoted rest :=
  @closeQuote_append quoted quoted ['\\', c] _ rfl

theorem completed_quote (quoted : Bool) (rest : List Char) :
    completed quoted ('"' :: rest) = '"' :: completed (!quoted) rest :=
  @closeQuote_append quoted (!quoted) ['"'] _ rfl

theorem completed_char (quoted : Bool) {c : Char} (other : c ≠ '"' ∧ c ≠ '\\') (rest : List Char) :
    completed quoted (c :: rest) = c :: completed quoted rest := by
  have kept : dropDangling (c :: rest) = c :: dropDangling rest := by
    rw [dropDangling]
    · exact fun same _ => other.2 same
    · exact fun _ _ same _ => other.2 same
  have same : endsQuoted quoted ([c] ++ dropDangling rest) = endsQuoted quoted (dropDangling rest) := by
    rw [List.singleton_append, endsQuoted]
    · exact fun _ _ same _ => other.2 same
    · exact fun same => other.1 same
  rw [completed, kept]
  exact closeQuote_append same

/-- From anywhere within it, a text is read as the command text that it becomes when it is completed. -/
theorem reads_scan (quoted : Bool) (word : Option (List Char)) (text : List Char) :
    Reads quoted word (completed quoted text) (scan quoted word text) := by
  fun_induction scan quoted word text with
  | case1 quoted word => exact .nil quoted word
  | case2 quoted word => exact .nil quoted word
  | case3 quoted word c rest ih =>
    rw [completed_escape]
    exact ih.escape c
  | case4 quoted word rest ih =>
    rw [completed_quote]
    exact ih.quote
  | case5 quoted word c rest dangling escape quote between ih =>
    rw [Bool.and_eq_true, Bool.not_eq_true'] at between
    obtain ⟨rfl, separates⟩ := between
    rw [completed_char false (ne_of_isBlank separates)]
    exact ih.blank separates
  | case6 quoted word c rest dangling escape quote within ih =>
    have other : c ≠ '"' ∧ c ≠ '\\' := by
      refine ⟨quote, fun same => ?_⟩
      cases rest with
      | nil => exact dangling same rfl
      | cons c' rest => exact escape c' rest same rfl
    have filled : quoted = true ∨ Text.isBlank c = false := by
      cases quoted with
      | true => exact .inl rfl
      | false => exact .inr (Bool.eq_false_iff.2 within)
    rw [completed_char quoted other]
    exact ih.char other filled

/-! ## Any words -/

/-- A word between quotes, with all of its characters escaped. -/
def Token.spelling (word : String) : Token where
  segments := [.quoted (word.toList.map .escape)]
  written := List.cons_ne_nil _ _

/-- Every word can be written. -/
theorem Token.value_spelling (word : String) : (spelling word).value = word := by
  have chars : (spelling word).chars = word.toList := by
    simp [spelling, Token.chars, Segment.value, Function.comp_def, Inner.value]
  rw [Token.value, chars, String.ofList_toList]

/-- Any tokens can be written with one blank behind each. -/
theorem written_spaced (tokens : List Token) : Written tokens (tokens.flatMap fun t => t.text ++ [' ']) := by
  induction tokens with
  | nil => exact .nil
  | cons t tokens ih =>
    rw [List.flatMap_cons, List.append_assoc]
    refine .token t (.blank (by decide) ih) ?_
    rintro c ⟨⟩
    decide

/-- A written list of tokens is read as its values. -/
theorem ofText_of_written {tokens : List Token} {text : List Char} (written : Written tokens text) :
    ofText (.ofList text) = tokens.map Token.value := by
  rw [ofText, String.toList_ofList, written.scan, List.map_map]
  rfl

/-- **Words are read by their grammar.** However the tokens of a command text are written, with whatever blanks around
them, exactly their values are read, in order. So any words can be written and read back, empty ones included. And any
text at all is read as the command text that it becomes when a dangling backslash is dropped and then an open quote is
closed. -/
theorem ofText_grammar :
    (∀ (tokens : List Token) (text : List Char), Written tokens text →
      ofText (.ofList text) = tokens.map Token.value) ∧
    (∀ words : List String, ∃ (tokens : List Token) (text : List Char),
      tokens.map Token.value = words ∧ Written tokens text ∧ ofText (.ofList text) = words) ∧
    ∀ text : String, ∃ tokens : List Token, Written tokens (completed false text.toList) ∧
      ofText text = tokens.map Token.value := by
  refine ⟨fun tokens text => ofText_of_written, fun words => ?_, fun text => ?_⟩
  · have values : (words.map Token.spelling).map Token.value = words := by
      rw [List.map_map]
      exact List.map_id'' Token.value_spelling words
    refine ⟨words.map Token.spelling, _, values, written_spaced _, ?_⟩
    rw [ofText_of_written (written_spaced _), values]
  · obtain ⟨tokens, written, same⟩ := reads_scan false none text.toList
    refine ⟨tokens, written, ?_⟩
    rw [ofText, same, List.map_map]
    rfl

/-- An open quote keeps what follows in one word, and a backslash at the end is dropped before it is closed. -/
example : completed false "a\\".toList = "a".toList ∧
    completed false "x \"b c\\".toList = "x \"b c\"".toList ∧ ofText "x \"b c\\" = ["x", "b c"] := by
  decide +kernel

end CompileDb.Words
