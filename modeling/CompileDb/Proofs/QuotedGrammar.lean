import CompileDb.Json.Reader

/-!
# Quoted texts

Every text that is written between quotes is read back as it was, whatever characters it has and whatever follows it
(`readQuoted_quote`). More generally there is a grammar of how a text may be spelled between quotes. Both readers of quoted texts take what is spelled and nothing else
(`readQuoted_eq_ok_iff`, `skipQuoted_eq_ok_iff`). They differ in surrogates, which need not pair where the text is not
wanted.
-/

namespace CompileDb.Json

/-! ## What is written -/

theorem hexValue?_hexDigit : ∀ n < 16, hexValue? (hexDigit n) = some n := by decide

/-- Four characters are at least four bytes. -/
theorem holdsUnit_of_four (a b c d : Char) (rest : List Char) : holdsUnit (a :: b :: c :: d :: rest) = true := by
  have := a.utf8Size_pos
  have := b.utf8Size_pos
  have := c.utf8Size_pos
  have := d.utf8Size_pos
  simp [holdsUnit]
  omega

/-- A control character written by its number. -/
theorem readQuoted_unit {c : Char} (small : c.toNat < 0x20) (seen rest : List Char) :
    readQuoted .plain seen
        ('\\' :: 'u' :: '0' :: '0' :: hexDigit (c.toNat / 16) :: hexDigit (c.toNat % 16) :: rest) =
      readQuoted .plain (c :: seen) rest := by
  have high := hexValue?_hexDigit (c.toNat / 16) (by omega)
  have low := hexValue?_hexDigit (c.toNat % 16) (by omega)
  have zero : hexValue? '0' = some 0 := by decide
  have unit : 16 * (c.toNat / 16) + c.toNat % 16 = c.toNat := by omega
  have leading : isLeading c.toNat = false := by simp [isLeading]; omega
  have trailing : isTrailing c.toNat = false := by simp [isTrailing]; omega
  simp [readQuoted, holdsUnit_of_four, zero, high, low, unit, leading, trailing]

/-- A written character is read back. -/
theorem readQuoted_escapeChar (c : Char) (seen rest : List Char) :
    readQuoted .plain seen (escapeChar c ++ rest) = readQuoted .plain (c :: seen) rest := by
  unfold escapeChar
  split
  case h_8 quote backslash _ _ _ _ _ =>
    split
    case isTrue small => exact readQuoted_unit small seen rest
    case isFalse large => rw [List.singleton_append, readQuoted, if_neg quote, if_neg backslash, if_neg large]
  all_goals rfl

/-- A written text is read back up to its closing quote. -/
theorem readQuoted_escaped (chars seen rest : List Char) :
    readQuoted .plain seen (chars.flatMap escapeChar ++ '"' :: rest) =
      .ok (String.ofList (seen.reverse ++ chars), rest) := by
  induction chars generalizing seen with
  | nil => simp [readQuoted]
  | cons c chars ih =>
    rw [List.flatMap_cons, List.append_assoc, readQuoted_escapeChar, ih]
    simp

/-- A written text is read back behind its opening quote. -/
theorem readQuoted_quote (text : String) (rest : List Char) :
    readQuoted .plain [] ((quote text).tail ++ rest) = .ok (text, rest) := by
  have read := readQuoted_escaped text.toList [] rest
  simpa [quote] using read

/-! ## Spelling -/

/-- Four hexadecimal digits and the UTF-16 unit that they stand for. -/
inductive HexUnit : List Char → Nat → Prop
  | four {a b c d : Char} {m n o p : Nat} : hexValue? a = some m → hexValue? b = some n → hexValue? c = some o →
      hexValue? d = some p → HexUnit [a, b, c, d] (16 * (16 * (16 * m + n) + o) + p)

/-- What stands between two quotes, and the text that it means. -/
inductive Spells : List Char → List Char → Prop
  | nil : Spells [] []
  | plain {c : Char} {written text : List Char} : c ≠ '"' → c ≠ '\\' → 0x20 ≤ c.toNat → Spells written text →
      Spells (c :: written) (c :: text)
  | short {c d : Char} {written text : List Char} : simpleEscape? c = some d → Spells written text →
      Spells ('\\' :: c :: written) (d :: text)
  | unit {digits written text : List Char} {n : Nat} : HexUnit digits n → isLeading n = false → isTrailing n = false →
      Spells written text → Spells ('\\' :: 'u' :: (digits ++ written)) (Char.ofNat n :: text)
  | pair {digits digits' written text : List Char} {m n : Nat} : HexUnit digits m → isLeading m = true →
      HexUnit digits' n → isTrailing n = true → Spells written text →
      Spells ('\\' :: 'u' :: (digits ++ '\\' :: 'u' :: (digits' ++ written))) (ofPair m n :: text)

/-- What may stand between two quotes where the text is not wanted: surrogates need not pair. -/
inductive Escaped : List Char → Prop
  | nil : Escaped []
  | plain {c : Char} {written : List Char} : c ≠ '"' → c ≠ '\\' → 0x20 ≤ c.toNat → Escaped written →
      Escaped (c :: written)
  | short {c d : Char} {written : List Char} : simpleEscape? c = some d → Escaped written →
      Escaped ('\\' :: c :: written)
  | unit {digits written : List Char} {n : Nat} : HexUnit digits n → Escaped written →
      Escaped ('\\' :: 'u' :: (digits ++ written))

section

variable {text rest seen digits : List Char} {m n : Nat}

theorem HexUnit.holdsUnit (unit : HexUnit digits n) (rest : List Char) : holdsUnit (digits ++ rest) = true := by
  cases unit
  exact holdsUnit_of_four ..

/-! ## Texts that are wanted -/

/-- A unit that stands alone, or the leading one of a pair. -/
theorem readQuoted_digits (unit : HexUnit digits n) (seen rest : List Char) :
    readQuoted (.digits 4 0 none) seen (digits ++ rest) =
      if isTrailing n then .error .notJson
      else if isLeading n then readQuoted (.pair n) seen rest
      else readQuoted .plain (Char.ofNat n :: seen) rest := by
  obtain ⟨a, b, c, d⟩ := unit
  simp [readQuoted, *]

/-- The trailing unit of a pair. -/
theorem readQuoted_digits_trailing (unit : HexUnit digits n) (leading : Nat) (seen rest : List Char) :
    readQuoted (.digits 4 0 (some leading)) seen (digits ++ rest) =
      if isTrailing n then readQuoted .plain (ofPair leading n :: seen) rest else .error .notJson := by
  obtain ⟨a, b, c, d⟩ := unit
  simp [readQuoted, *]

theorem readQuoted_plain {c : Char} (quote : c ≠ '"') (backslash : c ≠ '\\') (large : 0x20 ≤ c.toNat)
    (seen rest : List Char) : readQuoted .plain seen (c :: rest) = readQuoted .plain (c :: seen) rest := by
  rw [readQuoted, if_neg quote, if_neg backslash, if_neg (Nat.not_lt.2 large)]

/-- A short escape means the character it is the letter of. -/
theorem readQuoted_short {c d : Char} (short : simpleEscape? c = some d) (seen rest : List Char) :
    readQuoted .escape seen (c :: rest) = readQuoted .plain (d :: seen) rest := by
  have other : c ≠ 'u' := by
    rintro rfl
    cases short
  simp [readQuoted, other, short]

theorem readQuoted_u (enough : holdsUnit rest = true) (seen : List Char) :
    readQuoted .escape seen ('u' :: rest) = readQuoted (.digits 4 0 none) seen rest := by
  simp [readQuoted, enough]

/-- No code unit is both halves of a pair. -/
theorem isTrailing_of_isLeading (leading : isLeading n = true) : isTrailing n = false := by
  simp only [isLeading, isTrailing, Bool.and_eq_true, decide_eq_true_eq] at leading ⊢
  simp
  omega

theorem readQuoted_backslash (seen rest : List Char) :
    readQuoted .plain seen ('\\' :: rest) = readQuoted .escape seen rest := rfl

theorem readQuoted_pair (enough : holdsUnit rest = true) (leading : Nat) (seen : List Char) :
    readQuoted (.pair leading) seen ('\\' :: 'u' :: rest) = readQuoted (.digits 4 0 (some leading)) seen rest := by
  simp [readQuoted, enough]

/-- What is spelled is read up to its closing quote. -/
theorem readQuoted_of_spells {written meant : List Char} (spells : Spells written meant) (seen rest : List Char) :
    readQuoted .plain seen (written ++ '"' :: rest) = .ok (String.ofList (seen.reverse ++ meant), rest) := by
  induction spells generalizing seen with
  | nil => simp [readQuoted]
  | plain quote backslash large _ ih =>
    rw [List.cons_append, readQuoted_plain quote backslash large, ih]
    simp
  | short short _ ih =>
    rw [List.cons_append, List.cons_append, readQuoted_backslash, readQuoted_short short, ih]
    simp
  | unit unit leading trailing _ ih =>
    rw [List.cons_append, List.cons_append, List.append_assoc, readQuoted_backslash, readQuoted_u (unit.holdsUnit _),
      readQuoted_digits unit, trailing, leading]
    simp [ih]
  | pair unit leading unit' trailing _ ih =>
    simp only [List.cons_append, List.append_assoc]
    rw [readQuoted_backslash, readQuoted_u (unit.holdsUnit _), readQuoted_digits unit, isTrailing_of_isLeading leading,
      leading, if_neg (by simp), if_pos rfl, readQuoted_pair (unit'.holdsUnit _), readQuoted_digits_trailing unit',
      if_pos trailing, ih]
    simp

/-! What is read has been spelled. -/

/-- One digit of a unit. -/
theorem digit_of_readQuoted {left value : Nat} {leading : Option Nat} {taken : String × List Char}
    (ok : readQuoted (.digits left value leading) seen text = .ok taken) :
    ∃ c d rest, text = c :: rest ∧ hexValue? c = some d ∧
      (1 < left → readQuoted (.digits (left - 1) (16 * value + d) leading) seen rest = .ok taken) := by
  cases text with
  | nil => cases ok
  | cons c rest =>
    cases digit : hexValue? c with
    | none => simp [readQuoted, digit] at ok
    | some d =>
      refine ⟨c, d, rest, rfl, digit, fun more => ?_⟩
      simpa [readQuoted, digit, more] using ok

/-- Behind the letter of an escape four hexadecimal digits must follow. -/
theorem hexUnit_of_readQuoted {leading : Option Nat} {taken : String × List Char}
    (ok : readQuoted (.digits 4 0 leading) seen text = .ok taken) :
    ∃ digits n rest, text = digits ++ rest ∧ HexUnit digits n := by
  obtain ⟨a, m, text, rfl, first, ok⟩ := digit_of_readQuoted ok
  obtain ⟨b, n, text, rfl, second, ok⟩ := digit_of_readQuoted (ok (by decide))
  obtain ⟨c, o, text, rfl, third, ok⟩ := digit_of_readQuoted (ok (by decide))
  obtain ⟨d, p, rest, rfl, fourth, -⟩ := digit_of_readQuoted (ok (by decide))
  exact ⟨[a, b, c, d], _, rest, rfl, .four first second third fourth⟩

/-- What follows a leading surrogate. -/
theorem mark_of_readQuoted {leading : Nat} {taken : String × List Char}
    (ok : readQuoted (.pair leading) seen text = .ok taken) :
    ∃ rest, text = '\\' :: 'u' :: rest ∧ readQuoted (.digits 4 0 (some leading)) seen rest = .ok taken := by
  cases text with
  | nil => cases ok
  | cons c text =>
    by_cases backslash : c = '\\'
    · cases text with
      | nil => simp [readQuoted, backslash] at ok
      | cons d rest =>
        by_cases letter : d = 'u'
        · cases enough : holdsUnit rest with
          | false => simp [readQuoted, backslash, letter, enough] at ok
          | true => exact ⟨rest, by rw [backslash, letter], by simpa [readQuoted, backslash, letter, enough] using ok⟩
        · simp [readQuoted, backslash, letter] at ok
    · simp [readQuoted, backslash] at ok

/-- All that may follow a backslash. -/
theorem escape_of_readQuoted {taken : String × List Char} (ok : readQuoted .escape seen text = .ok taken) :
    (∃ c d rest, text = c :: rest ∧ simpleEscape? c = some d ∧ readQuoted .plain (d :: seen) rest = .ok taken) ∨
    (∃ digits n rest, text = 'u' :: (digits ++ rest) ∧ HexUnit digits n ∧ isLeading n = false ∧ isTrailing n = false ∧
      readQuoted .plain (Char.ofNat n :: seen) rest = .ok taken) ∨
    (∃ digits m digits' n rest, text = 'u' :: (digits ++ '\\' :: 'u' :: (digits' ++ rest)) ∧ HexUnit digits m ∧
      isLeading m = true ∧ HexUnit digits' n ∧ isTrailing n = true ∧
      readQuoted .plain (ofPair m n :: seen) rest = .ok taken) := by
  cases text with
  | nil => cases ok
  | cons c text =>
    by_cases numbered : c = 'u'
    · subst numbered
      replace ok : readQuoted (.digits 4 0 none) seen text = .ok taken := by
        cases enough : holdsUnit text with
        | false => simp [readQuoted, enough] at ok
        | true => simpa [readQuoted, enough] using ok
      obtain ⟨digits, m, behind, rfl, unit⟩ := hexUnit_of_readQuoted ok
      rw [readQuoted_digits unit] at ok
      cases trailing : isTrailing m with
      | true => simp [trailing] at ok
      | false =>
        cases leading : isLeading m with
        | false =>
          rw [trailing, leading] at ok
          exact .inr (.inl ⟨digits, m, behind, rfl, unit, leading, trailing, ok⟩)
        | true =>
          rw [trailing, leading] at ok
          obtain ⟨behind, rfl, second⟩ := mark_of_readQuoted ok
          obtain ⟨digits', n, rest, rfl, unit'⟩ := hexUnit_of_readQuoted second
          rw [readQuoted_digits_trailing unit'] at second
          cases trailing' : isTrailing n with
          | false => simp [trailing'] at second
          | true =>
            rw [trailing'] at second
            exact .inr (.inr ⟨digits, m, digits', n, rest, rfl, unit, leading, unit', trailing', second⟩)
    · cases short : simpleEscape? c with
      | none => simp [readQuoted, numbered, short] at ok
      | some d =>
        rw [readQuoted_short short] at ok
        exact .inl ⟨c, d, text, rfl, short, ok⟩

/-- Whatever is read spells the text it is read as. -/
theorem spells_of_readQuoted {s : String} (ok : readQuoted .plain seen text = .ok (s, rest)) :
    ∃ written meant, text = written ++ '"' :: rest ∧ Spells written meant ∧
      s = String.ofList (seen.reverse ++ meant) := by
  -- An escape is several characters long, so the induction is on the length of the text.
  generalize size : text.length = n
  induction n using Nat.strongRecOn generalizing text seen with
  | ind n ih =>
    cases text with
    | nil => cases ok
    | cons c tail =>
      by_cases quote : c = '"'
      · subst quote
        obtain ⟨rfl, rfl⟩ : String.ofList seen.reverse = s ∧ tail = rest := by simpa [readQuoted] using ok
        exact ⟨[], [], rfl, .nil, by simp⟩
      · by_cases backslash : c = '\\'
        · subst backslash
          rw [readQuoted_backslash] at ok
          obtain ⟨c, d, behind, rfl, short, ok⟩ | ⟨digits, n, behind, rfl, unit, leading, trailing, ok⟩ |
            ⟨digits, m, digits', n, behind, rfl, unit, leading, unit', trailing, ok⟩ := escape_of_readQuoted ok
          · obtain ⟨written, meant, rfl, spells, rfl⟩ := ih behind.length (by simp at size; omega) ok rfl
            exact ⟨_, _, rfl, .short short spells, by simp⟩
          · obtain ⟨written, meant, rfl, spells, rfl⟩ := ih behind.length (by simp at size; omega) ok rfl
            exact ⟨_, _, by simp, .unit unit leading trailing spells, by simp⟩
          · obtain ⟨written, meant, rfl, spells, rfl⟩ := ih behind.length (by simp at size; omega) ok rfl
            exact ⟨_, _, by simp, .pair unit leading unit' trailing spells, by simp⟩
        · have large : 0x20 ≤ c.toNat := by
            refine Nat.not_lt.1 fun small => ?_
            simp [readQuoted, quote, backslash, small] at ok
          rw [readQuoted_plain quote backslash large] at ok
          obtain ⟨written, meant, rfl, spells, rfl⟩ := ih tail.length (by simp at size; omega) ok rfl
          exact ⟨_, _, rfl, .plain quote backslash large spells, by simp⟩

/-- A quoted text is read just where one is spelled. -/
theorem readQuoted_eq_ok_iff {s : String} :
    readQuoted .plain [] text = .ok (s, rest) ↔ ∃ written, text = written ++ '"' :: rest ∧ Spells written s.toList := by
  constructor
  · intro ok
    obtain ⟨written, meant, split, spells, rfl⟩ := spells_of_readQuoted ok
    exact ⟨written, split, by simpa using spells⟩
  · rintro ⟨written, rfl, spells⟩
    rw [readQuoted_of_spells spells]
    simp

/-! ## Texts that are passed over -/

theorem skipQuoted_plain {c : Char} (quote : c ≠ '"') (backslash : c ≠ '\\') (large : 0x20 ≤ c.toNat)
    (rest : List Char) : skipQuoted .plain (c :: rest) = skipQuoted .plain rest := by
  simp [skipQuoted, quote, backslash, Nat.not_lt.2 large]

theorem skipQuoted_backslash (rest : List Char) : skipQuoted .plain ('\\' :: rest) = skipQuoted .escape rest := rfl

theorem skipQuoted_short {c d : Char} (short : simpleEscape? c = some d) (rest : List Char) :
    skipQuoted .escape (c :: rest) = skipQuoted .plain rest := by
  have other : c ≠ 'u' := by
    rintro rfl
    cases short
  simp [skipQuoted, other, short]

theorem skipQuoted_unit (unit : HexUnit digits n) (rest : List Char) :
    skipQuoted .escape ('u' :: (digits ++ rest)) = skipQuoted .plain rest := by
  have enough := unit.holdsUnit rest
  obtain ⟨a, b, c, d⟩ := unit
  rw [skipQuoted, if_pos rfl, if_pos enough]
  simp [skipQuoted, *]

/-- Every string in legal escapes is skipped to its closing quote. -/
theorem skipQuoted_of_escaped {written : List Char} (escaped : Escaped written) (rest : List Char) :
    skipQuoted .plain (written ++ '"' :: rest) = .ok rest := by
  induction escaped with
  | nil => rfl
  | plain quote backslash large _ ih => rw [List.cons_append, skipQuoted_plain quote backslash large, ih]
  | short short _ ih => rw [List.cons_append, List.cons_append, skipQuoted_backslash, skipQuoted_short short, ih]
  | unit unit _ ih =>
    rw [List.cons_append, List.cons_append, List.append_assoc, skipQuoted_backslash, skipQuoted_unit unit, ih]

/-- One digit of a unit that is passed over. -/
theorem digit_of_skipQuoted {left value : Nat} {leading : Option Nat}
    (ok : skipQuoted (.digits left value leading) text = .ok rest) :
    ∃ c d behind, text = c :: behind ∧ hexValue? c = some d ∧
      (1 < left → skipQuoted (.digits (left - 1) 0 none) behind = .ok rest) := by
  cases text with
  | nil => cases ok
  | cons c behind =>
    cases digit : hexValue? c with
    | none => simp [skipQuoted, digit] at ok
    | some d =>
      refine ⟨c, d, behind, rfl, digit, fun more => ?_⟩
      simpa [skipQuoted, digit, more] using ok

/-- All that may follow a backslash in a text that is passed over. -/
theorem escape_of_skipQuoted (ok : skipQuoted .escape text = .ok rest) :
    (∃ c d behind, text = c :: behind ∧ simpleEscape? c = some d ∧ skipQuoted .plain behind = .ok rest) ∨
    (∃ digits n behind, text = 'u' :: (digits ++ behind) ∧ HexUnit digits n ∧ skipQuoted .plain behind = .ok rest) := by
  cases text with
  | nil => cases ok
  | cons c text =>
    by_cases numbered : c = 'u'
    · subst numbered
      have digits : skipQuoted (.digits 4 0 none) text = .ok rest := by
        cases enough : holdsUnit text with
        | false => simp [skipQuoted, enough] at ok
        | true => simpa [skipQuoted, enough] using ok
      obtain ⟨a, m, text, rfl, first, digits⟩ := digit_of_skipQuoted digits
      obtain ⟨b, n, text, rfl, second, digits⟩ := digit_of_skipQuoted (digits (by decide))
      obtain ⟨c, o, text, rfl, third, digits⟩ := digit_of_skipQuoted (digits (by decide))
      obtain ⟨d, p, behind, rfl, fourth, -⟩ := digit_of_skipQuoted (digits (by decide))
      have unit : HexUnit [a, b, c, d] _ := .four first second third fourth
      refine .inr ⟨[a, b, c, d], _, behind, rfl, unit, ?_⟩
      rw [← skipQuoted_unit unit]
      exact ok
    · cases short : simpleEscape? c with
      | none => simp [skipQuoted, numbered, short] at ok
      | some d =>
        rw [skipQuoted_short short] at ok
        exact .inl ⟨c, d, text, rfl, short, ok⟩

/-- Whatever is skipped is such a string. -/
theorem escaped_of_skipQuoted (ok : skipQuoted .plain text = .ok rest) :
    ∃ written, text = written ++ '"' :: rest ∧ Escaped written := by
  generalize size : text.length = n
  induction n using Nat.strongRecOn generalizing text with
  | ind n ih =>
    cases text with
    | nil => cases ok
    | cons c tail =>
      by_cases quote : c = '"'
      · subst quote
        obtain rfl : tail = rest := by simpa [skipQuoted] using ok
        exact ⟨[], rfl, .nil⟩
      · by_cases backslash : c = '\\'
        · subst backslash
          rw [skipQuoted_backslash] at ok
          obtain ⟨c, d, behind, rfl, short, ok⟩ | ⟨digits, n, behind, rfl, unit, ok⟩ := escape_of_skipQuoted ok
          · obtain ⟨written, rfl, escaped⟩ := ih behind.length (by simp at size; omega) ok rfl
            exact ⟨_, rfl, .short short escaped⟩
          · obtain ⟨written, rfl, escaped⟩ := ih behind.length (by simp at size; omega) ok rfl
            exact ⟨_, by simp, .unit unit escaped⟩
        · have large : 0x20 ≤ c.toNat := by
            refine Nat.not_lt.1 fun small => ?_
            simp [skipQuoted, quote, backslash, small] at ok
          rw [skipQuoted_plain quote backslash large] at ok
          obtain ⟨written, rfl, escaped⟩ := ih tail.length (by simp at size; omega) ok rfl
          exact ⟨_, rfl, .plain quote backslash large escaped⟩

/-- A quoted text is passed over just where its escapes are right. -/
theorem skipQuoted_eq_ok_iff :
    skipQuoted .plain text = .ok rest ↔ ∃ written, text = written ++ '"' :: rest ∧ Escaped written := by
  constructor
  · exact escaped_of_skipQuoted
  · rintro ⟨written, rfl, escaped⟩
    exact skipQuoted_of_escaped escaped rest

end

end CompileDb.Json
