import CompileDb.Proofs.DatabaseText
import CompileDb.Proofs.Results
import Mathlib.Data.List.DropRight

/-!
# A grammar of values that are passed over

The grammar relates a text to what is left behind the value at its front. A number goes as far as its digits do, so
there is one such rest at most. Values are passed over token by token, with the open brackets on a stack. A value takes
its own tokens off the text whatever is on the stack (`skipTokens_of_passed`), and what a run takes off the text until a
stack is restored is a value (`passed_of_skipTokens`).
-/

namespace CompileDb.Json

/-! ## Numbers -/

/-- One or more digits at the front of a text, as far as they go. -/
structure Digits (text digits rest : List Char) : Prop where
  nonempty : digits ≠ []
  digit : ∀ c ∈ digits, isDigit c = true
  split : text = digits ++ rest
  ended : ∀ c ∈ rest.head?, isDigit c = false

/-- A fraction, if there is one. -/
inductive Fraction : List Char → List Char → Prop
  | none {text : List Char} : text.head? ≠ some '.' → Fraction text text
  | some {text digits rest : List Char} : Digits text digits rest → Fraction ('.' :: text) rest

/-- An exponent, if there is one. -/
inductive Exponent : List Char → List Char → Prop
  | none {text : List Char} : (∀ c ∈ text.head?, c ≠ 'e' ∧ c ≠ 'E') → Exponent text text
  | some {mark : Char} {sign text digits rest : List Char} : mark = 'e' ∨ mark = 'E' → sign ∈ [[], ['-'], ['+']] →
      Digits text digits rest → Exponent (mark :: (sign ++ text)) rest

/-- A number: no zero stands before another digit. -/
inductive Number : List Char → List Char → Prop
  | mk {sign text whole behind behind' rest : List Char} : sign ∈ [[], ['-']] → Digits text whole behind →
      (whole.head? = some '0' → whole = ['0']) → Fraction behind behind' → Exponent behind' rest →
      Number (sign ++ text) rest

section

variable {text rest digits : List Char} {atEnd : Fault}

theorem Digits.head (h : Digits text digits rest) : ∃ c, isDigit c = true ∧ ∃ tail, text = c :: tail := by
  obtain ⟨nonempty, digit, rfl, -⟩ := h
  obtain ⟨c, others, rfl⟩ := List.exists_cons_of_ne_nil nonempty
  exact ⟨c, digit c List.mem_cons_self, _, rfl⟩

theorem readDigits_eq_ok_iff : readDigits atEnd text = .ok (digits, rest) ↔ Digits text digits rest := by
  constructor
  · intro ok
    cases text with
    | nil => cases ok
    | cons c tail =>
      rw [readDigits] at ok
      split at ok
      case isFalse => cases ok
      case isTrue digit =>
        obtain ⟨rfl, rfl⟩ := Prod.mk.inj (Except.ok.inj ok)
        refine ⟨by simp [digit], fun d mem => List.mem_takeWhile_imp mem, List.takeWhile_append_dropWhile.symm, ?_⟩
        intro d head
        have ended := List.head?_dropWhile_not isDigit (c :: tail)
        rw [Option.mem_def.mp head] at ended
        simpa using ended
  · rintro ⟨nonempty, digit, rfl, ended⟩
    cases digits with
    | nil => contradiction
    | cons c digits =>
      have none : rest.takeWhile isDigit = [] ∧ rest.dropWhile isDigit = rest := by
        cases rest with
        | nil => exact ⟨rfl, rfl⟩
        | cons d rest => simp [ended d rfl]
      have first : isDigit c = true := digit c List.mem_cons_self
      rw [List.cons_append, readDigits, if_pos first, ← List.cons_append, List.takeWhile_append_of_pos digit,
        List.dropWhile_append_of_pos digit, none.1, none.2, List.append_nil]

theorem readFraction_ok_iff : (∃ fraction, readFraction atEnd text = .ok (fraction, rest)) ↔ Fraction text rest := by
  constructor
  · rintro ⟨fraction, ok⟩
    unfold readFraction at ok
    split at ok
    case h_1 => exact .some (readDigits_eq_ok_iff.mp ok)
    case h_2 other =>
      obtain ⟨rfl, rfl⟩ := Prod.mk.inj (Except.ok.inj ok)
      refine .none fun point => ?_
      obtain ⟨tail, rfl⟩ := List.head?_eq_some_iff.mp point
      exact other tail rfl
  · rintro (other | digits)
    · refine ⟨[], ?_⟩
      unfold readFraction
      split
      case h_1 => exact absurd rfl other
      case h_2 => rfl
    · exact ⟨_, readDigits_eq_ok_iff.mpr digits⟩

theorem readExponent_ok_iff : (∃ exponent, readExponent atEnd text = .ok (exponent, rest)) ↔ Exponent text rest := by
  constructor
  · rintro ⟨exponent, ok⟩
    unfold readExponent at ok
    split at ok
    case h_1 c text =>
      split at ok
      case isTrue mark =>
        split at ok
        all_goals
          obtain ⟨⟨digits, behind⟩, read, same⟩ := map_eq_ok_iff.mp ok
          obtain ⟨-, rfl⟩ := Prod.mk.inj same
        case h_1 => exact @Exponent.some c ['-'] _ _ _ mark (by simp) (readDigits_eq_ok_iff.mp read)
        case h_2 => exact @Exponent.some c ['+'] _ _ _ mark (by simp) (readDigits_eq_ok_iff.mp read)
        case h_3 => exact @Exponent.some c [] _ _ _ mark (by simp) (readDigits_eq_ok_iff.mp read)
      case isFalse other =>
        obtain ⟨-, rfl⟩ := Prod.mk.inj (Except.ok.inj ok)
        exact .none (by simpa [not_or] using other)
    case h_2 =>
      obtain ⟨-, rfl⟩ := Prod.mk.inj (Except.ok.inj ok)
      exact .none (by simp)
  · rintro (other | ⟨mark, sign, digits⟩)
    · refine ⟨0, ?_⟩
      unfold readExponent
      split
      case h_1 c text =>
        obtain ⟨small, capital⟩ := other c rfl
        rw [if_neg (by simp [small, capital])]
      case h_2 => rfl
    · have read : readDigits atEnd _ = .ok (_, rest) := readDigits_eq_ok_iff.mpr digits
      unfold readExponent
      simp only [if_pos mark]
      simp only [List.mem_cons, List.not_mem_nil, or_false] at sign
      rcases sign with rfl | rfl | rfl
      · obtain ⟨c, digit, tail, rfl⟩ := digits.head
        rw [List.nil_append]
        split
        case h_1 same =>
          rw [(List.cons.inj same).1] at digit
          cases digit
        case h_2 same =>
          rw [(List.cons.inj same).1] at digit
          cases digit
        case h_3 => exact ⟨_, by simp only [read]; rfl⟩
      · exact ⟨_, by rw [List.singleton_append]; simp only [read]; rfl⟩
      · exact ⟨_, by rw [List.singleton_append]; simp only [read]; rfl⟩

/-- A numeral is digits without a needless zero, a fraction and an exponent. -/
theorem readNumeral_ok_iff : (∃ n, readNumeral atEnd text = .ok (n, rest)) ↔
    ∃ whole behind behind', Digits text whole behind ∧ (whole.head? = some '0' → whole = ['0']) ∧
      Fraction behind behind' ∧ Exponent behind' rest := by
  constructor
  · rintro ⟨n, ok⟩
    obtain ⟨⟨whole, behind⟩, digits, ok⟩ := bind_eq_ok_iff.mp ok
    simp only at ok
    split at ok
    case isTrue => cases ok
    case isFalse zero =>
      obtain ⟨⟨fraction, behind'⟩, point, ok⟩ := bind_eq_ok_iff.mp ok
      obtain ⟨⟨exponent, behind''⟩, mark, ok⟩ := bind_eq_ok_iff.mp ok
      obtain ⟨-, rfl⟩ := Prod.mk.inj (Except.ok.inj ok)
      refine ⟨whole, behind, behind', readDigits_eq_ok_iff.mp digits, fun first => ?_,
        readFraction_ok_iff.mp ⟨_, point⟩, readExponent_ok_iff.mp ⟨_, mark⟩⟩
      obtain ⟨others, rfl⟩ := List.head?_eq_some_iff.mp first
      cases others with
      | nil => rfl
      | cons d others => exact absurd ⟨rfl, by simp⟩ zero
  · rintro ⟨whole, behind, behind', digits, zero, fraction, exponent⟩
    obtain ⟨fraction, point⟩ : ∃ digits, readFraction atEnd behind = .ok (digits, behind') :=
      readFraction_ok_iff.mpr fraction
    obtain ⟨exponent, mark⟩ : ∃ n, readExponent atEnd behind' = .ok (n, rest) := readExponent_ok_iff.mpr exponent
    have alone : ¬ (whole.head? = some '0' ∧ 1 < whole.length) := by
      rintro ⟨first, long⟩
      rw [zero first] at long
      exact absurd long (by decide)
    have read : readDigits atEnd text = .ok (whole, behind) := readDigits_eq_ok_iff.mpr digits
    refine ⟨⟨whole, fraction, exponent⟩, ?_⟩
    simp only [readNumeral, read, point, mark, bind, Except.bind, if_neg alone]
    rfl

/-- A number is read just where one stands. -/
theorem readNumber_ok_iff : (∃ n, readNumber atEnd text = .ok (n, rest)) ↔ Number text rest := by
  constructor
  · rintro ⟨n, ok⟩
    unfold readNumber at ok
    split at ok
    case h_1 =>
      obtain ⟨whole, behind, behind', digits, zero, fraction, exponent⟩ := readNumeral_ok_iff.mp ⟨n, ok⟩
      exact @Number.mk ['-'] _ _ _ _ _ (by simp) digits zero fraction exponent
    case h_2 =>
      obtain ⟨whole, behind, behind', digits, zero, fraction, exponent⟩ := readNumeral_ok_iff.mp ⟨n, ok⟩
      exact @Number.mk [] _ _ _ _ _ (by simp) digits zero fraction exponent
  · rintro ⟨sign, digits, zero, fraction, exponent⟩
    obtain ⟨n, read⟩ := readNumeral_ok_iff.mpr ⟨_, _, _, digits, zero, fraction, exponent⟩
    refine ⟨n, ?_⟩
    simp only [List.mem_cons, List.not_mem_nil, or_false] at sign
    rcases sign with rfl | rfl
    · obtain ⟨c, digit, tail, rfl⟩ := digits.head
      rw [List.nil_append, readNumber]
      · exact read
      · rintro text ⟨⟩
        cases digit
    · exact read

theorem Number.head (number : Number text rest) : ∃ c, (c = '-' ∨ isDigit c = true) ∧ ∃ tail, text = c :: tail := by
  obtain ⟨sign, digits, -, -, -⟩ := number
  obtain ⟨c, digit, tail, rfl⟩ := digits.head
  simp only [List.mem_cons, List.not_mem_nil, or_false] at sign
  rcases sign with rfl | rfl
  · exact ⟨c, .inr digit, tail, rfl⟩
  · exact ⟨'-', .inl rfl, _, rfl⟩

theorem Digits.length_lt (h : Digits text digits rest) : rest.length < text.length := by
  have positive := List.length_pos_iff.mpr h.nonempty
  rw [h.split, List.length_append]
  omega

theorem Fraction.length_le (h : Fraction text rest) : rest.length ≤ text.length := by
  cases h with
  | none => exact Nat.le_refl _
  | some digits => exact Nat.le_succ_of_le (Nat.le_of_lt digits.length_lt)

theorem Exponent.length_le (h : Exponent text rest) : rest.length ≤ text.length := by
  cases h with
  | none => exact Nat.le_refl _
  | some mark sign digits =>
    have behind := digits.length_lt
    simp only [List.length_cons, List.length_append]
    omega

theorem Number.length_lt (number : Number text rest) : rest.length < text.length := by
  obtain ⟨sign, digits, -, fraction, exponent⟩ := number
  have first := digits.length_lt
  have second := fraction.length_le
  have third := exponent.length_le
  rw [List.length_append]
  omega

end

/-! ## Literals and punctuation -/

section

variable {text rest : List Char}

/-- A literal is skipped iff it is spelled out. -/
theorem skipLetters_eq_ok_iff {letters : List Char} : skipLetters letters text = .ok rest ↔ text = letters ++ rest := by
  induction letters generalizing text with
  | nil => simp [skipLetters]
  | cons l letters ih =>
    cases text with
    | nil => simp [skipLetters]
    | cons c text =>
      rw [skipLetters, List.cons_append, List.cons.injEq]
      split
      case isTrue same => rw [ih, and_iff_right same]
      case isFalse other => simp [other]

theorem length_skipBlanks_le (text : List Char) : (skipBlanks text).length ≤ text.length :=
  (List.dropWhile_suffix isJsonBlank).length_le

theorem skipBlanks_skipBlanks (text : List Char) : skipBlanks (skipBlanks text) = skipBlanks text :=
  List.dropWhile_idempotent isJsonBlank text

theorem skipColon_eq_ok_iff : skipColon text = .ok rest ↔ skipBlanks text = ':' :: rest := by
  unfold skipColon
  split
  case h_1 none => simp [none]
  case h_2 behind found => simp [found]
  case h_3 other =>
    constructor
    · intro ok
      cases ok
    · exact fun found => absurd found (other rest)

end

/-! ## Values -/

/-- The words that are values. -/
def literals : List (List Char) := [['n', 'u', 'l', 'l'], ['t', 'r', 'u', 'e'], ['f', 'a', 'l', 's', 'e']]

/-- A value without parts. -/
inductive Scalar : List Char → List Char → Prop
  | literal {word rest : List Char} : word ∈ literals → Scalar (word ++ rest) rest
  | text {written rest : List Char} : Escaped written → Scalar ('"' :: (written ++ '"' :: rest)) rest
  | number {text rest : List Char} : Number text rest → Scalar text rest

namespace Bracket

/-- The character that opens a list or an object. -/
def opening : Bracket → Char
  | list => '['
  | object => '\x7b'

/-- The character that closes it. -/
def closing : Bracket → Char
  | list => ']'
  | object => '\x7d'

/-- What an item begins with. -/
def element : Bracket → Awaited
  | list => .value
  | object => .name

/-- Each bracket has its own closing one. -/
theorem closes_iff {b : Bracket} {c : Char} :
    (c = ']' ∧ b = list) ∨ (c = '\x7d' ∧ b = object) ↔ c = b.closing := by
  cases b <;> simp [closing]

/-- What stands before the value of an item: nothing in a list, a name and a colon in an object. -/
inductive Item : Bracket → List Char → List Char → Prop
  | element {text : List Char} : Item list text text
  | member {text name behind value : List Char} : skipBlanks text = '"' :: (name ++ '"' :: behind) → Escaped name →
      skipBlanks behind = ':' :: value → Item object text value

end Bracket

/-- A part of a text: a value, or what follows an item up to the end of its list or object. -/
inductive Part where
  | value
  | later (bracket : Bracket)

namespace Part

/-- What is awaited where a part begins. -/
def awaited : Part → Awaited
  | value => .value
  | later _ => .next

/-- The open brackets where a part begins. -/
def opened (outer : List Bracket) : Part → List Bracket
  | value => outer
  | later b => b :: outer

/-- A part still to be read is never the end of the value. -/
theorem more (part : Part) (outer : List Bracket) : ¬ (part.awaited = .next ∧ part.opened outer = []) := by
  cases part <;> simp [awaited, opened]

end Part

/-- A value of any shape, and what follows an item. -/
inductive Passed : Part → List Char → List Char → Prop
  | scalar {text rest : List Char} : Scalar (skipBlanks text) rest → Passed .value text rest
  | empty {b : Bracket} {text inner rest : List Char} : skipBlanks text = b.opening :: inner →
      skipBlanks inner = b.closing :: rest → Passed .value text rest
  | items {b : Bracket} {text inner value behind rest : List Char} : skipBlanks text = b.opening :: inner →
      b.Item inner value → Passed .value value behind → Passed (.later b) behind rest → Passed .value text rest
  | closed {b : Bracket} {text rest : List Char} : skipBlanks text = b.closing :: rest → Passed (.later b) text rest
  | more {b : Bracket} {text next value behind rest : List Char} : skipBlanks text = ',' :: next → b.Item next value →
      Passed .value value behind → Passed (.later b) behind rest → Passed (.later b) text rest

/-! ## Tokens -/

section

variable {text rest behind : List Char} {awaited : Awaited} {opened outer : List Bracket} {b : Bracket}

/-- A token that is taken off the text and changes nothing else. -/
theorem map_next_eq_ok_iff {skipped : Except Fault (List Char)} :
    skipped.map (Awaited.next, outer, ·) = .ok (awaited, opened, rest) ↔
      skipped = .ok rest ∧ awaited = .next ∧ opened = outer := by
  cases skipped with
  | error f => simp [Except.map]
  | ok behind =>
    simp only [Except.map, Except.ok.injEq, Prod.mk.injEq]
    constructor
    · rintro ⟨rfl, rfl, rfl⟩
      exact ⟨rfl, rfl, rfl⟩
    · rintro ⟨rfl, rfl, rfl⟩
      exact ⟨rfl, rfl, rfl⟩

theorem scalar_of_skipLetters {c : Char} {letters tail : List Char} (word : c :: letters ∈ literals)
    (ok : (skipLetters letters tail).map (Awaited.next, outer, ·) = .ok (awaited, opened, rest)) :
    Scalar (c :: tail) rest ∧ awaited = .next ∧ opened = outer := by
  obtain ⟨read, same⟩ := map_next_eq_ok_iff.mp ok
  rw [skipLetters_eq_ok_iff.mp read]
  exact ⟨.literal word, same⟩

/-- Where a value is awaited a scalar or an opening bracket may stand. -/
theorem skipToken_value_ok_iff : skipToken .value outer text = .ok (awaited, opened, rest) ↔
    (Scalar text rest ∧ awaited = .next ∧ opened = outer) ∨
      ∃ b : Bracket, text = b.opening :: rest ∧ awaited = .first ∧ opened = b :: outer := by
  constructor
  · intro ok
    cases text with
    | nil => cases ok
    | cons c tail =>
      unfold skipToken at ok
      dsimp only at ok
      split at ok
      case h_1 => exact .inl (scalar_of_skipLetters (by simp [literals]) ok)
      case h_2 => exact .inl (scalar_of_skipLetters (by simp [literals]) ok)
      case h_3 => exact .inl (scalar_of_skipLetters (by simp [literals]) ok)
      case h_4 =>
        obtain ⟨quoted, same⟩ := map_next_eq_ok_iff.mp ok
        obtain ⟨written, rfl, escaped⟩ := skipQuoted_eq_ok_iff.mp quoted
        exact .inl ⟨.text escaped, same⟩
      case h_5 =>
        cases ok
        exact .inr ⟨.list, rfl, rfl, rfl⟩
      case h_6 =>
        cases ok
        exact .inr ⟨.object, rfl, rfl, rfl⟩
      case h_7 =>
        split at ok
        case isTrue =>
          obtain ⟨⟨n, behind⟩, read, same⟩ := map_eq_ok_iff.mp ok
          obtain ⟨rfl, rfl, rfl⟩ := same
          exact .inl ⟨.number (readNumber_ok_iff.mp ⟨n, read⟩), rfl, rfl⟩
        case isFalse => cases ok
  · rintro (⟨scalar, rfl, rfl⟩ | ⟨b, rfl, rfl, rfl⟩)
    · cases scalar with
      | literal mem =>
        simp only [literals, List.mem_cons, List.not_mem_nil, or_false] at mem
        rcases mem with rfl | rfl | rfl <;> rfl
      | text escaped => exact map_next_eq_ok_iff.mpr ⟨skipQuoted_eq_ok_iff.mpr ⟨_, rfl, escaped⟩, rfl, rfl⟩
      | number number =>
        obtain ⟨c, first, tail, rfl⟩ := number.head
        obtain ⟨n, read⟩ : ∃ n, readNumber .notJson (c :: tail) = .ok (n, rest) := readNumber_ok_iff.mpr number
        rw [skipToken]
        · rw [if_pos first, read]
          rfl
        all_goals
          rintro rfl
          exact absurd first (by decide)
    · cases b <;> rfl

/-- Where a name is awaited a string and a colon must stand. -/
theorem skipToken_name_ok_iff : skipToken .name outer text = .ok (awaited, opened, rest) ↔
    (∃ name behind, text = '"' :: (name ++ '"' :: behind) ∧ Escaped name ∧ skipBlanks behind = ':' :: rest) ∧
      awaited = .value ∧ opened = outer := by
  constructor
  · intro ok
    cases text with
    | nil => cases ok
    | cons c tail =>
      rw [skipToken] at ok
      split at ok
      case isTrue quote =>
        obtain ⟨behind, quoted, named⟩ := bind_eq_ok_iff.mp ok
        obtain ⟨value, colon, same⟩ := bind_eq_ok_iff.mp named
        obtain ⟨name, rfl, escaped⟩ := skipQuoted_eq_ok_iff.mp quoted
        cases same
        rw [quote]
        exact ⟨⟨name, behind, rfl, escaped, skipColon_eq_ok_iff.mp colon⟩, rfl, rfl⟩
      case isFalse => cases ok
  · rintro ⟨⟨name, behind, rfl, escaped, colon⟩, rfl, rfl⟩
    have quoted : skipQuoted .plain (name ++ '"' :: behind) = .ok behind := skipQuoted_of_escaped escaped behind
    have found : skipColon behind = .ok rest := skipColon_eq_ok_iff.mpr colon
    simp only [skipToken, if_true, quoted, found, bind, Except.bind]
    rfl

/-- Behind an opening bracket its closing one or an element may stand. -/
theorem skipToken_first_ok_iff : skipToken .first (b :: outer) text = .ok (awaited, opened, rest) ↔
    (text = b.closing :: rest ∧ awaited = .next ∧ opened = outer) ∨
      (text ≠ [] ∧ text.head? ≠ some b.closing ∧ rest = text ∧ awaited = b.element ∧ opened = b :: outer) := by
  cases text with
  | nil => simp [skipToken]
  | cons c tail =>
    simp only [skipToken, Bracket.closes_iff]
    by_cases closed : c = b.closing
    · rw [if_pos closed]
      constructor
      · rintro ⟨⟩
        exact .inl ⟨by rw [closed], rfl, rfl⟩
      · rintro (⟨same, rfl, rfl⟩ | ⟨-, other, -⟩)
        · rw [(List.cons.inj same).2]
        · exact absurd (congrArg some closed) other
    · rw [if_neg closed]
      constructor
      · rintro ⟨⟩
        exact .inr ⟨by simp, by simpa using closed, rfl, by cases b <;> rfl, rfl⟩
      · rintro (⟨same, -⟩ | ⟨-, -, rfl, rfl, rfl⟩)
        · exact absurd (List.cons.inj same).1 closed
        · cases b <;> rfl

/-- Behind a value a comma or the closing bracket must stand. -/
theorem skipToken_next_ok_iff : skipToken .next (b :: outer) text = .ok (awaited, opened, rest) ↔
    (text = ',' :: rest ∧ awaited = b.element ∧ opened = b :: outer) ∨
      (text = b.closing :: rest ∧ awaited = .next ∧ opened = outer) := by
  cases text with
  | nil => simp [skipToken]
  | cons c tail =>
    have apart : ',' ≠ b.closing := by cases b <;> decide
    simp only [skipToken, Bracket.closes_iff]
    by_cases comma : c = ','
    · rw [if_pos comma]
      constructor
      · rintro ⟨⟩
        exact .inl ⟨by rw [comma], by cases b <;> rfl, rfl⟩
      · rintro (⟨same, rfl, rfl⟩ | ⟨same, -⟩)
        · rw [(List.cons.inj same).2]
          cases b <;> rfl
        · exact absurd (comma.symm.trans (List.cons.inj same).1) apart
    · rw [if_neg comma]
      by_cases closed : c = b.closing
      · rw [if_pos closed]
        constructor
        · rintro ⟨⟩
          exact .inr ⟨by rw [closed], rfl, rfl⟩
        · rintro (⟨same, -⟩ | ⟨same, rfl, rfl⟩)
          · exact absurd (List.cons.inj same).1 comma
          · rw [(List.cons.inj same).2]
      · rw [if_neg closed]
        constructor
        · rintro ⟨⟩
        · rintro (⟨same, -⟩ | ⟨same, -⟩)
          · exact absurd (List.cons.inj same).1 comma
          · exact absurd (List.cons.inj same).1 closed

end

/-! ## Runs -/

section

variable {text rest behind value : List Char} {fuel : Nat} {awaited : Awaited} {opened outer : List Bracket}
  {b : Bracket}

/-- A token costs one unit of fuel. -/
theorem skipTokens_token (more : ¬ (awaited = .next ∧ outer = [])) {later : Awaited}
    (token : skipToken awaited outer (skipBlanks text) = .ok (later, opened, rest)) (fuel : Nat) :
    skipTokens (fuel + 1) awaited outer text = skipTokens fuel later opened rest := by
  rw [skipTokens, if_neg more, token]

/-- A value still incomplete goes on with a token. -/
theorem token_of_skipTokens (more : ¬ (awaited = .next ∧ outer = []))
    (ok : skipTokens fuel awaited outer text = .ok rest) :
    ∃ fuel' later opened behind, fuel = fuel' + 1 ∧
      skipToken awaited outer (skipBlanks text) = .ok (later, opened, behind) ∧
      skipTokens fuel' later opened behind = .ok rest := by
  cases fuel with
  | zero => cases ok
  | succ fuel =>
    rw [skipTokens, if_neg more] at ok
    cases token : skipToken awaited outer (skipBlanks text) with
    | error f =>
      rw [token] at ok
      cases ok
    | ok taken =>
      obtain ⟨later, opened, behind⟩ := taken
      rw [token] at ok
      exact ⟨fuel, later, opened, behind, rfl, rfl, ok⟩

theorem skipTokens_skipBlanks (more : ¬ (awaited = .next ∧ outer = [])) (fuel : Nat) (text : List Char) :
    skipTokens fuel awaited outer (skipBlanks text) = skipTokens fuel awaited outer text := by
  cases fuel with
  | zero => rfl
  | succ fuel => rw [skipTokens, skipTokens, if_neg more, if_neg more, skipBlanks_skipBlanks]

/-! A value does not begin with a closing bracket, and takes room. -/

theorem Scalar.head (scalar : Scalar text rest) (b : Bracket) : ∃ c tail, text = c :: tail ∧ c ≠ b.closing := by
  cases scalar with
  | literal mem =>
    simp only [literals, List.mem_cons, List.not_mem_nil, or_false] at mem
    rcases mem with rfl | rfl | rfl <;> exact ⟨_, _, rfl, by cases b <;> decide⟩
  | text escaped => exact ⟨_, _, rfl, by cases b <;> decide⟩
  | number number =>
    obtain ⟨c, first, tail, rfl⟩ := number.head
    refine ⟨c, tail, rfl, ?_⟩
    rintro rfl
    cases b <;> exact absurd first (by decide)

theorem Scalar.length_lt (scalar : Scalar text rest) : rest.length < text.length := by
  cases scalar with
  | literal mem =>
    simp only [literals, List.mem_cons, List.not_mem_nil, or_false] at mem
    rcases mem with rfl | rfl | rfl <;>
      simp only [List.length_append, List.length_cons, List.length_nil] <;> omega
  | text escaped =>
    simp only [List.length_cons, List.length_append]
    omega
  | number number => exact number.length_lt

theorem Passed.head (passed : Passed .value text rest) (b : Bracket) :
    ∃ c tail, skipBlanks text = c :: tail ∧ c ≠ b.closing := by
  have opening (b' : Bracket) : b'.opening ≠ b.closing := by cases b <;> cases b' <;> decide
  cases passed with
  | scalar scalar => exact scalar.head b
  | empty found => exact ⟨_, _, found, opening _⟩
  | items found => exact ⟨_, _, found, opening _⟩

theorem Bracket.Item.head (item : b.Item text value) (passed : Passed .value value rest) :
    ∃ c tail, skipBlanks text = c :: tail ∧ c ≠ b.closing := by
  cases item with
  | element => exact passed.head .list
  | member found => exact ⟨_, _, found, by decide⟩

theorem length_lt_of_skipBlanks {c : Char} (found : skipBlanks text = c :: rest) : rest.length < text.length := by
  have le := length_skipBlanks_le text
  rw [found] at le
  exact le

/-! The tokens of a part are taken off the text whatever brackets are open around it. -/

/-- The name of a member is taken off, and the fuel it costs is bounded by its length. -/
theorem skipTokens_item (item : b.Item text value) (outer : List Bracket) :
    ∃ n, n + 2 * value.length ≤ 2 * text.length ∧
      ∀ fuel, skipTokens (fuel + n) b.element (b :: outer) text = skipTokens fuel .value (b :: outer) value := by
  cases item with
  | element => exact ⟨0, by omega, fun fuel => rfl⟩
  | @member text name behind value found escaped colon =>
    refine ⟨1, ?_, fun fuel => ?_⟩
    · have first := length_lt_of_skipBlanks found
      have second := length_lt_of_skipBlanks colon
      simp only [List.length_cons, List.length_append] at first
      omega
    · refine skipTokens_token (by simp [Bracket.element]) ?_ fuel
      rw [found]
      exact skipToken_name_ok_iff.mpr ⟨⟨name, behind, rfl, escaped, colon⟩, rfl, rfl⟩

/-- Whatever the grammar passes over is skipped, on fuel in proportion to its length. -/
theorem skipTokens_of_passed {part : Part} (passed : Passed part text rest) (outer : List Bracket) :
    ∃ n, 0 < n ∧ n + 2 * rest.length ≤ 2 * text.length ∧
      ∀ fuel, skipTokens (fuel + n) part.awaited (part.opened outer) text = skipTokens fuel .next outer rest := by
  induction passed generalizing outer with
  | @scalar text rest scalar =>
    have room := scalar.length_lt
    have le := length_skipBlanks_le text
    refine ⟨1, by omega, by omega, fun fuel => ?_⟩
    exact skipTokens_token (Part.more .value outer) (skipToken_value_ok_iff.mpr (.inl ⟨scalar, rfl, rfl⟩)) fuel
  | @empty b text inner rest found closed =>
    have room := length_lt_of_skipBlanks found
    have room' := length_lt_of_skipBlanks closed
    refine ⟨2, by omega, by omega, fun fuel => ?_⟩
    have opening : skipToken .value outer (skipBlanks text) = .ok (.first, b :: outer, inner) :=
      skipToken_value_ok_iff.mpr (.inr ⟨b, found, rfl, rfl⟩)
    have closing : skipToken .first (b :: outer) (skipBlanks inner) = .ok (.next, outer, rest) :=
      skipToken_first_ok_iff.mpr (.inl ⟨closed, rfl, rfl⟩)
    calc skipTokens (fuel + 2) .value outer text
      _ = skipTokens (fuel + 1) .first (b :: outer) inner := skipTokens_token (by simp) opening _
      _ = skipTokens fuel .next outer rest := skipTokens_token (by simp) closing _
  | @items b text inner value behind rest found item passed later ih ih' =>
    obtain ⟨k, bound, run⟩ := skipTokens_item item outer
    obtain ⟨m, -, bound', run'⟩ := ih (b :: outer)
    obtain ⟨n, -, bound'', run''⟩ := ih' outer
    have room := length_lt_of_skipBlanks found
    -- The first item is looked at before it is taken, so the bracket before it is worth two steps.
    refine ⟨n + m + k + 2, by omega, by omega, fun fuel => ?_⟩
    have opening : skipToken .value outer (skipBlanks text) = .ok (.first, b :: outer, inner) :=
      skipToken_value_ok_iff.mpr (.inr ⟨b, found, rfl, rfl⟩)
    have first : skipToken .first (b :: outer) (skipBlanks inner) = .ok (b.element, b :: outer, skipBlanks inner) := by
      obtain ⟨c, tail, head, other⟩ := item.head passed
      exact skipToken_first_ok_iff.mpr (.inr ⟨by simp [head], by simp [head, other], rfl, rfl, rfl⟩)
    calc skipTokens (fuel + (n + m + k + 2)) .value outer text
      _ = skipTokens (fuel + n + m + k + 2) .value outer text := by congr 1; omega
      _ = skipTokens (fuel + n + m + k + 1) .first (b :: outer) inner := skipTokens_token (by simp) opening _
      _ = skipTokens (fuel + n + m + k) b.element (b :: outer) (skipBlanks inner) := skipTokens_token (by simp) first _
      _ = skipTokens (fuel + n + m + k) b.element (b :: outer) inner := skipTokens_skipBlanks (by simp) _ _
      _ = skipTokens (fuel + n + m) .value (b :: outer) value := run _
      _ = skipTokens (fuel + n) .next (b :: outer) behind := run' _
      _ = skipTokens fuel .next outer rest := run'' _
  | @closed b text rest closed =>
    have room := length_lt_of_skipBlanks closed
    refine ⟨1, by omega, by omega, fun fuel => ?_⟩
    exact skipTokens_token (Part.more (.later b) outer) (skipToken_next_ok_iff.mpr (.inr ⟨closed, rfl, rfl⟩)) fuel
  | @more b text next value behind rest comma item passed later ih ih' =>
    obtain ⟨k, bound, run⟩ := skipTokens_item item outer
    obtain ⟨m, -, bound', run'⟩ := ih (b :: outer)
    obtain ⟨n, -, bound'', run''⟩ := ih' outer
    have room := length_lt_of_skipBlanks comma
    refine ⟨n + m + k + 1, by omega, by omega, fun fuel => ?_⟩
    have token : skipToken .next (b :: outer) (skipBlanks text) = .ok (b.element, b :: outer, next) :=
      skipToken_next_ok_iff.mpr (.inl ⟨comma, rfl, rfl⟩)
    calc skipTokens (fuel + (n + m + k + 1)) .next (b :: outer) text
      _ = skipTokens (fuel + n + m + k + 1) .next (b :: outer) text := by congr 1; omega
      _ = skipTokens (fuel + n + m + k) b.element (b :: outer) next := skipTokens_token (by simp) token _
      _ = skipTokens (fuel + n + m) .value (b :: outer) value := run _
      _ = skipTokens (fuel + n) .next (b :: outer) behind := run' _
      _ = skipTokens fuel .next outer rest := run'' _

/-! What a run takes off the text is a part. -/

theorem item_of_skipTokens (ok : skipTokens fuel b.element (b :: outer) text = .ok rest) :
    ∃ value fuel', fuel' ≤ fuel ∧ b.Item text value ∧ skipTokens fuel' .value (b :: outer) value = .ok rest := by
  cases b with
  | list => exact ⟨text, fuel, Nat.le_refl _, .element, ok⟩
  | object =>
    obtain ⟨fuel, later, opened, behind, rfl, token, ok⟩ := token_of_skipTokens (by simp) ok
    obtain ⟨⟨name, behind', found, escaped, colon⟩, rfl, rfl⟩ := skipToken_name_ok_iff.mp token
    exact ⟨behind, fuel, Nat.le_succ _, .member found escaped colon, ok⟩

/-- Whatever is skipped the grammar passes over. -/
theorem passed_of_skipTokens (part : Part) (ok : skipTokens fuel part.awaited (part.opened outer) text = .ok rest) :
    ∃ behind fuel', fuel' < fuel ∧ Passed part text behind ∧ skipTokens fuel' .next outer behind = .ok rest := by
  -- What is left of the fuel behind an item is not known before the item is, hence strong induction.
  induction fuel using Nat.strongRecOn generalizing part outer text with
  | ind fuel ih =>
    obtain ⟨left, awaited, opened, behind, rfl, token, run⟩ := token_of_skipTokens (part.more outer) ok
    cases part with
    | value =>
      obtain ⟨scalar, rfl, rfl⟩ | ⟨b, found, rfl, rfl⟩ := skipToken_value_ok_iff.mp token
      · exact ⟨behind, left, by omega, .scalar scalar, run⟩
      · obtain ⟨left, awaited, opened, inner, rfl, token', run'⟩ := token_of_skipTokens (by simp) run
        obtain ⟨closed, rfl, rfl⟩ | ⟨-, -, rfl, rfl, rfl⟩ := skipToken_first_ok_iff.mp token'
        · exact ⟨inner, left, by omega, .empty found closed, run'⟩
        · rw [skipTokens_skipBlanks (by simp)] at run'
          obtain ⟨value, k, le, item, run⟩ := item_of_skipTokens run'
          obtain ⟨behind, m, lt, passed, run⟩ := ih k (by omega) .value run
          obtain ⟨behind, n, lt', others, run⟩ := ih m (by omega) (.later b) run
          exact ⟨behind, n, by omega, .items found item passed others, run⟩
    | later b =>
      obtain ⟨comma, rfl, rfl⟩ | ⟨closed, rfl, rfl⟩ := skipToken_next_ok_iff.mp token
      · obtain ⟨value, k, le, item, run⟩ := item_of_skipTokens run
        obtain ⟨behind, m, lt, passed, run⟩ := ih k (by omega) .value run
        obtain ⟨behind, n, lt', others, run⟩ := ih m (by omega) (.later b) run
        exact ⟨behind, n, by omega, .more comma item passed others, run⟩
      · exact ⟨behind, left, by omega, .closed closed, run⟩

/-- A value is passed over just where one stands. -/
theorem skipValue_eq_ok_iff (enough : text.length ≤ fuel) :
    skipValue fuel text = .ok rest ↔ Passed .value text rest := by
  constructor
  · intro ok
    obtain ⟨behind, left, lt, passed, run⟩ := passed_of_skipTokens .value ok
    cases left with
    | zero => cases run
    | succ left =>
      rw [skipTokens, if_pos ⟨rfl, rfl⟩] at run
      cases run
      exact passed
  · intro passed
    obtain ⟨n, -, bound, run⟩ := skipTokens_of_passed passed []
    obtain ⟨left, split⟩ : ∃ k, 2 * fuel + 2 = k + 1 + n := ⟨2 * fuel + 1 - n, by omega⟩
    rw [skipValue, split]
    exact (run (left + 1)).trans (by rw [skipTokens, if_pos ⟨rfl, rfl⟩])

theorem Passed.length_lt (passed : Passed .value text rest) : rest.length < text.length := by
  obtain ⟨n, positive, bound, -⟩ := skipTokens_of_passed passed []
  omega

end

end CompileDb.Json
