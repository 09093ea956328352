import CompileDb.Make.Session

/-!
# Announcements as make prints them

The line by which a make at some level of recursion announces a directory, and what is read from it. The name of the
directory may be any text, as long as what a make below the outermost one leaves does not itself say that something is
entered. A make's own name holds no compiler, so its announcements record nothing.
-/

namespace CompileDb

/-- A part without `c` lies on one side of it. -/
theorem Text.infix_of_infix_around {c : Char} {part left right : List Char} (free : c ∉ part)
    (h : part <:+: left ++ c :: right) : part <:+: left ∨ part <:+: right := by
  rcases List.infix_append_iff.1 h with inside | inside | ⟨front, back, rfl, ends, starts⟩
  · exact .inl inside
  · rcases List.infix_cons_iff.1 inside with starts | inside
    · cases part with
      | nil => exact .inl List.nil_infix
      | cons d part =>
        obtain ⟨rfl, -⟩ := List.cons_prefix_cons.1 starts
        exact absurd List.mem_cons_self free
    · exact .inr inside
  · cases back with
    | nil => exact .inl (by simpa using ends.isInfix)
    | cons d back =>
      obtain ⟨rfl, -⟩ := List.cons_prefix_cons.1 starts
      exact absurd (by simp) free

/-- A piece with any other character than dots is a name. -/
theorem Path.Component.ofPiece?_of_mem {piece : List Char} {c : Char} (mem : c ∈ piece) (other : c ≠ '.') :
    ofPiece? piece = some (.name (String.ofList piece)) := by
  unfold ofPiece?
  split
  · cases mem
  · simp_all
  · simp_all
  · rfl

/-- A name without a slash is its own file name. -/
theorem Path.fileName?_of_plain {name : List Char} (plain : '/' ∉ name)
    (named : Component.ofPiece? name = some (.name (String.ofList name))) :
    (Path.mk (String.ofList name)).fileName? = some (String.ofList name) := by
  have pieces : name.splitOn '/' = [name] := List.splitOn_eq_singleton plain
  have parts : componentsOf name = [.name (String.ofList name)] := by
    unfold componentsOf
    split
    · exact absurd List.mem_cons_self plain
    · rw [pieces]
      split
      · rename_i here
        cases here
        cases named
      · simp [named]
  simp [fileName?, components, parts]

namespace Make

/-- How a make calls itself: those called by another make add their level. -/
def levelName : Nat → List Char
  | 0 => "make".toList
  | level + 1 => "make[".toList ++ (toString (level + 1)).toList ++ [']']

/-- Who announces a directory: the outermost make, or one below it, which adds a number to its name. -/
inductive Caller where
  | outermost
  | below (number : List Char) (decimal : ∀ c ∈ number, c.isDigit = true)

namespace Caller

/-- The name in front of an announcement. -/
def name : Caller → List Char
  | outermost => "make".toList
  | below number _ => "make[".toList ++ number ++ [']']

theorem name_outermost : outermost.name = "make".toList := rfl

/-- A caller below the outermost is named with its level in brackets. -/
theorem name_below (number : List Char) (decimal : ∀ c ∈ number, c.isDigit = true) :
    (below number decimal).name = "make[".toList ++ number ++ [']'] := rfl

/-- The make at a level of recursion. -/
def atLevel : Nat → Caller
  | 0 => outermost
  | level + 1 => below (toString (level + 1)).toList fun c mem => by
      have digits : c ∈ Nat.toDigits 10 (level + 1) := by
        rw [← Nat.toList_repr]
        exact mem
      exact Nat.isDigit_of_mem_toDigits (by decide) (by decide) digits

theorem name_atLevel (level : Nat) : (atLevel level).name = levelName level := by cases level <;> rfl

/-- A make's own name is made of the letters of `make`, brackets and digits. -/
theorem notMem_name {caller : Caller} {c : Char} (digit : c.isDigit = false) (letter : c ∉ "make[]".toList) :
    c ∉ caller.name := by
  have outermost : "make[]".toList = "make".toList ++ ['[', ']'] := rfl
  have below : "make[]".toList = "make[".toList ++ [']'] := rfl
  intro mem
  cases caller with
  | outermost =>
    rw [outermost] at letter
    exact letter (List.mem_append_left _ mem)
  | below number decimal =>
    rw [below] at letter
    rw [name_below, List.mem_append, List.mem_append] at mem
    rcases mem with (mem | mem) | mem
    · exact letter (List.mem_append_left _ mem)
    · rw [decimal c mem] at digit
      cases digit
    · exact letter (List.mem_append_right _ mem)

end Caller

/-- What may stand in front of an announced directory. -/
inductive OpeningQuote where
  | apostrophe
  | backtick
deriving DecidableEq, Repr

/-- The quote as it is written. -/
def OpeningQuote.char : OpeningQuote → Char
  | apostrophe => '\x27'
  | backtick => '\x60'

namespace Announcement

/-- The line by which a make announces a directory. -/
def line (level : Nat) (phrase : String) (quote : OpeningQuote) (directory : String) : String :=
  String.ofList (levelName level ++ ':' :: ' ' :: phrase.toList ++ quote.char :: directory.toList ++ ['\x27'])

/-- A directory that may be left below the outermost make: it does not say that one is entered. -/
def Unmistakable (level : Nat) (directory : String) : Prop :=
  level = 0 ∨ ¬ "]: Entering directory ".toList <:+: directory.toList

/-- What a make prints to announce a directory. -/
def printed (caller : Caller) (phrase : String) (quote : OpeningQuote) (directory : String) : String :=
  String.ofList (caller.name ++ ':' :: ' ' :: phrase.toList ++ quote.char :: directory.toList ++ ['\x27'])

theorem line_eq_printed (level : Nat) (phrase : String) (quote : OpeningQuote) (directory : String) :
    line level phrase quote directory = printed (.atLevel level) phrase quote directory := by
  rw [line, printed, Caller.name_atLevel]

/-- No caller's name holds a quote, so the first one in a line opens the directory. -/
theorem isOpeningQuote_of_mem_name {caller : Caller} {c : Char} (mem : c ∈ caller.name) :
    isOpeningQuote c = false := by
  rw [← Bool.not_eq_true]
  intro opens
  simp only [isOpeningQuote, Bool.or_eq_true, beq_iff_eq] at opens
  rcases opens with rfl | rfl
  · exact Caller.notMem_name (by decide) (by decide) mem
  · exact Caller.notMem_name (by decide) (by decide) mem

/-- The quoted text is the directory, whatever it is: the first quote of the line opens it, the last one closes it. -/
theorem quoted?_printed (caller : Caller) {phrase : String} (plain : phrase.toList.any isOpeningQuote = false)
    (quote : OpeningQuote) (directory : String) :
    quoted? (printed caller phrase quote directory).toList = some ⟨directory⟩ := by
  have front : ∀ c ∈ caller.name ++ ':' :: ' ' :: phrase.toList, (!isOpeningQuote c) = true := by
    intro c mem
    simp only [List.mem_append, List.mem_cons] at mem
    rcases mem with mem | rfl | rfl | mem
    · simp [isOpeningQuote_of_mem_name mem]
    · decide
    · decide
    · simp [List.any_eq_false.1 plain c mem]
  have opens : isOpeningQuote quote.char = true := by cases quote <;> decide
  have shape : (printed caller phrase quote directory).toList =
      (caller.name ++ ':' :: ' ' :: phrase.toList) ++ quote.char :: (directory.toList ++ ['\x27']) := by
    simp [printed]
  rw [shape, quoted?, List.dropWhile_append_of_pos front, List.dropWhile_cons_of_neg (by simp [opens])]
  simp

/-! ## Which phrase is found -/

/-- In a line of the outermost make the phrase stands at once. -/
theorem announces_outermost (phrase phrase' : String) (quote : OpeningQuote) (directory : String) :
    announces phrase' (printed .outermost phrase quote directory).toList =
      phrase'.toList.isPrefixOf (phrase.toList ++ quote.char :: directory.toList ++ ['\x27']) := by
  have shape : (printed .outermost phrase quote directory).toList =
      outermostMark.toList ++ (phrase.toList ++ quote.char :: directory.toList ++ ['\x27']) := by
    simp [printed, Caller.name_outermost, outermostMark]
  rw [announces, shape, if_pos (List.isPrefixOf_iff_prefix.2 (List.prefix_append ..))]
  congr 1

/-- In a line of a make below it the phrase may stand anywhere. -/
theorem announces_below_iff {number : List Char} {decimal : ∀ c ∈ number, c.isDigit = true} {phrase phrase' : String}
    {quote : OpeningQuote} {directory : String} :
    announces phrase' (printed (.below number decimal) phrase quote directory).toList = true ↔
      "]: ".toList ++ phrase'.toList <:+: (printed (.below number decimal) phrase quote directory).toList := by
  have outer : outermostMark.toList.isPrefixOf (printed (.below number decimal) phrase quote directory).toList =
      false := by
    simp [printed, Caller.name_below, outermostMark, List.isPrefixOf]
  have inner : "make[".toList.isPrefixOf (printed (.below number decimal) phrase quote directory).toList = true := by
    simp [printed, Caller.name_below]
  rw [announces, outer, if_neg Bool.false_ne_true, inner, Bool.true_and, Text.occursIn_iff]

/-- Every printed line is recognised as the announcement it is. -/
theorem announces_printed (caller : Caller) (phrase : String) (quote : OpeningQuote) (directory : String) :
    announces phrase (printed caller phrase quote directory).toList = true := by
  cases caller with
  | outermost =>
    rw [announces_outermost, List.append_assoc]
    exact List.isPrefixOf_iff_prefix.2 (List.prefix_append ..)
  | below number decimal =>
    rw [announces_below_iff]
    exact ⟨"make[".toList ++ number, quote.char :: directory.toList ++ ['\x27'], by simp [printed, Caller.name_below]⟩

/-- What is left is taken for a directory entered only if its name says so, below the outermost make. -/
theorem announces_entering_leaving_iff {caller : Caller} {quote : OpeningQuote} {directory : String} :
    announces enteringPhrase (printed caller leavingPhrase quote directory).toList = true ↔
      caller ≠ .outermost ∧ "]: Entering directory ".toList <:+: directory.toList := by
  cases caller with
  | outermost =>
    rw [announces_outermost]
    simp [enteringPhrase, leavingPhrase, List.isPrefixOf]
  | below number decimal =>
    have shape : (printed (.below number decimal) leavingPhrase quote directory).toList =
        (Caller.name (.below number decimal) ++ ':' :: ' ' :: leavingPhrase.toList) ++
          quote.char :: (directory.toList ++ '\x27' :: []) := by
      simp [printed]
    have other : Caller.below number decimal ≠ .outermost := by simp
    rw [announces_below_iff, shape]
    constructor
    · intro inside
      -- No quote occurs in what is looked for, so it lies in front of the directory, in it or behind it.
      have quoteFree : quote.char ∉ "]: ".toList ++ enteringPhrase.toList := by cases quote <;> decide
      rcases Text.infix_of_infix_around quoteFree inside with front | inside
      · have capital : 'E' ∈ Caller.name (.below number decimal) ++ ':' :: ' ' :: leavingPhrase.toList :=
          front.subset (by decide)
        rcases List.mem_append.1 capital with mem | mem
        · exact absurd mem (Caller.notMem_name (by decide) (by decide))
        · exact absurd mem (by decide)
      · rcases Text.infix_of_infix_around (by decide) inside with inside | behind
        · exact ⟨other, inside⟩
        · exact absurd (List.infix_nil.1 behind) (by decide)
    · rintro ⟨-, inside⟩
      exact inside.trans ⟨Caller.name (.below number decimal) ++ ':' :: ' ' :: leavingPhrase.toList ++ [quote.char],
        ['\x27'], by simp⟩

/-! ## What is read -/

/-- What make prints on entering a directory is read as just that. -/
theorem ofLine?_printed_entering (caller : Caller) (quote : OpeningQuote) (directory : String) :
    ofLine? (printed caller enteringPhrase quote directory) = .ok (some (.entering ⟨directory⟩)) := by
  have plain : enteringPhrase.toList.any isOpeningQuote = false := by decide
  simp [ofLine?, announces_printed, quoted?_printed caller plain quote directory]

/-- What make prints on leaving a directory is read as an announcement of that directory. -/
theorem ofLine?_printed_leaving (caller : Caller) (quote : OpeningQuote) (directory : String) :
    ofLine? (printed caller leavingPhrase quote directory) =
      .ok (some (if announces enteringPhrase (printed caller leavingPhrase quote directory).toList = true then
        .entering ⟨directory⟩ else .leaving ⟨directory⟩)) := by
  have plain : leavingPhrase.toList.any isOpeningQuote = false := by decide
  simp only [ofLine?, announces_printed, quoted?_printed caller plain quote directory, if_true]
  split <;> rfl

/-- What a build prints on entering a directory is read as exactly that. -/
theorem ofLine?_entering (level : Nat) (quote : OpeningQuote) (directory : String) :
    ofLine? (line level enteringPhrase quote directory) = .ok (some (.entering ⟨directory⟩)) := by
  rw [line_eq_printed, ofLine?_printed_entering]

/-- What it prints on leaving is read as that unless the line could be an entering one. -/
theorem ofLine?_leaving {level : Nat} {directory : String} (clear : Unmistakable level directory)
    (quote : OpeningQuote) :
    ofLine? (line level leavingPhrase quote directory) = .ok (some (.leaving ⟨directory⟩)) := by
  rw [line_eq_printed, ofLine?_printed_leaving, if_neg]
  rw [announces_entering_leaving_iff]
  rintro ⟨below, inside⟩
  rcases clear with rfl | clear
  · exact below rfl
  · exact clear inside

end Announcement

/-- A program without a `g` in its name is no compiler driver. -/
theorem Invocation.isCompiler_of_notMem {name : List Char} (plain : '/' ∉ name)
    (named : Path.Component.ofPiece? name = some (.name (String.ofList name))) (free : 'g' ∉ name) :
    isCompiler (String.ofList name) = false := by
  have fileName := Path.fileName?_of_plain plain named
  rw [isCompiler, fileName, List.any_eq_false]
  intro driver mem occurs
  rw [Text.occursIn_iff, String.toList_ofList] at occurs
  have letter : ∀ driver ∈ driverNames, 'g' ∈ driver.toList := by decide
  exact free (occurs.subset (letter driver mem))

/-- An announcement calls no compiler. -/
theorem Invocation.ofLine?_announcement (level : Nat) (phrase : String) (quote : OpeningQuote) (directory : String) :
    Invocation.ofLine? (Announcement.line level phrase quote directory) = none := by
  have plain {c : Char} (digit : c.isDigit = false) (letter : c ∉ "make[]".toList) (colon : c ≠ ':') :
      c ∉ levelName level ++ [':'] := by
    simp [← Caller.name_atLevel, Caller.notMem_name digit letter, colon]
  have shape : (Announcement.line level phrase quote directory).toList = (levelName level ++ [':']) ++ ' ' ::
      (phrase.toList ++ quote.char :: directory.toList ++ ['\x27']) := by
    simp [Announcement.line]
  have compiler := isCompiler_of_notMem (plain (c := '/') (by decide) (by decide) (by decide))
    (Path.Component.ofPiece?_of_mem (c := ':') (by simp) (by decide)) (plain (by decide) (by decide) (by decide))
  rw [ofLine?, wordsOf, shape, List.splitOn_append_cons_self_of_not_mem (plain (by decide) (by decide) (by decide))]
  dsimp only
  rw [compiler]
  rfl

namespace Announcement

/-- **What make prints is read back**, whatever the directory is called and whichever make prints it, with one
exception: below the outermost make, a directory that is left and whose name says `]: Entering directory ` is taken to
be entered. -/
theorem ofLine?_printed (caller : Caller) (quote : OpeningQuote) (directory : String) :
    ofLine? (printed caller enteringPhrase quote directory) = .ok (some (.entering ⟨directory⟩)) ∧
      (ofLine? (printed caller leavingPhrase quote directory) = .ok (some (.leaving ⟨directory⟩)) ↔
        caller = .outermost ∨ ¬ "]: Entering directory ".toList <:+: directory.toList) ∧
      (caller ≠ .outermost ∧ "]: Entering directory ".toList <:+: directory.toList →
        ofLine? (printed caller leavingPhrase quote directory) = .ok (some (.entering ⟨directory⟩))) := by
  have leaving := ofLine?_printed_leaving caller quote directory
  have mistaken := @announces_entering_leaving_iff caller quote directory
  refine ⟨ofLine?_printed_entering caller quote directory, ?_, fun said => ?_⟩
  · rw [leaving]
    split
    case isTrue found =>
      obtain ⟨below, said⟩ := mistaken.1 found
      constructor
      · intro same
        cases same
      · rintro (outermost | clear)
        · exact absurd outermost below
        · exact absurd said clear
    case isFalse missing =>
      refine ⟨fun _ => ?_, fun _ => rfl⟩
      by_cases outermost : caller = .outermost
      · exact .inl outermost
      · exact .inr fun said => missing (mistaken.2 ⟨outermost, said⟩)
  · rw [leaving, if_pos (mistaken.2 said)]

/-- The first make below another one. -/
def firstBelow : Caller := .below ['1'] (List.forall_mem_singleton.2 rfl)

/-- The name of the directory quotes an announcement of the outermost make, which is not taken for one. -/
theorem ofLine?_printed_quoting :
    ofLine? "make[1]: Leaving directory \x60make: Entering directory 'a''" =
        .ok (some (.leaving ⟨"make: Entering directory 'a'"⟩)) ∧
      ofLine? "make[1]: Leaving directory 'make[2]: Entering directory 'a''" =
        .ok (some (.entering ⟨"make[2]: Entering directory 'a'"⟩)) := by
  have clear : ¬ "]: Entering directory ".toList <:+: "make: Entering directory 'a'".toList := by
    rw [← Text.occursIn_iff]
    decide +kernel
  have said : "]: Entering directory ".toList <:+: "make[2]: Entering directory 'a'".toList := by
    rw [← Text.occursIn_iff]
    decide +kernel
  have first : printed firstBelow leavingPhrase .backtick "make: Entering directory 'a'" =
      "make[1]: Leaving directory \x60make: Entering directory 'a''" := by decide +kernel
  have second : printed firstBelow leavingPhrase .apostrophe "make[2]: Entering directory 'a'" =
      "make[1]: Leaving directory 'make[2]: Entering directory 'a''" := by decide +kernel
  obtain ⟨-, read, -⟩ := ofLine?_printed firstBelow .backtick "make: Entering directory 'a'"
  obtain ⟨-, -, misread⟩ := ofLine?_printed firstBelow .apostrophe "make[2]: Entering directory 'a'"
  exact ⟨(congrArg ofLine? first).symm.trans (read.2 (.inr clear)),
    (congrArg ofLine? second).symm.trans (misread ⟨by simp [firstBelow], said⟩)⟩

/-- A directory that is left is taken to be entered, because its name says so. -/
theorem ofLine?_printed_mistaken :
    printed firstBelow leavingPhrase .apostrophe "/a]: Entering directory b" =
        "make[1]: Leaving directory '/a]: Entering directory b'" ∧
      ofLine? "make[1]: Leaving directory '/a]: Entering directory b'" =
        .ok (some (.entering ⟨"/a]: Entering directory b"⟩)) := by
  have line : printed firstBelow leavingPhrase .apostrophe "/a]: Entering directory b" =
      "make[1]: Leaving directory '/a]: Entering directory b'" := by decide +kernel
  have said : "]: Entering directory ".toList <:+: "/a]: Entering directory b".toList := by
    rw [← Text.occursIn_iff]
    decide +kernel
  refine ⟨line, ?_⟩
  rw [← line, ofLine?_printed_leaving, if_pos]
  exact announces_entering_leaving_iff.2 ⟨by simp [firstBelow], said⟩

end Announcement

end Make

end CompileDb
