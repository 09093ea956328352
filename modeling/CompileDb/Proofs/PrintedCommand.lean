import CompileDb.Database.Store
import CompileDb.Proofs.Recording
import CompileDb.Proofs.SourceFile
import CompileDb.Proofs.WordGrammar

/-!
# Printed lines and command texts

A line that make prints is split at its spaces, and its words lose their backslashes; the command text of an entry is
read with quotes and escapes. On text in which a quote only stands behind a backslash, and a backslash only in front of
what it escapes, both come to the same (`Plain.scan`). So a call is the same command however it enters the database
(`arguments_eq_ofText`).
-/

namespace CompileDb

open Make.Invocation

/-- Text that means the same as a printed line and as a command text: spaces are its only blanks, a backslash has a
character right behind it that is no space and no backslash, and a quote has a backslash right before it. -/
structure CommonText (text : List Char) : Prop where
  blanks : ∀ c ∈ text, Text.isBlank c = true → c = ' '
  backslashes : ∀ i : Nat, text[i]? = some '\\' → ∃ c ∈ text[i + 1]?, c ≠ ' ' ∧ c ≠ '\\'
  quotes : ∀ i : Nat, text[i]? = some '"' → 0 < i ∧ text[i - 1]? = some '\\'

/-- The same, looked up place by place. -/
def isCommonText (text : List Char) : Bool :=
  text.all (fun c => !Text.isBlank c || c == ' ') &&
    (List.range text.length).all fun i =>
      (text[i]? != some '\\' || text[i + 1]?.any fun c => c != ' ' && c != '\\') &&
        (text[i]? != some '"' || (decide (0 < i) && text[i - 1]? == some '\\'))

/-- Looking place by place decides the common texts. -/
theorem isCommonText_iff {text : List Char} : isCommonText text = true ↔ CommonText text := by
  have within {c : Char} {i : Nat} (there : text[i]? = some c) : i < text.length :=
    (List.getElem?_eq_some_iff.1 there).1
  rw [isCommonText, Bool.and_eq_true, List.all_eq_true, List.all_eq_true]
  simp only [List.mem_range, Bool.and_eq_true, Bool.or_eq_true, Bool.not_eq_true', bne_iff_ne, beq_iff_eq, ne_eq,
    decide_eq_true_eq, Option.any_eq_true, ← imp_iff_not_or, ← Bool.not_eq_true]
  constructor
  · rintro ⟨blanks, places⟩
    exact ⟨blanks, fun i there => (places i (within there)).1 there, fun i there => (places i (within there)).2 there⟩
  · rintro ⟨blanks, backslashes, quotes⟩
    exact ⟨blanks, fun i _ => ⟨backslashes i, quotes i⟩⟩

instance (text : List Char) : Decidable (CommonText text) :=
  decidable_of_iff _ isCommonText_iff

/-- The same text, character by character from the left. -/
inductive Plain : List Char → Prop where
  | nil : Plain []
  | space {rest : List Char} : Plain rest → Plain (' ' :: rest)
  | char {c : Char} {rest : List Char} :
      c ≠ '"' ∧ c ≠ '\\' → Text.isBlank c = false → Plain rest → Plain (c :: rest)
  | escape {c : Char} {rest : List Char} :
      c ≠ '\\' → Text.isBlank c = false → Plain rest → Plain ('\\' :: c :: rest)

namespace CommonText

variable {text : List Char} {c : Char}

/-- A space is the only blank of such a text. -/
theorem isBlank_of_mem (common : CommonText text) (mem : c ∈ text) (other : c ≠ ' ') : Text.isBlank c = false := by
  rw [← Bool.not_eq_true]
  exact fun blank => other (common.blanks c mem blank)

/-- No quote stands behind a character that is no backslash. -/
theorem ne_quote (common : CommonText text) {i : Nat} (there : text[i]? = some c) (other : c ≠ '\\') :
    text[i + 1]? ≠ some '"' := by
  intro quote
  have before := (common.quotes (i + 1) quote).2
  rw [Nat.add_sub_cancel, there] at before
  exact other (Option.some.inj before)

/-- The rest of the text from any place on where no quote stands. -/
theorem drop (common : CommonText text) {n : Nat} (other : text[n]? ≠ some '"') : CommonText (text.drop n) where
  blanks c mem := common.blanks c (List.mem_of_mem_drop mem)
  backslashes i there := by
    rw [List.getElem?_drop] at there ⊢
    exact common.backslashes (n + i) there
  quotes i there := by
    rw [List.getElem?_drop] at there
    cases i with
    | zero => exact absurd there other
    | succ i =>
      rw [List.getElem?_drop]
      exact ⟨Nat.succ_pos i, (common.quotes (n + (i + 1)) there).2⟩

theorem plain (common : CommonText text) : Plain text := by
  induction length : text.length using Nat.strongRecOn generalizing text with
  | ind n ih =>
    cases text with
    | nil => exact .nil
    | cons c rest =>
      by_cases backslash : c = '\\'
      · subst backslash
        obtain ⟨c, next, notSpace, other⟩ := common.backslashes 0 rfl
        cases rest with
        | nil => cases next
        | cons _ rest =>
          obtain rfl := Option.some.inj next
          have tail : CommonText rest := common.drop (n := 2) (common.ne_quote next other)
          have filled := common.isBlank_of_mem (by simp) notSpace
          exact .escape other filled (ih rest.length (by simp at length; omega) tail rfl)
      · have tail : CommonText rest := common.drop (n := 1) (common.ne_quote rfl backslash)
        have rest := ih rest.length (by simp at length; omega) tail rfl
        by_cases space : c = ' '
        · subst space
          exact .space rest
        · have notQuote : c ≠ '"' := by
            rintro rfl
            exact absurd (common.quotes 0 rfl).1 (Nat.lt_irrefl 0)
          exact .char ⟨notQuote, backslash⟩ (common.isBlank_of_mem (by simp) space) rest

end CommonText

/-- On plain text the words of a command text are its pieces without their backslashes. A word that has begun goes on up
to the next space. -/
theorem Plain.scan {text : List Char} (plain : Plain text) :
    Words.scan false none text = (pieces text).map (·.filter (· != '\\')) ∧
      ∀ word, Words.scan false (some word) text =
        (word.reverse ++ (text.takeWhile (· != ' ')).filter (· != '\\')) ::
          (pieces (text.dropWhile (· != ' '))).map (·.filter (· != '\\')) := by
  induction plain with
  | nil => simp [Words.scan]
  | @space rest _ ih =>
    rw [pieces_space, Words.scan_blank Text.isBlank_space]
    refine ⟨ih.1, fun word => ?_⟩
    rw [Words.scan_blank Text.isBlank_space, ih.1]
    simp
  | @char c rest other filled _ ih =>
    have notSpace : c ≠ ' ' := by
      rintro rfl
      simp at filled
    have scanned := @Words.scan_char false c other (.inr filled)
    rw [pieces_cons notSpace, scanned, ih.2]
    refine ⟨by simp [other.2], fun word => ?_⟩
    rw [scanned, ih.2]
    simp [notSpace, other.2]
  | @escape c rest other filled _ ih =>
    have notSpace : c ≠ ' ' := by
      rintro rfl
      simp at filled
    have scanned (word : Option (List Char)) :
        Words.scan false word ('\\' :: c :: rest) = Words.scan false (some (c :: word.getD [])) rest := rfl
    rw [pieces_cons (by decide), scanned, ih.2]
    refine ⟨by simp [other, notSpace], fun word => ?_⟩
    rw [scanned, ih.2]
    simp [notSpace, other]

namespace Make.Invocation

/-- The first word of a call is not empty. -/
theorem toList_eq_cons_of_isCompiler {line : String} (compiler : isCompiler (firstWord line) = true) :
    ∃ c rest, line.toList = c :: rest ∧ c ≠ ' ' := by
  have written : line.toList.takeWhile (· != ' ') ≠ [] := by
    intro nothing
    rw [firstWord, nothing, String.ofList_nil, isCompiler_empty] at compiler
    exact Bool.false_ne_true compiler
  cases text : line.toList with
  | nil => simp [text] at written
  | cons c rest => exact ⟨c, rest, rfl, fun space => by simp [text, space] at written⟩

/-- The arguments of a call are the words that its line has as a command text. -/
theorem arguments_eq_ofText {line : String} {call : Invocation} (read : ofLine? line = some call)
    (common : CommonText line.toList) (program : '\\' ∉ line.toList.takeWhile (· != ' ')) :
    call.arguments = Words.ofText line := by
  obtain ⟨compiler, -, arguments⟩ := ofLine?_eq_some_iff.1 read
  obtain ⟨c, rest, text, notSpace⟩ := toList_eq_cons_of_isCompiler compiler
  have first : (line.toList.takeWhile (· != ' ')).filter (· != '\\') = line.toList.takeWhile (· != ' ') := by
    rw [List.filter_eq_self]
    intro c mem
    simpa using fun same : c = '\\' => program (same ▸ mem)
  have split : pieces line.toList = line.toList.takeWhile (· != ' ') :: pieces (line.toList.dropWhile (· != ' ')) := by
    rw [text, pieces_cons notSpace]
    simp [notSpace]
  rw [arguments, Words.ofText, common.plain.scan.1, split, firstWord, laterWords]
  simp [first, withoutBackslashes, Function.comp_def]

end Make.Invocation

/-! ## Entries and sessions -/

/-- An entry is loaded with the words of its command text if it has any, and no list of arguments. -/
theorem Entry.toCommand_of_command {e : Entry} {directory file text : String}
    (inDirectory : e.directory = .given directory) (named : e.file = .given file) (called : e.command = .given text)
    (unlisted : e.arguments.get? = none) (words : Words.ofText text ≠ []) :
    e.toCommand = .ok ⟨⟨directory⟩, ⟨file⟩, Words.ofText text⟩ := by
  have given : e.words? = some (Words.ofText text) := by
    rw [words?, unlisted, called]
    rfl
  rw [toCommand, inDirectory, named, given]
  cases split : Words.ofText text with
  | nil => exact absurd split words
  | cons word rest => rfl

namespace Database

/-- A document with one entry. -/
theorem ofJson_singleton {text : String} {e : Entry} {command : Command} (read : Entry.readAll text = .ok [e])
    (taken : e.toCommand = .ok command) : ofJson text = .ok (empty.upsert command) := by
  rw [ofJson, read]
  simp only [ofEntries, taken]

end Database

namespace Make

/-- A call is recorded in the directory that is innermost when the announcement of its line, if it is one too, has been
followed. -/
theorem Session.feed_of_call {s : Session} {line : String} {announcement : Option Announcement} {after : Directories}
    {call : Invocation} {directory : Path} (tracked : s.directories.track line = .ok (announcement, after))
    (inner : after.current? = some directory) (printed : Invocation.ofLine? line = some call) :
    s.feed line =
      (⟨s.database.upsert (call.toCommand directory), after, s.recorded + 1⟩,
        .ok (some (call.toCommand directory).key)) := by
  rw [feed, Directories.read_eq_ok_some_iff.2 ⟨announcement, call, directory, tracked, printed, inner, rfl⟩]

namespace Invocation

/-- **A call is the same command however it is told.** Where a line with a call is a command text at the same time, its
recorded arguments are the words of that text. So recording the line while a directory is innermost stores the command
that is loaded from an entry with that directory, the same file and the line as its command text. -/
theorem recorded_eq_loaded {line : String} {call : Invocation} (printed : ofLine? line = some call)
    (common : CommonText line.toList) (program : '\\' ∉ (firstWord line).toList) :
    call.arguments = Words.ofText line ∧
    ∀ (directory : String) (entry : Entry), entry.directory = .given directory → entry.file = .given call.file →
      entry.command = .given line → entry.arguments.get? = none →
      entry.toCommand = .ok (call.toCommand ⟨directory⟩) ∧
      (∀ text, Entry.readAll text = .ok [entry] →
        Database.ofJson text = .ok (Database.empty.upsert (call.toCommand ⟨directory⟩))) ∧
      ∀ (s : Session) (announcement : Option Announcement) (after : Directories),
        s.directories.track line = .ok (announcement, after) → after.current? = some ⟨directory⟩ →
        (s.feed line).1.database = s.database.upsert (call.toCommand ⟨directory⟩) ∧
        (s.feed line).2 = .ok (some (call.toCommand ⟨directory⟩).key) := by
  have words : call.arguments = Words.ofText line :=
    arguments_eq_ofText printed common (by simpa [firstWord] using program)
  refine ⟨words, ?_⟩
  intro directory entry inDirectory named called unlisted
  have written : Words.ofText line ≠ [] := words ▸ arguments_of_ofLine? printed
  have loaded : entry.toCommand = .ok (call.toCommand ⟨directory⟩) := by
    rw [Entry.toCommand_of_command inDirectory named called unlisted written, ← words]
    rfl
  refine ⟨loaded, fun text read => Database.ofJson_singleton read loaded, ?_⟩
  intro s announcement after tracked inner
  rw [Session.feed_of_call tracked inner printed]
  exact ⟨rfl, rfl⟩

/-- A line with an escaped quote and two spaces in a row. -/
def escapedLine : String := "gcc -D\\\"X  a.c"

theorem recorded_eq_loaded_escapedLine :
    ofLine? escapedLine = some ⟨"a.c", ["gcc", "-D\"X", "a.c"]⟩ ∧ CommonText escapedLine.toList ∧
      '\\' ∉ (firstWord escapedLine).toList ∧ Words.ofText escapedLine = ["gcc", "-D\"X", "a.c"] ∧
      (Entry.mk (.given "/p") (.given "a.c") (.given escapedLine) .null).toCommand =
        .ok ⟨⟨"/p"⟩, ⟨"a.c"⟩, ["gcc", "-D\"X", "a.c"]⟩ := by
  have printed : ofLine? escapedLine = some ⟨"a.c", ["gcc", "-D\"X", "a.c"]⟩ := by decide +kernel
  have program : '\\' ∉ (firstWord escapedLine).toList := by decide +kernel
  have common : CommonText escapedLine.toList := by decide +kernel
  obtain ⟨words, loaded⟩ := recorded_eq_loaded printed common program
  have entry := loaded "/p" ⟨.given "/p", .given "a.c", .given escapedLine, .null⟩ rfl rfl rfl rfl
  exact ⟨printed, common, program, words.symm, entry.1⟩

end Invocation

end Make

end CompileDb
