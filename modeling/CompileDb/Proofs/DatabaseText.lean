import CompileDb.Database.Store
import CompileDb.Proofs.QuotedGrammar

/-!
# Written commands are read back

The document of a database is read back entry by entry. The list of commands, the object of each command, and the list
of its arguments are written as blocks of items, and a reader that takes each item takes the block.
-/

namespace CompileDb

namespace Json

/-! ## Items -/

theorem skipBlanks_append {blanks : List Char} (blank : ∀ c ∈ blanks, isJsonBlank c = true) (text : List Char) :
    skipBlanks (blanks ++ text) = skipBlanks text :=
  List.dropWhile_append_of_pos blank

theorem skipBlanks_cons {c : Char} (solid : isJsonBlank c = false) (rest : List Char) :
    skipBlanks (c :: rest) = c :: rest :=
  List.dropWhile_cons_of_neg (by simp [solid])

/-- A reader takes a written value from the front of any text. The value starts with a quote or an opening bracket. -/
structure Reads {α : Type} (reader : Reader α) (written : List Char) (value : α) : Prop where
  opened : ∃ c rest, written = c :: rest ∧ (c = '"' ∨ c = '[' ∨ c = '\x7b')
  taken : ∀ rest, reader (written ++ rest) = .ok (value, rest)

namespace Reads

variable {α : Type} {reader : Reader α} {written : List Char} {value : α}

/-- The first character of a written value. -/
theorem head (reads : Reads reader written value) :
    ∃ c rest, written = c :: rest ∧ isJsonBlank c = false ∧ c ≠ ']' ∧ c ≠ 'n' := by
  obtain ⟨c, rest, rfl, rfl | rfl | rfl⟩ := reads.opened <;> exact ⟨_, rest, rfl, by decide⟩

/-- Blanks before a written value are passed over. -/
theorem skipBlanks_blanks (reads : Reads reader written value) {blanks : List Char}
    (blank : ∀ c ∈ blanks, isJsonBlank c = true) (rest : List Char) :
    skipBlanks (blanks ++ (written ++ rest)) = written ++ rest := by
  obtain ⟨c, tail, rfl, solid, -, -⟩ := reads.head
  rw [skipBlanks_append blank, List.cons_append, skipBlanks_cons solid]

/-- A value that is not null is read the same where null is allowed. -/
theorem optional (reads : Reads reader written value) (rest : List Char) :
    readOptional reader (' ' :: (written ++ rest)) = .ok (some value, rest) := by
  have one : ∀ c ∈ [' '], isJsonBlank c = true := List.forall_mem_singleton.mpr rfl
  have solid : skipBlanks (' ' :: (written ++ rest)) = written ++ rest := reads.skipBlanks_blanks one rest
  have taken := reads.taken rest
  obtain ⟨c, tail, rfl, -, -, other⟩ := reads.head
  rw [readOptional, solid]
  rw [List.cons_append] at taken ⊢
  split
  case h_1 same => exact absurd (List.cons.inj same).1 other
  case h_2 => rw [taken]; rfl

end Reads

/-- A written string is read back. -/
theorem reads_quote (text : String) : Reads readText (quote text) text where
  opened := ⟨'"', _, rfl, .inl rfl⟩
  taken rest := by
    have solid : skipBlanks (quote text ++ rest) = '"' :: ((quote text).tail ++ rest) := skipBlanks_cons (by decide) _
    rw [readText, solid]
    exact readQuoted_quote text rest

/-! ## Lists -/

theorem nextElement_closing (first : Bool) {blanks : List Char} (blank : ∀ c ∈ blanks, isJsonBlank c = true)
    (rest : List Char) : nextElement first (blanks ++ ']' :: rest) = .ok none := by
  have found : skipBlanks (blanks ++ ']' :: rest) = ']' :: rest := by
    rw [skipBlanks_append blank, skipBlanks_cons (by decide)]
  simp [nextElement, found]

theorem readClosing_closing {close : Char} (solid : isJsonBlank close = false) {blanks : List Char}
    (blank : ∀ c ∈ blanks, isJsonBlank c = true) (rest : List Char) :
    readClosing close (blanks ++ close :: rest) = .ok rest := by
  rw [readClosing, skipBlanks_append blank, skipBlanks_cons solid]
  simp

section

variable {α : Type} {reader : Reader α} {written : List Char} {value : α}

theorem nextElement_first (reads : Reads reader written value) {blanks : List Char}
    (blank : ∀ c ∈ blanks, isJsonBlank c = true) (rest : List Char) :
    nextElement true (blanks ++ (written ++ rest)) = .ok (some (written ++ rest)) := by
  have solid := reads.skipBlanks_blanks blank rest
  obtain ⟨c, tail, rfl, -, other, -⟩ := reads.head
  rw [nextElement, solid, List.cons_append]
  split
  case h_1 => contradiction
  case h_2 same => exact absurd (List.cons.inj same).1 other
  case h_3 same => rw [if_pos rfl, ← same]

theorem nextElement_comma (reads : Reads reader written value) {blanks : List Char}
    (blank : ∀ c ∈ blanks, isJsonBlank c = true) (rest : List Char) :
    nextElement false (',' :: (blanks ++ (written ++ rest))) = .ok (some (written ++ rest)) := by
  have solid := reads.skipBlanks_blanks blank rest
  have comma : skipBlanks (',' :: (blanks ++ (written ++ rest))) = ',' :: (blanks ++ (written ++ rest)) :=
    skipBlanks_cons (by decide) _
  obtain ⟨c, tail, rfl, -, other, -⟩ := reads.head
  rw [nextElement, comma]
  simp only [Bool.false_eq_true, if_false]
  split
  case h_1 => contradiction
  case h_2 same => exact absurd (List.cons.inj same).1 (by decide)
  case h_3 same =>
    obtain ⟨rfl, rfl⟩ := List.cons.inj same
    rw [if_pos rfl, solid, List.cons_append]
    split
    case h_1 => contradiction
    case h_2 same => exact absurd (List.cons.inj same).1 other
    case h_3 => rfl

/-- At the bracket the list is complete. -/
theorem readElements_closing (fuel : Nat) (seen : List α) {blanks : List Char}
    (blank : ∀ c ∈ blanks, isJsonBlank c = true) (rest : List Char) :
    readElements reader (fuel + 1) seen (blanks ++ ']' :: rest) = .ok (seen.reverse, rest) := by
  have closing : readClosing ']' (blanks ++ ']' :: rest) = .ok rest := readClosing_closing (by decide) blank rest
  rw [readElements, nextElement_closing seen.isEmpty blank]
  simp only [closing, Except.map]

theorem readElements_first (reads : Reads reader written value) (fuel : Nat) {blanks : List Char}
    (blank : ∀ c ∈ blanks, isJsonBlank c = true) (rest : List Char) :
    readElements reader (fuel + 1) [] (blanks ++ (written ++ rest)) = readElements reader fuel [value] rest := by
  rw [readElements, List.isEmpty_nil, nextElement_first reads blank]
  simp only [reads.taken]

/-- Behind a comma the next element is read and put at the end. -/
theorem readElements_comma (reads : Reads reader written value) (fuel : Nat) {seen : List α}
    (later : seen.isEmpty = false) {blanks : List Char} (blank : ∀ c ∈ blanks, isJsonBlank c = true)
    (rest : List Char) :
    readElements reader (fuel + 1) seen (',' :: (blanks ++ (written ++ rest))) =
      readElements reader fuel (value :: seen) rest := by
  rw [readElements, later, nextElement_comma reads blank]
  simp only [reads.taken]

end

end Json

namespace Database

open Json

/-- A new line is blank up to its first token. -/
theorem blank_indentation (depth : Nat) : ∀ c ∈ '\n' :: indentation depth, isJsonBlank c = true := by
  intro c mem
  rcases List.mem_cons.mp mem with rfl | mem
  · decide
  · rw [List.eq_of_mem_replicate mem]
    decide

/-- A block is longer than its items are many, so its length is fuel enough. -/
theorem length_lt_block (opening closing : Char) (depth : Nat) (items : List (List Char)) :
    items.length < (block opening closing depth items).length := by
  cases items with
  | nil => simp [block]
  | cons item items =>
    have some_each : items.length ≤ (items.flatMap fun i => ',' :: '\n' :: indentation (depth + 1) ++ i).length := by
      induction items with
      | nil => simp
      | cons item items ih =>
        simp only [List.flatMap_cons, List.length_append, List.length_cons]
        omega
    simp only [block, List.length_append, List.length_cons]
    omega

/-- A block is longer than each of its items, by its two brackets at least. -/
theorem length_of_mem_block (opening closing : Char) (depth : Nat) {items : List (List Char)} {item : List Char}
    (mem : item ∈ items) : item.length + 2 ≤ (block opening closing depth items).length := by
  cases items with
  | nil => simp at mem
  | cons first items =>
    simp only [block, List.length_append, List.length_cons]
    rcases List.mem_cons.mp mem with rfl | mem
    · omega
    · obtain ⟨before, after, rfl⟩ := List.append_of_mem mem
      simp only [List.flatMap_append, List.flatMap_cons, List.length_append, List.length_cons]
      omega

section

variable {α β : Type} {reader : Reader α} {write : β → List Char} {value : β → α} {items : List β}

/-- The items behind the first one are read up to the closing bracket. -/
theorem readElements_items (reads : ∀ i ∈ items, Reads reader (write i) (value i)) {fuel : Nat}
    (enough : items.length < fuel) (depth : Nat) {seen : List α} (later : seen.isEmpty = false) (rest : List Char) :
    readElements reader fuel seen
        (items.flatMap (fun i => ',' :: '\n' :: indentation (depth + 1) ++ write i) ++
          ('\n' :: indentation depth ++ ']' :: rest)) =
      .ok (seen.reverse ++ items.map value, rest) := by
  obtain ⟨fuel, rfl⟩ : ∃ n, fuel = n + 1 := ⟨fuel - 1, by omega⟩
  induction items generalizing fuel seen with
  | nil =>
    rw [List.flatMap_nil, List.nil_append, readElements_closing fuel seen (blank_indentation depth)]
    simp
  | cons item items ih =>
    rw [List.length_cons] at enough
    obtain ⟨fuel, rfl⟩ : ∃ n, fuel = n + 1 := ⟨fuel - 1, by omega⟩
    have step := readElements_comma (reads item List.mem_cons_self) (fuel + 1) later
      (blank_indentation (depth + 1))
      (items.flatMap (fun i => ',' :: '\n' :: indentation (depth + 1) ++ write i) ++
          ('\n' :: indentation depth ++ ']' :: rest))
    have last := @ih (fun i mem => reads i (List.mem_cons_of_mem item mem)) (value item :: seen) rfl fuel (by omega)
    rw [last] at step
    simpa using step

/-- A block of items is read as a list. -/
theorem reads_block (reads : ∀ i ∈ items, Reads reader (write i) (value i)) {fuel : Nat} (enough : items.length < fuel)
    (depth : Nat) : Reads (readList fuel reader) (block '[' ']' depth (items.map write)) (items.map value) where
  opened := by cases items <;> exact ⟨'[', _, rfl, .inr (.inl rfl)⟩
  taken rest := by
    obtain ⟨fuel, rfl⟩ : ∃ n, fuel = n + 1 := ⟨fuel - 1, by omega⟩
    cases items with
    | nil => exact @readElements_closing α reader fuel [] [] (by simp) rest
    | cons item items =>
      rw [List.length_cons] at enough
      have first := readElements_first (reads item List.mem_cons_self) fuel (blank_indentation (depth + 1))
        (items.flatMap (fun i => ',' :: '\n' :: indentation (depth + 1) ++ write i) ++
            ('\n' :: indentation depth ++ ']' :: rest))
      rw [readElements_items (fun i mem => reads i (List.mem_cons_of_mem item mem)) (by omega) depth rfl rest] at first
      simpa [readList, block, skipBlanks, isJsonBlank, List.flatMap_map] using first

end

end Database

/-! ## Objects -/

namespace Entry

open Json Database

theorem nextMember_first (name : String) {blanks : List Char} (blank : ∀ c ∈ blanks, isJsonBlank c = true)
    (rest : List Char) : nextMember true (blanks ++ (quote name ++ rest)) = .ok (some (name, rest)) := by
  have solid : skipBlanks (blanks ++ (quote name ++ rest)) = '"' :: ((quote name).tail ++ rest) :=
    (reads_quote name).skipBlanks_blanks blank rest
  simp [nextMember, solid, readQuoted_quote, Except.map]

theorem nextMember_comma (name : String) {blanks : List Char} (blank : ∀ c ∈ blanks, isJsonBlank c = true)
    (rest : List Char) : nextMember false (',' :: (blanks ++ (quote name ++ rest))) = .ok (some (name, rest)) := by
  have solid : skipBlanks (blanks ++ (quote name ++ rest)) = '"' :: ((quote name).tail ++ rest) :=
    (reads_quote name).skipBlanks_blanks blank rest
  have comma : skipBlanks (',' :: (blanks ++ (quote name ++ rest))) = ',' :: (blanks ++ (quote name ++ rest)) :=
    skipBlanks_cons (by decide) _
  simp [nextMember, comma, solid, readQuoted_quote, Except.map]

theorem nextMember_closing (first : Bool) {blanks : List Char} (blank : ∀ c ∈ blanks, isJsonBlank c = true)
    (rest : List Char) : nextMember first (blanks ++ '\x7d' :: rest) = .ok none := by
  have found : skipBlanks (blanks ++ '\x7d' :: rest) = '\x7d' :: rest := by
    rw [skipBlanks_append blank, skipBlanks_cons (by decide)]
  simp [nextMember, found]

/-- The entry that is written for a command. -/
def ofCommand (c : Command) : Entry :=
  ⟨.given c.directory.text, .given c.file.text, .absent, .given c.arguments⟩

/-- A command with a program survives being written as an entry. -/
theorem toCommand_ofCommand {c : Command} (called : c.arguments ≠ []) : (ofCommand c).toCommand = .ok c := by
  obtain ⟨directory, file, arguments⟩ := c
  cases arguments with
  | nil => contradiction
  | cons program words => rfl

/-- A value that stands behind its name is read into a member that is not there yet. -/
theorem readKnown_absent {α : Type} {read : Reader α} {written : List Char} {a : α} (reads : Reads read written a)
    (set : Member α → Entry) (rest : List Char) :
    readKnown .absent read set (':' :: ' ' :: (written ++ rest)) = .ok (set (.given a), rest) := by
  have colon : skipColon (':' :: ' ' :: (written ++ rest)) = .ok (' ' :: (written ++ rest)) := rfl
  have value := reads.optional rest
  simp only [readKnown, Member.isPresent, colon, bind, Except.bind, value]
  rfl

theorem readMember_directory {e : Entry} (absent : e.directory = .absent) (fuel : Nat) (text : String)
    (rest : List Char) :
    readMember fuel e "directory" (':' :: ' ' :: (quote text ++ rest)) =
      .ok ({ e with directory := .given text }, rest) := by
  rw [readMember, absent, readKnown_absent (reads_quote text)]

theorem readMember_file {e : Entry} (absent : e.file = .absent) (fuel : Nat) (text : String) (rest : List Char) :
    readMember fuel e "file" (':' :: ' ' :: (quote text ++ rest)) = .ok ({ e with file := .given text }, rest) := by
  rw [readMember, absent, readKnown_absent (reads_quote text)]

theorem readMember_arguments {e : Entry} (absent : e.arguments = .absent) {fuel : Nat} {words : List String}
    (enough : words.length < fuel) (depth : Nat) (rest : List Char) :
    readMember fuel e "arguments" (':' :: ' ' :: (block '[' ']' depth (words.map quote) ++ rest)) =
      .ok ({ e with arguments := .given words }, rest) := by
  have list : Reads (readList fuel readText) (block '[' ']' depth (words.map quote)) words := by
    have texts : ∀ word ∈ words, Reads readText (quote word) (id word) := fun word _ => reads_quote word
    simpa using reads_block texts enough depth
  rw [readMember, absent, readKnown_absent list]

/-- The first member of an object stands behind the brace. -/
theorem readMembers_first {fuel : Nat} {e : Entry} {name : String} {value rest : List Char}
    (read : readMember fuel .blank name (':' :: ' ' :: (value ++ rest)) = .ok (e, rest)) {blanks : List Char}
    (blank : ∀ c ∈ blanks, isJsonBlank c = true) :
    readMembers (fuel + 1) true .blank (blanks ++ (member name value ++ rest)) = readMembers fuel false e rest := by
  have next := nextMember_first name blank (':' :: ' ' :: (value ++ rest))
  rw [member, List.append_assoc, List.cons_append, List.cons_append, readMembers, next]
  simp only [read]

/-- A later one stands behind a comma. -/
theorem readMembers_comma {fuel : Nat} {before after : Entry} {name : String} {value rest : List Char}
    (read : readMember fuel before name (':' :: ' ' :: (value ++ rest)) = .ok (after, rest)) {blanks : List Char}
    (blank : ∀ c ∈ blanks, isJsonBlank c = true) :
    readMembers (fuel + 1) false before (',' :: (blanks ++ (member name value ++ rest))) =
      readMembers fuel false after rest := by
  have next := nextMember_comma name blank (':' :: ' ' :: (value ++ rest))
  rw [member, List.append_assoc, List.cons_append, List.cons_append, readMembers, next]
  simp only [read]

theorem readMembers_closing (fuel : Nat) (first : Bool) (e : Entry) {blanks : List Char}
    (blank : ∀ c ∈ blanks, isJsonBlank c = true) (rest : List Char) :
    readMembers (fuel + 1) first e (blanks ++ '\x7d' :: rest) = .ok (e, rest) := by
  have closing : readClosing '\x7d' (blanks ++ '\x7d' :: rest) = .ok rest :=
    readClosing_closing (by decide) blank rest
  rw [readMembers, nextMember_closing first blank]
  simp only [closing, Except.map]

/-- A command is read as its entry. -/
theorem reads_commandText {c : Command} {fuel : Nat} (enough : c.arguments.length + 3 < fuel) :
    Reads (read fuel) (commandText c) (ofCommand c) where
  opened := ⟨'\x7b', _, rfl, .inr (.inr rfl)⟩
  taken rest := by
    obtain ⟨fuel, rfl⟩ : ∃ n, fuel = n + 4 := ⟨fuel - 4, by omega⟩
    let line := '\n' :: indentation 2
    let last := '\n' :: indentation 1 ++ '\x7d' :: rest
    let arguments := ',' :: (line ++ (member "arguments" (block '[' ']' 2 (c.arguments.map quote)) ++ last))
    let file := ',' :: (line ++ (member "file" (quote c.file.text) ++ arguments))
    calc read (fuel + 4) (commandText c ++ rest)
      _ = readMembers (fuel + 4) true .blank (line ++ (member "directory" (quote c.directory.text) ++ file)) := by
        simp [read, commandText, block, skipBlanks, isJsonBlank, line, last, arguments, file]
      _ = readMembers (fuel + 3) false ⟨.given c.directory.text, .absent, .absent, .absent⟩ file :=
        readMembers_first (readMember_directory rfl _ _ _) (blank_indentation 2)
      _ = readMembers (fuel + 2) false ⟨.given c.directory.text, .given c.file.text, .absent, .absent⟩ arguments :=
        readMembers_comma (readMember_file rfl _ _ _) (blank_indentation 2)
      _ = readMembers (fuel + 1) false (ofCommand c) last :=
        readMembers_comma (readMember_arguments rfl (by omega) 2 _) (blank_indentation 2)
      _ = .ok (ofCommand c, rest) := readMembers_closing fuel false _ (blank_indentation 1) rest

/-- Every word of a command takes room in its text. -/
theorem length_arguments_commandText (c : Command) : c.arguments.length + 3 < (commandText c).length := by
  have words : c.arguments.length < (block '[' ']' 2 (c.arguments.map quote)).length := by
    simpa using length_lt_block '[' ']' 2 (c.arguments.map quote)
  have list : (member "arguments" (block '[' ']' 2 (c.arguments.map quote))).length + 2 ≤ (commandText c).length :=
    length_of_mem_block '\x7b' '\x7d' 1 (by simp)
  simp only [member, List.length_append, List.length_cons] at list
  omega

/-- The entries of a written database are those of its commands, also with blanks behind the document. -/
theorem readAll_toJson (db : Database) {blanks : String} (blank : ∀ c ∈ blanks.toList, isJsonBlank c = true) :
    readAll (db.toJson ++ blanks) = .ok (db.commands.map ofCommand) := by
  let text := block '[' ']' 0 (db.commands.map commandText)
  let fuel := (text ++ blanks.toList).length + 1
  have room : text.length < fuel := by simp only [fuel, List.length_append]; omega
  have commands : db.commands.length < text.length := by
    simpa using length_lt_block '[' ']' 0 (db.commands.map commandText)
  have each : ∀ c ∈ db.commands, Reads (read fuel) (commandText c) (ofCommand c) := by
    intro c mem
    have words := length_arguments_commandText c
    have item : (commandText c).length + 2 ≤ text.length := length_of_mem_block '[' ']' 0 (List.mem_map_of_mem mem)
    exact reads_commandText (by omega)
  have taken : readList fuel (read fuel) (text ++ blanks.toList) = .ok (db.commands.map ofCommand, blanks.toList) :=
    (reads_block each (by omega) 0).taken blanks.toList
  have rest : skipBlanks blanks.toList = [] := by
    rw [← List.append_nil blanks.toList, skipBlanks_append blank]
    rfl
  rw [readAll, readDocument, String.toList_append, toJson, String.toList_ofList]
  simp only [text, fuel] at taken
  simp only [taken, rest]
  rfl

end Entry

end CompileDb
