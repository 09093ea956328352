import CompileDb.Proofs.EntryGrammar
import CompileDb.Proofs.Merging
import Mathlib.Data.List.Forall2

/-!
# Loading is all or nothing

A document is loaded when all its entries can be used, and then their commands are recorded in order. Otherwise the
first entry that cannot be used is named, with the first check that it fails. A text that is no document is refused
before any entry is checked.
-/

namespace CompileDb

/-! ## One entry -/

namespace Entry

/-- The words of the call: the arguments, else the words of the command text. -/
inductive Calls (e : Entry) : List String → Prop
  | arguments {words : List String} : e.arguments = .given words → Calls e words
  | command {text : String} : e.arguments.get? = none → e.command = .given text → Calls e (Words.ofText text)

/-- The command that an entry gives. -/
structure Gives (e : Entry) (c : Command) : Prop where
  file : e.file = .given c.file.text
  directory : e.directory = .given c.directory.text
  calls : e.Calls c.arguments
  called : c.arguments ≠ []

/-- An entry can be used: it has a file and a directory, and either arguments, which are not empty, or no arguments and
a command text, which has a word. -/
structure Usable (e : Entry) : Prop where
  file : ∃ file, e.file = .given file
  directory : ∃ directory, e.directory = .given directory
  called : (∃ words, e.arguments = .given words ∧ words ≠ []) ∨
    e.arguments.get? = none ∧ ∃ text, e.command = .given text ∧ Words.ofText text ≠ []

/-- The first check that an entry fails: for a file, for a directory, for either form of the command, for a word. -/
inductive Fails (e : Entry) : EntryFault → Prop
  | file : e.file.get? = none → Fails e .noFile
  | directory {file : String} : e.file = .given file → e.directory.get? = none → Fails e .noDirectory
  | command {file directory : String} : e.file = .given file → e.directory = .given directory →
      e.arguments.get? = none → e.command.get? = none → Fails e .noCommand
  | compiler {file directory : String} : e.file = .given file → e.directory = .given directory → e.Calls [] →
      Fails e .noCompiler

variable {e : Entry} {c : Command} {f : EntryFault}

theorem get?_eq_some_iff {α : Type} {m : Member α} {a : α} : m.get? = some a ↔ m = .given a := by
  cases m <;> simp [Member.get?]

/-- The words of an entry are its arguments or, without any, those of its command text. -/
theorem words?_eq_some_iff {words : List String} : e.words? = some words ↔ e.Calls words := by
  unfold words?
  constructor
  · intro called
    cases arguments : e.arguments.get? with
    | some given =>
      rw [arguments] at called
      cases called
      exact .arguments (get?_eq_some_iff.mp arguments)
    | none =>
      rw [arguments] at called
      obtain ⟨text, command, rfl⟩ := Option.map_eq_some_iff.mp called
      exact .command arguments (get?_eq_some_iff.mp command)
  · rintro (given | ⟨ungiven, command⟩)
    · rw [given]
      rfl
    · rw [ungiven, command]
      rfl

theorem words?_eq_none_iff : e.words? = none ↔ e.arguments.get? = none ∧ e.command.get? = none := by
  unfold words?
  cases e.arguments.get? <;> simp

/-- What the checks make of an entry, in their order. -/
theorem toCommand_cases (e : Entry) :
    (∃ c, e.Gives c ∧ e.toCommand = .ok c) ∨ ∃ f, e.Fails f ∧ e.toCommand = .error f := by
  cases file : e.file.get? with
  | none => exact .inr ⟨.noFile, .file file, by simp [toCommand, file]⟩
  | some path =>
    have hasFile := get?_eq_some_iff.mp file
    cases directory : e.directory.get? with
    | none => exact .inr ⟨.noDirectory, .directory hasFile directory, by simp [toCommand, file, directory]⟩
    | some base =>
      have hasDirectory := get?_eq_some_iff.mp directory
      cases words : e.words? with
      | none =>
        obtain ⟨arguments, command⟩ := words?_eq_none_iff.mp words
        exact .inr ⟨.noCommand, .command hasFile hasDirectory arguments command, by
          simp [toCommand, file, directory, words]⟩
      | some call =>
        have calls := words?_eq_some_iff.mp words
        cases call with
        | nil => exact .inr ⟨.noCompiler, .compiler hasFile hasDirectory calls, by
            simp [toCommand, file, directory, words]⟩
        | cons program others =>
          exact .inl ⟨⟨⟨base⟩, ⟨path⟩, program :: others⟩, ⟨hasFile, hasDirectory, calls, List.cons_ne_nil _ _⟩, by
            simp [toCommand, file, directory, words]⟩

/-- A usable entry becomes the command it gives. -/
theorem toCommand_of_gives (gives : e.Gives c) : e.toCommand = .ok c := by
  obtain ⟨⟨directory⟩, ⟨file⟩, arguments⟩ := c
  obtain ⟨hasFile, hasDirectory, calls, wordy⟩ := gives
  obtain ⟨program, words, rfl⟩ := List.exists_cons_of_ne_nil wordy
  simp [toCommand, hasFile, hasDirectory, words?_eq_some_iff.mpr calls, Member.get?]

theorem usable_iff : e.Usable ↔ ∃ c, e.Gives c := by
  constructor
  · rintro ⟨⟨file, hasFile⟩, ⟨directory, hasDirectory⟩, ⟨words, given, wordy⟩ | ⟨ungiven, text, given, wordy⟩⟩
    · exact ⟨⟨⟨directory⟩, ⟨file⟩, words⟩, hasFile, hasDirectory, .arguments given, wordy⟩
    · exact ⟨⟨⟨directory⟩, ⟨file⟩, Words.ofText text⟩, hasFile, hasDirectory, .command ungiven given, wordy⟩
  · rintro ⟨⟨⟨directory⟩, ⟨file⟩, words⟩, hasFile, hasDirectory, calls, wordy⟩
    refine ⟨⟨file, hasFile⟩, ⟨directory, hasDirectory⟩, ?_⟩
    cases calls with
    | arguments given => exact .inl ⟨words, given, wordy⟩
    | command ungiven given => exact .inr ⟨ungiven, _, given, wordy⟩

/-- An entry that fails a check cannot be used. -/
theorem Fails.not_usable (fails : e.Fails f) : ¬ e.Usable := by
  intro usable
  obtain ⟨c, gives⟩ := usable_iff.mp usable
  have called := words?_eq_some_iff.mpr gives.calls
  cases fails with
  | file none => simp [gives.file, Member.get?] at none
  | directory _ none => simp [gives.directory, Member.get?] at none
  | command _ _ arguments command => simp [words?_eq_none_iff.mpr ⟨arguments, command⟩] at called
  | compiler _ _ calls => exact gives.called (Option.some.inj (called.symm.trans (words?_eq_some_iff.mpr calls)))

end Entry

/-! ## All entries -/

namespace Database

/-- The outcome of recording entries in order: all commands, or the first entry that cannot be used. -/
theorem ofEntries_cases (db : Database) (index : Nat) (entries : List Entry) :
    (∃ commands, List.Forall₂ Entry.Gives entries commands ∧
        ofEntries db index entries = .ok (commands.foldl upsert db)) ∨
      ∃ before e after f, entries = before ++ e :: after ∧ (∀ u ∈ before, u.Usable) ∧ e.Fails f ∧
        ofEntries db index entries = .error (.invalidEntry (index + before.length) f) := by
  induction entries generalizing db index with
  | nil => exact .inl ⟨[], .nil, rfl⟩
  | cons e rest ih =>
    obtain ⟨c, gives, taken⟩ | ⟨f, fails, failed⟩ := e.toCommand_cases
    · have step : ofEntries db index (e :: rest) = ofEntries (db.upsert c) (index + 1) rest := by
        rw [ofEntries, taken]
      obtain ⟨commands, others, ok⟩ | ⟨before, bad, after, f, rfl, usable, fails, error⟩ := ih (db.upsert c) (index + 1)
      · exact .inl ⟨c :: commands, .cons gives others, step.trans ok⟩
      · refine .inr ⟨e :: before, bad, after, f, rfl, ?_, fails, ?_⟩
        · rintro u mem
          rcases List.mem_cons.mp mem with rfl | mem
          · exact Entry.usable_iff.mpr ⟨c, gives⟩
          · exact usable u mem
        · rw [step, error, List.length_cons, Nat.add_right_comm, Nat.add_assoc]
    · exact .inr ⟨[], e, rest, f, rfl, by simp, fails, by rw [ofEntries, failed]; rfl⟩

/-- The commands of a new database: the last one for each key, in the order in which the keys first come. -/
theorem entries_foldl_upsert_empty (commands : List Command) :
    (commands.foldl upsert .empty).entries =
      (commands.map Command.key).eraseDups.filterMap fun key => (Command.last? commands key).map (key, ·) := by
  rw [@entries_foldl_upsert .empty .nil]
  simp [newKeys, keys, empty, List.removeAll]

/-- **Loading is all or nothing, and its error is exact.** A document is loaded just when each of its entries has a file
and a directory, and either arguments, which are not empty, or no arguments and a command text with a word in it. Then
the database holds the commands that the entries give, recorded in order: under each key the last one, where the key
first came. Otherwise the error names the first entry that cannot be used, by its number and by the first check that it
fails. A text that is no document of entries is malformed, wherever it goes wrong, and no entry of it is named. -/
theorem ofJson_document (text : String) :
    (∀ entries, Entry.Document text entries →
      ((∃ db, ofJson text = .ok db) ↔ ∀ e ∈ entries, e.Usable) ∧
      (∀ db, ofJson text = .ok db → ∃ commands, List.Forall₂ Entry.Gives entries commands ∧
        db = commands.foldl upsert .empty ∧
        db.entries =
          (commands.map Command.key).eraseDups.filterMap fun key => (Command.last? commands key).map (key, ·)) ∧
      ((∃ e ∈ entries, ¬ e.Usable) → ∃ before e after f, entries = before ++ e :: after ∧ (∀ u ∈ before, u.Usable) ∧
        e.Fails f ∧ ofJson text = .error (.invalidEntry before.length f))) ∧
    ((¬ ∃ entries, Entry.Document text entries) → ∃ f, ofJson text = .error (.malformed f)) := by
  constructor
  · intro entries document
    have loaded : ofJson text = ofEntries .empty 0 entries := by
      rw [ofJson, Entry.readAll_eq_ok_iff.mpr document]
    rw [loaded]
    obtain ⟨commands, gives, ok⟩ | ⟨before, e, after, f, rfl, usable, fails, error⟩ := ofEntries_cases .empty 0 entries
    · have each : List.Forall₂ (fun e c => e.Usable ∧ e.Gives c) entries commands :=
        gives.imp fun e c given => ⟨Entry.usable_iff.mpr ⟨c, given⟩, given⟩
      obtain ⟨usable, -⟩ := (List.forall₂_and_left _ _).mp each
      refine ⟨⟨fun _ => usable, fun _ => ⟨_, ok⟩⟩, ?_, ?_⟩
      · intro db same
        obtain rfl : commands.foldl upsert .empty = db := Except.ok.inj (ok.symm.trans same)
        exact ⟨commands, gives, rfl, entries_foldl_upsert_empty commands⟩
      · rintro ⟨e, mem, bad⟩
        exact absurd (usable e mem) bad
    · rw [Nat.zero_add] at error
      refine ⟨⟨?_, ?_⟩, ?_, fun _ => ⟨before, e, after, f, rfl, usable, fails, error⟩⟩
      · rintro ⟨db, ok⟩
        rw [error] at ok
        cases ok
      · intro all
        exact absurd (all e (by simp)) fails.not_usable
      · intro db ok
        rw [error] at ok
        cases ok
  · intro undescribed
    cases read : Entry.readAll text with
    | error f => exact ⟨f, by rw [ofJson, read]⟩
    | ok entries => exact absurd ⟨entries, Entry.readAll_eq_ok_iff.mp read⟩ undescribed

/-- A list and an object for one file, one with a command text and one with arguments. -/
def twiceText : String :=
  "[[\"/p\",\"a.c\",\"cc\"],\x7b\"file\":\"./a.c\",\"id\":[],\"directory\":\"/p\",\"arguments\":[\"ld\"]\x7d]"

/-- An entry without a directory behind one that can be used, and an entry without members. -/
def lackingText : String := "[[\"/p\",\"a.c\",\"cc\"],\x7b\"file\":\"b.c\"\x7d,\x7b\x7d]"

/-- An entry without members, and a number where another entry should be. -/
def brokenText : String := "[\x7b\x7d,3]"

theorem ofJson_document_lacking :
    (∃ db, ofJson twiceText = .ok db ∧ db.entries = [(⟨"/p/a.c"⟩, ⟨⟨"/p"⟩, ⟨"./a.c"⟩, ["ld"]⟩)]) ∧
      ofJson lackingText = .error (.invalidEntry 1 .noDirectory) ∧ ∃ f, ofJson brokenText = .error (.malformed f) := by
  refine ⟨?_, ?_, ?_⟩
  · let first : Entry := ⟨.given "/p", .given "a.c", .given "cc", .absent⟩
    let second : Entry := ⟨.given "/p", .given "./a.c", .absent, .given ["ld"]⟩
    have read : Entry.readAll twiceText = .ok [first, second] := by decide +kernel
    obtain ⟨loads, holds, -⟩ := (ofJson_document twiceText).1 _ (Entry.readAll_eq_ok_iff.mp read)
    have usable : ∀ e ∈ [first, second], e.Usable := by
      refine List.forall_mem_cons.mpr ⟨?_, List.forall_mem_singleton.mpr ?_⟩
      · exact ⟨⟨_, rfl⟩, ⟨_, rfl⟩, .inr ⟨rfl, "cc", rfl, by decide⟩⟩
      · exact ⟨⟨_, rfl⟩, ⟨_, rfl⟩, .inl ⟨["ld"], rfl, by decide⟩⟩
    obtain ⟨db, loaded⟩ := loads.mpr usable
    obtain ⟨commands, gives, -, entries⟩ := holds db loaded
    cases gives with | cons one gives =>
    cases gives with | cons two gives =>
    cases gives
    cases Entry.toCommand_of_gives one
    cases Entry.toCommand_of_gives two
    refine ⟨db, loaded, entries.trans ?_⟩
    decide +kernel
  · let usable : Entry := ⟨.given "/p", .given "a.c", .given "cc", .absent⟩
    let lacking : Entry := ⟨.absent, .given "b.c", .absent, .absent⟩
    have read : Entry.readAll lackingText = .ok [usable, lacking, .blank] := by decide +kernel
    obtain ⟨-, -, refused⟩ := (ofJson_document lackingText).1 _ (Entry.readAll_eq_ok_iff.mp read)
    have fails : lacking.Fails .noDirectory := .directory rfl rfl
    obtain ⟨before, e, after, f, split, all, fails', error⟩ := refused ⟨lacking, by simp, fails.not_usable⟩
    -- Only the second entry can be the first one that fails.
    cases before with
    | nil =>
      obtain rfl : usable = e := (List.cons.inj split).1
      exact absurd ⟨⟨_, rfl⟩, ⟨_, rfl⟩, .inr ⟨rfl, "cc", rfl, by decide⟩⟩ fails'.not_usable
    | cons x before =>
      cases before with
      | nil =>
        obtain rfl : lacking = e := (List.cons.inj (List.cons.inj split).2).1
        cases fails' with
        | directory => exact error
        | file none => cases none
        | command _ hasDirectory => cases hasDirectory
        | compiler _ hasDirectory => cases hasDirectory
      | cons y before =>
        obtain rfl : lacking = y := (List.cons.inj (List.cons.inj split).2).1
        exact absurd (all lacking (by simp)) fails.not_usable
  · have read : Entry.readAll brokenText = .error .wrongShape := by decide +kernel
    apply (ofJson_document brokenText).2
    rintro ⟨entries, document⟩
    rw [Entry.readAll_eq_ok_iff.mpr document] at read
    cases read

end Database

end CompileDb
