import CompileDb.Database.Store
import CompileDb.Make.Session
import CompileDb.Proofs.Merging
import CompileDb.Proofs.Recording
import CompileDb.Proofs.SourceFile

/-!
# Databases that can come about

A database begins empty or from a document, and changes by recorded commands, added arguments and lines that a session
reads. Whatever happens to it, every command stands under its own key, no key comes twice, and no command is without
words.
-/

namespace CompileDb

namespace Make

/-- A read command is a compiler call of its line. -/
theorem Directories.arguments_of_read {d after : Directories} {line : String} {command : Command}
    (read : d.read line = (after, .ok (some command))) : command.arguments ≠ [] := by
  obtain ⟨_, call, directory, -, found, -, rfl⟩ := Directories.read_eq_ok_some_iff.1 read
  exact Invocation.arguments_of_ofLine? found

/-- A line leaves the database, or records one compiler call in it. -/
theorem Session.database_feed (s : Session) (line : String) :
    (s.feed line).1.database = s.database ∨
      ∃ command : Command, command.arguments ≠ [] ∧ (s.feed line).1.database = s.database.upsert command := by
  unfold feed
  split
  case h_1 => exact .inl rfl
  case h_2 => exact .inl rfl
  case h_3 command read => exact .inr ⟨command, Directories.arguments_of_read read, rfl⟩

end Make

namespace Database

/-- What holds of every database that can come about. -/
structure WellFormed (db : Database) : Prop where
  distinct : db.keys.Nodup
  keyed : ∀ entry ∈ db.entries, entry.1 = entry.2.key
  called : ∀ entry ∈ db.entries, entry.2.arguments ≠ []

/-- Extra arguments never empty a command. -/
theorem addMissing_ne_nil {arguments : List String} (called : arguments ≠ []) (extra : List String) :
    addMissing arguments extra ≠ [] := by
  unfold addMissing
  induction extra generalizing arguments with
  | nil => exact called
  | cons a extra ih =>
    rw [List.foldl_cons]
    split
    case isTrue => exact ih called
    case isFalse => exact ih (by simp)

/-- Only an entry with a word becomes a command. -/
theorem arguments_of_toCommand {e : Entry} {c : Command} (ok : e.toCommand = .ok c) : c.arguments ≠ [] := by
  unfold Entry.toCommand at ok
  split at ok
  case h_5 file directory words none_empty _ _ _ =>
    cases ok
    exact none_empty
  all_goals contradiction

namespace WellFormed

theorem empty : WellFormed .empty where
  distinct := List.nodup_nil
  keyed _ mem := absurd mem List.not_mem_nil
  called _ mem := absurd mem List.not_mem_nil

theorem upsert {db : Database} (wf : db.WellFormed) {command : Command} (called : command.arguments ≠ []) :
    (db.upsert command).WellFormed where
  distinct := nodup_keys_upsert wf.distinct command
  keyed entry mem := by
    rcases mem_put mem with rfl | mem
    · rfl
    · exact wf.keyed entry mem
  called entry mem := by
    rcases mem_put mem with rfl | mem
    · exact called
    · exact wf.called entry mem

theorem addArguments {db : Database} (wf : db.WellFormed) (extra : List String) :
    (db.addArguments extra).WellFormed where
  distinct := by rw [keys_addArguments]; exact wf.distinct
  keyed entry mem := by
    obtain ⟨before, old, rfl⟩ := List.mem_map.mp mem
    exact wf.keyed before old
  called entry mem := by
    obtain ⟨before, old, rfl⟩ := List.mem_map.mp mem
    exact addMissing_ne_nil (wf.called before old) extra

theorem ofEntries {db after : Database} (wf : db.WellFormed) {index : Nat} {entries : List Entry}
    (ok : db.ofEntries index entries = .ok after) : after.WellFormed := by
  induction entries generalizing db index with
  | nil => cases ok; exact wf
  | cons e rest ih =>
    rw [Database.ofEntries] at ok
    split at ok
    case h_1 => contradiction
    case h_2 taken => exact ih (wf.upsert (arguments_of_toCommand taken)) ok

/-- Every database that parses is well formed. -/
theorem ofJson {text : String} {db : Database} (ok : Database.ofJson text = .ok db) : db.WellFormed := by
  unfold Database.ofJson at ok
  split at ok
  case h_1 => contradiction
  case h_2 => exact empty.ofEntries ok

/-- A line of a build keeps it well formed. -/
theorem feed {s : Make.Session} (wf : s.database.WellFormed) (line : String) :
    (s.feed line).1.database.WellFormed := by
  rcases Make.Session.database_feed s line with same | ⟨command, called, recorded⟩
  · rw [same]
    exact wf
  · rw [recorded]
    exact wf.upsert called

end WellFormed

/-- The databases that come about from an empty one or a document by recording commands, adding arguments, and reading
lines in any session. -/
inductive Reachable : Database → Prop where
  | empty : Reachable .empty
  | ofJson {text : String} {db : Database} : Database.ofJson text = .ok db → Reachable db
  | upsert {db : Database} {command : Command} : Reachable db → command.arguments ≠ [] → Reachable (db.upsert command)
  | addArguments {db : Database} (extra : List String) : Reachable db → Reachable (db.addArguments extra)
  | feed {s : Make.Session} (line : String) : Reachable s.database → Reachable (s.feed line).1.database

/-- Every database that the program can come by is well formed. -/
theorem Reachable.wellFormed {db : Database} (reachable : Reachable db) : db.WellFormed := by
  induction reachable with
  | empty => exact .empty
  | ofJson ok => exact .ofJson ok
  | upsert _ called ih => exact ih.upsert called
  | addArguments extra _ ih => exact ih.addArguments extra
  | feed line _ ih => exact ih.feed line

end Database

end CompileDb
