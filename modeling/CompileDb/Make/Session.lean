import CompileDb.Database
import CompileDb.Make.Directories
import CompileDb.Make.Invocation

/-!
# Recording sessions

A session reads the lines of one make run in order. Announcements change the entered directories; compiler calls
are recorded in a database, under the innermost directory.
-/

namespace CompileDb.Make

/-- What a line means in the directories entered before it: the directories after it, and the command that it
records, if any. An announcement is followed before the line is read as a compiler call. -/
def Directories.read (d : Directories) (line : String) : Directories × Except LineError (Option Command) :=
  match d.track line with
  | .error e => (d, .error e)
  | .ok (_, after) =>
    match Invocation.ofLine? line with
    | none => (after, .ok none)
    | some call =>
      match after.current? with
      | none => (after, .error (.noDirectory ⟨call.file⟩))
      | some dir => (after, .ok (some (call.toCommand dir)))

/-- What is reported while a line is read. -/
def Directories.readEvents (d : Directories) (line : String) : List Event :=
  match d.track line with
  | .error _ => []
  | .ok (announcement, after) =>
    let followed := (announcement.map d.event).toList
    match (d.read line).2 with
    | .ok (some command) => followed ++ [⟨.info, s!"{after.indent} + {command.file.text}"⟩]
    | _ => followed

/-- One reading of make's output into a database. -/
structure Session where
  database : Database
  directories : Directories
  /-- How many calls were recorded, repeated ones counted each time. -/
  recorded : Nat
deriving DecidableEq, Repr

namespace Session

/-- A session that begins outside every directory. -/
def start (db : Database) : Session := ⟨db, .empty, 0⟩

/-- Reads one line. The answer is the key of the command that it records, if it records one. -/
def feed (s : Session) (line : String) : Session × Except LineError (Option Path) :=
  match s.directories.read line with
  | (directories, .error e) => ({ s with directories }, .error e)
  | (directories, .ok none) => ({ s with directories }, .ok none)
  | (directories, .ok (some command)) =>
    (⟨s.database.upsert command, directories, s.recorded + 1⟩, .ok (some command.key))

/-- Reads lines in order, going on after lines that fail. -/
def feedAll (s : Session) (lines : List String) : Session :=
  lines.foldl (fun s line => (s.feed line).1) s

end Session

end CompileDb.Make
