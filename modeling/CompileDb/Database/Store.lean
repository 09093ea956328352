import CompileDb.Database
import CompileDb.Database.Entry
import CompileDb.FileTree
import CompileDb.Text

/-!
# Databases in documents and files

A database as JSON is a list of objects, one for each command, in the order of the keys. A file that is not there holds
the empty database.
-/

namespace CompileDb

/-! ## Errors -/

/-- What went wrong with a database. -/
inductive DatabaseError where
  /-- The file is there but cannot be read as text. -/
  | unreadable (path : Path)
  /-- The file cannot be written. -/
  | unwritable (path : Path)
  /-- The text of a file is no document of entries. -/
  | malformedFile (path : Path) (fault : Json.Fault)
  /-- A text is no document of entries. -/
  | malformed (fault : Json.Fault)
  /-- An entry cannot be used. -/
  | invalidEntry (index : Nat) (fault : EntryFault)
deriving DecidableEq, Repr

namespace DatabaseError

/-- The text shown to the user. -/
def message : DatabaseError → String
  | unreadable path => s!"Failed to read compilation database {path.text}"
  | unwritable path => s!"Failed to write compilation database {path.text}"
  | malformedFile path _ => s!"Failed to parse compilation database {path.text}"
  | malformed fault => s!"Invalid compilation database JSON: {fault.message}"
  | invalidEntry index fault => s!"Invalid entry #{index} in compilation database: {fault.reason}"

/-- The code under which the error is documented. -/
def code : DatabaseError → String
  | unreadable _ => "makecdb::build::read_database"
  | unwritable _ => "makecdb::build::write_database"
  | malformedFile .. => "makecdb::build::parse_database"
  | malformed _ => "makecdb::build::json"
  | invalidEntry .. => "makecdb::build::invalid_entry"

/-- What the user can do about it. -/
def help? : DatabaseError → Option String
  | malformedFile .. => some "fix or delete the file; it is regenerated from the build output"
  | _ => none

/-- The fault of the document, if there is one. -/
def documentFault? : DatabaseError → Option Json.Fault
  | malformedFile _ fault => some fault
  | malformed fault => some fault
  | _ => none

/-- The same error of a text that came from a file. -/
def inFile (path : Path) : DatabaseError → DatabaseError
  | malformed fault => malformedFile path fault
  | e => e

end DatabaseError

namespace Database

/-! ## Writing -/

/-- Blanks at the start of a line at this depth. -/
def indentation (depth : Nat) : List Char := List.replicate (2 * depth) ' '

/-- Items between brackets, each on a line of its own and one level deeper; no line for no item. -/
def block (opening closing : Char) (depth : Nat) : List (List Char) → List Char
  | [] => [opening, closing]
  | item :: items =>
    opening :: '\n' :: indentation (depth + 1) ++ item ++
      items.flatMap (fun i => ',' :: '\n' :: indentation (depth + 1) ++ i) ++
      '\n' :: indentation depth ++ [closing]

/-- A member of an object. -/
def member (name : String) (value : List Char) : List Char :=
  Json.quote name ++ ':' :: ' ' :: value

/-- A command as an object in the list of commands. -/
def commandText (c : Command) : List Char :=
  block '\x7b' '\x7d' 1
    [member "directory" (Json.quote c.directory.text), member "file" (Json.quote c.file.text),
      member "arguments" (block '[' ']' 2 (c.arguments.map Json.quote))]

/-- The document of a database. -/
def toJson (db : Database) : String :=
  String.ofList (block '[' ']' 0 (db.commands.map commandText))

/-! ## Reading -/

/-- Records the entries in order, up to the first that is wrong. `index` is the number of the first. -/
def ofEntries (db : Database) (index : Nat) : List Entry → Except DatabaseError Database
  | [] => .ok db
  | e :: rest =>
    match e.toCommand with
    | .error f => .error (.invalidEntry index f)
    | .ok c => ofEntries (db.upsert c) (index + 1) rest

/-- The database of a document. -/
def ofJson (text : String) : Except DatabaseError Database :=
  match Entry.readAll text with
  | .error f => .error (.malformed f)
  | .ok entries => ofEntries .empty 0 entries

/-! ## Files -/

/-- The database of a file. -/
def load (files : FileTree) (path : Path) : Except DatabaseError Database :=
  match files.read path with
  | .error .missing => .ok .empty
  | .error _ => .error (.unreadable path)
  | .ok bytes =>
    match Text.decode? bytes with
    | none => .error (.unreadable path)
    | some text => (ofJson text).mapError (·.inFile path)

/-- The text of a database file: the document and the end of its last line. -/
def fileText (db : Database) : String := db.toJson ++ "\n"

/-- Writes a database to a file, with room for all of it. -/
def store (db : Database) (files : FileTree) (path : Path) : Except DatabaseError FileTree :=
  (files.write path (Text.encode db.fileText)).mapError fun _ => .unwritable path

/-- Writes a database to a file, with room for so many bytes, if not for all. -/
def storeWithin (db : Database) (room : Option Nat) (files : FileTree) (path : Path) :
    FileTree × Option DatabaseError :=
  let (after, obstacle) := files.writeWithin room path (Text.encode db.fileText)
  (after, obstacle.map fun _ => .unwritable path)

end Database

end CompileDb
