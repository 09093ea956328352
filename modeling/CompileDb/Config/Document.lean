import CompileDb.Path
import CompileDb.FileTree
import CompileDb.Text
import CompileDb.Toml.Document

/-!
# Settings

How the build tool is called, and where the database is kept and what is added to it. Settings are kept as TOML: the
table `make` and the table `database`. What is not given has its standard value, and unknown keys do not matter. A table
may also be written as the list of its values, in the order of its keys; values beyond the known ones do not matter
either, and a date is taken as a table without a known key.
-/

namespace CompileDb

/-- How the build tool is called. -/
structure MakeSettings where
  program : String
  /-- The flags that turn a run into one that prints its commands. -/
  dryRunFlags : List String
  /-- The longest single wait for output, in milliseconds. -/
  pollInterval : Nat
deriving DecidableEq, Repr

/-- Where the database is kept, and what is added to every command in it. -/
structure DatabaseSettings where
  path : Path
  extraArguments : List String
deriving DecidableEq, Repr

/-- All settings. -/
structure Config where
  make : MakeSettings
  database : DatabaseSettings
deriving DecidableEq, Repr

/-- By default make runs one job at a time, keeps going, prints every command and announces every directory. -/
def MakeSettings.standard : MakeSettings := ⟨"make", ["-j1", "-knwB"], 50⟩

/-- By default nothing is added to the commands. -/
def DatabaseSettings.standard : DatabaseSettings := ⟨⟨"compile_commands.json"⟩, []⟩

/-- The settings that hold unless others are given. -/
def Config.standard : Config := ⟨.standard, .standard⟩

/-- The poll interval as whole seconds and the nanoseconds beyond them. -/
def MakeSettings.pollDuration (m : MakeSettings) : Nat × Nat :=
  (m.pollInterval / 1000, m.pollInterval % 1000 * 1000000)

/-! ## Documents -/

namespace Toml.Value

def text? : Value → Option String
  | text s => some s
  | _ => none

/-- The number of a value, if it is an integer and not negative. -/
def natural? : Value → Option Nat
  | integer n => if 0 ≤ n then some n.toNat else none
  | _ => none

/-- The texts of a value, if it is a list of texts. -/
def texts? : Value → Option (List String)
  | list items => items.mapM text?
  | _ => none

/-- The values of the keys `names` in a table that is written in one of its forms. -/
def fields? (names : List String) : Value → Option (List (Option Value))
  | table _ members => some (names.map (Members.get? members))
  | list items => some ((List.range names.length).map (items[·]?))
  | date => some (names.map fun _ => none)
  | tables elements => some ((List.range names.length).map fun i => elements.reverse[i]?.map (table .header))
  | _ => none

end Toml.Value

open Toml

/-- A value that is read if it is given, and has its standard value else. -/
def valueOr {α : Type} (standard : α) (read : Value → Option α) : Option Value → Option α
  | none => some standard
  | some v => read v

/-- The settings of the table `make`. -/
def MakeSettings.ofToml? (v : Value) : Option MakeSettings := do
  match ← v.fields? ["program", "dry_run_flags", "poll_interval_ms"] with
  | [program, flags, interval] =>
    return ⟨← valueOr standard.program Value.text? program, ← valueOr standard.dryRunFlags Value.texts? flags,
      ← valueOr standard.pollInterval Value.natural? interval⟩
  | _ => none

/-- The settings of the table `database`. -/
def DatabaseSettings.ofToml? (v : Value) : Option DatabaseSettings := do
  match ← v.fields? ["path", "extra_args"] with
  | [path, extra] =>
    return ⟨⟨← valueOr standard.path.text Value.text? path⟩, ← valueOr standard.extraArguments Value.texts? extra⟩
  | _ => none

/-- What went wrong with the settings. -/
inductive ConfigError where
  /-- The file cannot be read as text. -/
  | unreadable (path : Path)
  /-- The text is not TOML. -/
  | malformed (fault : Fault)
  /-- A setting is of the wrong type. -/
  | wrongType
deriving DecidableEq, Repr

namespace ConfigError

/-- The text shown to the user. -/
def message : ConfigError → String
  | unreadable path => s!"Failed to read config file {path.text}"
  | malformed fault => s!"Failed to parse TOML config: {fault.message}"
  | wrongType => "Failed to parse TOML config: a setting has the wrong type"

/-- The code under which the error is documented. -/
def code : ConfigError → String
  | unreadable _ => "makecdb::build::read_config"
  | _ => "makecdb::build::parse_config"

end ConfigError

namespace Config

/-- The settings of a document. -/
def ofToml (text : String) : Except ConfigError Config :=
  match Toml.read text with
  | .error f => .error (.malformed f)
  | .ok members =>
    match valueOr MakeSettings.standard MakeSettings.ofToml? (members.get? "make"),
      valueOr DatabaseSettings.standard DatabaseSettings.ofToml? (members.get? "database") with
    | some make, some database => .ok ⟨make, database⟩
    | _, _ => .error .wrongType

def ofFile (files : FileTree) (path : Path) : Except ConfigError Config :=
  match (files.read path).toOption.bind Text.decode? with
  | some text => ofToml text
  | none => .error (.unreadable path)

/-- The name of the file in which settings are looked for. -/
def fileName : Path := ⟨"makecdb.toml"⟩

/-- The settings of the given file, else of the file in the directory if there is one, else the standard ones. -/
def discover (files : FileTree) (given : Option Path) (directory : Path) : Except ConfigError Config :=
  match given with
  | some path => ofFile files path
  | none => if files.isFile (directory.join fileName) then ofFile files (directory.join fileName) else .ok standard

end Config

end CompileDb
