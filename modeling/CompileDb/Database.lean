import CompileDb.Path

/-!
# The compilation database

A command says how one source file is compiled. A database is an insertion-ordered map from keys to commands. Recording
a command for a key that is already there replaces the command and keeps its place, so the order of a database is stable
from one run to the next.
-/

namespace CompileDb

/-- One compiler call, its compiler first among the arguments. -/
structure Command where
  directory : Path
  file : Path
  arguments : List String
deriving DecidableEq, Inhabited, Repr

namespace Command

/-- The normal form of the file seen from the directory. A database holds one command for each key. -/
def key (c : Command) : Path :=
  (c.directory.join c.file).normalize

/-- The compiler that is called. -/
def compiler? (c : Command) : Option String :=
  c.arguments.head?

end Command

/-- Commands by key, in the order in which the keys first came. -/
structure Database where
  entries : List (Path × Command)
deriving DecidableEq, Repr

namespace Database

/-- The database with no command. -/
def empty : Database := ⟨[]⟩

/-- The keys, in order. -/
def keys (db : Database) : List Path := db.entries.map Prod.fst

/-- The commands, in order. -/
def commands (db : Database) : List Command := db.entries.map Prod.snd

/-- How many commands there are. -/
def size (db : Database) : Nat := db.entries.length

/-- Puts a command under a key: in the place of the one that is there, else at the end. -/
def put (key : Path) (command : Command) : List (Path × Command) → List (Path × Command)
  | [] => [(key, command)]
  | entry :: rest => if entry.1 = key then (key, command) :: rest else entry :: put key command rest

/-- A key that is there keeps its place, a new one comes last. -/
theorem map_fst_put (key : Path) (command : Command) (entries : List (Path × Command)) :
    (put key command entries).map Prod.fst =
      if key ∈ entries.map Prod.fst then entries.map Prod.fst else entries.map Prod.fst ++ [key] := by
  induction entries with
  | nil => simp [put]
  | cons entry rest ih =>
    by_cases h : entry.1 = key
    · simp [put, h]
    · have h' : key ≠ entry.1 := fun e => h e.symm
      simp only [put, h, if_false, List.map_cons, ih, List.mem_cons, h', false_or]
      split <;> simp

/-- Records a command under its own key. -/
def upsert (db : Database) (command : Command) : Database :=
  ⟨put command.key command db.entries⟩

/-- A new key goes to the end; a known one keeps its place. -/
theorem keys_upsert (db : Database) (command : Command) :
    (db.upsert command).keys = if command.key ∈ db.keys then db.keys else db.keys ++ [command.key] :=
  map_fst_put command.key command db.entries

/-- The command recorded for a path, in whatever spelling. -/
def get? (db : Database) (path : Path) : Option Command :=
  (db.entries.find? (·.1 = path.normalize)).map Prod.snd

/-- The arguments followed by those of `extra` that are not there yet. -/
def addMissing (arguments extra : List String) : List String :=
  extra.foldl (fun seen a => if seen.contains a then seen else seen ++ [a]) arguments

/-- Adds arguments to every command, except where it carries them already. -/
def addArguments (db : Database) (extra : List String) : Database :=
  ⟨db.entries.map fun entry => (entry.1, { entry.2 with arguments := addMissing entry.2.arguments extra })⟩

/-- Extra arguments neither add, remove nor move an entry. -/
@[simp] theorem keys_addArguments (db : Database) (extra : List String) : (db.addArguments extra).keys = db.keys := by
  simp [addArguments, keys]

end Database

end CompileDb
