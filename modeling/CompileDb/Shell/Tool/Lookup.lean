import CompileDb.Shell.Field
import CompileDb.Shell.Option

/-!
# Looking up commands

What the name of a command stands for: a function, a tool of the shell, or a file. Also the tools that tell of this.
-/

namespace CompileDb.Shell

open Host

/-- A tool of the shell. -/
structure ToolKind where
  /-- Its failure ends the shell. -/
  isSpecial : Bool
  /-- Arguments that are settings are not cut into fields. -/
  takesSettings : Bool
deriving DecidableEq, Repr

def ordinaryTools : List String :=
  ["[", "alias", "bg", "cd", "chdir", "command", "echo", "false", "fg", "getopts", "hash", "jobs", "kill", "printf", "pwd",
    "read", "test", "true", "type", "ulimit", "umask", "unalias", "wait"]

def toolKind? (name : String) : Option ToolKind :=
  if specialTools.contains name then some ⟨true, name ∈ ["export", "local", "readonly"]⟩
  else if ordinaryTools.contains name then some ⟨false, name = "alias"⟩
  else none

/-- What the name of a command stands for. -/
inductive Found where
  | function (line : Nat) (body : Recipe)
  | tool (kind : ToolKind)
  /-- The program of a file. -/
  | file (path : String)
  | unknown (r : Refusal)

/-- The file of a program among the directories of a search. -/
def findFile (files : FileTree) (name : String) : List String → Refusal → Found
  | [], r => .unknown r
  | path :: rest, r =>
    match files.look (pathOf path) with
    | .ok (.file _ true) => .file path
    | .ok _ => findFile files name rest .denied
    | .error .missing => findFile files name rest r
    | .error .notDirectory => findFile files name rest r
    | .error o => findFile files name rest (.path o)

/-- What a name stands for. Functions count only if they are asked for. -/
def find (files : FileTree) (s : State) (search name : String) (withFunctions : Bool) : Found :=
  if name.toList.contains '/' then .file name
  else
    match (if withFunctions then s.functions.lookup name else none), toolKind? name with
    | some (line, body), _ => .function line body
    | none, some kind => .tool kind
    | none, none => findFile files name (candidates search name) (.path .missing)

/-- Why a command cannot be carried out, in words. -/
def commandMessage : Refusal → String
  | .path .missing => "not found"
  | .path .notDirectory => "not found"
  | r => r.message

/-- Remembers that the program of a name was found. -/
def track (name : String) : ShellAction Unit :=
  modify fun s => if s.tracked.contains name then s else { s with tracked := s.tracked ++ [name] }

/-- Looks up what a name stands for, and remembers programs. -/
def lookUp (search name : String) (withFunctions : Bool) : ShellAction Found := do
  let found := find (← onHost Action.files) (← get) search name withFunctions
  match found with
  | .file _ => if !name.toList.contains '/' then track name
  | _ => pure ()
  return found

namespace Tool

/-- Tells what a command stands for, in words or as it would be written. -/
def describe (search : Option String) (inWords : Bool) (name : String) : ShellAction Nat := do
  let s ← get
  let tell (words plain : String) : ShellAction Nat := do
    put ((if inWords then name ++ words else plain) ++ "\n")
    return 0
  if keywords.contains name then tell " is a shell keyword" name
  else
    match s.aliases.lookup name with
    | some value => tell s!" is an alias for {value}" s!"alias {name}={singleQuoted value}"
    | none =>
      let wasTracked := search.isNone && s.tracked.contains name
      match ← lookUp (search.getD s.search) name true with
      | .function .. => tell " is a shell function" name
      | .tool kind => tell (if kind.isSpecial then " is a special shell builtin" else " is a shell builtin") name
      | .file path =>
        if !name.toList.contains '/' || ((← onHost Action.files).look (pathOf path)).isOk then
          tell ((if wasTracked then " is a tracked alias for " else " is ") ++ path) path
        else notFound
      | .unknown _ => notFound
where
  /-- Nothing has this name. -/
  notFound : ShellAction Nat := do
    if inWords then put (name ++ ": not found\n")
    return 127

/-- Tells what commands stand for. -/
def types (arguments : List String) : ShellAction Nat := do
  let (_, names) ← optionsOf "" "" arguments
  let statuses ← names.mapM (describe none true)
  return if statuses.all (· = 0) then 0 else 127

/-- Looks up programs, or shows those that were found. -/
def hash (arguments : List String) : ShellAction Nat := do
  let (options, names) ← optionsOf "r" "" arguments
  let s ← get
  if !options.isEmpty then set { s with tracked := [] }
  else if names.isEmpty then
    let files ← onHost Action.files
    for name in State.inGroups 31 id s.tracked do
      match find files s s.search name false with
      | .file path => put (path ++ "\n")
      | _ => pure ()
  let missing ← names.filterM fun name => do
    match ← lookUp s.search name true with
    | .unknown r =>
      complain s!"{name}: {commandMessage r}"
      return true
    | _ => return false
  return if missing.isEmpty then 0 else 1

/-! ## Aliases -/

def showAlias (name value : String) : ShellAction Unit := put s!"{name}={singleQuoted value}\n"

def setAliases (arguments : List String) : ShellAction Nat := do
  if arguments.isEmpty then
    for (name, value) in State.inGroups 39 Prod.fst (← get).aliases do showAlias name value
  let missing ← arguments.filterM fun argument => do
    let s ← get
    match argument.splitOn "=" with
    | name :: v :: alue =>
      if name.isEmpty then showOne argument
      else
        let others := s.aliases.filter (·.1 ≠ name)
        set { s with aliases := others ++ [(name, "=".intercalate (v :: alue))] }
        return false
    | _ => showOne argument
  return if missing.isEmpty then 0 else 1
where
  /-- Shows one alias. The answer says whether it is missing. -/
  showOne (name : String) : ShellAction Bool := do
    match (← get).aliases.lookup name with
    | some value =>
      showAlias name value
      return false
    | none =>
      let _ ← writeOctets 2 s!"alias: {name} not found\n".toList
      return true

def unalias (arguments : List String) : ShellAction Nat := do
  let (options, names) ← optionsOf "a" "" arguments
  if !options.isEmpty then
    modify fun s => { s with aliases := [] }
    return 0
  let missing ← names.filterM fun name => do
    let s ← get
    set { s with aliases := s.aliases.filter (·.1 ≠ name) }
    if (s.aliases.lookup name).isNone then
      let _ ← writeOctets 2 s!"unalias: {name} not found\n".toList
      return true
    return false
  return if missing.isEmpty then 0 else 1

end Tool

end CompileDb.Shell
