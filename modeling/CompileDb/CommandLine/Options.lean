import CompileDb.Log
import CompileDb.Path

/-!
# Options

The first arguments are options of this program, the rest belong to make. The options end at `--`, which is dropped,
or at the first argument that is no option, which is kept for make. The value of an option that takes one may be any
text.

The options are read from left to right. An option that awaits its value is settled by the argument that stands next, or
else by the next option or the end, which find its value missing. Conflicts between different options come to light at
the end.
-/

/-! ## The two parts of a command line -/

namespace CompileDb.CommandLine

/-- Options with a value, which is the next argument or follows an equals sign. -/
def valueOptions : List String := ["--output", "--config", "--make"]

/-- Options without a value. -/
def flagOptions : List String :=
  ["-n", "--dry-run", "--build", "--verbose", "--quiet", "-h", "--help", "--version"]

/-- Options that add an argument to every command. Their value is the next argument or follows at once. -/
def extraOptions : List String := ["-I", "-D", "-W"]

/-- Where the options end. -/
def separator : String := "--"

/-- The next argument is the value of this one. -/
def takesNext (arg : String) : Bool :=
  extraOptions.contains arg || valueOptions.contains arg

/-- The argument is an option of this program and holds its value, if it has one. -/
def isComplete (arg : String) : Bool :=
  flagOptions.contains arg || extraOptions.any (fun o => o.toList.isPrefixOf arg.toList) ||
    valueOptions.any fun o => (o.toList ++ ['=']).isPrefixOf arg.toList

/-- The options of this program and the arguments of make. -/
def split : List String → List String × List String
  | [] => ([], [])
  | [arg] =>
    if arg = separator then ([], [])
    else if takesNext arg || isComplete arg then ([arg], [])
    else ([], [arg])
  | arg :: value :: rest =>
    if arg = separator then ([], value :: rest)
    else if takesNext arg then
      let (own, make) := split rest
      (arg :: value :: own, make)
    else if isComplete arg then
      let (own, make) := split (value :: rest)
      (arg :: own, make)
    else ([], arg :: value :: rest)

/-! ## Reading options -/

/-- What the user asks for. -/
structure Options where
  dryRun : Bool
  includes : List String
  defines : List String
  warnings : List String
  output : Option Path
  config : Option Path
  make : Option String
  build : Bool
  /-- How often more logging was asked for, up to 255 times. -/
  verbose : Nat
  quiet : Bool
  /-- What is left for make. -/
  makeArguments : List String
deriving DecidableEq, Repr

/-- Why the command line leads to no run. -/
inductive Refusal where
  | help
  | version
  /-- Two options exclude each other, or one stands twice. -/
  | conflict
  /-- A value is missing or empty. -/
  | invalidValue
  /-- An argument is no option. -/
  | unknown
  /-- A flag is given a value. -/
  | surplusValue
deriving DecidableEq, Repr

/-- The exit code of a refused command line. Help and version were asked for. -/
def Refusal.exitCode : Refusal → Nat
  | help => 0
  | version => 0
  | _ => 2

/-- An option with a value. -/
inductive Valued where
  | output
  | config
  | make
  | searchDir
  | define
  | warning
deriving DecidableEq, Repr

namespace Valued

/-- Any next argument is the value, even one that begins with a hyphen. -/
def takesAnything : Valued → Bool
  | searchDir => true
  | define => true
  | warning => true
  | _ => false

end Valued

/-- A flag. -/
inductive Flag where
  | dryRun
  | build
  | verbose
  | quiet
  | help
  | version
deriving DecidableEq, Repr

namespace Options

/-- The options of an empty command line. -/
def empty : Options := ⟨false, [], [], [], none, none, none, false, 0, false, []⟩

/-- Sets an option to a value. Only the ones that add arguments may stand more than once, and a path is not empty. -/
def set (o : Options) (option : Valued) (value : String) : Except Refusal Options :=
  let path (old : Option Path) (new : Options) : Except Refusal Options :=
    if old.isSome then .error .conflict else if value.isEmpty then .error .invalidValue else .ok new
  match option with
  | .output => path o.output { o with output := some ⟨value⟩ }
  | .config => path o.config { o with config := some ⟨value⟩ }
  | .make => if o.make.isSome then .error .conflict else .ok { o with make := some value }
  | .searchDir => .ok { o with includes := o.includes ++ [value] }
  | .define => .ok { o with defines := o.defines ++ [value] }
  | .warning => .ok { o with warnings := o.warnings ++ [value] }

/-- Sets a flag. Only the one for more logging may stand more than once. -/
def raise (o : Options) (flag : Flag) : Except Refusal Options :=
  let once (old : Bool) (new : Options) : Except Refusal Options := if old then .error .conflict else .ok new
  match flag with
  | .dryRun => once o.dryRun { o with dryRun := true }
  | .build => once o.build { o with build := true }
  | .quiet => once o.quiet { o with quiet := true }
  | .verbose => .ok { o with verbose := min (o.verbose + 1) 255 }
  | .help => .error .help
  | .version => .error .version

/-- What is added to every command: the configured arguments, then those of the options. -/
def extraArguments (o : Options) (configured : List String) : List String :=
  configured ++ o.includes.map ("-I" ++ ·) ++ o.defines.map ("-D" ++ ·) ++ o.warnings.map ("-W" ++ ·)

/-- The least level that is reported. -/
def logLevel (o : Options) : Level :=
  if o.quiet then .warn
  else
    match o.verbose with
    | 0 => .info
    | 1 => .debug
    | _ => .trace

end Options

/-- The options read so far. -/
structure Reading where
  options : Options
  /-- The option whose value is not settled, with its value if that has been met. -/
  pending : Option (Valued × Option String)
  /-- No further option is expected. -/
  trailing : Bool

namespace Reading

/-- Nothing has been read. -/
def start : Reading := ⟨.empty, none, false⟩

/-- Settles the pending option. -/
def settle (r : Reading) : Except Refusal Reading :=
  match r.pending with
  | none => .ok r
  | some (_, none) => .error .invalidValue
  | some (option, some value) => (r.options.set option value).map fun options => ⟨options, none, r.trailing⟩

/-- An option that holds its value. -/
def give (r : Reading) (option : Valued) (value : String) : Except Refusal Reading := do
  let r ← r.settle
  return { r with options := ← r.options.set option value }

/-- An option that awaits its value. -/
def await (r : Reading) (option : Valued) : Except Refusal Reading := do
  return { ← r.settle with pending := some (option, none) }

def raise (r : Reading) (flag : Flag) : Except Refusal Reading := do
  let r ← r.settle
  return { r with options := ← r.options.raise flag }

/-- The option with this long name. -/
def longOption? : String → Option (Valued ⊕ Flag)
  | "output" => some (.inl .output)
  | "config" => some (.inl .config)
  | "make" => some (.inl .make)
  | "dry-run" => some (.inr .dryRun)
  | "build" => some (.inr .build)
  | "verbose" => some (.inr .verbose)
  | "quiet" => some (.inr .quiet)
  | "help" => some (.inr .help)
  | "version" => some (.inr .version)
  | _ => none

def letterOption? : Char → Option (Valued ⊕ Flag)
  | 'I' => some (.inl .searchDir)
  | 'D' => some (.inl .define)
  | 'W' => some (.inl .warning)
  | 'n' => some (.inr .dryRun)
  | 'h' => some (.inr .help)
  | _ => none

/-- A long option, without its hyphens. -/
def long (r : Reading) (body : List Char) : Except Refusal Reading :=
  let value := (body.dropWhile (· != '=')).tail?
  match longOption? (String.ofList (body.takeWhile (· != '='))), value with
  | none, _ => .error .unknown
  | some (.inl option), some value => r.give option (String.ofList value)
  | some (.inl option), none => r.await option
  | some (.inr flag), none => r.raise flag
  | some (.inr _), some _ => .error .surplusValue

/-- Options by their letters, without the hyphen. What follows the letter of an option with a value is its value; one
equals sign may stand between them. -/
def letters (r : Reading) : List Char → Except Refusal Reading
  | [] => .ok r
  | c :: rest =>
    match letterOption? c with
    | none => .error .unknown
    | some (.inr flag) =>
      match r.raise flag with
      | .error e => .error e
      | .ok r => letters r rest
    | some (.inl option) =>
      match rest with
      | [] => r.await option
      | '=' :: value => r.give option (String.ofList value)
      | value => r.give option (String.ofList value)

/-- An argument that is no value of an option that takes anything. -/
def argument (r : Reading) (arg : String) : Except Refusal Reading :=
  match arg.toList with
  | ['-', '-'] => .ok { r with trailing := true }
  | '-' :: '-' :: body => r.long body
  | '-' :: c :: rest => r.letters (c :: rest)
  | _ =>
    match r.pending with
    | some (option, none) => .ok { r with pending := some (option, some arg) }
    | _ => .error .unknown

def push (r : Reading) (arg : String) : Except Refusal Reading :=
  if r.trailing then .error .unknown
  else
    match r.pending with
    | some (option, none) =>
      if option.takesAnything then .ok { r with pending := some (option, some arg) } else r.argument arg
    | _ => r.argument arg

/-- The options at the end of the command line. -/
def finish (r : Reading) : Except Refusal Options := do
  let r ← r.settle
  if r.options.quiet ∧ 0 < r.options.verbose then throw .conflict
  return r.options

end Reading

/-- The options of a command line, without the program's name. -/
def Options.parse (arguments : List String) : Except Refusal Options := do
  let (own, make) := split arguments
  let r ← own.foldlM Reading.push Reading.start
  return { ← r.finish with makeArguments := make }

end CompileDb.CommandLine
