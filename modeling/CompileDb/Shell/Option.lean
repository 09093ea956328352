import CompileDb.Shell.State

/-!
# Options

Options of the shell itself, which have a letter and mostly a name, and options of its tools.
-/

namespace CompileDb.Shell

/-- Text between apostrophes, to be read again by a shell. -/
def singleQuoted (text : String) : String :=
  .ofList (go text.length false [] text.toList)
where
  /-- The text from a place on. `run` holds the characters of a run that are not yet written, last one first, and
  `apostrophes` says of which kind they are. -/
  go : Nat → Bool → List Char → List Char → List Char
  | fuel + 1, apostrophes, run, c :: rest =>
    if (c == '\x27') == apostrophes then go fuel apostrophes (c :: run) rest
    else wrapped apostrophes run ++ go fuel (!apostrophes) [c] rest
  | _, apostrophes, run, _ => wrapped apostrophes run
  /-- A run between quotes. -/
  wrapped (apostrophes : Bool) (run : List Char) : List Char :=
    let quote := if apostrophes then '"' else '\x27'
    quote :: run.reverse ++ [quote]

def optionSign (on : Bool) : String := if on then "-" else "+"

def setOption (letter : Char) (on : Bool) : ShellAction Unit := do
  if optionNames.any (·.2 = some letter) then
    modify fun s =>
      let others := s.options.filter (· ≠ letter)
      { s with options := if on then letter :: others else others }
  else giveUp s!"Illegal option {optionSign on}{letter}"

/-- Turns an option on or off by its name, or shows all options. -/
def setNamedOption (on : Bool) : Option String → ShellAction Unit
  | some text => do
    match optionNames.lookup text with
    | some (some letter) => setOption letter on
    | some none => return
    | none => giveUp s!"Illegal option {optionSign on}o {text}"
  | none => do
    let s ← get
    let isOn (letter : Option Char) : Bool := letter.any s.hasOption
    if on then put "Current option settings\n"
    for (text, letter) in optionNames do
      if on then
        let blanks := String.ofList (List.replicate (16 - text.length) ' ')
        let setting := if isOn letter then "on" else "off"
        put s!"{text}{blanks}{setting}\n"
      else put s!"set {optionSign (isOn letter)}o {text}\n"

/-- Sets options by letters. The arguments after them come back, from which the named options are taken. -/
def setLetters (on : Bool) : List Char → List String → ShellAction (List String)
  | [], rest => return rest
  | 'o' :: letters, rest => do
    setNamedOption on rest.head?
    setLetters on letters rest.tail
  | letter :: letters, rest => do
    setOption letter on
    setLetters on letters rest

/-- Sets the options at the front of arguments. `fuel` is at least the number of arguments. The other arguments come back,
and whether they stand behind `--`. -/
def setOptions : Nat → List String → ShellAction (List String × Bool)
  | fuel + 1, argument :: rest =>
    match argument.toList with
    | ['-'] => do
      modify fun s => { s with options := s.options.filter fun c => c ≠ 'x' && c ≠ 'v' }
      return (rest, false)
    | ['-', '-'] => return (rest, true)
    | '-' :: letters => do setOptions fuel (← setLetters true letters rest)
    | '+' :: letters => do setOptions fuel (← setLetters false letters rest)
    | _ => return (argument :: rest, false)
  | _, arguments => return (arguments, false)

/-! ## Options of tools -/

/-- The letters at the front of an argument that is an option. Letters in `valued` have a value: what is left of the
argument, or the next one. -/
def letterOptions (known valued : String) :
    List Char → List String → List (Char × String) → ShellAction (List (Char × String) × List String)
  | [], rest, seen => return (seen, rest)
  | c :: letters, rest, seen => do
    if valued.toList.contains c then
      match letters, rest with
      | [], [] => giveUp s!"No arg for -{c} option"
      | [], value :: rest => return (seen ++ [(c, value)], rest)
      | letters, rest => return (seen ++ [(c, .ofList letters)], rest)
    else if known.toList.contains c then letterOptions known valued letters rest (seen ++ [(c, "")])
    else giveUp s!"Illegal option -{c}"

/-- The options at the front of the arguments of a tool, and the other arguments. `fuel` is at least the number of
arguments. -/
def toolOptions (known valued : String) :
    Nat → List (Char × String) → List String → ShellAction (List (Char × String) × List String)
  | fuel + 1, seen, argument :: rest =>
    match argument.toList with
    | ['-', '-'] => return (seen, rest)
    | '-' :: c :: letters => do
      let (seen, rest) ← letterOptions known valued (c :: letters) rest seen
      toolOptions known valued fuel seen rest
    | _ => return (seen, argument :: rest)
  | _, seen, arguments => return (seen, arguments)

def optionsOf (known valued : String) (arguments : List String) : ShellAction (List (Char × String) × List String) :=
  toolOptions known valued arguments.length [] arguments

end CompileDb.Shell
