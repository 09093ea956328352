import CompileDb.Shell.Field
import CompileDb.Shell.Option

/-!
# Tools for variables

Tools of the shell that set, mark, show and forget variables and positional parameters.
-/

namespace CompileDb.Shell.Tool

open Host

/-- Gives up unless a text is a name that a variable may have. -/
def checkName (text : String) : ShellAction Unit := do
  let name := String.ofList (text.toList.takeWhile (· ≠ '='))
  if !isName name.toList then giveUp s!"{name}: bad variable name"

/-- Shows variables in order, so that a shell could read them again. -/
def showVariables (before : String) (shown : Variable → Bool) : ShellAction Unit := do
  let chosen := ((← get).bindings.filter shown).mergeSort fun v w => v.name ≤ w.name
  for v in chosen do
    let value := match v.value with
      | some t => "=" ++ singleQuoted t
      | none => ""
    put s!"{before}{v.name}{value}\n"

/-- Marks a variable to be exported or to keep its value, and sets it if the argument has a value. -/
def markVariable (keeps : Bool) (argument : String) : ShellAction Unit := do
  let mark (v : Variable) : Variable := if keeps then { v with readonly := true } else { v with exported := true }
  match argument.splitOn "=" with
  | [] => return
  | [name] =>
    let s ← get
    if (s.find? name).isNone then checkName name
    set (s.putVariable (mark ((s.find? name).getD ⟨name, none, false, false⟩)))
  | name :: value =>
    checkName argument
    setVariable name ("=".intercalate value) false
    modify fun s => (s.find? name).elim s fun v => s.putVariable (mark v)

def markVariables (keeps : Bool) (arguments : List String) : ShellAction Nat := do
  let (options, arguments) ← optionsOf "p" "" arguments
  if options.isEmpty && !arguments.isEmpty then
    for argument in arguments do markVariable keeps argument
  else
    let word := if keeps then "readonly " else "export "
    showVariables word fun v => if keeps then v.readonly else v.exported
  return 0

/-- Makes variables local to a function. -/
def makeLocal (arguments : List String) : ShellAction Nat := do
  if (← get).locals.isEmpty then giveUp "not in a function"
  for argument in arguments do
    match argument.splitOn "=" with
    | name :: v :: alue =>
      keepLocal name
      setVariable name ("=".intercalate (v :: alue)) false
    | _ => keepLocal argument
  return 0

def unsetVariable (name : String) : ShellAction Unit := do
  checkName name
  let s ← get
  if (s.find? name).any (·.readonly) then giveUp s!"{name}: is read only"
  set { s with bindings := s.bindings.filter (·.name ≠ name) }

/-- Forgets variables or functions. -/
def unset (arguments : List String) : ShellAction Nat := do
  let (options, names) ← optionsOf "vf" "" arguments
  let ofFunctions := options.getLast?.any (·.1 = 'f')
  for name in names do
    if ofFunctions then modify fun s => { s with functions := s.functions.filter (·.1 ≠ name) }
    else unsetVariable name
  return 0

def setParameters (values : List String) : ShellAction Unit :=
  modify fun s => { s with positional := values, optionIndex := 1, optionOffset := 0 }

/-- Sets options and positional parameters, or shows all variables. -/
def setAny (arguments : List String) : ShellAction Nat := do
  if arguments.isEmpty then showVariables "" fun v => v.value.isSome
  else
    let (values, behindDashes) ← setOptions arguments.length arguments
    if behindDashes || !values.isEmpty then setParameters values
  return 0

/-- Drops positional parameters. -/
def shift (arguments : List String) : ShellAction Nat := do
  let n ← match arguments with
    | [] => pure 1
    | text :: _ => numberArgument text
  let s ← get
  if s.positional.length < n then giveUp "can\x27t shift that many"
  setParameters (s.positional.drop n)
  return 0

/-! ## Options of scripts -/

/-- What the next option is. -/
inductive Found where
  /-- No option is left. -/
  | nothing
  | option (letter : Char) (value : Option String)
  /-- An option that is not asked for. -/
  | unknown (letter : Char)
  /-- An option without the value it should have. -/
  | lacking (letter : Char)

/-- Whether an option is asked for, and whether it should have a value. -/
def asked (letter : Char) : List Char → Option Bool
  | c :: ':' :: rest => if c = letter then some true else asked letter rest
  | c :: rest => if c = letter then some false else asked letter rest
  | [] => none

/-- The option that begins with a letter, behind which `letters` and `next` stand. The argument in which options go on
comes back, and the place in the one before it. -/
def foundOption (wanted : List Char) (index offset : Nat) (letter : Char) (letters : List Char) (next : Option String) :
    Found × Nat × Nat :=
  match asked letter wanted with
  | none => (.unknown letter, index, offset)
  | some false => (.option letter none, index, offset)
  | some true =>
    if !letters.isEmpty then (.option letter (some (.ofList letters)), index, 0)
    else
      match next with
      | some value => (.option letter (some value), index + 1, 0)
      | none => (.lacking letter, index, offset)

/-- Finds the next option of arguments. `index` is the argument in which it is looked for, counted from one; if `offset`
is not zero, options go on at that place of the argument before. -/
def findOption (wanted : List Char) (arguments : List String) (index offset : Nat) : Found × Nat × Nat :=
  let current := if index ≤ 1 ∨ offset = 0 then [] else ((arguments[index - 2]?).getD "").toList.drop offset
  match current with
  | c :: letters => foundOption wanted index (offset + 1) c letters arguments[index - 1]?
  | [] =>
    match (arguments[index - 1]?).map String.toList with
    | some ['-', '-'] => (.nothing, index + 1, 0)
    | some ('-' :: c :: letters) => foundOption wanted (index + 1) 2 c letters arguments[index]?
    | _ => (.nothing, index, 0)

/-- Sets a variable to the next option of a script. -/
def nextOption (arguments : List String) : ShellAction Nat := do
  match arguments with
  | wanted :: target :: given =>
    let s ← get
    let searched := if given.isEmpty then s.positional else given
    let (index, offset) := if searched.length + 1 < s.optionIndex then (1, 0) else (s.optionIndex, s.optionOffset)
    let isQuiet := wanted.toList.head? = some ':'
    let (found, index, offset) := findOption wanted.toList searched index offset
    let letter ← match found with
      | .nothing => pure '?'
      | .option letter value =>
        setVariable "OPTARG" (value.getD "") false
        pure letter
      | .unknown letter =>
        if isQuiet then setVariable "OPTARG" (.singleton letter) false
        else
          let _ ← writeOctets 2 s!"Illegal option -{letter}\n".toList
          unsetVariable "OPTARG"
        pure '?'
      | .lacking letter =>
        if isQuiet then
          setVariable "OPTARG" (.singleton letter) false
          pure ':'
        else
          let _ ← writeOctets 2 s!"No arg for -{letter} option\n".toList
          unsetVariable "OPTARG"
          pure '?'
    setVariable "OPTIND" (toString index) false
    checkName target
    setVariable target (.singleton letter) false
    modify fun s => { s with optionIndex := index, optionOffset := offset }
    return match found with
      | .nothing => 1
      | _ => 0
  | _ => giveUp "Usage: getopts optstring var [arg...]"

/-! ## Reading variables -/

/-- What a line holds as it is read, last item first. With `escapes`, a backslash takes away the meaning of the character
after it, and joins lines. The answer says whether the line was ended. -/
def readLine (escapes : Bool) : Nat → List Item → ShellAction (List Item × Bool)
  | 0, seen => return (seen, false)
  | fuel + 1, seen => do
    match ← onHost (Action.read 0 .line) with
    | .error _ => return (seen, false)
    | .ok [] => return (seen, false)
    | .ok bytes =>
      let (seen, ended, joins) := (Text.widen bytes).foldl takeOctet (seen, false, false)
      if ended then return (seen, true)
      else if joins then readLine escapes fuel (seen.drop 1)
      else readLine escapes fuel seen
where
  /-- Takes an octet. The last flag says that a backslash stands before it, which is the first item. -/
  takeOctet : List Item × Bool × Bool → Char → List Item × Bool × Bool
    | (seen, ended, afterBackslash), c =>
      if c = '\x00' then (seen, ended, afterBackslash)
      else if afterBackslash then
        if c = '\n' then (.value false :: seen.drop 1, ended, false)
        else (.value false :: .char c true :: seen.drop 1, ended, false)
      else if c = '\n' then (seen, true, false)
      else if c = '\\' && escapes then (.mark :: seen, ended, true)
      else (.loose c :: seen, ended, false)

/-- Sets variables to the fields of a line. -/
def readVariables (arguments : List String) : ShellAction Nat := do
  let (options, names) ← optionsOf "r" "p" arguments
  if names.isEmpty then giveUp "arg count"
  let (items, ended) ← readLine (!options.any (·.1 = 'r')) (Nat.pow 2 32) [.value false]
  let values := fields (← get).separators (some names.length) items.reverse
  for (name, value) in names.zip ((values.map fun f => String.ofList (f.map Prod.fst)) ++ names.map fun _ => "") do
    checkName name
    setVariable name value false
  return if ended then 0 else 1

end CompileDb.Shell.Tool
