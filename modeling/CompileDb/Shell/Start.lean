import CompileDb.Shell.Evaluate

/-!
# Starting shells

What a shell does with its invocation: its variables are those it is given, its options stand before its other arguments,
and its commands are those of an argument, of a file, or those that it reads.
-/

namespace CompileDb.Shell

open Host

/-- Where a shell finds its commands. -/
inductive CommandSource where
  | text (t : String)
  | file (path : String)
  | input

/-- The steps that a shell may take, which are more than it ever takes. -/
def stepLimit : Nat := Nat.pow 2 48

def startVariables (given : List (String × String)) (directory : String) (parent : Nat) : List Variable :=
  let usual : List (String × String) :=
    [("PATH", standardSearch), ("IFS", " \t\n"), ("OPTIND", "1"), ("PS1", "# "), ("PS2", "> "), ("PS4", "+ "),
      ("PPID", toString parent)]
  let fixed := ["IFS", "OPTIND", "PPID", "PWD"]
  let taken := given.filter fun (n, _) => isName n.toList && !fixed.contains n
  let missing := usual.filter fun (n, _) => (taken.lookup n).isNone
  taken.map (fun (n, v) => ⟨n, some v, true, false⟩) ++ missing.map (fun (n, v) => ⟨n, some v, false, false⟩) ++
    [⟨"PWD", some directory, true, false⟩]

/-- The working directory as a shell is told of it, if that is right. -/
def startDirectory (files : FileTree) (told : Option String) : String :=
  match told with
  | some d =>
    if d.toList.head? = some '/' && (files.locate (pathOf d)).toOption = some files.home then d
    else Text.octets files.homePath.text
  | none => Text.octets files.homePath.text

/-- The state of a shell that has just been started. -/
def State.start (load : Loader) (inv : Invocation) (files : FileTree) (number parent : Nat) : State :=
  let directory := startDirectory files (inv.environment.lookup "PWD")
  { load
    name := inv.name
    positional := []
    bindings := startVariables inv.environment directory parent
    functions := []
    aliases := []
    options := []
    status := 0
    outputStatus := 0
    line := 0
    complaintLine := 0
    tool := none
    jobs := []
    background := none
    number
    traps := []
    signals := []
    kept := none
    skip := none
    loopDepth := 0
    functionLine := 0
    locals := []
    directory
    optionIndex := 1
    optionOffset := 0
    mask := 18
    tracked := []
    limits := []
    pending := []
    redirected := []
    documents := []
    nextDocument := 0
    tracing := false }

/-- Sets the options at the front of a shell's arguments. `fuel` is at least the number of arguments. The other arguments
come back, and whether the first of them is a text of commands. -/
def startOptions : Nat → Bool → List String → ShellAction (List String × Bool)
  | fuel + 1, isText, argument :: rest =>
    match argument.toList with
    | ['-'] => return (rest, isText)
    | ['-', '-'] => return (rest, isText)
    | '-' :: letters => do
      let rest ← setLetters true (letters.filter fun c => c ≠ 'c' && c ≠ 'l') rest
      startOptions fuel (isText || letters.contains 'c') rest
    | '+' :: letters => do startOptions fuel isText (← setLetters false letters rest)
    | _ => return (argument :: rest, isText)
  | _, isText, arguments => return (arguments, isText)

/-- Takes the source of commands from the arguments of a shell, with the name and the positional parameters. -/
def takeSource (arguments : List String) : ShellAction CommandSource := do
  let (rest, isText) ← startOptions arguments.length false arguments
  let readsInput := (← get).hasOption 's' || rest.isEmpty
  match isText, rest with
  | true, [] => giveUp "-c requires an argument"
  | true, text :: others =>
    modify fun s => { s with name := others.headD s.name, positional := others.tail }
    return .text text
  | false, others =>
    if readsInput then
      modify fun s => { s with positional := others, options := 's' :: s.options.filter (· ≠ 's') }
      return .input
    else
      match others with
      | [] => return .input
      | file :: others =>
        modify fun s => { s with positional := others }
        return .file file

def startAction (arguments : List String) : ShellAction Nat := do
  match ← takeSource arguments with
  | .text t => runText stepLimit .plain t.toList
  | .input => runText stepLimit .plain (Text.widen (← readLeft 0))
  | .file path =>
    let d ← openOrGiveUp path .read
    modify fun s => { s with name := path }
    let bytes ← readLeft d
    onHost (Action.close d)
    runText stepLimit .plain (Text.widen bytes)

def program (load : Loader) (inv : Invocation) : Program :=
  let action : Action Nat := do
    let number ← Action.ownNumber
    let parent ← Action.parentNumber
    let files ← Action.files
    let (result, _) ← ((concluded stepLimit (startAction inv.arguments)).run).run (.start load inv files number parent)
    return result.toOption.getD 2
  action .exit

end CompileDb.Shell
