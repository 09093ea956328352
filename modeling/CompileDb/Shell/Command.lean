import CompileDb.Shell.Condition
import CompileDb.Shell.Printing
import CompileDb.Shell.Tool.Lookup
import CompileDb.Shell.Tool.Place
import CompileDb.Shell.Tool.Process
import CompileDb.Shell.Tool.Variables

/-!
# Simple commands

What simple commands do that do not carry out recipes themselves: tools of the shell, and programs that take its place.
-/

namespace CompileDb.Shell

open Host

namespace Tool

/-- Tells what a condition is worth. -/
def test (bracketed : Bool) (arguments : List String) : ShellAction Nat := do
  match Condition.status (← onHost Action.files) bracketed arguments with
  | .ok status => return status
  | .error message => giveUp message

def print (arguments : List String) : ShellAction Nat := do
  let (_, arguments) ← optionsOf "" "" arguments
  match arguments with
  | [] => giveUp "usage: printf format [arg ...]"
  | format :: arguments =>
    let p := printf false format arguments
    modify fun s => { s with pending := p.octets ++ s.pending }
    for (argument, fault) in p.faults do
      complain s!"{argument}: {explain fault}"
    match p.fault with
    | some (.invalid directive) => giveUp s!"{directive}: invalid directive"
    | some .incomplete => giveUp "missing format character"
    | none => return if p.faults.isEmpty then 0 else 1
where
  /-- What is wrong with an argument. -/
  explain : ArgumentFault → String
    | .notNumber => "expected numeric value"
    | .partly => "not completely converted"
    | .tooLarge => "Numerical result out of range"

def leaveLoops (again : Bool) (arguments : List String) : ShellAction Nat := do
  let n ← match arguments with
    | [] => pure 1
    | text :: _ => do
      let n ← numberArgument text
      if n = 0 then giveUp s!"Illegal number: {text}"
      pure n
  modify fun s =>
    match min n s.loopDepth with
    | 0 => s
    | n => { s with skip := some (if again then .repeats n else .leaves n) }
  return 0

def leaveFunction (arguments : List String) : ShellAction Nat := do
  let status ← match arguments with
    | [] => pure (← get).status
    | text :: _ => numberArgument text
  modify fun s => { s with skip := some .returns }
  return status

def exit (arguments : List String) : ShellAction Nat := do
  match arguments with
  | [] => pure ()
  | text :: _ =>
    let n ← numberArgument text
    modify fun s => { s with kept := some n }
  throw .exit

/-- Tells what a command stands for, if that is asked for. -/
def command (arguments : List String) : ShellAction Nat := do
  let (options, names) ← optionsOf "pvV" "" arguments
  let search := if options.any (·.1 = 'p') then some standardSearch else none
  match (options.filter (·.1 ≠ 'p')).getLast?, names with
  | some (letter, _), name :: _ => describe search (letter = 'V') name
  | _, _ => return 0

/-- What a tool does that carries out no recipe. -/
def run (name : String) (arguments : List String) : ShellAction Nat :=
  match name with
  | ":" => return 0
  | "true" => return 0
  | "false" => return 1
  | "[" => test true arguments
  | "test" => test false arguments
  | "echo" => do
    put (.ofList (echo arguments))
    return 0
  | "printf" => print arguments
  | "break" => leaveLoops false arguments
  | "continue" => leaveLoops true arguments
  | "return" => leaveFunction arguments
  | "exit" => exit arguments
  | "command" => command arguments
  | "alias" => setAliases arguments
  | "unalias" => unalias arguments
  | "type" => types arguments
  | "hash" => hash arguments
  | "cd" => changeDirectory arguments
  | "chdir" => changeDirectory arguments
  | "pwd" => showDirectory arguments
  | "umask" => fileMask arguments
  | "ulimit" => limit arguments
  | "times" => times
  | "export" => markVariables false arguments
  | "readonly" => markVariables true arguments
  | "local" => makeLocal arguments
  | "set" => setAny arguments
  | "unset" => unset arguments
  | "shift" => shift arguments
  | "getopts" => nextOption arguments
  | "read" => readVariables arguments
  | "kill" => kill arguments
  | "jobs" => showJobs arguments
  | "trap" => trap arguments
  | "wait" => wait arguments do
    let new ← onHost Action.caught
    modify fun s => { s with signals := s.signals ++ new }
    return new.getLast?.getD 0
  | "fg" => resume arguments
  | "bg" => resume arguments
  | _ => return 0

end Tool

/-! ## Programs -/

/-- The status when a program cannot be carried out. -/
def refusedStatus : Refusal → Nat
  | .path .missing => 127
  | .path .notDirectory => 127
  | .path .endlessLinks => 127
  | .path .tooLong => 127
  | _ => 126

/-- Takes the place of the shell with a program. A file that is executable but no program is a script of the shell. If that
is not possible, the status comes back. -/
def executeCommand (search : String) (arguments : List String) : ShellAction Nat := do
  match arguments with
  | [] => return 0
  | name :: rest =>
    let s ← get
    let refusal ← onHost (execute s.load search name ⟨name, rest, s.environment⟩)
    let refusal ← match refusal with
      | some .notProgram =>
        let path := match findFile (← onHost Action.files) name (candidates search name) .denied with
          | .file path => path
          | _ => name
        onHost (execute s.load "" "/bin/sh" ⟨"/bin/sh", path :: rest, s.environment⟩)
      | r => pure r
    match refusal with
    | some r =>
      complain s!"{name}: {commandMessage r}"
      return refusedStatus r
    | none => return 0

end CompileDb.Shell
