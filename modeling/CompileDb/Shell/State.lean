import CompileDb.Host.Invocation
import CompileDb.Shell.Formula
import CompileDb.Shell.Reader

/-!
# The state of a shell

What a shell knows while it carries out a recipe: its variables, functions, aliases, options, traps and children.
Commands are actions of the host that change this state and may stop the shell.
-/

namespace CompileDb.Shell

open Host Run

/-- A variable. Without a value it is not set, but may still be marked. -/
structure Variable where
  name : String
  value : Option String
  /-- Programs are given the variable. -/
  exported : Bool
  /-- The variable keeps its value. -/
  readonly : Bool
deriving DecidableEq, Repr

/-- Why commands are skipped. -/
inductive Skip where
  /-- So many loops are left. -/
  | leaves (loops : Nat)
  /-- The outermost of so many loops begins again. -/
  | repeats (loops : Nat)
  /-- A function or a file is left. -/
  | returns
deriving DecidableEq, Repr

/-- Processes that are carried out beside the shell. -/
structure Job where
  number : Nat
  /-- The processes, first one first. -/
  processes : List Nat
  /-- How the processes ended that are known to have. -/
  ended : List (Nat × ExitStatus)
  /-- Somebody has asked how it ended. -/
  waitedFor : Bool

/-- The options of a shell that have a name, with their letters if they have one. -/
def optionNames : List (String × Option Char) :=
  [("errexit", some 'e'), ("noglob", some 'f'), ("ignoreeof", some 'I'), ("interactive", some 'i'), ("monitor", some 'm'),
    ("noexec", some 'n'), ("stdin", some 's'), ("xtrace", some 'x'), ("verbose", some 'v'), ("vi", some 'V'),
    ("emacs", some 'E'), ("noclobber", some 'C'), ("allexport", some 'a'), ("notify", some 'b'), ("nounset", some 'u'),
    ("privileged", some 'p'), ("nolog", none), ("debug", none)]

/-- The letters of the options that are on, as `$-` shows them. -/
def shownOptions (options : List Char) : List Char :=
  (optionNames.filterMap Prod.snd).reverse.filter options.contains

/-- The state of a shell. -/
structure State where
  /-- How programs are found. -/
  load : Loader
  /-- What the shell is called. -/
  name : String
  positional : List String
  bindings : List Variable
  functions : List (String × Nat × Recipe)
  aliases : List (String × String)
  /-- The options that are on, by their letters. -/
  options : List Char
  status : Nat
  /-- The status of the last output that was taken for a word. -/
  outputStatus : Nat
  /-- The line of the command, and the line for complaints about it. -/
  line : Nat
  complaintLine : Nat
  /-- The tool of the shell that is carried out, for complaints about it. -/
  tool : Option String
  jobs : List Job
  /-- The last process that is carried out beside. -/
  background : Option Nat
  /-- The number of the outermost shell. -/
  number : Nat
  /-- What is carried out when a signal comes, or at the end, by number. An empty text ignores the signal. -/
  traps : List (Nat × String)
  /-- Signals that have come and whose traps have not yet been carried out. -/
  signals : List Nat
  /-- The status with which `exit` ends the shell if it is not given one, while a trap is carried out. -/
  kept : Option Nat
  skip : Option Skip
  loopDepth : Nat
  /-- The line where the function that is carried out begins. -/
  functionLine : Nat
  /-- The variables that get back what they were, one list for each command or function that is carried out. -/
  locals : List (List Variable)
  /-- The working directory, as it was gone to. -/
  directory : String
  /-- The argument in which options are looked for, and where in the one before it they go on, if they do. -/
  optionIndex : Nat
  optionOffset : Nat
  mask : Nat
  /-- The programs that were looked up and found. -/
  tracked : List String
  /-- The limits that were set, by their letters. -/
  limits : List (Char × String)
  /-- What tools of the shell have to write, last octet first. -/
  pending : List Char
  /-- Where descriptors led before they were redirected, for each redirected command: the descriptor that leads there
  now. -/
  redirected : List (List (Nat × Option Nat))
  documents : List (Nat × Word)
  nextDocument : Nat
  /-- A prompt for a trace is being worked out. -/
  tracing : Bool

/-- Why a shell stops. -/
inductive Stop where
  /-- Something went wrong. -/
  | failure
  /-- It was asked to. -/
  | exit
  /-- All is done. -/
  | finished
deriving DecidableEq, Repr

abbrev ShellAction := ExceptT Stop (StateT State Action)

def onHost {α : Type} (action : Action α) : ShellAction α := (StateT.lift action : StateT State Action α)

def attempt {α : Type} (action : ShellAction α) : ShellAction (Except Stop α) :=
  ExceptT.lift action.run

def writeOctets (descriptor : Nat) (text : List Char) : ShellAction (Except Refusal Unit) :=
  onHost (Action.write descriptor (Text.narrow text))

namespace State

/-! ## Variables -/

/-- The variable of a name. -/
def find? (s : State) (name : String) : Option Variable := s.bindings.find? (·.name = name)

def variableValue? (s : State) (name : String) : Option String := (s.find? name).bind Variable.value

def value? (s : State) (name : String) : Option String :=
  match name with
  | "?" => some (toString s.status)
  | "$" => some (toString s.number)
  | "#" => some (toString s.positional.length)
  | "!" => s.background.map toString
  | "-" => some (.ofList (shownOptions s.options))
  | "0" => some s.name
  | _ =>
    match decimal? name.toList with
    | some n => s.positional[n - 1]?
    | none => s.variableValue? name

def putVariable (s : State) (v : Variable) : State :=
  if (s.find? v.name).isSome then
    { s with bindings := s.bindings.map fun w => if w.name = v.name then v else w }
  else { s with bindings := s.bindings ++ [v] }

def hasOption (s : State) (letter : Char) : Bool := s.options.contains letter

/-- Sets a variable that may be set. -/
def assign (s : State) (name value : String) (exported : Bool) : State :=
  let s :=
    if name = "OPTIND" then
      { s with optionOffset := 0, optionIndex := max 1 ((decimal? value.toList).getD 0) }
    else if name = Host.searchVariable then { s with tracked := [] }
    else s
  let old := (s.find? name).getD ⟨name, none, false, false⟩
  s.putVariable { old with value := some value, exported := old.exported || exported || s.hasOption 'a' }

def group (count : Nat) (name : String) : Nat :=
  match name.toList with
  | [] => 0
  | c :: rest => ((c :: rest).foldl (fun n d => n + d.toNat) (16 * c.toNat)) % count

/-- Things with a name, group after group. -/
def inGroups {α : Type} (count : Nat) (name : α → String) (things : List α) : List α :=
  (List.range count).flatMap fun g => things.filter fun a => group count (name a) = g

/-- The variables that programs are given. -/
def environment (s : State) : List (String × String) :=
  inGroups 39 Prod.fst (s.bindings.filterMap fun v => if v.exported then v.value.map fun t => (v.name, t) else none)

def separators (s : State) : List Char := ((s.variableValue? "IFS").getD " \t\n").toList

/-- The directories in which programs are looked up. -/
def search (s : State) : String := (s.variableValue? Host.searchVariable).getD ""

end State

/-! ## Complaints -/

/-- Writes a complaint with what stands before it. -/
def complain (text : String) : ShellAction Unit := do
  let s ← get
  let tool := match s.tool with
    | some t => s!"{t}: "
    | none => ""
  let _ ← writeOctets 2 (s!"{s.name}: {s.complaintLine}: {tool}{text}\n").toList

/-- Notes what a tool of the shell has to write. -/
def put (text : String) : ShellAction Unit :=
  modify fun s => { s with pending := text.toList.reverse ++ s.pending }

/-- Writes what tools have to write. The answer says whether that was possible. -/
def flush : ShellAction Bool := do
  match (← get).pending with
  | [] => return true
  | pending =>
    modify fun s => { s with pending := [] }
    return (← writeOctets 1 pending.reverse).isOk

/-- Complains, and stops the shell or what it is doing. -/
def giveUp {α : Type} (text : String) : ShellAction α := do
  complain text
  modify fun s => { s with status := 2 }
  throw .failure

/-- Sets a variable, or gives up if it keeps its value. -/
def setVariable (name value : String) (exported : Bool) : ShellAction Unit := do
  let s ← get
  if (s.find? name).any (·.readonly) then giveUp s!"{name}: is read only"
  set (s.assign name value exported)

/-- Remembers what a variable is until a command or a function is done. -/
def keepLocal (name : String) : ShellAction Unit := do
  let s ← get
  match s.locals with
  | [] => return
  | top :: outer =>
    if top.any (·.name = name) then return
    let old := (s.find? name).getD ⟨name, none, false, false⟩
    set { s with locals := (old :: top) :: outer }

/-- Gives the variables back what they were. -/
def restoreLocals : ShellAction Unit := do
  let s ← get
  match s.locals with
  | [] => return
  | top :: outer =>
    let restored := top.foldl State.putVariable { s with locals := outer }
    let isNothing (v : Variable) : Bool := v.value.isNone && !v.exported && !v.readonly
    set { restored with bindings := restored.bindings.filter (!isNothing ·) }

def numberArgument (text : String) : ShellAction Nat :=
  match decimal? text.toList with
  | some n => if n < Nat.pow 2 31 then return n else giveUp s!"Illegal number: {text}"
  | none => giveUp s!"Illegal number: {text}"

/-! ## Signals -/

/-- The number of a signal or of the end of the shell, by its number or by its name without the common beginning. -/
def signalNumber? (text : String) : Option Nat :=
  match decimal? text.toList with
  | some n => if n < 65 then some n else none
  | none =>
    let name := String.ofList (text.toList.map Char.toUpper)
    if name = "EXIT" then some 0 else (ExitStatus.signalNames.idxOf? ("SIG" ++ name)).map (· + 1)

/-- The name of a signal without the common beginning. -/
def signalName (number : Nat) : String :=
  match number with
  | 0 => "EXIT"
  | n + 1 =>
    match ExitStatus.signalNames[n]? with
    | some name => .ofList (name.toList.drop 3)
    | none => toString number

/-- What is said of a process that a signal has ended. -/
def signalText (number : Nat) : String :=
  let texts := ["Hangup", "Interrupt", "Quit", "Illegal instruction", "Trace/breakpoint trap", "Aborted", "Bus error",
    "Floating point exception", "Killed", "User defined signal 1", "Segmentation fault", "User defined signal 2",
    "Broken pipe", "Alarm clock", "Terminated", "Stack fault", "Child exited", "Continued", "Stopped (signal)", "Stopped",
    "Stopped (tty input)", "Stopped (tty output)", "Urgent I/O condition", "CPU time limit exceeded",
    "File size limit exceeded", "Virtual timer expired", "Profiling timer expired", "Window changed", "I/O possible",
    "Power failure", "Bad system call"]
  match number with
  | 0 => "Unknown signal 0"
  | n + 1 => (texts[n]?).getD s!"Real-time signal {number - 34}"

def statusOf : ExitStatus → Nat
  | .code n => n
  | .signal n => 128 + n

end CompileDb.Shell
