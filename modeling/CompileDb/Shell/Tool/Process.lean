import CompileDb.Shell.Option

/-!
# Tools for processes

Tools of the shell for its children and for signals. A shell keeps its children in jobs: a job holds the processes of a
pipeline, and has ended when they all have.
-/

namespace CompileDb.Shell

open Host Run

/-! ## Jobs -/

namespace Job

def isDone (j : Job) : Bool := j.processes.all fun p => (j.ended.lookup p).isSome

def exit? (j : Job) : Option ExitStatus := j.processes.getLast?.bind fun p => j.ended.lookup p

def status (j : Job) : Nat := (j.exit?.map statusOf).getD 0

end Job

/-- Makes room for a new job: the lowest number that no job has, apart from one that is done with. -/
def newJob (processes : List Nat) : ShellAction Nat := do
  let s ← get
  let isKept (n : Nat) : Bool := s.jobs.any fun j => j.number = n && !(j.isDone && j.waitedFor)
  let number := ((List.range (s.jobs.length + 1)).map (· + 1)).find? fun n => !isKept n
  let number := number.getD 1
  set { s with jobs := ⟨number, processes, [], false⟩ :: s.jobs.filter (·.number ≠ number) }
  return number

def noteEnd (process : Nat) (exit : ExitStatus) : ShellAction Unit :=
  modify fun s => { s with
    jobs := s.jobs.map fun j =>
      if j.processes.contains process then { j with ended := (process, exit) :: j.ended } else j }

/-- What is said when a process that was waited for has ended. -/
def deathNotice : ExitStatus → Option String
  | .signal n => if n = 2 ∨ n = 13 then none else some (signalText n ++ "\n")
  | .code _ => none

/-- Waits for the processes of a job. With `wakes`, a caught signal ends the wait. The answer says whether the job is
done. -/
def awaitJob (number : Nat) (wakes : Bool) : Nat → ShellAction Bool
  | 0 => return true
  | fuel + 1 => do
    match (← get).jobs.find? (·.number = number) with
    | none => return true
    | some job =>
      if job.isDone then return true
      match ← onHost (Action.wait none wakes) with
      | .nobody => return true
      | .interrupted => return false
      | .ended process exit =>
        noteEnd process exit
        if job.processes.contains process then
          match deathNotice exit with
          | some text =>
            let _ ← writeOctets 2 text.toList
          | none => pure ()
        awaitJob number wakes fuel

/-- The children that a shell can wait for. -/
def processLimit : Nat := Nat.pow 2 32

/-- Waits for a job in the foreground and forgets it. Its status comes back. -/
def finishJob (number : Nat) : ShellAction Nat := do
  let _ ← awaitJob number false processLimit
  let s ← get
  set { s with jobs := s.jobs.filter (·.number ≠ number) }
  return ((s.jobs.find? (·.number = number)).map Job.status).getD 0

namespace Tool

/-- The job that a text after a percent sign means, or why there is none. A job is never found by its text, as none is kept
here: only the empty text is part of it. -/
def findJob (jobs : List Job) : List Char → Except String Job
  | [] => jobs.head?.elim (.error "No current job") .ok
  | ['+'] => jobs.head?.elim (.error "No current job") .ok
  | ['%'] => jobs.head?.elim (.error "No current job") .ok
  | ['-'] => jobs[1]?.elim (.error "No previous job") .ok
  | ['?'] =>
    match jobs with
    | [] => .error "No such job: %?"
    | [job] => .ok job
    | _ => .error "%?: ambiguous"
  | text => ((decimal? text).bind fun n => jobs.find? (·.number = n)).elim (.error ("No such job: %" ++ .ofList text)) .ok

/-- The job that an argument means. Without an argument, that is the last one. -/
def jobOf (argument : Option String) : ShellAction Job := do
  let jobs := (← get).jobs
  let text := (argument.getD "%").toList
  match if text.head? = some '%' then findJob jobs (text.drop 1) else .error (.ofList ("No such job: ".toList ++ text)) with
  | .ok job => return job
  | .error message => giveUp message

/-- Waits for all jobs, as long as no caught signal comes. -/
def waitForAll : Nat → ShellAction Bool
  | 0 => return true
  | fuel + 1 => do
    modify fun s => { s with jobs := s.jobs.map fun j => { j with waitedFor := j.waitedFor || j.isDone } }
    if (← get).jobs.all Job.isDone then return true
    match ← onHost (Action.wait none true) with
    | .nobody => return true
    | .interrupted => return false
    | .ended process exit =>
      noteEnd process exit
      waitForAll fuel

/-- Waits for jobs one by one. Nothing comes back if a caught signal came. -/
def waitForEach : List String → Nat → ShellAction (Option Nat)
  | [], status => return some status
  | text :: rest, status => do
    let job ← if text.toList.head? = some '%' then some <$> jobOf (some text) else do
        let process ← numberArgument text
        pure ((← get).jobs.find? fun j => j.processes.getLast? = some process)
    match job with
    | none => waitForEach rest status
    | some job =>
      if ← awaitJob job.number true processLimit then
        let s ← get
        let status := ((s.jobs.find? (·.number = job.number)).map Job.status).getD 0
        let ask (j : Job) : Job := if j.number = job.number then { j with waitedFor := true } else j
        set { s with jobs := s.jobs.map ask }
        waitForEach rest status
      else return none

/-- Waits for children. `caught` tells the signal that ended the wait. -/
def wait (arguments : List String) (caught : ShellAction Nat) : ShellAction Nat := do
  let (_, arguments) ← optionsOf "" "" arguments
  let status ← if arguments.isEmpty then (fun done => if done then some 0 else none) <$> waitForAll processLimit
    else waitForEach arguments 127
  match status with
  | some n => return n
  | none => return 128 + (← caught)

def progress (job : Job) : String :=
  match job.isDone, job.exit? with
  | true, some (.signal n) => signalText n
  | true, some (.code 0) => "Done"
  | true, some (.code n) => s!"Done({n})"
  | _, _ => "Running"

/-- Blanks after a text, up to a width, but at least one. -/
def filled (text : String) : String := text ++ String.ofList (List.replicate (max 1 (33 - text.length)) ' ')

/-- Shows a job, with the numbers of its processes if that is asked for. -/
def showJob (job : Job) (sign : Char) (numbered : Bool) : String :=
  let front := s!"[{job.number}] {sign} "
  match job.processes with
  | first :: others =>
    if numbered then
      let start := filled s!"{front}{first} {progress job}"
      let other (p : Nat) : String :=
        let number := String.ofList (List.replicate front.length ' ') ++ s!"{p} "
        " |\n" ++ filled number
      start ++ String.join (others.map other) ++ "\n"
    else filled (front ++ progress job) ++ String.join (others.map fun _ => " | ") ++ "\n"
  | [] => ""

def showJobs (arguments : List String) : ShellAction Nat := do
  let (options, arguments) ← optionsOf "lp" "" arguments
  let chosen ← if arguments.isEmpty then pure (← get).jobs else arguments.mapM (jobOf ∘ some)
  for job in chosen do
    let jobs := (← get).jobs
    let isAt (place : Nat) : Bool := jobs[place]?.any (·.number = job.number)
    let sign := if isAt 0 then '+' else if isAt 1 then '-' else ' '
    put (if options.any (·.1 = 'p') then s!"{job.processes.headD 0}\n" else showJob job sign (options.any (·.1 = 'l')))
    if job.isDone then modify fun s => { s with jobs := s.jobs.filter (·.number ≠ job.number) }
  return 0

/-- Goes on with a job, which no job of this shell can be asked for: it takes a terminal to control jobs. -/
def resume (arguments : List String) : ShellAction Nat := do
  let (_, arguments) ← optionsOf "" "" arguments
  let _ ← jobOf arguments.head?
  let name := arguments.headD "(null)"
  giveUp s!"job {name} not created under job control"

/-! ## Signals -/

/-- How `kill` is used. -/
def killUsage : String :=
  "Usage: kill [-s sigspec | -signum | -sigspec] [pid | job]... or\nkill -l [exitstatus]"

def listedSignal (number : Nat) : String := if number = 16 then "16" else signalName number

/-- Lists the names of signals, or the one of a number or a status. -/
def listSignals : List String → ShellAction Nat
  | [] => do
    put ("0\n" ++ String.join ((List.range 64).map fun n => listedSignal (n + 1) ++ "\n"))
    return 0
  | text :: _ => do
    let n ← numberArgument text
    let n := if 128 < n then n - 128 else n
    if 0 < n && n < 65 then
      put (listedSignal n ++ "\n")
      return 0
    else giveUp s!"invalid signal number or exit status: {text}"

/-- Sends a signal to a process that is written as an argument. -/
def sendSignal (signal : Nat) (text : String) : ShellAction Bool := do
  let isJob := text.toList.head? = some '%'
  let process ← if isJob then do
      let _ ← jobOf (some text)
      pure 0
    else if text.toList.head? = some '-' then do
      let _ ← numberArgument (.ofList (text.toList.drop 1))
      pure 0
    else numberArgument text
  if process ≠ 0 && (← onHost (Action.signal process signal)) then return true
  else
    complain "No such process\n"
    return false

/-- The signal that the first arguments ask for, whether names are asked for, and the other arguments. -/
def signalArgument (arguments : List String) : ShellAction (Option Nat × Bool × List String) := do
  let isSignal (text : String) : Option Nat := (signalNumber? text).filter fun n => text.toList.all Char.isDigit || n ≠ 0
  match arguments with
  | first :: rest =>
    match first.toList with
    | '-' :: name =>
      match isSignal (.ofList name) with
      | some n => return (some n, false, rest)
      | none =>
        let (options, rest) ← optionsOf "l" "s" arguments
        let lists := options.any (·.1 = 'l')
        match options.lookup 's' with
        | none => return (none, lists, rest)
        | some text =>
          match isSignal text with
          | some n => return (some n, lists, rest)
          | none => giveUp s!"invalid signal number or name: {text}"
    | _ => return (none, false, arguments)
  | [] => return (none, false, [])

/-- Sends a signal to processes, or lists the signals. -/
def kill (arguments : List String) : ShellAction Nat := do
  if arguments.isEmpty then giveUp killUsage
  let (signal, lists, rest) ← signalArgument arguments
  if lists then
    if signal.isSome then giveUp killUsage
    listSignals rest
  else
    if rest.isEmpty then giveUp killUsage
    let sent ← rest.mapM (sendSignal (signal.getD 15))
    return if sent.all id then 0 else 1

def dispositionFor (traps : List (Nat × String)) (signal : Nat) : Disposition :=
  match traps.lookup signal with
  | none => .default
  | some "" => .ignored
  | some _ => .caught

def setTraps (action : Option String) : List String → ShellAction Nat
  | [] => return 0
  | text :: rest => do
    match signalNumber? text with
    | none =>
      let _ ← writeOctets 2 s!"trap: {text}: bad trap\n".toList
      return 1
    | some n =>
      modify fun s =>
        let others := s.traps.filter (·.1 ≠ n)
        { s with traps := match action with
          | some a => (n, a) :: others
          | none => others }
      if n ≠ 0 then onHost (Action.handle n (dispositionFor (← get).traps n))
      setTraps action rest

def trap (arguments : List String) : ShellAction Nat := do
  let (_, arguments) ← optionsOf "" "" arguments
  match arguments with
  | [] =>
    let s ← get
    for n in List.range 65 do
      match s.traps.lookup n with
      | some action => put s!"trap -- {singleQuoted action} {listedSignal n}\n"
      | none => pure ()
    return 0
  | [signal] => setTraps none [signal]
  | action :: signals =>
    if (signalNumber? action).isSome then setTraps none arguments
    else setTraps (if action = "-" then none else some action) signals

end Tool

end CompileDb.Shell
