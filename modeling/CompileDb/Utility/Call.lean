import CompileDb.Shell.Tool.Process
import CompileDb.Utility.Word

/-!
# Utilities that call programs

Utilities that call other programs with variables, arguments or a limit of their own, and those for time and signals.
-/

namespace CompileDb.Utility

open Host Run

/-! ## Other programs -/

/-- The search path among variables. -/
def searchOf (environment : List (String × String)) : String :=
  (environment.lookup searchVariable).getD standardSearch

/-- The status when a program cannot be called. -/
def refusedStatus : Refusal → Nat
  | .path .missing => 127
  | _ => 126

/-- Becomes another program. If that is not possible, the status comes back, after a complaint that begins like this. -/
def becomeProgram (load : Loader) (name before : String) (environment : List (String × String)) (words : List String) :
    Action Nat := do
  match words with
  | [] => return 0
  | program :: arguments =>
    match ← execute load (searchOf environment) program ⟨program, arguments, environment⟩ with
    | none => return 0
    | some r =>
      complain name s!"{before}{quoted program}: {r.message}"
      return refusedStatus r

def callProgram (load : Loader) (name before : String) (environment : List (String × String)) (words : List String) :
    Action ExitStatus := do
  let child ← Action.fork (becomeProgram load name before environment words)
  match ← Action.wait (some child) false with
  | .ended _ exit => return exit
  | _ => return .code 0

/-! ## Variables -/

/-- The settings at the front of operands, and the words after them. -/
def settingsOf : List String → List (String × String) × List String
  | operand :: rest =>
    match operand.toList.takeWhile (· ≠ '='), operand.toList.dropWhile (· ≠ '=') with
    | name, '=' :: value =>
      let (settings, words) := settingsOf rest
      ((.ofList name, .ofList value) :: settings, words)
    | _, _ => ([], operand :: rest)
  | [] => ([], [])

def withVariable (environment : List (String × String)) (setting : String × String) : List (String × String) :=
  if (environment.lookup setting.1).isSome then
    environment.map fun v => if v.1 = setting.1 then setting else v
  else environment ++ [setting]

def showVariables (environment : List (String × String)) : String :=
  String.join (environment.map fun (n, v) => s!"{n}={v}\n")

/-- Calls a program with other variables, or shows them. -/
def env (load : Loader) (inv : Invocation) : Action Nat := do
  let table : OptionTable :=
    ⟨"i", "uC", [("ignore-environment", 'i'), ("unset", 'u'), ("chdir", 'C')]⟩
  match table.parse false inv.arguments with
  | .error text => misused inv.name text 125
  | .ok (options, operands) =>
    let (isBare, operands) := match operands with
      | "-" :: rest => (true, rest)
      | operands => (has options 'i', operands)
    let unset := (options.filter (·.1 = 'u')).map Prod.snd
    let given := if isBare then [] else inv.environment.filter fun v => !unset.contains v.1
    let (settings, words) := settingsOf operands
    let environment := settings.foldl withVariable given
    let entered ← match valueOf? options 'C' with
      | some d => Action.change fun files => files.enter ⟨Text.ofOctets d⟩
      | none => pure (.ok ())
    match entered with
    | .error o =>
      let wanted := quoted ((valueOf? options 'C').getD "")
      complain inv.name s!"cannot change directory to {wanted}: {Refusal.message (.path o)}"
      return 125
    | .ok () =>
      if words.isEmpty then report inv (showVariables environment)
      else becomeProgram load inv.name "" environment words

/-- Shows the values of variables. -/
def printenv (inv : Invocation) : Action Nat :=
  withOptions ⟨"0", "", []⟩ 2 inv fun _ operands => do
    if operands.isEmpty then report inv (showVariables inv.environment)
    else
      let values := operands.map fun n => inv.environment.lookup n
      let text := String.join (values.filterMap fun v => v.map (· ++ "\n"))
      Report.deliver ⟨text.toList, [], if values.all Option.isSome then 0 else 1⟩ inv.name

/-- Shows the working directory. -/
def pwd (inv : Invocation) : Action Nat :=
  withOptions ⟨"LP", "", []⟩ 1 inv fun options _ => do
    let files ← Action.files
    let physical := Text.octets files.homePath.text
    let told := (inv.environment.lookup "PWD").filter fun d =>
      d.toList.head? = some '/' && (files.locate ⟨Text.ofOctets d⟩).toOption = some files.home
    report inv ((if has options 'L' then told.getD physical else physical) ++ "\n")

/-! ## Arguments that are read -/

def withWord (word : Option (List Char)) (seen : List String) : List String :=
  match word with
  | some w => .ofList w.reverse :: seen
  | none => seen

/-- The arguments in a text, with quotes and backslashes. `fuel` is more than its length, `word` is the argument at hand,
last character first, and `seen` are those before it. -/
def readArguments : Nat → List Char → Option (List Char) → List String → Option (List String)
  | 0, _, _, _ => none
  | _, [], word, seen => some (withWord word seen).reverse
  | fuel + 1, '\\' :: c :: rest, word, seen => readArguments fuel rest (some (c :: word.getD [])) seen
  | fuel + 1, c :: rest, word, seen =>
    if Shell.Formula.isBlank c then readArguments fuel rest none (withWord word seen)
    else if c = '\x27' || c = '"' then
      let inner := rest.takeWhile (· ≠ c)
      match rest.dropWhile (· ≠ c) with
      | _ :: after => readArguments fuel after (some (inner.reverse ++ word.getD [])) seen
      | [] => none
    else readArguments fuel rest (some (c :: word.getD [])) seen

def argumentsIn (text : List Char) : Option (List String) := readArguments (text.length + 1) text none []

/-- A list cut into pieces of a length. -/
def chunks {α : Type} (n : Nat) : Nat → List α → List (List α)
  | 0, _ => []
  | _, [] => []
  | fuel + 1, l => l.take n :: chunks n fuel (l.drop n)

/-- A text with a part replaced wherever it occurs. -/
def replaced (part value text : String) : String := value.intercalate (text.splitOn part)

/-- The status after the calls of `xargs`, and whether there are more. -/
def afterCall (program : String) : ExitStatus → Nat → Nat × Option String
  | .code 0, status => (status, none)
  | .code 255, _ => (124, some s!"{program}: exited with status 255; aborting")
  | .code 127, _ => (127, some "")
  | .code 126, _ => (126, some "")
  | .code _, _ => (123, none)
  | .signal n, _ => (125, some s!"{program}: terminated by signal {n}")

/-- Calls a program once for each list of arguments. -/
def callEach (load : Loader) (inv : Invocation) (shows : Bool) (program : String) :
    List (List String) → Nat → Action Nat
  | [], status => return status
  | arguments :: rest, status => do
    if shows then
      let _ ← write 2 (" ".intercalate (program :: arguments) ++ "\n").toList
    let refusal ← Action.onFiles fun files =>
      let found := firstProgram load files ⟨program, arguments, inv.environment⟩ false
        (candidates (searchOf inv.environment) program)
      (files, match found with
        | .ok _ => none
        | .error r => some r)
    match refusal with
    | some r =>
      complain inv.name s!"{program}: {r.message}"
      return refusedStatus r
    | none =>
      let exit ← callProgram load inv.name "" inv.environment (program :: arguments)
      match afterCall program exit status with
      | (status, none) => callEach load inv shows program rest status
      | (status, some text) =>
        if !text.isEmpty then complain inv.name text
        return status

/-- Calls a program with arguments that it reads. -/
def xargs (load : Loader) (inv : Invocation) : Action Nat := do
  let table : OptionTable := ⟨"0rtx", "nILdPs", [("null", '0'), ("no-run-if-empty", 'r'), ("max-args", 'n'),
    ("replace", 'I'), ("delimiter", 'd'), ("verbose", 't'), ("max-lines", 'L'), ("max-procs", 'P')]⟩
  match table.parse false inv.arguments with
  | .error text => misused inv.name text 1
  | .ok (options, operands) =>
    let text := Text.widen ((← Action.readAll 0).toOption.getD [])
    let (program, first) := match operands with
      | [] => ("echo", [])
      | program :: first => (program, first)
    let count (letter : Char) : Option Nat := (valueOf? options letter).bind fun v => Shell.decimal? v.toList
    let cutAt (c : Char) : List String :=
      let pieces := text.splitOn c
      (if pieces.getLast? = some [] then pieces.dropLast else pieces).map .ofList
    let nonEmptyLines := ((Lines.ofText text).all.filter fun l => !(l.all Shell.Formula.isBlank)).map String.ofList
    let calls : Option (List (List String)) :=
      match valueOf? options 'I' with
      | some mark =>
        let value (line : String) : String := .ofList (line.toList.dropWhile Shell.Formula.isBlank)
        some (nonEmptyLines.map fun line => first.map (replaced mark (value line)))
      | none =>
        let words :=
          if has options '0' then some (cutAt '\x00')
          else
            match valueOf? options 'd' with
            | some d => some (cutAt (if d = "\\n" then '\n' else d.toList.headD '\n'))
            | none => argumentsIn text
        match count 'L' with
        | some n =>
          (chunks n nonEmptyLines.length nonEmptyLines).mapM fun lines =>
            (argumentsIn (" ".intercalate lines).toList).map (first ++ ·)
        | none => words.map fun ws =>
          let groups := match count 'n' with
            | some n => chunks (max n 1) ws.length ws
            | none => if ws.isEmpty then [] else [ws]
          (if groups.isEmpty && !has options 'r' then [[]] else groups).map (first ++ ·)
    match calls with
    | none =>
      complain inv.name "unmatched single quote; by default quotes are special to xargs unless you use the -0 option"
      return 1
    | some calls => callEach load inv (has options 't') program calls 0

/-! ## Time and signals -/

/-- The microseconds that a text like `1.5` or `2m` stands for. -/
def duration? (text : String) : Option Nat := do
  let (digits, factor) := match text.toList.reverse with
    | 's' :: rest => (rest.reverse, 1)
    | 'm' :: rest => (rest.reverse, 60)
    | 'h' :: rest => (rest.reverse, 3600)
    | 'd' :: rest => (rest.reverse, 86400)
    | rest => (rest.reverse, 1)
  if digits = ['i', 'n', 'f'] || digits = "infinity".toList then return Nat.pow 10 18
  let d ← Decimal.ofText? (.ofList digits)
  if d.units < 0 then none
  else return (d.units.toNat * factor * 1000000 + Nat.pow 10 d.places - 1) / Nat.pow 10 d.places

/-- Does nothing for a time. -/
def sleep (inv : Invocation) : Action Nat :=
  withOptions ⟨"", "", []⟩ 1 inv fun _ operands => do
    if operands.isEmpty then misused inv.name "missing operand" 1
    else
      match operands.filter fun a => (duration? a).isNone with
      | [] => do
        Action.sleep ((operands.filterMap duration?).foldl (· + ·) 0)
        return 0
      | wrong =>
        for a in wrong do complain inv.name s!"invalid time interval {quoted a}"
        let _ ← write 2 s!"Try \x27{inv.name} --help\x27 for more information.\n".toList
        return 1

/-- Writes lines until nobody reads them. -/
def yesLines (inv : Invocation) (lines : List UInt8) : Nat → Action Nat
  | 0 => return 0
  | fuel + 1 => do
    match ← Action.write 1 lines with
    | .ok () => yesLines inv lines fuel
    | .error r =>
      complain inv.name s!"standard output: {r.message}"
      return 1

/-- Writes a line again and again. -/
def yes (inv : Invocation) : Action Nat :=
  withOptions ⟨"", "", []⟩ 1 inv fun _ operands => do
    let line := (if operands.isEmpty then "y" else " ".intercalate operands).toList ++ ['\n']
    let lines := (List.replicate (8192 / line.length + 1) (Text.narrow line)).flatten
    yesLines inv lines Action.pieceLimit

/-- Calls a program, and ends it after a time. -/
def timeout (load : Loader) (inv : Invocation) : Action Nat := do
  let table : OptionTable := ⟨"v", "ks", [("signal", 's'), ("kill-after", 'k'), ("foreground", 'v'), ("preserve-status", 'v')]⟩
  match table.parse false inv.arguments with
  | .error text => misused inv.name text 125
  | .ok (options, operands) =>
    match operands with
    | limit :: program :: arguments =>
      match duration? limit with
      | none => misused inv.name s!"invalid time interval {quoted limit}" 125
      | some time =>
        let signal := ((valueOf? options 's').bind fun t =>
          Shell.signalNumber? (if "SIG".toList.isPrefixOf t.toList then .ofList (t.toList.drop 3) else t)).getD 15
        let called ← Action.fork (becomeProgram load inv.name "failed to run command " inv.environment (program :: arguments))
        let clock ← Action.fork do
          Action.sleep (if time = 0 then Nat.pow 10 18 else time)
          return 0
        match ← Action.wait none false with
        | .ended process exit =>
          if process = called then
            let _ ← Action.signal clock 9
            match exit with
            | .code n => return n
            | .signal n =>
              let own ← Action.ownNumber
              let _ ← Action.signal own n
              return 128 + n
          else
            let _ ← Action.signal called signal
            let _ ← Action.wait (some called) false
            if signal = 9 then
              let own ← Action.ownNumber
              let _ ← Action.signal own signal
            return 124
        | _ => return 0
    | _ =>
      let _ ← write 2 s!"Try \x27{inv.name} --help\x27 for more information.\n".toList
      return 125

def callPlainly (load : Loader) (before : String) (inv : Invocation) : Action Nat := do
  let words := match inv.arguments with
    | "-n" :: _ :: rest => rest
    | "--" :: rest => rest
    | words => words
  if words.isEmpty then misused inv.name "missing operand" 125
  else becomeProgram load inv.name before inv.environment words

/-- Sends signals to processes. -/
def kill (inv : Invocation) : Action Nat := do
  let number? (text : String) : Option Nat :=
    Shell.signalNumber? (if "SIG".toList.isPrefixOf text.toList then .ofList (text.toList.drop 3) else text)
  let send (signal : Nat) (processes : List String) : Action Nat := do
    let sent ← processes.mapM fun text => do
      let process := (Shell.decimal? text.toList).getD 0
      if process ≠ 0 && (← Action.signal process signal) then return true
      else
        complain inv.name s!"({text}): No such process"
        return false
    return if sent.all id then 0 else 1
  match inv.arguments with
  | "-l" :: number :: _ =>
    match (Shell.decimal? number.toList).map fun n => if 128 < n then n - 128 else n with
    | some n => report inv (Shell.signalName n ++ "\n")
    | none => report inv (toString ((number? number).getD 0) ++ "\n")
  | "-s" :: name :: rest => send ((number? name).getD 15) rest
  | first :: rest =>
    match first.toList with
    | '-' :: name =>
      match number? (.ofList name) with
      | some n => send n rest
      | none =>
        complain inv.name ("invalid argument " ++ .ofList name)
        return 1
    | _ => send 15 (first :: rest)
  | [] => misused inv.name "not enough arguments" 1

end CompileDb.Utility
