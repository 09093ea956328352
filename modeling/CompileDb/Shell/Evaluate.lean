import CompileDb.Shell.Command
import CompileDb.Shell.Expansion
import CompileDb.Shell.Redirect

/-!
# Carrying out recipes

The words of a command are worked out, its descriptors are redirected, and then it is carried out: by the shell itself,
by a shell that is forked for it, or by a program. Everything here calls itself again for the recipes within recipes;
`fuel` bounds how often.
-/

namespace CompileDb.Shell

open Host

/-- How a recipe is carried out. -/
structure Manner where
  /-- Its failure is looked at, and does not end the shell. -/
  isTested : Bool
  /-- The shell ends with it. -/
  isLast : Bool
deriving DecidableEq, Repr

namespace Manner

def plain : Manner := ⟨false, false⟩

def test : Manner := ⟨true, false⟩

def last : Manner := ⟨false, true⟩

end Manner

/-- How a loop goes on. -/
inductive LoopStep where
  | next
  | again
  | leave
  /-- What is around the loop is left too. -/
  | leaveAll
deriving DecidableEq, Repr

/-- A command whose name is being looked up. -/
structure Choice where
  /-- The words before the name. -/
  passed : List String
  arguments : List String
  /-- The words that are not yet worked out. -/
  words : List Word
  /-- The directories for the program, if they are not those of the shell. -/
  search : Option String
  /-- Functions do not count. -/
  isPlain : Bool
  found : Option Found
  /-- The first tool among the words. -/
  tool : Option ToolKind

def exhausted {α : Type} : ShellAction α := giveUp "Too many steps"

def withoutNewlines (text : List Char) : List Char := (text.reverse.dropWhile (· = '\n')).reverse

def readLeft (descriptor : Nat) : ShellAction (List UInt8) := do
  return (← onHost (Action.readAll descriptor)).toOption.getD []

def hasTraps (s : State) : Bool := s.traps.any (·.2 ≠ "")

def enterLine (line : Nat) : ShellAction Unit :=
  modify fun s => { s with complaintLine := line, line := line - (s.functionLine - 1) }

/-- What a loop does after a command that may leave it. -/
def loopStep : ShellAction LoopStep := do
  let s ← get
  match s.skip with
  | none => return .next
  | some .returns => return .leaveAll
  | some (.leaves n) =>
    set { s with skip := if n ≤ 1 then none else some (.leaves (n - 1)) }
    return .leave
  | some (.repeats n) =>
    set { s with skip := if n ≤ 1 then none else some (.repeats (n - 1)) }
    return if n ≤ 1 then .again else .leave

def textWord (text : List Char) : Word := [.text (.ofList text)]

mutual

/-- The items of parts, one after the other. `isStart` says whether the word begins with them. -/
def items : Nat → Expansion → Bool → List Part → ShellAction (List Item)
  | 0, _, _, _ => exhausted
  | _, _, _, [] => return []
  | fuel + 1, e, isStart, part :: rest => do
    let first ← partItems fuel e isStart rest.isEmpty part
    return first ++ (← items fuel e false rest)

def partItems : Nat → Expansion → Bool → Bool → Part → ShellAction (List Item)
  | 0, _, _, _, _ => exhausted
  | fuel + 1, e, isStart, isLast, part => do
    match part with
    | .text t => return writtenItems (← get) e isStart isLast t.toList
    | .literal t => return Item.ofQuoted t.toList
    | .quoted parts =>
      let inner ← items fuel { e with isQuoted := true, isValue := false, afterColons := false } false parts
      match parts with
      | [.parameter "@" .keep] => return inner
      | _ => return .mark :: inner ++ [.mark]
    | .parameter name change => parameterItems fuel e name change
    | .sum formula => return valueItems e (toString (← formulaValue fuel formula)).toList
    | .output recipe => return valueItems e (← outputOf fuel recipe)

def parameterItems : Nat → Expansion → String → Change → ShellAction (List Item)
  | 0, _, _, _ => exhausted
  | fuel + 1, e, name, change => do
    let s ← get
    let value := s.parameter name
    let text := value.text? s
    let lacks (forEmpty : Bool) : Bool := text.all fun t => forEmpty && t.isEmpty
    let ofWord : Expansion := { e with isValue := !e.isQuoted }
    let need : ShellAction (List Char) := do
      if text.isNone && s.hasOption 'u' then giveUp s!"{name}: parameter not set"
      return text.getD []
    match change with
    | .keep =>
      let _ ← need
      return value.items s e
    | .length => return valueItems e (toString (← need).length).toList
    | .orElse forEmpty word => if lacks forEmpty then items fuel ofWord true word else return value.items s e
    | .ifSet notEmpty word => if lacks notEmpty then return [] else items fuel ofWord true word
    | .orAssign forEmpty word =>
      if lacks forEmpty then
        let t ← wordText fuel .whole word
        Tool.checkName name
        setVariable name t false
        let s ← get
        return (s.parameter name).items s e
      else return value.items s e
    | .orComplain forEmpty word =>
      if lacks forEmpty then
        let t ← wordText fuel .whole word
        let usual := if forEmpty then "parameter not set or null" else "parameter not set"
        giveUp s!"{name}: {if word.isEmpty then usual else t}"
      else return value.items s e
    | .withoutFront longest pattern =>
      let t ← need
      let signs := Sign.ofText (glyphs (← items fuel .whole true pattern))
      return if text.isNone then [] else valueItems e (withoutFront longest signs t)
    | .withoutBack longest pattern =>
      let t ← need
      let signs := Sign.ofText (glyphs (← items fuel .whole true pattern))
      return if text.isNone then [] else valueItems e (withoutBack longest signs t)
    | .unknown => giveUp "Bad substitution"

def formulaValue : Nat → List Part → ShellAction Int
  | 0, _ => exhausted
  | fuel + 1, formula => do
    let text := textOf (← items fuel .quoted false formula)
    let s ← get
    match Formula.value s.variableValue? text with
    | .error f => giveUp (Formula.complaint (.ofList text) f)
    | .ok (n, settings) =>
      for (name, value) in settings do setVariable name (toString value) false
      return n

def outputOf : Nat → Recipe → ShellAction (List Char)
  | 0, _ => exhausted
  | _, .nothing => return []
  | fuel + 1, recipe => do
    let (source, target) ← onHost Action.openPipe
    let child ← forkShell fuel false false do
      onHost (Action.close source)
      onHost (Action.move target 1)
      evaluate fuel .last recipe
    onHost (Action.close target)
    let bytes ← readLeft source
    onHost (Action.close source)
    let status ← finishJob (← newJob [child])
    modify fun s => { s with outputStatus := status }
    return withoutNewlines ((Text.widen bytes).filter (· ≠ '\x00'))

def wordFields : Nat → Word → ShellAction (List String)
  | 0, _ => exhausted
  | fuel + 1, word => do
    let all ← items fuel .ofFields true word
    let s ← get
    let cut := fields s.separators none all
    let isPattern (field : List Glyph) : Bool := (Sign.ofText field).any Sign.isOpen
    if s.hasOption 'f' || !cut.any isPattern then
      return cut.map fun field => .ofList (field.map Prod.fst)
    else return cut.flatMap (fileNames (← onHost Action.files))

def wordText : Nat → Expansion → Word → ShellAction String
  | 0, _, _ => exhausted
  | fuel + 1, e, word => return .ofList (textOf (← items fuel e true word))

def destination : Nat → Redirection → ShellAction (Nat × Destination)
  | 0, _ => exhausted
  | fuel + 1, redirection => do
    match redirection with
    | .fromFile d word => return (d, .file (← wordText fuel .whole word) .read)
    | .toFile d anyway word =>
      let path ← wordText fuel .whole word
      return (d, if !anyway && (← get).hasOption 'C' then .newFile path else .file path .write)
    | .appendTo d word => return (d, .file (← wordText fuel .whole word) .append)
    | .update d word => return (d, .file (← wordText fuel .whole word) .update)
    | .copy d word =>
      match (← wordText fuel .whole word).toList with
      | ['-'] => return (d, .nowhere)
      | [c] => if c.isDigit then return (d, .copy (c.toNat - 48)) else giveUp "Syntax error: Bad fd number"
      | _ => giveUp "Syntax error: Bad fd number"
    | .document d number => return (d, .document number)

/-- Leads descriptors to destinations, one after the other. -/
def redirect : Nat → Bool → List (Nat × Destination) → ShellAction Unit
  | 0, _, _ => exhausted
  | _, _, [] => return
  | fuel + 1, saves, (d, destination) :: rest => do
    match destination with
    | .document number =>
      let parts := ((← get).documents.lookup number).getD []
      redirectOne saves d (.text (textOf (← items fuel .quoted false parts)))
    | destination => redirectOne saves d destination
    redirect fuel saves rest

/-- Forks a shell. `beside` says that it is not waited for, and `first` that it reads nothing then. -/
def forkShell : Nat → Bool → Bool → ShellAction Nat → ShellAction Nat
  | 0, _, _, _ => exhausted
  | fuel + 1, beside, first, action => do
    let s ← get
    let child : State := { s with
      traps := s.traps.filter (·.2 = ""), signals := [], kept := none, jobs := [], pending := [], redirected := [] }
    onHost (Action.fork do
      for (n, text) in s.traps do
        if text ≠ "" && n ≠ 0 then Action.handle n .default
      if beside then
        Action.handle 2 .ignored
        Action.handle 3 .ignored
        if first then
          Action.close 0
          let _ ← Action.openFile "/dev/null" .read
      let (result, _) ← ((concluded fuel action).run).run child
      return result.toOption.getD 2)

/-- Carries out an action as all that is left for a shell, with the trap for its end. The status of the shell comes
back. -/
def concluded : Nat → ShellAction Nat → ShellAction Nat
  | 0, _ => return 2
  | fuel + 1, action => do
    let result ← attempt action
    let _ ← flush
    leadAllBack
    modify fun s =>
      let status := match result with
        | .ok n => n
        | .error .exit => s.kept.getD s.status
        | .error _ => s.status
      { s with status, kept := some status, skip := none, loopDepth := 0 }
    let s ← get
    match s.traps.lookup 0 with
    | none => return s.status
    | some text =>
      set { s with traps := s.traps.filter (·.1 ≠ 0) }
      let result ← attempt (runText fuel .plain text.toList)
      let _ ← flush
      let after ← get
      return match result with
        | .ok _ => s.status
        | .error .exit => after.kept.getD s.status
        | .error _ => after.status

/-- Carries out the commands of a text, up to one that leaves it. The status of the last one comes back. -/
def runText : Nat → Manner → List Char → ShellAction Nat
  | 0, _, _ => exhausted
  | fuel + 1, m, text => do
    let s ← get
    runCommands fuel m (readingLimit text) 0 (.ofText text 1 s.aliases s.nextDocument)

/-- Carries out the commands of a text after those that were carried out with a status. -/
def runCommands : Nat → Manner → Nat → Nat → Source → ShellAction Nat
  | 0, _, _, _, _ => exhausted
  | fuel + 1, m, limit, status, source => do
    let s ← get
    match readCommand limit { source with aliases := s.aliases, documents := [], nextDocument := s.nextDocument } with
    | .error e =>
      set { s with complaintLine := e.line }
      giveUp s!"Syntax error: {e.message}"
    | .ok (none, _) => return status
    | .ok (some recipe, source) =>
      set { s with documents := source.documents ++ s.documents, nextDocument := source.nextDocument }
      let last ← evaluate fuel m recipe
      let status := match recipe with
        | .nothing => status
        | _ => last
      if (← get).skip.isSome then return status
      runCommands fuel m limit status source

/-- Carries out the traps of signals that have come. -/
def runTraps : Nat → ShellAction Unit
  | 0 => exhausted
  | fuel + 1 => do
    if (← get).skip.isSome then return
    let new ← onHost Action.caught
    let s ← get
    let signals := (s.signals ++ new).eraseDups.mergeSort (· ≤ ·)
    if signals.isEmpty then return
    let status := s.kept.getD s.status
    set { s with signals := [], kept := some status }
    for n in signals do
      match (← get).traps.lookup n with
      | some text =>
        if text ≠ "" then
          let _ ← runText fuel .plain text.toList
          modify fun s => { s with status := if s.skip = some .returns then s.status else status }
      | none => pure ()
    modify fun after => { after with kept := s.kept }

/-- Carries out a recipe. Its status comes back. -/
def evaluate : Nat → Manner → Recipe → ShellAction Nat
  | 0, _, _ => exhausted
  | fuel + 1, m, recipe => do
    if (← get).hasOption 'n' then return (← get).status
    runTraps fuel
    let inner : Manner := { m with isLast := false }
    let (checks, status) ← match recipe with
      | .nothing => pure (false, (← get).status)
      | .simple line settings words redirections => do
        pure (true, ← simple fuel m line settings words redirections)
      | .sequence first second => do
        let status ← evaluate fuel inner first
        if (← get).skip.isSome then pure (false, status) else pure (false, ← evaluate fuel m second)
      | .and first second => do
        let status ← evaluate fuel .test first
        if status ≠ 0 || (← get).skip.isSome then pure (false, status) else pure (false, ← evaluate fuel m second)
      | .or first second => do
        let status ← evaluate fuel .test first
        if status = 0 || (← get).skip.isSome then pure (false, status) else pure (false, ← evaluate fuel m second)
      | .not r => do
        let status ← evaluate fuel .test r
        pure (false, if status = 0 then 1 else 0)
      | .pipeline rs => do
        let job ← pipeline fuel m false rs
        pure (true, ← finishJob job)
      | .beside line r => do
        enterLine line
        startBeside fuel m r
        pure (true, 0)
      | .redirected line r redirections => do
        enterLine line
        pure (false, ← redirected fuel inner r redirections)
      | .apart line r redirections => do
        enterLine line
        pure (true, ← apart fuel m r redirections)
      | .choice test yes no => do
        let status ← evaluate fuel .test test
        if (← get).skip.isSome then pure (false, status)
        else if status = 0 then pure (false, ← branch fuel m yes)
        else pure (false, ← branch fuel m no)
      | .loop untilSuccess test body => do
        modify fun s => { s with loopDepth := s.loopDepth + 1 }
        let status ← loop fuel inner untilSuccess test body 0
        modify fun s => { s with loopDepth := s.loopDepth - 1 }
        pure (false, status)
      | .forEach line name words body => do
        enterLine line
        let values ← allFields fuel words
        modify fun s => { s with loopDepth := s.loopDepth + 1 }
        let status ← forEach fuel inner name body values 0
        modify fun s => { s with loopDepth := s.loopDepth - 1 }
        pure (false, status)
      | .select line word arms => do
        enterLine line
        let text ← wordText fuel .whole word
        pure (false, ← select fuel m text.toList arms)
      | .define line name body => do
        modify fun s => { s with functions := (name, line, body) :: s.functions.filter (·.1 ≠ name) }
        pure (false, 0)
    modify fun s => { s with status }
    runTraps fuel
    let s ← get
    if m.isLast || (checks && status ≠ 0 && s.hasOption 'e' && !m.isTested) then throw .finished
    return s.status

/-- Carries out a branch of a choice. One that is empty succeeds. -/
def branch : Nat → Manner → Recipe → ShellAction Nat
  | 0, _, _ => exhausted
  | _, _, .nothing => return 0
  | fuel + 1, m, recipe => evaluate fuel m recipe

def loop : Nat → Manner → Bool → Recipe → Recipe → Nat → ShellAction Nat
  | 0, _, _, _, _, _ => exhausted
  | fuel + 1, m, untilSuccess, test, body, status => do
    let tested ← evaluate fuel .test test
    match ← loopStep with
    | .leaveAll => return tested
    | .leave => return status
    | .again => loop fuel m untilSuccess test body status
    | .next =>
      if (tested = 0) == untilSuccess then return status
      let status ← evaluate fuel m body
      match ← loopStep with
      | .leaveAll => return status
      | .leave => return status
      | _ => loop fuel m untilSuccess test body status

/-- Carries out a loop over values. -/
def forEach : Nat → Manner → String → Recipe → List String → Nat → ShellAction Nat
  | 0, _, _, _, _, _ => exhausted
  | _, _, _, _, [], status => return status
  | fuel + 1, m, name, body, value :: rest, _ => do
    setVariable name value false
    let status ← evaluate fuel m body
    match ← loopStep with
    | .leaveAll => return status
    | .leave => return status
    | _ => forEach fuel m name body rest status

/-- Carries out the first arm with a pattern that matches. -/
def select : Nat → Manner → List Char → List (List Word × Recipe) → ShellAction Nat
  | 0, _, _, _ => exhausted
  | _, _, _, [] => return 0
  | fuel + 1, m, text, (patterns, body) :: rest => do
    if ← matchesAny fuel text patterns then branch fuel m body else select fuel m text rest

def matchesAny : Nat → List Char → List Word → ShellAction Bool
  | 0, _, _ => exhausted
  | _, _, [] => return false
  | fuel + 1, text, pattern :: rest => do
    let signs := Sign.ofText (glyphs (← items fuel .whole true pattern))
    if Sign.matchAll signs text then return true else matchesAny fuel text rest

def redirected : Nat → Manner → Recipe → List Redirection → ShellAction Nat
  | 0, _, _, _ => exhausted
  | fuel + 1, m, recipe, redirections => do
    let list ← redirections.mapM (destination fuel)
    beginRedirecting
    let status ← match ← attempt (redirect fuel true list) with
      | .ok () => evaluate fuel m recipe
      | .error .failure => pure 2
      | .error stop => throw stop
    leadBack false
    return status

/-- Carries out a recipe in a shell of its own. If nothing is left to do, that is this one. -/
def apart : Nat → Manner → Recipe → List Redirection → ShellAction Nat
  | 0, _, _, _ => exhausted
  | fuel + 1, m, recipe, redirections => do
    let list ← redirections.mapM (destination fuel)
    let body : ShellAction Nat := do
      redirect fuel false list
      evaluate fuel { m with isLast := true } recipe
    if m.isLast && !hasTraps (← get) then body
    else
      let child ← forkShell fuel false false body
      finishJob (← newJob [child])

/-- Begins to carry out a recipe beside the shell. -/
def startBeside : Nat → Manner → Recipe → ShellAction Unit
  | 0, _, _ => exhausted
  | fuel + 1, m, recipe => do
    match recipe with
    | .pipeline rs =>
      let _ ← pipeline fuel m true rs
    | .apart _ r redirections =>
      let list ← redirections.mapM (destination fuel)
      let child ← forkShell fuel true true do
        redirect fuel false list
        evaluate fuel .last r
      let _ ← newJob [child]
      modify fun s => { s with background := some child }
    | r =>
      let child ← forkShell fuel true true (evaluate fuel .last r)
      let _ ← newJob [child]
      modify fun s => { s with background := some child }

/-- Starts the recipes of a pipeline. The number of their job comes back. -/
def pipeline : Nat → Manner → Bool → List Recipe → ShellAction Nat
  | 0, _, _, _ => exhausted
  | fuel + 1, m, beside, rs => do
    let children ← links fuel { m with isLast := true } beside none rs
    if beside then modify fun s => { s with background := children.getLast? }
    newJob children

/-- Starts recipes that are linked by pipes. The first one reads from a descriptor, if there is one. -/
def links : Nat → Manner → Bool → Option Nat → List Recipe → ShellAction (List Nat)
  | 0, _, _, _, _ => exhausted
  | _, _, _, _, [] => return []
  | fuel + 1, m, beside, source, recipe :: rest => do
    let pipe ← if rest.isEmpty then pure none else some <$> onHost Action.openPipe
    let child ← forkShell fuel beside source.isNone do
      match pipe with
      | some (next, _) => onHost (Action.close next)
      | none => pure ()
      match source with
      | some d => onHost (Action.move d 0)
      | none => pure ()
      match pipe with
      | some (_, target) => onHost (Action.move target 1)
      | none => pure ()
      evaluate fuel m recipe
    match source with
    | some d => onHost (Action.close d)
    | none => pure ()
    match pipe with
    | some (_, target) => onHost (Action.close target)
    | none => pure ()
    return child :: (← links fuel m beside (pipe.map Prod.fst) rest)

def allFields : Nat → List Word → ShellAction (List String)
  | 0, _ => exhausted
  | _, [] => return []
  | fuel + 1, word :: rest => do
    let first ← wordFields fuel word
    return first ++ (← allFields fuel rest)

/-- The fields of the first word that has some, and the words after it. -/
def firstFields : Nat → List Word → ShellAction (List String × List Word)
  | 0, _ => exhausted
  | _, [] => return ([], [])
  | fuel + 1, word :: rest => do
    match ← wordFields fuel word with
    | [] => firstFields fuel rest
    | found => return (found, rest)

/-- Looks up the name of a command. -/
def choose : Nat → Choice → ShellAction Choice
  | 0, _ => exhausted
  | fuel + 1, c => do
    match c.arguments with
    | [] => return c
    | name :: rest =>
      let found ← lookUp (← get).search name (!c.isPlain)
      match found with
      | .tool kind =>
        let c := { c with found := some found, tool := c.tool <|> some kind }
        if name = "command" then
          match ← behindCommand fuel [name] rest c.words c.search with
          | (true, passed, arguments, words, search) =>
            choose fuel { c with passed := c.passed ++ passed, arguments, words, search, isPlain := true }
          | (false, passed, arguments, words, _) => return { c with arguments := passed ++ arguments, words }
        else return c
      | found => return { c with found := some found }

/-- Passes over `command` and its options. The answer says whether a command follows that is to be carried out. -/
def behindCommand : Nat → List String → List String → List Word → Option String →
    ShellAction (Bool × List String × List String × List Word × Option String)
  | 0, _, _, _, _ => exhausted
  | fuel + 1, passed, arguments, words, search => do
    let (arguments, words) ← if arguments.isEmpty then firstFields fuel words else pure (arguments, words)
    match arguments with
    | [] => return (false, passed, [], words, search)
    | argument :: rest =>
      match argument.toList with
      | ['-', '-'] =>
        let (rest, words) ← if rest.isEmpty then firstFields fuel words else pure (rest, words)
        return (!rest.isEmpty, passed ++ [argument], rest, words, search)
      | '-' :: 'p' :: letters =>
        if letters.all (· = 'p') then behindCommand fuel (passed ++ [argument]) rest words (some standardSearch)
        else return (false, passed, arguments, words, search)
      | '-' :: _ :: _ => return (false, passed, arguments, words, search)
      | _ => return (true, passed, arguments, words, search)

/-- The arguments that words make. With `takesSettings`, a setting stays one argument. -/
def argumentsOf : Nat → Bool → List Word → ShellAction (List String)
  | 0, _, _ => exhausted
  | _, _, [] => return []
  | fuel + 1, takesSettings, word :: rest => do
    let first ← match takesSettings, word.setting? with
      | true, some (name, value) => do pure [name ++ "=" ++ (← wordText fuel .setting value)]
      | _, _ => wordFields fuel word
    return first ++ (← argumentsOf fuel takesSettings rest)

/-- Sets the variables of a command. -/
def assignAll : Nat → Bool → Bool → List (String × Word) → ShellAction (List String)
  | 0, _, _, _ => exhausted
  | _, _, _, [] => return []
  | fuel + 1, isLocal, exports, (name, word) :: rest => do
    let value ← wordText fuel .setting word
    if isLocal then keepLocal name
    setVariable name value (isLocal || exports)
    return (name ++ "=" ++ value) :: (← assignAll fuel isLocal exports rest)

/-- Shows a command before it is carried out, if that is wanted. -/
def trace : Nat → Nat → List String → ShellAction Unit
  | 0, _, _ => exhausted
  | fuel + 1, target, words => do
    let s ← get
    if s.hasOption 'x' && !s.tracing then
      let prompt := ((s.variableValue? "PS4").getD "").toList
      let parts := (readQuoted prompt).toOption.getD (textWord prompt)
      set { s with tracing := true }
      let shown ← items fuel .quoted false parts
      modify fun s => { s with tracing := false }
      let _ ← writeOctets target (textOf shown ++ (" ".intercalate words).toList ++ ['\n'])

def simple : Nat → Manner → Nat → List (String × Word) → List Word → List Redirection → ShellAction Nat
  | 0, _, _, _, _, _ => exhausted
  | fuel + 1, m, line, settings, words, redirections => do
    enterLine line
    modify fun s => { s with outputStatus := 0 }
    let (arguments, words) ← firstFields fuel words
    let c ← choose fuel ⟨[], arguments, words, none, false, none, none⟩
    let takesSettings := match c.found with
      | some (.tool kind) => kind.takesSettings
      | _ => false
    let arguments := c.arguments ++ (← argumentsOf fuel takesSettings c.words)
    let isSpecial := c.tool.any (·.isSpecial)
    let isLocal := c.found.isSome && !isSpecial
    let stays := match c.found with
      | some (.tool _) => arguments.head? = some "exec"
      | _ => false
    if isLocal then modify fun s => { s with locals := [] :: s.locals }
    let list ← redirections.mapM (destination fuel)
    if !list.isEmpty then beginRedirecting
    let status ← match ← attempt (redirect fuel true list) with
      | .error .failure =>
        modify fun s => { s with status := 2 }
        if isSpecial then throw .failure
        pure 2
      | .error stop => throw stop
      | .ok () => do
        let s ← get
        let traceTarget := if list.isEmpty then 2 else (((s.redirected.headD []).lookup 2).join).getD 2
        let assigned ← assignAll fuel isLocal (stays && 1 < arguments.length) settings
        trace fuel traceTarget (assigned ++ c.passed ++ arguments)
        match c.found with
        | none => pure (← get).outputStatus
        | some (.tool _) => do
          match ← runTool fuel m (arguments.headD "") arguments.tail with
          | .ok status => pure status
          | .error .failure => if isSpecial then throw .failure else pure (← get).status
          | .error stop => throw stop
        | some _ => runFound fuel m c arguments
    if !list.isEmpty then leadBack stays
    if isLocal then restoreLocals
    return status

/-- Carries out a function or a program. -/
def runFound : Nat → Manner → Choice → List String → ShellAction Nat
  | 0, _, _, _ => exhausted
  | fuel + 1, m, c, arguments => do
    let s ← get
    let search := c.search.getD s.search
    let name := arguments.headD ""
    match ← lookUp search name (!c.isPlain) with
    | .function line body => callFunction fuel m line body arguments.tail
    | .unknown r =>
      complain s!"{name}: {commandMessage r}"
      return 127
    | _ =>
      if m.isLast && !hasTraps s then
        let status ← executeCommand search arguments
        modify fun s => { s with status }
        throw .finished
      else
        let child ← onHost (Action.fork do
          let (result, _) ← ((executeCommand search arguments).run).run s
          return result.toOption.getD 2)
        finishJob (← newJob [child])

def callFunction : Nat → Manner → Nat → Recipe → List String → ShellAction Nat
  | 0, _, _, _, _ => exhausted
  | fuel + 1, m, line, body, arguments => do
    let before ← get
    set { before with
      positional := arguments, functionLine := line, loopDepth := 0, optionIndex := 1, optionOffset := 0 }
    let result ← attempt (evaluate fuel { m with isLast := false } body)
    modify fun s => { s with
      positional := before.positional
      functionLine := before.functionLine
      loopDepth := before.loopDepth
      optionIndex := before.optionIndex
      optionOffset := before.optionOffset
      skip := if s.skip = some .returns then none else s.skip }
    match result with
    | .ok status => return status
    | .error stop => throw stop

/-- Carries out a tool of the shell, and writes what it has to write. -/
def runTool : Nat → Manner → String → List String → ShellAction (Except Stop Nat)
  | 0, _, _, _ => exhausted
  | fuel + 1, m, name, arguments => do
    let before ← get
    set { before with tool := some name }
    let result ← attempt (toolAction fuel m name arguments)
    let written ← flush
    let now ← get
    let status := result.toOption.getD now.status
    if !written then complain s!"{name}: I/O error"
    let status := if written then status else status ||| 1
    modify fun s => { s with tool := before.tool, status }
    match result with
    | .ok _ => return .ok status
    | .error .failure =>
      leadBackTo before.redirected.length (← get).redirected.length
      modify fun s => { s with loopDepth := before.loopDepth }
      return .error .failure
    | .error stop => return .error stop

def toolAction : Nat → Manner → String → List String → ShellAction Nat
  | 0, _, _, _ => exhausted
  | fuel + 1, m, name, arguments => do
    match name with
    | "eval" => if arguments.isEmpty then return 0 else
      runText fuel { m with isLast := false } (" ".intercalate arguments).toList
    | "." =>
      let (_, files) ← optionsOf "" "" arguments
      match files with
      | [] => return 0
      | file :: _ => runFile fuel file
    | "exec" =>
      let (_, arguments) ← optionsOf "" "" arguments
      if arguments.isEmpty then return 0
      let status ← executeCommand (← get).search arguments
      modify fun s => { s with status }
      throw .finished
    | name => Tool.run name arguments

def runFile : Nat → String → ShellAction Nat
  | 0, _ => exhausted
  | fuel + 1, file => do
    let s ← get
    let files ← onHost Action.files
    let isFile (path : String) : Bool := match files.look (pathOf path) with
      | .ok (.file ..) => true
      | _ => false
    let path ← if file.toList.contains '/' then pure file else
      match (candidates s.search file).find? isFile with
      | some path => pure path
      | none => giveUp s!"{file}: not found"
    let d ← openOrGiveUp path .read
    let bytes ← readLeft d
    onHost (Action.close d)
    modify fun s => { s with tool := some path }
    let status ← runText fuel .plain (Text.widen bytes)
    modify fun s => { s with skip := if s.skip = some .returns then none else s.skip }
    return status

end

end CompileDb.Shell
