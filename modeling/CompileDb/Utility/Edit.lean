import CompileDb.Shell.Printing
import CompileDb.Utility.Regex
import CompileDb.Utility.Report

/-!
# Editing streams

A script of edits is carried out for each line. An edit has the addresses of the lines it is for; it changes the line at
hand, writes, keeps texts for later or leads to another edit.
-/

namespace CompileDb.Utility.Edit

open Host

/-! ## Scripts -/

/-- The address of a line. -/
inductive Spot where
  | line (n : Nat)
  | last
  | pattern (r : Option Regex) (ignoresCase : Bool)
  /-- Every so many lines from one on. -/
  | every (first step : Nat)
  /-- So many lines after the first address. -/
  | after (n : Nat)
  /-- The next line whose number is a multiple of this one. -/
  | multiple (n : Nat)

/-- A part of what a match is replaced with. -/
inductive Replacement where
  | text (t : List Char)
  /-- What a group has matched, or the whole match for zero. -/
  | group (n : Nat)
  /-- Letters after this are changed in a way. -/
  | letters (change : Char)

/-- How a substitution is done. -/
structure Substitution where
  pattern : Option Regex
  replacement : List Replacement
  ignoresCase : Bool
  all : Bool
  /-- The match from which on matches are replaced. -/
  firstMatch : Nat
  prints : Bool
  /-- The file to which the line is written. -/
  file : Option String

/-- When another edit comes next. -/
inductive Jump where
  | always
  | changed
  | unchanged
deriving DecidableEq, Repr

/-- What an edit does. -/
inductive Act where
  | begin
  | close
  | label (name : String)
  | substitute (s : Substitution)
  | exchange (source target : List Char)
  /-- An edit of one letter. -/
  | plain (letter : Char)
  /-- Text that is written behind, before or instead of the line. -/
  | text (letter : Char) (t : List Char)
  | jump (condition : Jump) (label : String)
  /-- A file comes behind the line. -/
  | insert (file : String)
  /-- The line is written to a file. -/
  | write (file : String)
  | quit (prints : Bool) (status : Nat)

/-- An edit with its addresses. -/
structure Step where
  first : Option Spot
  second : Option Spot
  inverted : Bool
  act : Act

/-- Why a script cannot be read, and the number of characters that were read of it. -/
structure ScriptFault where
  offset : Nat
  message : String

/-- A script being read. -/
structure Script where
  rest : List Char
  total : Nat

abbrev Reading := StateT Script (Except ScriptFault)

namespace Reading

def fail {α : Type} (message : String) : Reading α := do
  let s ← get
  throw ⟨s.total - s.rest.length, message⟩

def take : Reading (Option Char) := do
  let s ← get
  match s.rest with
  | c :: rest =>
    set { s with rest }
    return some c
  | [] => return none

def peek : Reading (Option Char) := return (← get).rest.head?

def skip (passes : Char → Bool) : Reading Unit := modify fun s => { s with rest := s.rest.dropWhile passes }

def takeWhile (belongs : Char → Bool) : Reading (List Char) := do
  let s ← get
  set { s with rest := s.rest.dropWhile belongs }
  return s.rest.takeWhile belongs

def isBlank (c : Char) : Bool := c = ' ' || c = '\t'

/-- The bracketed set at the front of a text, if it is closed on the same line, and the text behind it. -/
def bracketed? (text : List Char) : Option (List Char × List Char) :=
  let front := match text with
    | '[' :: '^' :: ']' :: _ => 3
    | '[' :: '^' :: _ => 2
    | '[' :: ']' :: _ => 2
    | _ => 1
  let inner := (text.drop front).takeWhile fun c => c ≠ ']' && c ≠ '\n'
  match text.drop (front + inner.length) with
  | ']' :: rest => some (text.take front ++ inner ++ [']'], rest)
  | _ => none

/-- Takes a text up to a delimiter. Behind a backslash the delimiter stands for itself, and within a set of an expression
it does not end the text. -/
def delimited (delimiter : Char) (isExpression : Bool) (lack : String) : Nat → List Char → Reading (List Char)
  | 0, _ => fail lack
  | fuel + 1, seen => do
    let s ← get
    let set := if isExpression then bracketed? s.rest else none
    match ← take, set with
    | none, _ => fail lack
    | some '[', some (text, rest) =>
      modify fun s => { s with rest }
      delimited delimiter isExpression lack fuel (text.reverse ++ seen)
    | some c, _ =>
      if c = delimiter then return seen.reverse
      else if c = '\\' then
        match ← take with
        | none => fail lack
        | some d =>
          if d = delimiter then delimited delimiter isExpression lack fuel (d :: seen)
          else delimited delimiter isExpression lack fuel (d :: '\\' :: seen)
      else delimited delimiter isExpression lack fuel (c :: seen)

/-- The expression of a text. An empty one is the last that was used. -/
def expression (extended : Bool) (text : List Char) : Reading (Option Regex) := do
  if text.isEmpty then return none
  match Regex.ofPattern extended text with
  | .ok r => return some r
  | .error e => fail e

/-- The parts of a replacement. `run` is text that was read, last character first. -/
def replacement : List Char → List Char → List Replacement
  | '\\' :: c :: rest, run =>
    let before : List Replacement := if run.isEmpty then [] else [.text run.reverse]
    if c.isDigit then before ++ .group (c.toNat - 48) :: replacement rest []
    else if c ∈ ['U', 'L', 'E', 'u', 'l'] then before ++ .letters c :: replacement rest []
    else
      let d := match c with
        | 'n' => '\n'
        | 't' => '\t'
        | c => c
      replacement rest (d :: run)
  | '&' :: rest, run => (if run.isEmpty then [] else [.text run.reverse]) ++ .group 0 :: replacement rest []
  | c :: rest, run => replacement rest (c :: run)
  | [], run => if run.isEmpty then [] else [.text run.reverse]

def number : Reading Nat := return (Shell.decimal? (← takeWhile Char.isDigit)).getD 0

def spot (extended : Bool) : Reading (Option Spot) := do
  match ← peek with
  | some '$' =>
    let _ ← take
    return some .last
  | some '+' =>
    let _ ← take
    return some (.after (← number))
  | some '~' =>
    let _ ← take
    return some (.multiple (← number))
  | some c =>
    if c.isDigit then
      let n ← number
      if (← peek) = some '~' then
        let _ ← take
        return some (.every n (← number))
      return some (.line n)
    else if c = '/' || c = '\\' then
      let _ ← take
      let delimiter ← if c = '\\' then do pure ((← take).getD '/') else pure c
      let s ← get
      let text ← delimited delimiter true "unterminated address regex" (s.rest.length + 1) []
      let r ← expression extended text
      let ignores := (← peek) = some 'I'
      if ignores then
        let _ ← take
      return some (.pattern r ignores)
    else return none
  | none => return none

def fileName : Reading String := do
  skip isBlank
  let name ← takeWhile (· ≠ '\n')
  if name.isEmpty then fail "missing filename in r/R/w/W commands"
  return .ofList name

def flags : Nat → Substitution → Reading Substitution
  | 0, s => return s
  | fuel + 1, s => do
    match ← peek with
    | some 'g' => do
      let _ ← take
      flags fuel { s with all := true }
    | some 'p' => do
      let _ ← take
      flags fuel { s with prints := true }
    | some 'i' => do
      let _ ← take
      flags fuel { s with ignoresCase := true }
    | some 'I' => do
      let _ ← take
      flags fuel { s with ignoresCase := true }
    | some 'w' => do
      let _ ← take
      return { s with file := some (← fileName) }
    | some c =>
      if c.isDigit then do
        let n ← number
        flags fuel { s with firstMatch := n }
      else if isBlank c || c = ';' || c = '\n' || c = '\x7d' || c = '#' then return s
      else do
        let _ ← take
        fail "unknown option to \x60s\x27"
    | none => return s

/-- Text behind a letter, up to the end of its line. Lines that end in a backslash go on. -/
def textLines : Nat → List Char → Reading (List Char)
  | 0, seen => return seen.reverse
  | fuel + 1, seen => do
    match ← take with
    | none => return seen.reverse
    | some '\n' => return seen.reverse
    | some '\\' =>
      match ← take with
      | none => return seen.reverse
      | some c => textLines fuel ((if c.isAlpha then (Shell.escapeOctet? c).getD c else c) :: seen)
    | some c => textLines fuel (c :: seen)

/-- Characters that are exchanged, with newlines and backslashes behind backslashes. -/
def exchangeable : List Char → List Char
  | '\\' :: '\\' :: rest => '\\' :: exchangeable rest
  | '\\' :: 'n' :: rest => '\n' :: exchangeable rest
  | c :: rest => c :: exchangeable rest
  | [] => []

def act (extended : Bool) (letter : Char) : Reading Act := do
  let length := (← get).rest.length + 1
  match letter with
  | '\x7b' => return .begin
  | '\x7d' => return .close
  | 's' =>
    match ← take with
    | none => fail "unterminated \x60s\x27 command"
    | some d =>
      let pattern ← delimited d true "unterminated \x60s\x27 command" length []
      let target ← delimited d false "unterminated \x60s\x27 command" length []
      let sub ← flags length ⟨none, replacement target [], false, false, 1, false, none⟩
      let r ← expression extended pattern
      let groups := (r.map Regex.groupCount).getD 9
      let lacking := sub.replacement.findSome? fun
        | .group n => if groups < n then some n else none
        | _ => none
      if let some n := lacking then fail s!"invalid reference \\{n} on \x60s\x27 command\x27s RHS"
      return .substitute { sub with pattern := r }
  | 'y' =>
    match ← take with
    | none => fail "unterminated \x60y\x27 command"
    | some d =>
      let source := exchangeable (← delimited d false "unterminated \x60y\x27 command" length [])
      let target := exchangeable (← delimited d false "unterminated \x60y\x27 command" length [])
      if source.length ≠ target.length then fail "strings for \x60y\x27 command are different lengths"
      return .exchange source target
  | ':' =>
    skip isBlank
    let label ← takeWhile fun c => c ≠ '\n' && c ≠ ';'
    if label.isEmpty then fail "\":\" lacks a label"
    return .label (.ofList label)
  | 'r' => return .insert (← fileName)
  | 'w' => return .write (← fileName)
  | 'q' =>
    skip isBlank
    return .quit true (← number)
  | 'Q' =>
    skip isBlank
    return .quit false (← number)
  | c =>
    if c = 'b' || c = 't' || c = 'T' then
      skip isBlank
      let condition : Jump := if c = 'b' then .always else if c = 't' then .changed else .unchanged
      return .jump condition (.ofList (← takeWhile fun c => c ≠ '\n' && c ≠ ';' && c ≠ '\x7d' && c ≠ ' '))
    else if c = 'a' || c = 'i' || c = 'c' then
      skip isBlank
      if (← peek).isNone then fail "expected \\ after \x60a\x27, \x60c\x27 or \x60i\x27"
      if (← peek) = some '\\' then
        let _ ← take
        modify fun s => match s.rest.dropWhile isBlank with
          | '\n' :: rest => { s with rest }
          | _ => s
      return .text c (← textLines length [])
    else if c ∈ ['p', 'P', 'd', 'D', 'n', 'N', 'h', 'H', 'g', 'G', 'x', '=', 'l', 'z', 'F'] then
      if c = 'l' then
        skip isBlank
        skip Char.isDigit
      return .plain c
    else fail s!"unknown command: \x60{c}\x27"

/-- An address of a script that stands where it may not. -/
def misplaced (first second : Option Spot) : Bool :=
  match first, second with
  | some (.line 0), some (.pattern ..) => false
  | some (.line 0), _ => true
  | _, _ => false

/-- The edits of a script, at a depth of blocks. -/
def steps (extended : Bool) : Nat → Nat → List Step → Reading (List Step)
  | 0, _, seen => return seen.reverse
  | fuel + 1, depth, seen => do
    skip fun c => isBlank c || c = '\n' || c = ';'
    match ← peek with
    | none =>
      if depth ≠ 0 then throw ⟨0, "unmatched \x60\x7b\x27"⟩
      return seen.reverse
    | some '#' =>
      skip (· ≠ '\n')
      steps extended fuel depth seen
    | some _ =>
      let first ← spot extended
      skip isBlank
      let second ← if first.isSome && (← peek) = some ',' then do
          let _ ← take
          skip isBlank
          match ← spot extended with
          | some s => pure (some s)
          | none => fail "unexpected \x60,\x27"
        else pure none
      skip isBlank
      let inverted := (← peek) = some '!'
      skip fun c => c = '!' || isBlank c
      match ← take with
      | none => fail "missing command"
      | some letter =>
        if misplaced first second then fail "invalid usage of line address 0"
        let act ← act extended letter
        let depth ← match act with
          | .plain _ => do
            ending
            pure depth
          | .substitute _ => do
            ending
            pure depth
          | .begin => pure (depth + 1)
          | .close => do
            if depth = 0 then fail "unexpected \x60\x7d\x27"
            ending
            pure (depth - 1)
          | _ => pure depth
        steps extended fuel depth (⟨first, second, inverted, act⟩ :: seen)
where
  /-- The end of an edit. -/
  ending : Reading Unit := do
    skip isBlank
    match ← peek with
    | none => return
    | some c =>
      if c ∈ [';', '\n', '\x7d', '#'] then return
      else
        let _ ← take
        fail "extra characters after command"

end Reading

def stepsOf (extended : Bool) (script : List Char) : Except ScriptFault (List Step) :=
  ((Reading.steps extended (script.length + 1) 0 []).run ⟨script, script.length⟩).map Prod.fst

/-! ## Carrying out -/

/-- What is known while lines are edited. -/
structure State where
  line : List Char
  kept : List Char
  number : Nat
  /-- The lines that are not yet read. -/
  rest : List (List Char)
  /-- What was written, last piece first. -/
  output : List (List Char)
  /-- What is written when the line is done, last piece first. -/
  later : List (List Char)
  /-- The edits whose range has begun, with the line where it ends if that is known. -/
  ranges : List (Nat × Option Nat)
  changed : Bool
  /-- The expression that was used last. -/
  lastPattern : Regex
  /-- What was written to files, last piece first. -/
  written : List (String × List Char)
  /-- The files that are inserted. -/
  inserted : List (String × List Char)
  /-- The name of the file that is read. -/
  file : String
  /-- What lines end in. -/
  ending : Char
  /-- The last line lacks its end. -/
  lacksEnd : Bool

/-- Where the edits of a line go on. -/
inductive Flow where
  | at (index : Nat)
  /-- The line is done. -/
  | done (prints : Bool)
  /-- The line is done, but the next is not read. -/
  | again
  | quit (prints : Bool) (status : Nat)

namespace State

def isLast (s : State) : Bool := s.rest.isEmpty

/-- Writes a piece. What was written before it gets its end, if it lacks it. -/
def put (s : State) (piece : List Char) : State :=
  let isWhole := s.output.head?.all fun last => last.getLast? = some s.ending || last.getLast? = some '\n'
  if piece.isEmpty then s else { s with output := piece :: if isWhole then s.output else [s.ending] :: s.output }

/-- Writes a line of its own. -/
def write (s : State) (line : List Char) : State := s.put (line ++ ['\n'])

/-- A part of the line at hand with its end, which the last line may lack. -/
def ended (s : State) (part : List Char) : List Char := if s.isLast && s.lacksEnd then part else part ++ [s.ending]

def writeTo (s : State) (file : String) : State :=
  if file = "/dev/stdout" then s.put (s.ended s.line) else { s with written := (file, s.ended s.line) :: s.written }

/-- Writes what comes behind the line. -/
def putLater (s : State) : State := s.later.reverse.foldl put { s with later := [] }

/-- The expression of an edit, which is the last one that was used if it has none. -/
def patternOf (s : State) (r : Option Regex) : Regex := r.getD s.lastPattern

/-- Whether an address is that of the line at hand. -/
def matchesSpot (s : State) : Spot → Bool
  | .line n => s.number = n
  | .last => s.isLast
  | .pattern r ignoresCase => (s.patternOf r).matchesIn ignoresCase s.line
  | .every first step => if step = 0 then s.number = first else decide (first ≤ s.number) && (s.number - first) % step = 0
  | .after _ => false
  | .multiple _ => false

/-- Begins or ends the range of an edit, and says whether the line at hand is in it. -/
def select (s : State) (index : Nat) (step : Step) : Bool × State :=
  match step.first, step.second with
  | none, _ => (true, s)
  | some first, none => (s.matchesSpot first, s)
  | some first, some second =>
    let others := s.ranges.filter (·.1 ≠ index)
    match s.ranges.lookup index with
    | some limit =>
      let ends := match limit, second with
        | some n, _ => decide (n ≤ s.number)
        | none, second => s.matchesSpot second
      let isPast := match limit with
        | some n => decide (n < s.number)
        | none => false
      if isPast then (s.matchesSpot first, { s with ranges := others })
      else (true, if ends then { s with ranges := others } else s)
    | none =>
      if s.matchesSpot first then
        let limit := match second with
          | .line n => some n
          | .after n => some (s.number + n)
          | .multiple n => some (if n = 0 then s.number else (s.number + n - 1) / n * n)
          | _ => none
        let isSingle := limit.any (· ≤ s.number)
        (true, if isSingle then s else { s with ranges := (index, limit) :: others })
      else (false, s)

def filled (m : List Char) (groups : List (Nat × List Char)) (parts : List Replacement) : List Char :=
  let change (mode : Char) (once : Option Char) (t : List Char) : List Char :=
    let t := match mode with
      | 'U' => t.map Char.toUpper
      | 'L' => t.map Char.toLower
      | _ => t
    match once, t with
    | some 'u', c :: rest => c.toUpper :: rest
    | some 'l', c :: rest => c.toLower :: rest
    | _, t => t
  let step (state : List (List Char) × Char × Option Char) (part : Replacement) : List (List Char) × Char × Option Char :=
    let (out, mode, once) := state
    match part with
    | .letters c => if c = 'u' || c = 'l' then (out, mode, some c) else (out, c, none)
    | .text t => (change mode once t :: out, mode, if t.isEmpty then once else none)
    | .group n =>
      let t := if n = 0 then m else (groups.lookup n).getD []
      (change mode once t :: out, mode, if t.isEmpty then once else none)
  (parts.foldl step ([], 'E', none)).1.reverse.flatten

/-- Replaces matches from a place on. `count` is the number of the next match; `afterMatch` says that a match ends at the
place. The text comes back, and whether something was replaced. -/
def replaceFrom (r : Regex) (s : Substitution) : Nat → Nat → Bool → Place → List Char × Bool
  | 0, _, _, p => (p.after, false)
  | fuel + 1, count, afterMatch, p =>
    match r.find s.ignoresCase (p.after.length + 1) p [] with
    | none => (p.after, false)
    | some (skipped, m, q) =>
      let pass (count : Nat) (before : List Char) : List Char × Bool :=
        match m.isEmpty, q.after with
        | false, _ =>
          let (rest, changed) := replaceFrom r s fuel count true q
          (before ++ rest, changed)
        | true, [] => (before, false)
        | true, c :: rest =>
          let (rest, changed) := replaceFrom r s fuel count false { q with before := c :: q.before, after := rest }
          (before ++ c :: rest, changed)
      if m.isEmpty && skipped.isEmpty && afterMatch then pass count []
      else if count < s.firstMatch then pass (count + 1) (skipped ++ m)
      else
        let whole := skipped ++ filled m q.groups s.replacement
        if s.all then ((pass (count + 1) whole).1, true)
        else (whole ++ q.after, true)

def substitute (s : State) (sub : Substitution) : State :=
  let r := s.patternOf sub.pattern
  let (line, changed) := replaceFrom r sub (2 * s.line.length + 4) 1 false ⟨[], s.line, []⟩
  let s := { s with lastPattern := r }
  if changed then
    let s := { s with line, changed := true }
    let s := if sub.prints then s.put (s.ended line) else s
    sub.file.elim s s.writeTo
  else s

end State

/-- The index behind the end of the block that begins before an index. -/
def behindBlock (steps : List Step) : Nat → Nat → Nat → Nat
  | 0, index, _ => index
  | fuel + 1, index, depth =>
    match (steps[index]?).map Step.act with
    | some .begin => behindBlock steps fuel (index + 1) (depth + 1)
    | some .close => if depth = 0 then index + 1 else behindBlock steps fuel (index + 1) (depth - 1)
    | some _ => behindBlock steps fuel (index + 1) depth
    | none => index

/-- The index of a label, which is the end of the script if there is none. -/
def labelIndex (steps : List Step) (label : String) : Nat :=
  if label.isEmpty then steps.length
  else (steps.findIdx? fun s => match s.act with
    | .label l => l = label
    | _ => false).getD steps.length

def endLine (quiet prints : Bool) (s : State) : State :=
  (if prints && !quiet then s.put (s.ended s.line) else s).putLater

/-- The columns after which a spelled line goes on below. -/
def spelledWidth : Nat := 69

/-- A line with all its characters spelled out, and a dollar sign at its end. -/
def spelled (line : List Char) : List Char :=
  let escapes : List (Char × Char) :=
    [('\x07', 'a'), ('\x08', 'b'), ('\x0c', 'f'), ('\n', 'n'), ('\r', 'r'), ('\t', 't'), ('\x0b', 'v'), ('\\', '\\')]
  let digit (n : Nat) : Char := Char.ofNat (48 + n % 8)
  let one (c : Char) : List Char :=
    match escapes.lookup c with
    | some e => ['\\', e]
    | none =>
      if 32 ≤ c.toNat && c.toNat < 127 then [c]
      else ['\\', digit (c.toNat / 64), digit (c.toNat / 8), digit c.toNat]
  let step (state : List Char × Nat) (c : Char) : List Char × Nat :=
    let (seen, column) := state
    let shown := one c
    if spelledWidth < column + shown.length then (shown.reverse ++ '\n' :: '\\' :: seen, shown.length)
    else (shown.reverse ++ seen, column + shown.length)
  ((line.foldl step ([], 0)).1).reverse ++ ['$']

def perform (quiet : Bool) (steps : List Step) (s : State) (index : Nat) (act : Act) : State × Flow :=
  let next : Flow := .at (index + 1)
  match act with
  | .begin => (s, next)
  | .close => (s, next)
  | .label _ => (s, next)
  | .substitute sub => (s.substitute sub, next)
  | .exchange source target =>
    let put (c : Char) : Char := match source.idxOf? c with
      | some i => (target[i]?).getD c
      | none => c
    ({ s with line := s.line.map put }, next)
  | .jump condition label =>
    let s' := if condition = .always then s else { s with changed := false }
    let jumps := match condition with
      | .always => true
      | .changed => s.changed
      | .unchanged => !s.changed
    (s', if jumps then .at (labelIndex steps label) else next)
  | .insert file => ({ s with later := (s.inserted.lookup file).getD [] :: s.later }, next)
  | .write file => (s.writeTo file, next)
  | .quit prints status => (s, .quit prints status)
  | .text letter t =>
    let t := if t.isEmpty then [] else t ++ ['\n']
    match letter with
    | 'a' => ({ s with later := t :: s.later }, next)
    | 'i' => (s.put t, next)
    | _ => (s.put t, .done false)
  | .plain letter =>
    match letter with
    | 'p' => (s.put (s.ended s.line), next)
    | 'P' => (s.put (s.line.takeWhile (· ≠ s.ending) ++ [s.ending]), next)
    | 'l' => (s.write (spelled s.line), next)
    | 'z' => ({ s with line := [] }, next)
    | 'F' => (s.write s.file.toList, next)
    | '=' => (s.write (toString s.number).toList, next)
    | 'd' => (s, .done false)
    | 'D' =>
      match s.line.dropWhile (· ≠ s.ending) with
      | [] => (s, .done false)
      | _ :: line => ({ s with line }, .again)
    | 'h' => ({ s with kept := s.line }, next)
    | 'H' => ({ s with kept := s.kept ++ s.ending :: s.line }, next)
    | 'g' => ({ s with line := s.kept }, next)
    | 'G' => ({ s with line := s.line ++ s.ending :: s.kept }, next)
    | 'x' => ({ s with line := s.kept, kept := s.line }, next)
    | 'n' =>
      match s.rest with
      | [] => (s, .quit true 0)
      | line :: rest =>
        let s := endLine quiet true s
        ({ s with line, rest, number := s.number + 1 }, next)
    | 'N' =>
      match s.rest with
      | [] => (s, .quit true 0)
      | line :: rest =>
        let s := s.putLater
        ({ s with line := s.line ++ s.ending :: line, rest, number := s.number + 1 }, next)
    | _ => (s, next)

def editLine (quiet : Bool) (steps : List Step) : Nat → State → Nat → State × Flow
  | 0, s, _ => (s, .done true)
  | fuel + 1, s, index =>
    match steps[index]? with
    | none => (s, .done true)
    | some step =>
      let (isSelected, s) := s.select index step
      if isSelected != step.inverted then
        let isRangeChange := match step.act, step.second with
          | .text 'c' _, some _ => !step.inverted && (s.ranges.lookup index).isSome
          | _, _ => false
        if isRangeChange then (s, .done false)
        else
          match perform quiet steps s index step.act with
          | (s, .at index) => editLine quiet steps fuel s index
          | (s, flow) => (s, flow)
      else
        match step.act with
        | .begin => editLine quiet steps fuel s (behindBlock steps (steps.length + 1) (index + 1) 0)
        | _ => editLine quiet steps fuel s (index + 1)

/-- The edits that one line may take. -/
def editLimit : Nat := 1000000

/-- Edits all lines. The status comes back, and whether an edit has quit. -/
def editLines (quiet : Bool) (steps : List Step) : Nat → State → State × Nat × Bool
  | 0, s => (s, 0, false)
  | fuel + 1, s =>
    match editLine quiet steps editLimit { s with changed := false } 0 with
    | (s, .quit prints status) => (endLine quiet prints s, status, true)
    | (s, .again) => editLines quiet steps fuel (endLine quiet false s)
    | (s, flow) =>
      let prints := match flow with
        | .done prints => prints
        | _ => true
      let s := endLine quiet prints s
      match s.rest with
      | [] => (s, 0, false)
      | line :: rest => editLines quiet steps fuel { s with line, rest, number := s.number + 1 }

/-- What editing a text has brought. -/
structure Edited where
  text : List Char
  status : Nat
  /-- What was written to files, in order. -/
  written : List (String × List Char)
  quits : Bool

def edited (quiet : Bool) (steps : List Step) (inserted : List (String × List Char)) (ending : Char) (file : String)
    (text : List Char) : Edited :=
  let lines := Lines.endingIn ending text
  match lines.all with
  | [] => ⟨[], 0, [], false⟩
  | line :: rest =>
    -- a range that begins before the first line
    let begun := steps.zipIdx.filterMap fun (step, i) => match step.first with
      | some (.line 0) => some (i, none)
      | _ => none
    let start : State := ⟨line, [], 1, rest, [], [], begun, false, .empty, [], inserted, file, ending, !lines.rest.isEmpty⟩
    let (s, status, quits) := editLines quiet steps (text.length + 2) start
    ⟨s.output.reverse.flatten, status, s.written.reverse, quits⟩

/-! ## The utility -/

/-- A suffix that stands right behind the option to edit files in place, and the arguments without it. -/
def suffixOf (arguments : List String) : String × List String :=
  let one (argument : String) : String × String :=
    let letters := argument.toList.drop 1
    let front := letters.takeWhile fun c => ['n', 'E', 'r', 's', 'u', 'z'].contains c
    match argument.toList, letters.drop front.length with
    | '-' :: _, 'i' :: c :: suffix => (.ofList (c :: suffix), .ofList ('-' :: front ++ ['i']))
    | _, _ =>
      let long := "--in-place=".toList
      if long.isPrefixOf argument.toList then (.ofList (argument.toList.drop long.length), "--in-place") else ("", argument)
  let pairs := arguments.map one
  (((pairs.map Prod.fst).find? (!·.isEmpty)).getD "", pairs.map Prod.snd)

/-- A fault of a script that is made of several expressions, in words. -/
def ScriptFault.describe (fault : ScriptFault) (expressions : List String) : String :=
  let step (state : Nat × Nat) (e : String) : Nat × Nat :=
    let (number, offset) := state
    if e.length < offset then (number + 1, offset - e.length - 1) else state
  let (number, offset) := expressions.dropLast.foldl step (1, fault.offset)
  s!"-e expression #{number}, char {offset}: {fault.message}"

def lackingLabel? (steps : List Step) : Option String :=
  steps.findSome? fun step => match step.act with
    | .jump _ label => if !label.isEmpty && labelIndex steps label = steps.length then some label else none
    | _ => none

/-- The files that edits insert, and those to which they write. -/
def filesOf (steps : List Step) : List String × List String :=
  (steps.filterMap fun step => match step.act with
    | .insert file => some file
    | _ => none,
   steps.filterMap fun step => match step.act with
    | .write file => some file
    | .substitute sub => sub.file
    | _ => none)

/-- Edits the texts of operands by a script that was read. -/
def editOperands (inv : Invocation) (options : List (Char × String)) (suffix : String) (quiet : Bool) (steps : List Step)
    (operands : List String) : Action Nat := do
  let ending := if has options 'z' then '\x00' else '\n'
  let isDirectory : Except Refusal (List Char) → Bool
    | .error (.path .isDirectory) => true
    | _ => false
  let contents ← readOperands operands
  -- nothing is read after a directory
  let contents := if has options 'i' then contents
    else contents.take ((contents.findIdx? fun (_, content) => isDirectory content).elim contents.length (· + 1))
  let faults := contents.filterMap fun (operand, content) => match content with
    | .error (.path .isDirectory) =>
      some (if has options 'i' then s!"couldn\x27t edit {operand}: not a regular file"
        else s!"read error on {operand}: Is a directory")
    | .error r => some s!"can\x27t read {operand}: {r.message}"
    | .ok _ => none
  let failed := if faults.isEmpty then 0 else if contents.any fun (_, content) => isDirectory content then 4 else 2
  let texts := contents.filterMap fun (operand, content) => content.toOption.map fun t => (operand, t)
  let (insertions, targets) := filesOf steps
  let inserted ← insertions.filterMapM fun file => do return (← readOperand file).toOption.map fun t => (file, t)
  let edit (file : String) (text : List Char) : Edited := edited quiet steps inserted ending file text
  let writeFile (file : String) (text : List Char) : Action Unit := do
    let _ ← Action.change fun files => files.write ⟨Text.ofOctets file⟩ (Text.narrow text)
  let writeAll (results : List Edited) : Action Unit :=
    (targets.eraseDups.filter (· ≠ "/dev/stdout")).forM fun file =>
      writeFile file ((results.flatMap Edited.written).flatMap fun (f, t) => if f = file then t else [])
  if has options 'i' then
    let results := texts.map fun (file, text) => (file, text, edit file text)
    for (file, text, result) in results do
      if !suffix.isEmpty then writeFile (file ++ suffix) text
      writeFile file result.text
    writeAll (results.map fun (_, _, r) => r)
    Report.deliver ⟨[], faults, failed⟩ inv.name
  else
    let join (all text : List Char) : List Char :=
      if all.isEmpty || all.getLast? = some ending then all ++ text else all ++ ending :: text
    let inputs := if has options 's' then texts else [((texts.map Prod.fst).headD "-", (texts.map Prod.snd).foldl join [])]
    let results := inputs.map fun (file, text) => edit file text
    -- nothing is read after an edit that quits
    let results := results.take ((results.findIdx? Edited.quits).elim results.length (· + 1))
    let status := (results.getLast?.map Edited.status).getD 0
    writeAll results
    Report.deliver ⟨results.flatMap Edited.text, faults, if status ≠ 0 then status else failed⟩ inv.name

/-- The options of `sed`. -/
def sedOptions : OptionTable :=
  ⟨"nErsuiz", "efl", [("quiet", 'n'), ("silent", 'n'), ("regexp-extended", 'E'), ("expression", 'e'), ("in-place", 'i'),
    ("file", 'f'), ("separate", 's'), ("unbuffered", 'u'), ("null-data", 'z'), ("line-length", 'l')]⟩

def sed (inv : Invocation) : Action Nat := do
  let (suffix, arguments) := suffixOf inv.arguments
  withOptions sedOptions 1 { inv with arguments } fun options operands => do
    let given := (options.filter (·.1 = 'e')).map Prod.snd
    let files ← ((options.filter (·.1 = 'f')).map Prod.snd).mapM fun file => do return (file, ← readOperand file)
    let unread := files.findSome? fun (file, content) => match content with
      | .error r => some s!"couldn\x27t open file {file}: {r.message}"
      | .ok _ => none
    if let some text := unread then
      complain inv.name text
      return 4
    let files := files.filterMap fun (_, content) => content.toOption.map String.ofList
    let (scripts, operands) := if given.isEmpty && files.isEmpty then (operands.take 1, operands.drop 1)
      else (given ++ files, operands)
    if scripts.isEmpty then misused inv.name "no script specified" 1
    else
      let script := ("\n".intercalate scripts).toList
      match stepsOf (has options 'E' || has options 'r') script with
      | .error fault =>
        complain inv.name (fault.describe scripts)
        return 1
      | .ok steps =>
        match lackingLabel? steps with
        | some label =>
          complain inv.name s!"can\x27t find label for jump to \x60{label}\x27"
          return 4
        | none =>
          let quiet := has options 'n' || ['#', 'n', '\n'].isPrefixOf script
          editOperands inv options suffix quiet steps operands

end CompileDb.Utility.Edit
