import CompileDb.Shell.Pattern
import CompileDb.Utility.Call
import CompileDb.Utility.Place

/-!
# Looking for files

A utility that asks about the files at some paths and below. A query is asked of each file; it answers yes or no, and it may
write the path, remove the file or call a program with it.
-/

namespace CompileDb.Utility.Find

open Host

/-! ## Queries -/

/-- What is asked of a file. -/
inductive Query where
  | always (holds : Bool)
  | named (ignoresCase : Bool) (pattern : String)
  | pathLike (pattern : String)
  | kind (letter : Char)
  | empty
  | executable
  /-- How its size in units, which is rounded up, compares to a number. -/
  | size (comparison : Ordering) (number unit : Nat)
  | print (ending : Char)
  | remove
  /-- A program succeeds whose words name the file by braces. -/
  | call (words : List String)
  /-- A program will be called with all files that are asked. -/
  | gather (words : List String)
  /-- Nothing below is looked at. -/
  | prune
  /-- Nothing more is looked at. -/
  | quit
  | no (q : Query)
  | both (a b : Query)
  | either (a b : Query)
deriving Repr

/-- A file that is asked about. -/
structure Candidate where
  path : String
  trail : Trail
  node : Node

/-- What asking has brought: whether the answer is yes, and whether to go on below and at all. -/
structure Answer where
  holds : Bool
  prunes : Bool
  quits : Bool
  /-- Something could not be done. -/
  failed : Bool
  /-- The calls that will be made, and the path for each. -/
  gathered : List (List String × String)

namespace Answer

def plain (holds : Bool) : Answer := ⟨holds, false, false, false, []⟩

def after (b a : Answer) : Answer :=
  ⟨b.holds, a.prunes || b.prunes, a.quits || b.quits, a.failed || b.failed, a.gathered ++ b.gathered⟩

end Answer

namespace Query

def acts : Query → Bool
  | print _ => true
  | remove => true
  | call _ => true
  | gather _ => true
  | quit => true
  | no q => q.acts
  | both a b => a.acts || b.acts
  | either a b => a.acts || b.acts
  | _ => false

def removeFile (inv : Invocation) (c : Candidate) : Action Answer := do
  if c.trail = (← Action.files).home then return .plain true
  match ← Action.change fun files =>
      if c.node = .directory && !isEmptyDirectory files c.trail then .error .notEmpty else .ok (files.remove c.trail) with
  | .ok () => return .plain true
  | .error o =>
    complain inv.name s!"cannot delete {quoted c.path}: {obstacleText o}"
    return { Answer.plain false with failed := true }

def ask (load : Loader) (inv : Invocation) (c : Candidate) : Query → Action Answer
  | always holds => return .plain holds
  | named ignoresCase pattern =>
    let fit (t : String) : String := if ignoresCase then .ofList (t.toList.map Char.toLower) else t
    let signs := Shell.Sign.ofText ((fit pattern).toList.map (·, false))
    return .plain (Shell.Sign.matchAll signs (fit (lastName c.path)).toList)
  | pathLike pattern => return .plain (Shell.Sign.matchAll (Shell.Sign.ofText (pattern.toList.map (·, false))) c.path.toList)
  | kind letter =>
    return .plain <| match c.node with
      | .file .. => letter = 'f'
      | .directory => letter = 'd'
      | .link _ => letter = 'l'
      | .device _ => letter = 'c'
  | empty => do
    let files ← Action.files
    return .plain <| match c.node with
      | .file bytes _ => bytes.isEmpty
      | .directory => isEmptyDirectory files c.trail
      | _ => false
  | executable =>
    return .plain <| match c.node with
      | .file _ x => x
      | .directory => true
      | _ => false
  | size comparison number unit =>
    let octets := match c.node with
      | .file bytes _ => bytes.length
      | .directory => 4096
      | .link target => target.utf8ByteSize
      | .device _ => 0
    return .plain (compare ((octets + unit - 1) / unit) number == comparison)
  | print ending => do
    match ← write 1 (c.path.toList ++ [ending]) with
    | .ok () => return .plain true
    | .error r =>
      complain inv.name s!"\x27standard output\x27: {r.message}"
      return { Answer.plain true with failed := true }
  | remove => removeFile inv c
  | call words => do
    let exit ← callProgram load inv.name "" inv.environment (words.map (replaced "\x7b\x7d" c.path))
    return .plain (exit = .code 0)
  | gather words => return { Answer.plain true with gathered := [(words, c.path)] }
  | prune => return { Answer.plain true with prunes := true }
  | quit => return { Answer.plain true with quits := true }
  | no q => do
    let a ← q.ask load inv c
    return { a with holds := !a.holds }
  | both p q => do
    let a ← p.ask load inv c
    if a.holds && !a.quits then return (← q.ask load inv c).after a else return a
  | either p q => do
    let a ← p.ask load inv c
    if a.holds || a.quits then return a else return (← q.ask load inv c).after a

end Query

/-! ## Reading queries -/

def sizeUnits : List (List Char × Nat) :=
  [([], 512), (['b'], 512), (['c'], 1), (['w'], 2), (['k'], 1024), (['M'], Nat.pow 1024 2), (['G'], Nat.pow 1024 3)]

def sizeQuery? (text : String) : Option Query := do
  let (comparison, digits) := match text.toList with
    | '+' :: digits => (Ordering.gt, digits)
    | '-' :: digits => (.lt, digits)
    | digits => (.eq, digits)
  let n ← Shell.decimal? (digits.takeWhile Char.isDigit)
  let unit ← sizeUnits.lookup (digits.dropWhile Char.isDigit)
  return .size comparison n unit

/-- The words of a call up to its end, the query and the words behind it. -/
def readCall : List String → List String → Except String (Query × List String)
  | ";" :: rest, word :: seen => .ok (.call (word :: seen).reverse, rest)
  | "+" :: rest, "\x7b\x7d" :: word :: seen =>
    if (word :: seen).any fun w => (w.splitOn "\x7b\x7d").length ≠ 1 then
      .error "Only one instance of \x7b\x7d is supported with -exec ... +"
    else .ok (.gather (word :: seen).reverse, rest)
  | word :: rest, seen => readCall rest (word :: seen)
  | [], _ => .error "missing argument to \x60-exec\x27"

def withArgument (name argument : String) : Option (Except String Query) :=
  match name with
  | "-name" => some (.ok (.named false argument))
  | "-iname" => some (.ok (.named true argument))
  | "-path" => some (.ok (.pathLike argument))
  | "-wholename" => some (.ok (.pathLike argument))
  | "-type" => some <| match argument.toList with
    | [c] =>
      if ['b', 'c', 'd', 'f', 'l', 'p', 's'].contains c then .ok (.kind c)
      else .error s!"Unknown argument to -type: {argument}"
    | _ => .error s!"Unknown argument to -type: {argument}"
  | "-size" => some ((sizeQuery? argument).elim (.error s!"invalid -size type \x60{argument}\x27") .ok)
  | _ => none

def withoutArgument (name : String) : Option Query :=
  match name with
  | "-empty" => some .empty
  | "-executable" => some .executable
  | "-print" => some (.print '\n')
  | "-print0" => some (.print '\x00')
  | "-delete" => some .remove
  | "-prune" => some .prune
  | "-quit" => some .quit
  | "-true" => some (.always true)
  | "-false" => some (.always false)
  | "-depth" => some (.always true)
  | _ => none

/-- The word stands for the choice between two queries. -/
def isChoice (word : String) : Bool := word = "-o" || word = "-or"

mutual

def readEither : Nat → List String → Except String (Query × List String)
  | 0, _ => .error "too many arguments"
  | fuel + 1, arguments => do
    let (a, rest) ← readBoth fuel arguments
    match rest with
    | o :: rest =>
      if isChoice o then
        if rest.isEmpty then throw s!"expected an expression after {quoted o}"
        let (b, rest) ← readEither fuel rest
        return (.either a b, rest)
      else return (a, o :: rest)
    | [] => return (a, [])

def readBoth : Nat → List String → Except String (Query × List String)
  | 0, _ => .error "too many arguments"
  | fuel + 1, arguments => do
    let (a, rest) ← readQuery fuel arguments
    match rest with
    | [] => return (a, [])
    | o :: more =>
      if isChoice o || o = ")" then return (a, rest)
      else
        let (b, rest) ← readBoth fuel (if o = "-a" || o = "-and" then more else rest)
        return (.both a b, rest)

def readQuery : Nat → List String → Except String (Query × List String)
  | 0, _ => .error "too many arguments"
  | fuel + 1, arguments => do
    match arguments with
    | [] => throw "invalid expression"
    | "(" :: rest =>
      let (q, rest) ← readEither fuel rest
      match rest with
      | ")" :: rest => return (q, rest)
      | _ => throw "invalid expression; I was expecting to find a \x27)\x27 somewhere but did not see one."
    | "-exec" :: rest => readCall rest []
    | word :: rest =>
      if word = "!" || word = "-not" then
        if rest.isEmpty then throw s!"expected an expression after {quoted word}"
        let (q, rest) ← readQuery fuel rest
        return (.no q, rest)
      else if isChoice word || word = "-a" || word = "-and" then
        throw s!"invalid expression; you have used a binary operator {quoted word} with nothing before it."
      else
        match withoutArgument word, withArgument word (rest.headD "") with
        | some q, _ => return (q, rest)
        | none, some q => if rest.isEmpty then throw s!"missing argument to \x60{word}\x27" else return (← q, rest.tail)
        | none, none =>
          if word.toList.head? = some '-' then throw s!"unknown predicate \x60{word}\x27"
          else throw s!"paths must precede expression: \x60{word}\x27"

end

/-- The depths that are looked at. -/
structure Depths where
  least : Nat
  most : Nat
  /-- What is below a directory comes before it. -/
  belowFirst : Bool

/-- The options for depths among arguments, and the other arguments. -/
def takeDepths : List String → Depths → Except String (Depths × List String)
  | word :: rest, d =>
    if word = "-maxdepth" || word = "-mindepth" then
      match rest with
      | [] => .error s!"missing argument to \x60{word}\x27"
      | n :: rest =>
        match Shell.decimal? n.toList with
        | some n => takeDepths rest (if word = "-maxdepth" then { d with most := n } else { d with least := n })
        | none => .error s!"Expected a positive decimal integer argument to {word}, but got {quoted n}"
    else (takeDepths rest d).map fun (d, rest) =>
      (if word = "-delete" || word = "-depth" then { d with belowFirst := true } else d, word :: rest)
  | [], d => .ok (d, [])

/-! ## Looking -/

mutual

/-- Asks about a file and about those below it, unless an answer before was the last one. -/
def askBelow (ask : Candidate → Action Answer) (d : Depths) : Nat → Nat → Candidate → Answer → Action Answer
  | 0, _, _, before => return before
  | fuel + 1, depth, c, before => do
    if before.quits then return before
    let askOwn (before : Answer) : Action Answer := do
      if d.least ≤ depth && !before.quits then return (← ask c).after { before with prunes := false } else return before
    if d.belowFirst then askOwn (← askAll ask d fuel depth c before)
    else
      let own ← askOwn before
      if own.prunes || own.quits then return { own with prunes := false } else askAll ask d fuel depth c own

/-- Asks about the files in a directory and below. -/
def askAll (ask : Candidate → Action Answer) (d : Depths) : Nat → Nat → Candidate → Answer → Action Answer
  | 0, _, _, before => return before
  | fuel + 1, depth, c, before => do
    if c.node ≠ .directory || d.most ≤ depth then return before
    let files ← Action.files
    let inner := (files.names c.trail).filterMap fun n =>
      (files.node? (n :: c.trail)).map fun node => (⟨inside c.path (Text.octets n), n :: c.trail, node⟩ : Candidate)
    inner.foldlM (fun before c => askBelow ask d fuel (depth + 1) c before) before

end

/-- More directories than are inside one another, twice. -/
def depthLimit : Nat := 10000

/-- Calls the programs for which paths were gathered, each of them once. The answer says whether one of them has failed. -/
def callGathered (load : Loader) (inv : Invocation) (gathered : List (List String × String)) : Action Bool := do
  let calls := (gathered.map Prod.fst).eraseDups
  let exits ← calls.mapM fun words =>
    callProgram load inv.name "" inv.environment (words ++ (gathered.filter (·.1 = words)).map Prod.snd)
  return exits.any (· ≠ .code 0)

/-- Looks for files. -/
def find (load : Loader) (inv : Invocation) : Action Nat := do
  let isPlace (a : String) : Bool := match a.toList with
    | '-' :: _ :: _ => false
    | ['!'] => false
    | ['('] => false
    | _ => true
  let places := inv.arguments.takeWhile isPlace
  let read : Except String (Depths × Query) := do
    let (depths, words) ← takeDepths (inv.arguments.dropWhile isPlace) ⟨0, 1000000, false⟩
    if words.isEmpty then return (depths, .print '\n')
    let (q, rest) ← readEither (8 * words.length + 8) words
    match rest with
    | [] => return (depths, if q.acts then q else .both q (.print '\n'))
    | extra :: _ => throw s!"paths must precede expression: \x60{extra}\x27"
  match read with
  | .error text =>
    complain inv.name text
    return 1
  | .ok (depths, q) =>
    let visit (before : Answer) (path : String) : Action Answer := do
      match nodeAt (← Action.files) false path with
      | .ok (trail, node) => askBelow (fun c => q.ask load inv c) depths depthLimit 0 ⟨path, trail, node⟩ before
      | .error o =>
        complain inv.name s!"{quoted path}: {obstacleText o}"
        return { before with failed := true }
    let answer ← (if places.isEmpty then ["."] else places).foldlM visit (.plain true)
    let failed ← callGathered load inv answer.gathered
    return if failed || answer.failed then 1 else 0

end CompileDb.Utility.Find
