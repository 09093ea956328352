import CompileDb.Host.Invocation

/-!
# Utilities

A utility is a program that does one small job. It takes options and operands, and at its end it reports: complaints, what
it has to write, and its status.
-/

namespace CompileDb.Utility

open Host

/-- What a utility has to say. Texts are octets. -/
structure Report where
  output : List Char
  /-- Complaints, one line each. -/
  complaints : List String
  status : Nat

def Report.ofOutput (output : List Char) : Report := ⟨output, [], 0⟩

/-- Writes octets to a descriptor. -/
def write (descriptor : Nat) (octets : List Char) : Action (Except Refusal Unit) :=
  Action.write descriptor (Text.narrow octets)

def complain (name text : String) : Action Unit := do
  let _ ← write 2 s!"{name}: {text}\n".toList

/-- Reports what a utility has done. The status comes back. -/
def Report.deliver (r : Report) (name : String) : Action Nat := do
  for text in r.complaints do complain name text
  if r.output.isEmpty then return r.status
  match ← write 1 r.output with
  | .ok () => return r.status
  | .error refusal =>
    complain name s!"write error: {refusal.message}"
    return 1

def report (inv : Invocation) (text : String) : Action Nat := (Report.ofOutput text.toList).deliver inv.name

/-- Text between apostrophes, as utilities quote names. -/
def quoted (name : String) : String := "\x27" ++ name ++ "\x27"

/-! ## Options -/

/-- The options that a utility knows. -/
structure OptionTable where
  /-- Letters of options without a value. -/
  plain : String
  /-- Letters of options with a value. -/
  valued : String
  /-- Long options, with the letter that each of them stands for. -/
  long : List (String × Char)

abbrev Options := List (Char × String) × List String

namespace OptionTable

/-- Takes the letters of an argument. The arguments after it come back. -/
def takeLetters (t : OptionTable) :
    List Char → List String → List (Char × String) → Except String (List (Char × String) × List String)
  | [], rest, seen => .ok (seen, rest)
  | c :: letters, rest, seen =>
    if t.valued.toList.contains c then
      match letters, rest with
      | [], [] => .error s!"option requires an argument -- \x27{c}\x27"
      | [], value :: rest => .ok ((c, value) :: seen, rest)
      | letters, rest => .ok ((c, .ofList letters) :: seen, rest)
    else if t.plain.toList.contains c then t.takeLetters letters rest ((c, "") :: seen)
    else .error s!"invalid option -- \x27{c}\x27"

/-- Takes a long option, with its value behind a sign or as the next argument. -/
def takeLong (t : OptionTable) (text : String) (rest : List String) (seen : List (Char × String)) :
    Except String (List (Char × String) × List String) :=
  let name := String.ofList (text.toList.takeWhile (· ≠ '='))
  let value := (text.toList.dropWhile (· ≠ '=')).drop 1
  let isGiven := text.toList.contains '='
  let found : List Char := match t.long.lookup name with
    | some c => [c]
    | none => t.long.filterMap fun (n, c) => if name.toList.isPrefixOf n.toList then some c else none
  match found.eraseDups with
  | [c] =>
    if t.valued.toList.contains c then
      if isGiven then .ok ((c, .ofList value) :: seen, rest)
      else
        match rest with
        | value :: rest => .ok ((c, value) :: seen, rest)
        | [] => .error s!"option \x27--{name}\x27 requires an argument"
    else if isGiven then .error s!"option \x27--{name}\x27 doesn\x27t allow an argument"
    else .ok ((c, "") :: seen, rest)
  | [] => .error s!"unrecognized option \x27--{text}\x27"
  | _ => .error s!"option \x27--{name}\x27 is ambiguous"

/-- Sorts arguments into options and operands, each with the last one first. `fuel` is at least the number of
arguments. -/
def sort (t : OptionTable) (mixes : Bool) :
    Nat → List (Char × String) → List String → List String → Except String (List (Char × String) × List String)
  | fuel + 1, seen, operands, argument :: rest =>
    match argument.toList with
    | ['-', '-'] => .ok (seen, rest.reverse ++ operands)
    | '-' :: '-' :: long => do
      let (seen, rest) ← t.takeLong (.ofList long) rest seen
      t.sort mixes fuel seen operands rest
    | '-' :: c :: letters => do
      let (seen, rest) ← t.takeLetters (c :: letters) rest seen
      t.sort mixes fuel seen operands rest
    | _ =>
      if mixes then t.sort mixes fuel seen (argument :: operands) rest
      else .ok (seen, rest.reverse ++ argument :: operands)
  | _, seen, operands, _ => .ok (seen, operands)

/-- The options and the operands among arguments. If `mixes`, options may stand behind operands. -/
def parse (t : OptionTable) (mixes : Bool) (arguments : List String) : Except String Options :=
  (t.sort mixes arguments.length [] [] arguments).map fun (seen, operands) => (seen.reverse, operands.reverse)

end OptionTable

def has (options : List (Char × String)) (letter : Char) : Bool := options.any (·.1 = letter)

def valueOf? (options : List (Char × String)) (letter : Char) : Option String :=
  ((options.filter (·.1 = letter)).getLast?).map Prod.snd

/-- What a utility says if it is not used as it should be. -/
def misused (name text : String) (status : Nat) : Action Nat := do
  complain name text
  let _ ← write 2 s!"Try \x27{name} --help\x27 for more information.\n".toList
  return status

/-- Goes on with the options and operands of a utility, if they are as they should be. -/
def withOptions (t : OptionTable) (status : Nat) (inv : Invocation) (next : List (Char × String) → List String → Action Nat) :
    Action Nat :=
  match t.parse true inv.arguments with
  | .ok (options, operands) => next options operands
  | .error text => misused inv.name text status

/-! ## Reading -/

/-- The octets of a file. A dash stands for what the utility reads. -/
def readOperand (operand : String) : Action (Except Refusal (List Char)) := do
  if operand = "-" then return (← Action.readAll 0).map Text.widen
  match ← Action.openFile (Text.ofOctets operand) .read with
  | .error r => return .error r
  | .ok d =>
    let bytes ← Action.readAll d
    Action.close d
    return bytes.map Text.widen

/-- The octets of each operand, or what the utility reads if there is none. -/
def readOperands (operands : List String) : Action (List (String × Except Refusal (List Char))) :=
  (if operands.isEmpty then ["-"] else operands).mapM fun operand => do return (operand, ← readOperand operand)

/-! ## Lines -/

/-- The lines of a text. The last one may lack its newline. -/
structure Lines where
  whole : List (List Char)
  rest : List Char

def Lines.endingIn (ending : Char) (text : List Char) : Lines :=
  let (whole, rest) := text.foldl (fun (whole, line) c =>
    if c = ending then (line.reverse :: whole, []) else (whole, c :: line)) (([], []) : List (List Char) × List Char)
  ⟨whole.reverse, rest.reverse⟩

def Lines.ofText (text : List Char) : Lines := .endingIn '\n' text

def Lines.all (l : Lines) : List (List Char) := if l.rest.isEmpty then l.whole else l.whole ++ [l.rest]

def Lines.pieces (l : Lines) : List (List Char) :=
  l.whole.map (· ++ ['\n']) ++ if l.rest.isEmpty then [] else [l.rest]

/-- A text whose lines end in NUL characters, if so, with newlines and NUL characters exchanged. -/
def endingIn (zeros : Bool) (text : List Char) : List Char :=
  if zeros then text.map fun c => if c = '\n' then '\x00' else if c = '\x00' then '\n' else c else text

def unlines (lines : List (List Char)) : List Char := (lines.map (· ++ ['\n'])).flatten

end CompileDb.Utility
