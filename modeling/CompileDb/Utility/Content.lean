import CompileDb.Shell.Printing
import CompileDb.Utility.Report

/-!
# Utilities for contents

Utilities that write what files hold: all of it, the beginning or the end, with its lines turned round or counted.
-/

namespace CompileDb.Utility

open Host

/-! ## All of it -/

/-- What is shown with each line. -/
structure Marks where
  numbers : Bool
  /-- Only lines that are not empty are numbered. -/
  onlyFilled : Bool
  /-- A dollar sign at the end of a line. -/
  ends : Bool
  tabs : Bool
  /-- Octets that cannot be printed. -/
  hidden : Bool
  /-- Of empty lines that follow one another, only one. -/
  squeezes : Bool

def visible (marks : Marks) (c : Char) : List Char :=
  let seen (c : Char) : List Char :=
    if c.toNat < 32 then ['^', Char.ofNat (c.toNat + 64)]
    else if c.toNat = 127 then ['^', '?']
    else [c]
  if c = '\t' then if marks.tabs then ['^', 'I'] else [c]
  else if !marks.hidden then [c]
  else if c.toNat < 128 then seen c
  else 'M' :: '-' :: seen (Char.ofNat (c.toNat - 128))

/-- A number, brought to a width with blanks before it. -/
def padded (width n : Nat) : List Char :=
  let digits := Nat.toDigits 10 n
  List.replicate (width - digits.length) ' ' ++ digits

/-- Lines with marks. The state is the number of the last line, and whether the line before was empty. -/
def markLine (marks : Marks) (state : Nat × Bool) (line : List Char) : (Nat × Bool) × List Char :=
  let (n, afterEmpty) := state
  let isEmpty := line = ['\n']
  if isEmpty && afterEmpty && marks.squeezes then (state, [])
  else
    let counts := if marks.onlyFilled then !isEmpty else marks.numbers
    let number := if counts then padded 6 (n + 1) ++ ['\t'] else []
    let body := line.flatMap fun c => if c = '\n' then if marks.ends then ['$', c] else [c] else visible marks c
    ((if counts then n + 1 else n, isEmpty), number ++ body)

def markText (marks : Marks) (text : List Char) : List Char :=
  let (_, shown) := (Lines.ofText text).pieces.foldl (fun (state, shown) line =>
    let (state, line) := markLine marks state line
    (state, line :: shown)) (((0, false), []) : (Nat × Bool) × List (List Char))
  shown.reverse.flatten

/-- Copies what is left of a descriptor to the output, piece by piece. The answer is why it cannot be read, or that it
cannot be written. -/
def copyPieces (descriptor : Nat) : Nat → Action (Except Refusal Unit × Bool)
  | 0 => return (.ok (), true)
  | fuel + 1 => do
    match ← Action.read descriptor .available with
    | .error r => return (.error r, true)
    | .ok [] => return (.ok (), true)
    | .ok bytes =>
      match ← Action.write 1 bytes with
      | .ok () => copyPieces descriptor fuel
      | .error r => return (.error r, false)

/-- What is copied from one open file to another would be read again, without end. -/
def feedsItself (files : FileTree) (source target : Option Opening) : Bool :=
  match source, target.map Opening.source with
  | some ⟨_, .file a, _, position⟩, some (.file b) =>
    let size := match files.node? a with
      | some (.file bytes _) => bytes.length
      | _ => 0
    a = b && position < size
  | _, _ => false

/-- Copies operands to the output one by one. The status comes back. -/
def copyOperands (name : String) : List String → Nat → Action Nat
  | [], status => return status
  | operand :: rest, status => do
    let opened ← if operand = "-" then pure (.ok 0) else Action.openFile (Text.ofOctets operand) .read
    match opened with
    | .error r =>
      complain name s!"{operand}: {r.message}"
      copyOperands name rest 1
    | .ok d =>
      let (result, canWrite) ← if feedsItself (← Action.files) (← Action.opening d) (← Action.opening 1) then do
          complain name s!"{operand}: input file is output file"
          pure (.ok (), false)
        else copyPieces d Action.pieceLimit
      if operand ≠ "-" then Action.close d
      match result, canWrite with
      | .ok (), canWrite => copyOperands name rest (if canWrite then status else 1)
      | .error r, true =>
        complain name s!"{operand}: {r.message}"
        copyOperands name rest 1
      | .error r, false =>
        complain name s!"write error: {r.message}"
        return 1

/-- Writes what files hold. -/
def cat (inv : Invocation) : Action Nat :=
  withOptions ⟨"AbeEnstTuv", "", [("show-all", 'A'), ("number-nonblank", 'b'), ("show-ends", 'E'), ("number", 'n'),
      ("squeeze-blank", 's'), ("show-tabs", 'T'), ("show-nonprinting", 'v')]⟩ 1 inv fun options operands => do
    let any (letters : List Char) : Bool := letters.any (has options)
    let operands := if operands.isEmpty then ["-"] else operands
    if ((← Action.descriptors).lookup 1).isNone then
      complain inv.name "standard output: Bad file descriptor"
      return 1
    let status ← if any ['A', 'b', 'e', 'E', 'n', 's', 't', 'T', 'v'] then do
        let marks : Marks := ⟨any ['n'], any ['b'], any ['A', 'e', 'E'], any ['A', 't', 'T'], any ['A', 'e', 't', 'v'], any ['s']⟩
        let contents ← readOperands operands
        let texts := contents.filterMap fun (_, content) => content.toOption
        let faults := contents.filterMap fun (operand, content) => match content with
          | .error r => some s!"{operand}: {r.message}"
          | .ok _ => none
        Report.deliver ⟨markText marks texts.flatten, faults, if faults.isEmpty then 0 else 1⟩ inv.name
      else copyOperands inv.name operands 0
    if operands.contains "-" && ((← Action.descriptors).lookup 0).isNone then
      complain inv.name "closing standard input: Bad file descriptor"
      return 1
    return status

/-! ## The beginning and the end -/

/-- How much of a text is asked for. -/
structure Extent where
  /-- Lines are counted, not octets. -/
  ofLines : Bool
  count : Nat
  /-- The count is from the other end of the text. -/
  fromOther : Bool
deriving DecidableEq, Repr

def suffixFactor? (suffix : List Char) : Option Nat :=
  match suffix with
  | [] => some 1
  | ['b'] => some 512
  | ['k', 'B'] => some 1000
  | ['k'] => some 1024
  | ['K'] => some 1024
  | ['M', 'B'] => some (Nat.pow 1000 2)
  | ['M'] => some (Nat.pow 1024 2)
  | ['G', 'B'] => some (Nat.pow 1000 3)
  | ['G'] => some (Nat.pow 1024 3)
  | _ => none

def sizedNumber? (text : List Char) : Option Nat := do
  let n ← Shell.decimal? (text.takeWhile Char.isDigit)
  let factor ← suffixFactor? (text.dropWhile Char.isDigit)
  return n * factor

/-- The extent that the value of an option asks for. A sign may say that it counts from the other end. -/
def Extent.ofValue? (ofLines : Bool) (other : Char) (value : String) : Option Extent :=
  match value.toList with
  | c :: rest =>
    if c = other then (sizedNumber? rest).map fun n => ⟨ofLines, n, true⟩
    else if c = '-' || c = '+' then (sizedNumber? rest).map fun n => ⟨ofLines, n, false⟩
    else (sizedNumber? (c :: rest)).map fun n => ⟨ofLines, n, false⟩
  | [] => none

def Extent.front (e : Extent) (text : List Char) : List Char :=
  if e.ofLines then
    let pieces := (Lines.ofText text).pieces
    (pieces.take (if e.fromOther then pieces.length - e.count else e.count)).flatten
  else text.take (if e.fromOther then text.length - e.count else e.count)

def Extent.back (e : Extent) (text : List Char) : List Char :=
  if e.ofLines then
    let pieces := (Lines.ofText text).pieces
    (pieces.drop (if e.fromOther then e.count - 1 else pieces.length - e.count)).flatten
  else text.drop (if e.fromOther then e.count - 1 else text.length - e.count)

/-- An option that is only a number, written with its letter. -/
def spelledOut (letter : Char) : List String → List String
  | first :: rest =>
    match first.toList with
    | '-' :: c :: digits => if c.isDigit then s!"-{letter}" :: .ofList (c :: digits) :: rest else first :: rest
    | '+' :: c :: digits =>
      if letter = 'n' && c.isDigit then "-n" :: .ofList ('+' :: c :: digits) :: rest else first :: rest
    | _ => first :: rest
  | [] => []

def extentOf (options : List (Char × String)) (other : Char) : Except String Extent :=
  match (options.filter fun (c, _) => c = 'n' || c = 'c').getLast? with
  | none => .ok ⟨true, 10, false⟩
  | some (c, value) =>
    match Extent.ofValue? (c = 'n') other value with
    | some e => .ok e
    | none =>
      let unit := if c = 'n' then "lines" else "bytes"
      .error s!"invalid number of {unit}: {quoted value}"

def titleOf (operand : String) : String := if operand = "-" then "standard input" else operand

def withTitles (titled : Bool) (parts : List (String × List Char)) : List Char :=
  if titled then
    let one : String × List Char → List Char
      | (operand, part) => s!"==> {titleOf operand} <==\n".toList ++ part
    ['\n'].intercalate (parts.map one)
  else (parts.map Prod.snd).flatten

/-- Reads until so many lines or octets have come, and goes back over what was read too much. -/
def readFront (descriptor : Nat) (e : Extent) : Nat → List Char → Nat → Action (Except Refusal (List Char))
  | 0, seen, _ => return .ok seen.reverse
  | fuel + 1, seen, left => do
    if left = 0 then return .ok seen.reverse
    match ← Action.read descriptor (.upTo 8192) with
    | .error r => return .error r
    | .ok [] => return .ok seen.reverse
    | .ok bytes =>
      let (seen, left, extra) := (Text.widen bytes).foldl (fun (seen, left, extra) c =>
        if left = 0 then (seen, left, extra + 1)
        else (c :: seen, if e.ofLines && c ≠ '\n' then left else left - 1, extra)) (seen, left, 0)
      if left = 0 then
        Action.unread descriptor extra
        return .ok seen.reverse
      else readFront descriptor e fuel seen left

def frontOf (e : Extent) (operand : String) : Action (Except Refusal (List Char)) := do
  if e.fromOther then return (← readOperand operand).map e.front
  else if operand = "-" then readFront 0 e Action.pieceLimit [] e.count
  else
    match ← Action.openFile (Text.ofOctets operand) .read with
    | .error r => return .error r
    | .ok d =>
      let part ← readFront d e Action.pieceLimit [] e.count
      Action.close d
      return part

/-- What is said of an operand that cannot be opened or read. -/
def openFault (operand : String) (r : Refusal) : String :=
  match r with
  | .path .isDirectory => s!"error reading {quoted (titleOf operand)}: {r.message}"
  | .badDescriptor => s!"error reading {quoted (titleOf operand)}: {r.message}"
  | r => s!"cannot open {quoted operand} for reading: {r.message}"

def writeParts (inv : Invocation) (options : List (Char × String)) (operands : List String)
    (part : String → Action (Except Refusal (List Char))) : Action Nat := do
  let operands := if operands.isEmpty then ["-"] else operands
  let parts ← operands.mapM fun operand => do return (operand, ← part operand)
  let found := parts.filterMap fun (operand, content) => content.toOption.map fun text => (operand, text)
  let faults := parts.filterMap fun (operand, content) => match content with
    | .error r => some (openFault operand r)
    | .ok _ => none
  let titled := (1 < operands.length || has options 'v') && !has options 'q'
  Report.deliver ⟨withTitles titled found, faults, if faults.isEmpty then 0 else 1⟩ inv.name

/-- Writes the beginnings of files. -/
def head (inv : Invocation) : Action Nat :=
  withOptions ⟨"qv", "nc", [("lines", 'n'), ("bytes", 'c'), ("quiet", 'q'), ("silent", 'q'), ("verbose", 'v')]⟩ 1
    { inv with arguments := spelledOut 'n' inv.arguments } fun options operands => do
      match extentOf options '-' with
      | .error text =>
        complain inv.name text
        return 1
      | .ok e => writeParts inv options operands (frontOf e)

/-- Writes the ends of files. -/
def tail (inv : Invocation) : Action Nat :=
  withOptions ⟨"qvf", "nc", [("lines", 'n'), ("bytes", 'c'), ("quiet", 'q'), ("silent", 'q'), ("verbose", 'v')]⟩ 1
    { inv with arguments := spelledOut 'n' inv.arguments } fun options operands => do
      match extentOf options '+' with
      | .error text =>
        complain inv.name text
        return 1
      | .ok e => writeParts inv options operands fun operand => do return (← readOperand operand).map e.back

/-! ## Counting -/

/-- How often things occur in a text. -/
structure Counts where
  lines : Nat
  words : Nat
  octets : Nat
  longest : Nat

def Counts.ofText (text : List Char) : Counts :=
  let step (state : Counts × Bool × Nat) (c : Char) : Counts × Bool × Nat :=
    let (n, inWord, width) := state
    let isBlank := Shell.Formula.isBlank c
    let width := if c = '\n' then 0 else if c = '\t' then width / 8 * 8 + 8 else if c.toNat < 32 then width else width + 1
    ({ lines := if c = '\n' then n.lines + 1 else n.lines
       words := if !isBlank && !inWord then n.words + 1 else n.words
       octets := n.octets + 1
       longest := max n.longest width }, !isBlank, width)
  (text.foldl step (⟨0, 0, 0, 0⟩, false, 0)).1

/-- The counts of two texts together. -/
def Counts.add (a b : Counts) : Counts :=
  ⟨a.lines + b.lines, a.words + b.words, a.octets + b.octets, max a.longest b.longest⟩

/-- Counts the lines, words and octets of files. -/
def wc (inv : Invocation) : Action Nat :=
  withOptions ⟨"lwcmL", "", [("lines", 'l'), ("words", 'w'), ("bytes", 'c'), ("chars", 'm'), ("max-line-length", 'L')]⟩ 1
    inv fun options operands => do
      let contents ← readOperands operands
      let files ← Action.files
      let reads ← Action.opening 0
      let chosen := if options.isEmpty then ['l', 'w', 'c'] else ['l', 'w', 'm', 'c', 'L'].filter (has options)
      let isFile (operand : String) : Bool :=
        if operand = "-" then match reads with
          | some ⟨_, .file _, _, _⟩ => true
          | _ => false
        else files.isFile ⟨Text.ofOctets operand⟩
      let counted := contents.map fun (operand, content) => (operand, content.map Counts.ofText)
      let isDirectory (content : Except Refusal Counts) : Bool := match content with
        | .error (.path .isDirectory) => true
        | .error .badDescriptor => true
        | _ => false
      let isMissing (content : Except Refusal (List Char)) : Bool := match content with
        | .error r => r ≠ .path .isDirectory
        | .ok _ => false
      let shown := counted.filterMap fun (operand, content) =>
        if isDirectory content then some (operand, ⟨0, 0, 0, 0⟩) else content.toOption.map fun n => (operand, n)
      let total := (shown.map Prod.snd).foldl Counts.add ⟨0, 0, 0, 0⟩
      let isSingle := contents.length = 1 && chosen.length = 1
      let width :=
        if isSingle then 1
        else
          let least := if contents.all fun (operand, content) => isFile operand || isMissing content then 1 else 7
          max least (Nat.toDigits 10 total.octets).length
      let line (n : Counts) (title : String) : List Char :=
        let count : Char → Nat
          | 'l' => n.lines
          | 'w' => n.words
          | 'L' => n.longest
          | _ => n.octets
        let numbers := [' '].intercalate (chosen.map fun c => padded width (count c))
        numbers ++ (if title.isEmpty then "\n" else s!" {title}\n").toList
      let rows := shown.map fun (operand, n) => line n (if operands.isEmpty then "" else operand)
      let sum := if 1 < contents.length then line total "total" else []
      let title (operand : String) : String := if operand = "-" then quoted (titleOf operand) else operand
      let faults := counted.filterMap fun (operand, content) => match content with
        | .error r => some s!"{title operand}: {r.message}"
        | .ok _ => none
      Report.deliver ⟨rows.flatten ++ sum, faults, if faults.isEmpty then 0 else 1⟩ inv.name

/-! ## Turned round -/

/-- Writes lines with their characters in the other order. -/
def rev (inv : Invocation) : Action Nat := do
  let contents ← readOperands (inv.arguments.filter (· ≠ "--"))
  let turn (piece : List Char) : List Char :=
    if piece.getLast? = some '\n' then piece.dropLast.reverse ++ ['\n'] else piece.reverse
  let texts := contents.filterMap fun (_, content) => content.toOption
  let faults := contents.filterMap fun (operand, content) => match content with
    | .error r => some s!"cannot open {operand}: {r.message}"
    | .ok _ => none
  Report.deliver ⟨(texts.map fun t => ((Lines.ofText t).pieces.map turn).flatten).flatten, faults,
    if faults.isEmpty then 0 else 1⟩ inv.name

/-- Writes lines in the other order. -/
def tac (inv : Invocation) : Action Nat :=
  withOptions ⟨"b", "s", [("separator", 's'), ("before", 'b')]⟩ 1 inv fun options operands => do
    let contents ← readOperands operands
    let texts := contents.filterMap fun (_, content) => content.toOption
    let separator := (valueOf? options 's').getD "\n"
    let turned (text : List Char) : List Char :=
      match ((String.ofList text).splitOn separator).reverse with
      | [] => []
      | last :: others => last.toList ++ others.flatMap fun piece => (piece ++ separator).toList
    let faults := contents.filterMap fun (operand, content) => match content with
      | .error r => some s!"failed to open {quoted operand} for reading: {r.message}"
      | .ok _ => none
    Report.deliver ⟨texts.flatMap turned, faults, if faults.isEmpty then 0 else 1⟩ inv.name

/-- Copies what is read to the output and to files. -/
def tee (inv : Invocation) : Action Nat :=
  withOptions ⟨"aip", "", [("append", 'a')]⟩ 1 inv fun options operands => do
    let access : Access := if has options 'a' then .append else .write
    let opened ← operands.mapM fun operand => do
      return (operand, ← Action.openFile (Text.ofOctets operand) access)
    let faults := opened.filterMap fun (operand, d) => match d with
      | .error r => some s!"{operand}: {r.message}"
      | .ok _ => none
    let bytes := (← Action.readAll 0).toOption.getD []
    for (_, d) in opened do
      match d with
      | .ok d =>
        let _ ← Action.write d bytes
      | .error _ => pure ()
    Report.deliver ⟨Text.widen bytes, faults, if faults.isEmpty then 0 else 1⟩ inv.name

end CompileDb.Utility
