import CompileDb.Shell.Pattern
import CompileDb.Utility.Content

/-!
# Octets as they are

Utilities that show octets as numbers, write them with letters and digits only, or copy them in blocks.
-/

namespace CompileDb.Utility

open Host

/-! ## Showing octets -/

namespace Dump

/-- How octets are shown. -/
inductive Form where
  | char
  | name
  | octal (size : Nat)
  | hex (size : Nat)
  | unsigned (size : Nat)
  | signed (size : Nat)
deriving DecidableEq, Repr

namespace Form

/-- How many octets are shown together. -/
def size : Form → Nat
  | char => 1
  | name => 1
  | octal n => n
  | hex n => n
  | unsigned n => n
  | signed n => n

/-- The digits that numbers of so many octets take at most. -/
def digits : Form → Nat
  | char => 3
  | name => 3
  | octal n => (8 * n + 2) / 3
  | hex n => 2 * n
  | unsigned n => (Nat.toDigits 10 (Nat.pow 256 n - 1)).length
  | signed n => (Nat.toDigits 10 (Nat.pow 256 n / 2)).length + 1

/-- The names of the octets that cannot be printed. -/
def names : List String :=
  ["nul", "soh", "stx", "etx", "eot", "enq", "ack", "bel", "bs", "ht", "nl", "vt", "ff", "cr", "so", "si", "dle", "dc1",
    "dc2", "dc3", "dc4", "nak", "syn", "etb", "can", "em", "sub", "esc", "fs", "gs", "rs", "us", "sp"]

def filledDigits (base width n : Nat) : List Char :=
  let digits := Nat.toDigits base n
  List.replicate (width - digits.length) '0' ++ digits

/-- Octets that are shown together. The first one counts least. -/
def text (f : Form) (octets : List Char) : List Char :=
  let n := octets.foldr (fun c n => 256 * n + c.toNat) 0
  match f with
  | char =>
    let escapes : List (Nat × Char) := [(0, '0'), (7, 'a'), (8, 'b'), (9, 't'), (10, 'n'), (11, 'v'), (12, 'f'), (13, 'r')]
    match escapes.lookup n with
    | some e => ['\\', e]
    | none => if 32 ≤ n && n < 127 then [Char.ofNat n] else filledDigits 8 3 n
  | name =>
    let low := n % 128
    if low = 127 then "del".toList else ((names[low]?).map String.toList).getD [Char.ofNat low]
  | octal _ => filledDigits 8 f.digits n
  | hex _ => filledDigits 16 f.digits n
  | unsigned _ => Nat.toDigits 10 n
  | signed size => (toString (if Nat.pow 256 size / 2 ≤ n then (n : Int) - Nat.pow 256 size else n)).toList

end Form

def sizeLetters : List (Char × Nat) := [('C', 1), ('S', 2), ('I', 4), ('L', 8)]

/-- The forms that a text asks for, with whether printed characters stand behind them. -/
def formsOf (whole : String) : Nat → List Char → Except String (List (Form × Bool))
  | 0, _ => .ok []
  | _, [] => .ok []
  | fuel + 1, c :: rest => do
    let (sized, rest) : Option Nat × List Char := match rest with
      | d :: after =>
        if d.isDigit then (Shell.decimal? (rest.takeWhile Char.isDigit), rest.dropWhile Char.isDigit)
        else match sizeLetters.lookup d with
          | some n => (some n, after)
          | none => (none, rest)
      | [] => (none, [])
    let size := sized.getD 4
    let form ← match c with
      | 'c' => pure Form.char
      | 'a' => pure .name
      | 'o' => pure (.octal size)
      | 'x' => pure (.hex size)
      | 'u' => pure (.unsigned size)
      | 'd' => pure (.signed size)
      | c => throw s!"invalid character \x27{c}\x27 in type string {quoted whole}"
    let (prints, rest) := match rest with
      | 'z' :: rest => (true, rest)
      | rest => (false, rest)
    return (form, prints) :: (← formsOf whole fuel rest)

/-- The forms that options without a value stand for. -/
def letterForms : List (Char × Form) :=
  [('a', .name), ('b', .octal 1), ('c', .char), ('d', .unsigned 2), ('o', .octal 2), ('s', .signed 2), ('x', .hex 2)]

def forms (options : List (Char × String)) : Except String (List (Form × Bool)) := do
  let each ← options.mapM fun (c, value) =>
    if c = 't' then formsOf value (value.length + 1) value.toList
    else .ok ((letterForms.lookup c).toList.map (·, false))
  return if each.flatten.isEmpty then [(.octal 2, false)] else each.flatten

def aligned (width : Nat) (text : List Char) : List Char := List.replicate (width - text.length) ' ' ++ text

/-- Octets in pieces of a size, the last of which is filled up with zeros. -/
def pieces (size : Nat) : Nat → List Char → List (List Char)
  | 0, _ => []
  | _, [] => []
  | fuel + 1, octets =>
    let piece := octets.take size
    (piece ++ List.replicate (size - piece.length) '\x00') :: pieces size fuel (octets.drop size)

/-- A row of octets in a form. `column` is the width for as many octets as are shown together at most, which are `block`. -/
def row (width block column : Nat) (f : Form × Bool) (octets : List Char) : List Char :=
  let cell := column * f.1.size / block
  let shown := (pieces f.1.size octets.length octets).flatMap fun p => aligned cell (f.1.text p)
  if f.2 then
    let printed := octets.map fun c => if Shell.inClass "print" c then c else '.'
    shown ++ List.replicate (cell * (width / f.1.size) - shown.length) ' ' ++ ' ' :: ' ' :: '>' :: printed ++ ['<']
  else shown

/-- What is shown of octets. -/
structure Plan where
  forms : List (Form × Bool)
  /-- The octets of a row. -/
  width : Nat
  /-- The base in which places are shown, and the digits they take. -/
  places : Option (Nat × Nat)
  /-- Rows that are the same are all shown. -/
  repeats : Bool

def Plan.place (p : Plan) (n : Nat) : List Char :=
  match p.places with
  | some (base, digits) => Form.filledDigits base digits n
  | none => []

/-- The rows of octets from a place on, with the last one before them. -/
def Plan.rows (p : Plan) : Nat → Nat → Option (List Char) → Bool → List Char → List (List Char)
  | 0, _, _, _, _ => []
  | _, place, _, _, [] => if p.places.isSome then [p.place place ++ ['\n']] else []
  | fuel + 1, place, before, isHidden, octets =>
    let now := octets.take p.width
    let rest := octets.drop p.width
    let next := place + now.length
    if !p.repeats && before = some now && now.length = p.width then
      (if isHidden then [] else ["*\n".toList]) ++ p.rows fuel next before true rest
    else
      let block := (p.forms.map fun f => f.1.size).foldl max 1
      let column := (p.forms.map fun f => (f.1.digits + 1) * (block / f.1.size)).foldl max 0
      let indent := List.replicate (p.place 0).length ' '
      let lines := p.forms.zipIdx.map fun (f, i) =>
        (if i = 0 then p.place place else indent) ++ row p.width block column f now ++ ['\n']
      lines.flatten :: p.rows fuel next (some now) false rest

end Dump

def od (inv : Invocation) : Action Nat :=
  withOptions ⟨"abcdosxv", "AtNjw", [("format", 't'), ("address-radix", 'A'), ("read-bytes", 'N'), ("skip-bytes", 'j'),
      ("output-duplicates", 'v'), ("width", 'w')]⟩ 1 inv fun options operands => do
    match Dump.forms options with
    | .error text =>
      complain inv.name text
      return 1
    | .ok forms =>
      let number (c : Char) : Option Nat := (valueOf? options c).bind fun v => sizedNumber? v.toList
      let places := match valueOf? options 'A' with
        | some "n" => none
        | some "d" => some (10, 7)
        | some "x" => some (16, 6)
        | _ => some (8, 7)
      let contents ← readOperands operands
      let faults := contents.filterMap fun (operand, content) => match content with
        | .error r => some s!"{operand}: {r.message}"
        | .ok _ => none
      let octets := contents.flatMap fun (_, content) => content.toOption.getD []
      let skipped := (number 'j').getD 0
      if octets.length < skipped then
        complain inv.name "cannot skip past end of combined input"
        return 1
      let octets := octets.drop skipped
      let octets := (number 'N').elim octets octets.take
      let plan : Dump.Plan := ⟨forms, max 1 ((number 'w').getD 16), places, has options 'v'⟩
      let isLost := contents.all fun (_, content) => !content.isOk
      let rows := if isLost then [] else plan.rows (octets.length + 1) skipped none false octets
      Report.deliver ⟨rows.flatten, faults, if faults.isEmpty then 0 else 1⟩ inv.name

/-! ## Letters and digits -/

namespace SixBits

def alphabet : List Char := "ABCDEFGHIJKLMNOPQRSTUVWXYZabcdefghijklmnopqrstuvwxyz0123456789+/".toList

def letter (n : Nat) : Char := (alphabet[n % 64]?).getD 'A'

/-- Three octets become four characters. -/
def encode : List Char → List Char
  | a :: b :: c :: rest =>
    let n := (a.toNat * 256 + b.toNat) * 256 + c.toNat
    letter (n / 262144) :: letter (n / 4096) :: letter (n / 64) :: letter n :: encode rest
  | [a, b] =>
    let n := (a.toNat * 256 + b.toNat) * 256
    [letter (n / 262144), letter (n / 4096), letter (n / 64), '=']
  | [a] =>
    let n := a.toNat * 65536
    [letter (n / 262144), letter (n / 4096), '=', '=']
  | [] => []

/-- Four characters become three octets. The answer says whether all characters could be taken. -/
def decode : List Char → List Char × Bool
  | [] => ([], true)
  | [a, b, '=', '='] =>
    match alphabet.idxOf? a, alphabet.idxOf? b with
    | some m, some n => ([Char.ofNat ((m * 64 + n) / 16)], n % 16 = 0)
    | _, _ => ([], false)
  | [a, b, c, '='] =>
    match alphabet.idxOf? a, alphabet.idxOf? b, alphabet.idxOf? c with
    | some m, some n, some o =>
      let all := (m * 64 + n) * 64 + o
      ([Char.ofNat (all / 1024), Char.ofNat (all / 4 % 256)], o % 4 = 0)
    | _, _, _ => ([], false)
  | a :: b :: c :: d :: rest =>
    match alphabet.idxOf? a, alphabet.idxOf? b, alphabet.idxOf? c, alphabet.idxOf? d with
    | some m, some n, some o, some p =>
      let all := ((m * 64 + n) * 64 + o) * 64 + p
      let (after, isWhole) := decode rest
      (Char.ofNat (all / 65536) :: Char.ofNat (all / 256 % 256) :: Char.ofNat (all % 256) :: after, isWhole)
    | some m, some n, some o, none =>
      let all := (m * 64 + n) * 64 + o
      ([Char.ofNat (all / 1024), Char.ofNat (all / 4 % 256)], false)
    | some m, some n, none, _ => ([Char.ofNat ((m * 64 + n) / 16)], false)
    | _, _, _, _ => ([], false)
  | a :: b :: c :: [] =>
    match alphabet.idxOf? a, alphabet.idxOf? b, alphabet.idxOf? c with
    | some m, some n, some o =>
      let all := (m * 64 + n) * 64 + o
      ([Char.ofNat (all / 1024), Char.ofNat (all / 4 % 256)], false)
    | _, _, _ => ([], false)
  | a :: b :: [] =>
    match alphabet.idxOf? a, alphabet.idxOf? b with
    | some m, some n => ([Char.ofNat ((m * 64 + n) / 16)], false)
    | _, _ => ([], false)
  | _ => ([], false)

/-- A text in lines of a length, or in one if that is zero. -/
def wrapped (length : Nat) : Nat → List Char → List Char
  | 0, _ => []
  | _, [] => []
  | fuel + 1, text =>
    if length = 0 then text else text.take length ++ '\n' :: wrapped length fuel (text.drop length)

end SixBits

/-- Writes octets with letters and digits only, or reads them. -/
def base64 (inv : Invocation) : Action Nat :=
  withOptions ⟨"di", "w", [("decode", 'd'), ("ignore-garbage", 'i'), ("wrap", 'w')]⟩ 1 inv fun options operands => do
    match operands[1]?, ← readOperand (operands.headD "-") with
    | some extra, _ => misused inv.name s!"extra operand {quoted extra}" 1
    | none, .error r =>
      complain inv.name (operands.headD "-" ++ ": " ++ r.message)
      return 1
    | none, .ok text =>
      if has options 'd' then
        let kept := text.filter fun c =>
          c ≠ '\n' && (!has options 'i' || c = '=' || SixBits.alphabet.contains c)
        let (octets, isWhole) := SixBits.decode kept
        let status ← Report.deliver ⟨octets, [], if isWhole then 0 else 1⟩ inv.name
        if !isWhole then complain inv.name "invalid input"
        return status
      else
        match Shell.decimal? ((valueOf? options 'w').getD "76").toList with
        | none =>
          complain inv.name ("invalid wrap size: " ++ quoted ((valueOf? options 'w').getD ""))
          return 1
        | some length =>
          let all := SixBits.encode text
          (Report.ofOutput (SixBits.wrapped length (all.length + 1) all)).deliver inv.name

/-! ## Copying in blocks -/

/-- What `dd` is asked for. -/
structure Copying where
  source : Option String
  target : Option String
  inSize : Nat
  outSize : Nat
  count : Option Nat
  skip : Nat
  seek : Nat
  conversions : List String
  status : String

namespace Copying

def known : List String := ["notrunc", "ucase", "lcase", "swab", "sync", "noerror", "fsync", "fdatasync"]

/-- Takes one operand. The other side of the answer is what is wrong with it, and whether help is offered. -/
def take (c : Copying) (operand : String) : Except (String × Bool) Copying :=
  let name := String.ofList (operand.toList.takeWhile (· ≠ '='))
  let value := String.ofList ((operand.toList.dropWhile (· ≠ '=')).drop 1)
  let number (put : Nat → Copying) : Except (String × Bool) Copying :=
    match sizedNumber? value.toList with
    | some n => .ok (put n)
    | none => .error (s!"invalid number: {quoted value}", false)
  if !operand.toList.contains '=' then .error (s!"unrecognized operand {quoted operand}", true)
  else
    match name with
    | "if" => .ok { c with source := some value }
    | "of" => .ok { c with target := some value }
    | "bs" => number fun n => { c with inSize := n, outSize := n }
    | "ibs" => number fun n => { c with inSize := n }
    | "obs" => number fun n => { c with outSize := n }
    | "count" => number fun n => { c with count := some n }
    | "skip" => number fun n => { c with skip := n }
    | "seek" => number fun n => { c with seek := n }
    | "status" => .ok { c with status := value }
    | "conv" =>
      let given := value.splitOn ","
      match given.find? (!known.contains ·) with
      | some wrong => .error (s!"invalid conversion: {quoted wrong}", true)
      | none => .ok { c with conversions := c.conversions ++ given }
    | _ => .error (s!"unrecognized operand {quoted operand}", true)

def converted (c : Copying) (octets : List Char) : List Char :=
  let octets := if c.conversions.contains "ucase" then octets.map Char.toUpper else octets
  if c.conversions.contains "lcase" then octets.map Char.toLower else octets

/-- Reads so many blocks, if there are as many. `full` and `part` count those that were read. -/
def readBlocks (c : Copying) (descriptor : Nat) : Nat → Nat → Nat → Nat → List (List Char) →
    Action (Except Refusal (List Char) × Nat × Nat)
  | 0, _, full, part, seen => return (.ok seen.reverse.flatten, full, part)
  | fuel + 1, left, full, part, seen => do
    if left = 0 then return (.ok seen.reverse.flatten, full, part)
    match ← Action.read descriptor (.upTo c.inSize) with
    | .error r => return (.error r, full, part)
    | .ok [] => return (.ok seen.reverse.flatten, full, part)
    | .ok bytes =>
      let isFull := bytes.length = c.inSize
      readBlocks c descriptor fuel (left - 1) (if isFull then full + 1 else full) (if isFull then part else part + 1)
        (Text.widen bytes :: seen)

end Copying

/-- Opens a file for `dd`. -/
def openForCopy (path : Option String) (access : Access) (usual : Nat) : Action (Except (String × Refusal) Nat) :=
  match path with
  | none => return .ok usual
  | some p => do return (← Action.openFile (Text.ofOctets p) access).mapError fun r => (p, r)

/-- Copies octets in blocks. -/
def dd (inv : Invocation) : Action Nat := do
  match inv.arguments.foldlM Copying.take ⟨none, none, 512, 512, none, 0, 0, [], ""⟩ with
  | .error (text, offers) =>
    if offers then misused inv.name text 1
    else
      complain inv.name text
      return 1
  | .ok c =>
    let keeps := c.seek ≠ 0 || c.conversions.contains "notrunc"
    match ← openForCopy c.source .read 0 with
    | .error (p, r) =>
      complain inv.name s!"failed to open {quoted p}: {r.message}"
      return 1
    | .ok source =>
      match ← openForCopy c.target (if keeps then .update else .write) 1 with
      | .error (p, r) =>
        complain inv.name s!"failed to open {quoted p}: {r.message}"
        return 1
      | .ok target =>
        let _ ← Action.read source (.upTo (c.skip * c.inSize))
        if keeps && c.target.isSome then
          let start := c.seek * c.outSize
          let path : Path := ⟨Text.ofOctets (c.target.getD "")⟩
          let truncates := !c.conversions.contains "notrunc"
          let _ ← Action.change fun files => (files.read path).bind fun bytes =>
            files.write path ((if truncates then bytes.take start else bytes) ++ List.replicate (start - bytes.length) 0)
          let _ ← Action.read target (.upTo start)
        let (content, full, part) ← c.readBlocks source Action.pieceLimit (c.count.getD Action.pieceLimit) 0 0 []
        match content with
        | .error r =>
          complain inv.name ("error reading " ++ quoted (c.source.getD "standard input") ++ ": " ++ r.message)
          return 1
        | .ok octets =>
          let result ← write target (c.converted octets)
          let size := octets.length
          let (outFull, outPart) := if c.inSize = c.outSize then (full, part)
            else (size / max 1 c.outSize, if size % max 1 c.outSize = 0 then 0 else 1)
          if c.status ≠ "none" then
            let _ ← write 2 s!"{full}+{part} records in\n{outFull}+{outPart} records out\n".toList
            if c.status ≠ "noxfer" then
              let unit := if size = 1 then "byte" else "bytes"
              let _ ← write 2 s!"{size} {unit} copied, 1e-05 s, 1.0 MB/s\n".toList
          match result with
          | .ok () => return 0
          | .error r =>
            complain inv.name ("error writing " ++ quoted (c.target.getD "standard output") ++ ": " ++ r.message)
            return 1

end CompileDb.Utility
