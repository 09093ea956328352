import CompileDb.Shell.Fraction

/-!
# Printed texts

What `echo` and `printf` write: escapes stand for single octets, and the directives of a format for the arguments in
turn. A format is used again while arguments are left that it takes. The tool of the shell and the program of the same
name know different escapes and keep fractions differently.
-/

namespace CompileDb.Shell

/-! ## Escapes -/

/-- Which escapes a text may have. -/
inductive Dialect where
  /-- Octal digits may follow a leading zero, and `\c` ends all output. -/
  | plain
  /-- The format of the shell's tool. -/
  | format
  /-- The format of the program, which knows `\c` and numbers of other bases. -/
  | wideFormat
  /-- A text of the program: like its format, but octal digits may follow a leading zero. -/
  | widePlain
deriving DecidableEq

def Dialect.isWide : Dialect → Bool
  | wideFormat => true
  | widePlain => true
  | _ => false

/-- The octet that a letter after a backslash stands for. -/
def escapeOctet? : Char → Option Char
  | 'a' => some '\x07'
  | 'e' => some '\x1b'
  | 'b' => some '\x08'
  | 't' => some '\t'
  | 'n' => some '\n'
  | 'v' => some '\x0b'
  | 'f' => some '\x0c'
  | 'r' => some '\r'
  | '\\' => some '\\'
  | _ => none

def isOctal (c : Char) : Bool := decide ('0' ≤ c) && decide (c ≤ '7')

/-- The value of at most so many digits of a base at the front of the text. -/
def digitsUpTo (base : Nat) : Nat → Nat → List Char → Nat × List Char
  | n + 1, value, c :: rest =>
    match Formula.digit? base c with
    | some d => digitsUpTo base n (base * value + d) rest
    | none => (value, c :: rest)
  | _, value, rest => (value, rest)

def octet (n : Nat) : Char := Char.ofNat (n % 256)

/-- One escape: its octets and the text after it, or nothing for the escape that ends all output. `text` is what follows
the backslash. -/
def escape? (dialect : Dialect) (text : List Char) : Option (List Char × List Char) :=
  match text with
  | [] => some (['\\'], [])
  | c :: rest =>
    if dialect ≠ .format ∧ c = 'c' then none
    else
      let leadingZero := (dialect = .plain ∨ dialect = .widePlain) ∧ c = '0'
      if isOctal c then
        let (value, rest) := digitsUpTo 8 3 0 (if leadingZero then rest else text)
        some ([octet value], rest)
      else if dialect.isWide ∧ c = 'x' ∧ rest.head?.any (fun d => (Formula.digit? 16 d).isSome) then
        let (value, rest) := digitsUpTo 16 2 0 rest
        some ([octet value], rest)
      else if dialect.isWide ∧ c = '"' then some (['"'], rest)
      else
        match escapeOctet? c with
        | some o => some ([o], rest)
        | none => some (['\\'], text)

/-- A text with its escapes replaced, and whether output goes on after it. `fuel` is at least its length. -/
def unescape (dialect : Dialect) : Nat → List Char → List Char × Bool
  | fuel + 1, '\\' :: rest =>
    match escape? dialect rest with
    | none => ([], false)
    | some (octets, rest) =>
      let (more, goesOn) := unescape dialect fuel rest
      (octets ++ more, goesOn)
  | fuel + 1, c :: rest =>
    let (more, goesOn) := unescape dialect fuel rest
    (c :: more, goesOn)
  | _, _ => ([], true)

/-- Words in one line, with blanks between them. -/
def joinWords (words : List String) : List Char := (" ".intercalate words).toList

/-- What `echo` of the shell writes. -/
def echo (arguments : List String) : List Char :=
  let (newline, arguments) := match arguments with
    | "-n" :: rest => (false, rest)
    | rest => (true, rest)
  let text := joinWords arguments
  match unescape .plain text.length text with
  | (octets, goesOn) => octets ++ if newline && goesOn then ['\n'] else []

/-- The options of `echo` as a program: whether the newline is left out, whether escapes are replaced, and the words. -/
def echoOptions (silent escapes : Bool) : List String → Bool × Bool × List String
  | [] => (silent, escapes, [])
  | argument :: rest =>
    match argument.toList with
    | '-' :: c :: cs =>
      if (c :: cs).all (· ∈ ['n', 'e', 'E']) then
        let choice := (c :: cs).foldl (fun e d => if d = 'e' then true else if d = 'E' then false else e) escapes
        echoOptions (silent || (c :: cs).contains 'n') choice rest
      else (silent, escapes, argument :: rest)
    | _ => (silent, escapes, argument :: rest)

/-- What `echo` as a program writes. -/
def programEcho (arguments : List String) : List Char :=
  let (silent, escapes, words) := echoOptions false false arguments
  let text := joinWords words
  let (octets, goesOn) := if escapes then unescape .widePlain text.length text else (text, true)
  octets ++ if goesOn && !silent then ['\n'] else []

/-! ## Directives -/

/-- How an argument is laid out. -/
structure Layout where
  left : Bool
  zeros : Bool
  plus : Bool
  blank : Bool
  alternate : Bool
  width : Nat
  precision : Option Nat

namespace Layout

def pad (l : Layout) (octets : List Char) : List Char :=
  let gap := List.replicate (l.width - octets.length) ' '
  if l.left then octets ++ gap else gap ++ octets

/-- The digits of a number, brought to a least count and to the width of a layout. -/
def number (l : Layout) (sign : List Char) (least : Option Nat) (digits : List Char) : List Char :=
  let least := match least with
    | some p => p
    | none => if l.zeros ∧ ¬ l.left then l.width - sign.length else 0
  l.pad (sign ++ List.replicate (least - digits.length) '0' ++ digits)

def sign (l : Layout) (negative : Bool) : List Char :=
  if negative then ['-'] else if l.plus then ['+'] else if l.blank then [' '] else []

/-- The text of an integer under a directive. Bases other than ten show a negative one as a word of 64 bits. -/
def integer (l : Layout) (directive : Char) (value : Int) : List Char :=
  let word := (value % Nat.pow 2 64).toNat
  -- no digit at all stands for a zero that may have none
  let digits (ds : List Char) (isZero : Bool) : List Char := if isZero ∧ l.precision = some 0 then [] else ds
  let mark (m : List Char) : List Char := if l.alternate ∧ word ≠ 0 then m else []
  match directive with
  | 'u' => l.number [] l.precision (digits (Nat.toDigits 10 word) (word = 0))
  | 'o' => l.number [] l.precision (mark ['0'] ++ digits (Nat.toDigits 8 word) (word = 0))
  | 'x' => l.number (mark ['0', 'x']) l.precision (digits (Nat.toDigits 16 word) (word = 0))
  | 'X' => l.number (mark ['0', 'X']) l.precision (digits ((Nat.toDigits 16 word).map Char.toUpper) (word = 0))
  | _ => l.number (l.sign (value < 0)) l.precision (digits (Nat.toDigits 10 value.natAbs) (value = 0))

/-- The text of a number with a fraction under a directive. -/
def fraction (l : Layout) (directive : Char) (f : Fraction) : List Char :=
  let text := Fraction.body directive (l.precision.getD 6) l.alternate f.magnitude
  match f.magnitude with
  | .quotient .. => l.number (l.sign f.negative) none text
  | _ => l.pad (l.sign f.negative ++ text)

end Layout

/-- Why an argument is not the number it should be. -/
inductive ArgumentFault where
  | notNumber
  | partly
  | tooLarge
deriving DecidableEq

/-- The integer an argument stands for: a numeral, decimal, octal or hexadecimal, or a quote and a character. -/
def argumentInteger (signed : Bool) (argument : List Char) : Int × Option ArgumentFault :=
  match argument with
  | '\x27' :: rest => ((rest.head?.elim 0 Char.toNat : Nat), none)
  | '"' :: rest => ((rest.head?.elim 0 Char.toNat : Nat), none)
  | _ =>
    let body := argument.dropWhile Formula.isBlank
    let (negative, unsigned) := match body with
      | '-' :: rest => (true, rest)
      | '+' :: rest => (false, rest)
      | rest => (false, rest)
    if unsigned.head?.any Char.isDigit then
      let (n, rest) := Formula.magnitude unsigned
      let value : Int := if negative then -(n : Int) else n
      let fault := if rest.isEmpty then none else some ArgumentFault.partly
      if signed then
        if value < -Nat.pow 2 63 then (-Nat.pow 2 63, fault <|> some .tooLarge)
        else if Nat.pow 2 63 ≤ value then (Nat.pow 2 63 - 1, fault <|> some .tooLarge)
        else (value, fault)
      else if Nat.pow 2 64 ≤ n then (Nat.pow 2 64 - 1, fault <|> some .tooLarge)
      else (value, fault)
    else (0, if argument.isEmpty then none else some .notNumber)

def argumentFraction (format : FloatFormat) (argument : List Char) : Fraction × Option ArgumentFault :=
  match argument with
  | '\x27' :: rest => (⟨false, .quotient (rest.head?.elim 0 Char.toNat) 1⟩, none)
  | '"' :: rest => (⟨false, .quotient (rest.head?.elim 0 Char.toNat) 1⟩, none)
  | _ =>
    let (f, rest) := Fraction.read format argument
    let fault :=
      if rest.isEmpty then none
      else if rest.length = argument.length then some ArgumentFault.notNumber
      else some .partly
    (f, fault)

/-- Why a format is given up. -/
inductive FormatFault where
  /-- No directive is written like this. -/
  | invalid (directive : String)
  /-- The format ends within a directive. -/
  | incomplete
deriving DecidableEq

/-- What a format has written. -/
structure Printed where
  /-- What was written, last octet first. -/
  octets : List Char
  /-- The arguments not yet taken. -/
  arguments : List String
  /-- An argument was taken. -/
  took : Bool
  /-- Output has been ended. -/
  ended : Bool
  /-- Arguments that are no numbers. -/
  faults : List (String × ArgumentFault)
  fault : Option FormatFault

namespace Printed

/-- Writes octets. -/
def write (p : Printed) (octets : List Char) : Printed := { p with octets := octets.reverse ++ p.octets }

def take (p : Printed) : String × Printed :=
  (p.arguments.headD "", { p with arguments := p.arguments.tail, took := p.took || !p.arguments.isEmpty })

def note (p : Printed) (argument : String) : Option ArgumentFault → Printed
  | some f => { p with faults := p.faults ++ [(argument, f)] }
  | none => p

/-- Takes an argument that is a width or a precision. -/
def takeCount (p : Printed) : Int × Printed :=
  let (argument, p) := p.take
  let (n, fault) := argumentInteger true argument.toList
  (n, p.note argument fault)

/-- What a directive writes for the next argument. `text` is the directive as it is written. -/
def directive (p : Printed) (wide : Bool) (l : Layout) (d : Char) (text : List Char) : Printed :=
  let cut (octets : List Char) : List Char := l.pad (match l.precision with
    | some n => octets.take n
    | none => octets)
  let isOne (ds : List Char) : Bool := ds.contains d
  if isOne ['s'] then
    let (argument, p) := p.take
    p.write (cut argument.toList)
  else if isOne ['c'] then
    let (argument, p) := p.take
    p.write (l.pad [argument.toList.headD '\x00'])
  else if isOne ['b'] then
    let (argument, p) := p.take
    let (octets, goesOn) := unescape (if wide then .widePlain else .plain) argument.length argument.toList
    { p.write (cut octets) with ended := !goesOn }
  else if isOne ['d', 'i', 'o', 'u', 'x', 'X'] then
    let (argument, p) := p.take
    let (value, fault) := argumentInteger (isOne ['d', 'i']) argument.toList
    (p.note argument fault).write (l.integer d value)
  else if isOne ['e', 'E', 'f', 'F', 'g', 'G'] then
    let (argument, p) := p.take
    let (value, fault) := argumentFraction (if wide then .extended else .double) argument.toList
    (p.note argument fault).write (l.fraction d value)
  else { p with fault := some (.invalid (.ofList text)), ended := true }

/-- A number at the front of a text: a star for an argument, or digits. -/
def count (p : Printed) (text : List Char) : Option Int × Printed × List Char :=
  match text with
  | '*' :: rest =>
    let (n, p) := p.takeCount
    (some n, p, rest)
  | _ =>
    let digits := text.takeWhile Char.isDigit
    ((decimal? digits).map Int.ofNat, p, text.dropWhile Char.isDigit)

/-- The layout at the front of a directive, and the rest of it. -/
def layout (p : Printed) (text : List Char) : Layout × Printed × List Char :=
  let isFlag (c : Char) : Bool := c ∈ ['-', '0', '+', ' ', '#']
  let flags := text.takeWhile isFlag
  let (width, p, rest) := p.count (text.dropWhile isFlag)
  let (precision, p, rest) := match rest with
    | '.' :: rest =>
      let (n, p, rest) := p.count rest
      (some (n.getD 0), p, rest)
    | rest => (none, p, rest)
  let has (flag : Char) : Bool := flags.contains flag
  let width := width.getD 0
  let precision := precision.bind fun n => if n < 0 then none else some n.toNat
  (⟨has '-' || width < 0, has '0', has '+', has ' ', has '#', width.natAbs, precision⟩, p, rest)

/-- One pass over a format. `fuel` is at least its length. -/
def pass (wide : Bool) : Nat → Printed → List Char → Printed
  | fuel + 1, p, '\\' :: rest =>
    match escape? (if wide then .wideFormat else .format) rest with
    | none => { p with ended := true }
    | some (octets, rest) => pass wide fuel (p.write octets) rest
  | fuel + 1, p, '%' :: '%' :: rest => pass wide fuel (p.write ['%']) rest
  | fuel + 1, p, '%' :: text =>
    let (l, p, rest) := p.layout text
    match rest with
    | [] =>
      { p with ended := true, fault := some (if wide then .invalid (.ofList ('%' :: text)) else .incomplete) }
    | d :: rest =>
      let p := p.directive wide l d ('%' :: text.take (text.length - rest.length))
      if p.ended then p else pass wide fuel p rest
  | fuel + 1, p, c :: rest => pass wide fuel (p.write [c]) rest
  | _, p, _ => p

/-- Passes over a format until no argument is left, or none is taken. -/
def passes (wide : Bool) : Nat → Printed → List Char → Printed
  | 0, p, _ => p
  | fuel + 1, p, format =>
    let p := pass wide format.length { p with took := false } format
    if p.ended ∨ p.arguments.isEmpty ∨ ¬ p.took then p else passes wide fuel p format

end Printed

/-- What `printf` writes, and what is wrong with its arguments and its format. -/
def printf (wide : Bool) (format : String) (arguments : List String) : Printed :=
  Printed.passes wide (arguments.length + 1) ⟨[], arguments, false, false, [], none⟩ format.toList

end CompileDb.Shell
