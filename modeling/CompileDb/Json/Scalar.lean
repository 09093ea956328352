/-!
# Numbers and quoted texts in JSON

No number is wanted in a database, but one may stand where something else is wanted, or in a member that is passed
over. Where one is read for its value, a value beyond the largest binary64 number counts as no JSON.

A `\u` escape in a quoted text holds one UTF-16 unit in four hexadecimal digits; a character outside the basic plane
takes two of them, a leading and a trailing surrogate, and neither half may stand alone.
-/

namespace CompileDb.Json

/-- Why a document was not read. -/
inductive Fault where
  /-- The document ends too early. -/
  | endOfInput
  /-- The text is not JSON. -/
  | notJson
  /-- The text is JSON so far, but of another shape than wanted. -/
  | wrongShape
deriving DecidableEq, Repr

/-- The fault in words. -/
def Fault.message : Fault → String
  | endOfInput => "unexpected end of input"
  | notJson => "not valid JSON"
  | wrongShape => "valid JSON of another shape"

/-! ## Numbers -/

/-- A decimal digit. -/
def isDigit (c : Char) : Bool := decide ('0' ≤ c) && decide (c ≤ '9')

/-- The parts of a number: the digits before the point, those after it, and the signed exponent. -/
structure Numeral where
  whole : List Char
  fraction : List Char
  exponent : Int
deriving Repr

/-- The number that digits stand for. -/
def ofDigits (digits : List Char) : Nat :=
  digits.foldl (fun n c => 10 * n + (c.toNat - 48)) 0

/-- One or more digits. `atEnd` is the fault of a text that ends before the first. -/
def readDigits (atEnd : Fault) (text : List Char) : Except Fault (List Char × List Char) :=
  match text with
  | [] => .error atEnd
  | c :: _ => if isDigit c then .ok (text.takeWhile isDigit, text.dropWhile isDigit) else .error .notJson

/-- An exponent, if one follows. -/
def readExponent (atEnd : Fault) (text : List Char) : Except Fault (Int × List Char) :=
  match text with
  | c :: rest =>
    if c = 'e' ∨ c = 'E' then
      match rest with
      | '-' :: rest => (readDigits atEnd rest).map fun (ds, rest) => (-(ofDigits ds : Int), rest)
      | '+' :: rest => (readDigits atEnd rest).map fun (ds, rest) => ((ofDigits ds : Int), rest)
      | rest => (readDigits atEnd rest).map fun (ds, rest) => ((ofDigits ds : Int), rest)
    else .ok (0, text)
  | [] => .ok (0, text)

/-- A fraction, if one follows. -/
def readFraction (atEnd : Fault) (text : List Char) : Except Fault (List Char × List Char) :=
  match text with
  | '.' :: rest => readDigits atEnd rest
  | _ => .ok ([], text)

/-- A number without its sign: no zero stands before another digit, and a point or an exponent is followed by a
digit. -/
def readNumeral (atEnd : Fault) (text : List Char) : Except Fault (Numeral × List Char) := do
  let (whole, rest) ← readDigits atEnd text
  if whole.head? = some '0' ∧ 1 < whole.length then throw .notJson
  let (fraction, rest) ← readFraction atEnd rest
  let (exponent, rest) ← readExponent atEnd rest
  return (⟨whole, fraction, exponent⟩, rest)

/-- A number with its sign. -/
def readNumber (atEnd : Fault) : List Char → Except Fault (Numeral × List Char)
  | '-' :: rest => readNumeral atEnd rest
  | text => readNumeral atEnd text

/-! ## Range -/

/-- The leading digits of a number as far as they fit into 64 bits, and how many whole digits were left out. -/
structure Significand where
  value : Nat
  dropped : Nat
  full : Bool

/-- One more digit before the point. -/
def Significand.pushWhole (s : Significand) (c : Char) : Significand :=
  let next := 10 * s.value + (c.toNat - 48)
  if s.full || decide (Nat.pow 2 64 ≤ next) then { s with dropped := s.dropped + 1, full := true } else { s with value := next }

/-- The digits after the point that still fit, counted in `taken`. -/
def pushFraction (value taken : Nat) : List Char → Nat × Nat
  | [] => (value, taken)
  | c :: rest =>
    let next := 10 * value + (c.toNat - 48)
    if Nat.pow 2 64 ≤ next then (value, taken) else pushFraction next (taken + 1) rest

/-- `n` rounded to 53 significant bits, a half to the even neighbour. -/
def round53 (n : Nat) : Nat :=
  if n < Nat.pow 2 53 then n
  else
    let unit := Nat.pow 2 (n.log2 - 52)
    let low := n / unit
    let half := 2 * (n % unit)
    (if half > unit ∨ (half = unit ∧ low % 2 = 1) then low + 1 else low) * unit

/-- Whether `value · 10 ^ exponent` is beyond the largest binary64 number, with both factors rounded first. -/
def exceedsBinary64 (value : Nat) (exponent : Int) : Bool :=
  if value = 0 then false
  else if exponent > 308 then true
  else if exponent < 0 then false
  else decide (Nat.pow 2 1024 - Nat.pow 2 970 ≤ round53 value * round53 (Nat.pow 10 exponent.toNat))

/-- Whether the value of a numeral is beyond the largest binary64 number. -/
def Numeral.isTooLarge (n : Numeral) : Bool :=
  let whole := n.whole.foldl Significand.pushWhole ⟨0, 0, false⟩
  let (value, taken) := pushFraction whole.value 0 n.fraction
  exceedsBinary64 value ((whole.dropped : Int) - taken + n.exponent)

/-! ## Quoted texts -/

/-! ## Writing -/

/-- A hexadecimal digit, in lower case. -/
def hexDigit (n : Nat) : Char :=
  if n < 10 then Char.ofNat (48 + n) else Char.ofNat (87 + n)

/-- A character as it is written between quotes. Quotes, backslashes and control characters are escaped, all else
stands for itself. -/
def escapeChar (c : Char) : List Char :=
  match c with
  | '"' => ['\\', '"']
  | '\\' => ['\\', '\\']
  | '\x08' => ['\\', 'b']
  | '\x0c' => ['\\', 'f']
  | '\n' => ['\\', 'n']
  | '\r' => ['\\', 'r']
  | '\t' => ['\\', 't']
  | c => if c.toNat < 0x20 then ['\\', 'u', '0', '0', hexDigit (c.toNat / 16), hexDigit (c.toNat % 16)] else [c]

/-- A text between quotes. -/
def quote (text : String) : List Char :=
  '"' :: text.toList.flatMap escapeChar ++ ['"']

/-! ## Reading -/

/-- The value of a hexadecimal digit of either case. -/
def hexValue? (c : Char) : Option Nat :=
  let n := c.toNat
  if 48 ≤ n ∧ n ≤ 57 then some (n - 48)
  else if 65 ≤ n ∧ n ≤ 70 then some (n - 55)
  else if 97 ≤ n ∧ n ≤ 102 then some (n - 87)
  else none

/-- The character that a one-letter escape stands for. -/
def simpleEscape? : Char → Option Char
  | '"' => some '"'
  | '\\' => some '\\'
  | '/' => some '/'
  | 'b' => some '\x08'
  | 'f' => some '\x0c'
  | 'n' => some '\n'
  | 'r' => some '\r'
  | 't' => some '\t'
  | _ => none

/-- The first half of a surrogate pair. -/
def isLeading (unit : Nat) : Bool := decide (0xD800 ≤ unit) && decide (unit ≤ 0xDBFF)

/-- The second half of a surrogate pair. -/
def isTrailing (unit : Nat) : Bool := decide (0xDC00 ≤ unit) && decide (unit ≤ 0xDFFF)

/-- The character that a surrogate pair stands for. -/
def ofPair (leading trailing : Nat) : Char :=
  Char.ofNat (0x10000 + (leading - 0xD800) * 0x400 + (trailing - 0xDC00))

/-- Where reading stands inside a quoted text. -/
inductive Place where
  | plain
  /-- After a backslash. -/
  | escape
  /-- Before the last `left` digits of a unit, after a leading surrogate if there is one. -/
  | digits (left value : Nat) (leading : Option Nat)
  /-- After a leading surrogate, before the backslash of the trailing one. -/
  | pair (leading : Nat)
  /-- After that backslash, before its `u`. -/
  | pairMark (leading : Nat)
deriving DecidableEq, Repr

/-- Whether at least the four bytes of a unit are left. -/
def holdsUnit (rest : List Char) : Bool :=
  decide (4 ≤ ((rest.take 4).map Char.utf8Size).foldl (· + ·) 0)

/-- Reads up to the closing quote; `seen` is what was read so far, last character first. -/
def readQuoted (place : Place) (seen : List Char) : List Char → Except Fault (String × List Char)
  | [] => .error .endOfInput
  | c :: rest =>
    match place with
    | .plain =>
      if c = '"' then .ok (String.ofList seen.reverse, rest)
      else if c = '\\' then readQuoted .escape seen rest
      else if c.toNat < 0x20 then .error .notJson
      else readQuoted .plain (c :: seen) rest
    | .escape =>
      if c = 'u' then
        if holdsUnit rest then readQuoted (.digits 4 0 none) seen rest else .error .endOfInput
      else
        match simpleEscape? c with
        | some d => readQuoted .plain (d :: seen) rest
        | none => .error .notJson
    | .digits left value leading =>
      match hexValue? c with
      | none => .error .notJson
      | some d =>
        let unit := 16 * value + d
        if 1 < left then readQuoted (.digits (left - 1) unit leading) seen rest
        else
          match leading with
          | some first =>
            if isTrailing unit then readQuoted .plain (ofPair first unit :: seen) rest else .error .notJson
          | none =>
            if isTrailing unit then .error .notJson
            else if isLeading unit then readQuoted (.pair unit) seen rest
            else readQuoted .plain (Char.ofNat unit :: seen) rest
    | .pair first => if c = '\\' then readQuoted (.pairMark first) seen rest else .error .notJson
    | .pairMark first =>
      if c = 'u' then
        if holdsUnit rest then readQuoted (.digits 4 0 (some first)) seen rest else .error .endOfInput
      else .error .notJson

/-- Passes over a quoted text whose value is not wanted: escapes are checked, but surrogates need not pair. -/
def skipQuoted (place : Place) : List Char → Except Fault (List Char)
  | [] => .error .endOfInput
  | c :: rest =>
    match place with
    | .escape =>
      if c = 'u' then
        if holdsUnit rest then skipQuoted (.digits 4 0 none) rest else .error .endOfInput
      else if (simpleEscape? c).isSome then skipQuoted .plain rest
      else .error .notJson
    | .digits left _ _ =>
      if (hexValue? c).isNone then .error .notJson
      else if 1 < left then skipQuoted (.digits (left - 1) 0 none) rest
      else skipQuoted .plain rest
    | _ =>
      if c = '"' then .ok rest
      else if c = '\\' then skipQuoted .escape rest
      else if c.toNat < 0x20 then .error .notJson
      else skipQuoted .plain rest

end CompileDb.Json
