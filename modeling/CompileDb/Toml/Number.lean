import CompileDb.Toml.Text

/-!
# Numbers and dates in TOML

An integer fits into 64 bits, a float is below the range of binary64, and a date exists in the calendar. A date or a
time is told from a number by what follows its first digits.
-/

namespace CompileDb.Toml

def isDecimal (c : Char) : Bool := decide ('0' ≤ c) && decide (c ≤ '9')

/-- The number that decimal digits stand for. -/
def ofDecimal (digits : List Char) : Nat := digits.foldl (fun n c => 10 * n + (c.toNat - 48)) 0

/-! ## Dates -/

/-- The number of exactly so many digits, if the text begins with them. -/
def digits? (count : Nat) (text : List Char) : Option (Nat × List Char) :=
  let ds := text.take count
  if ds.length = count ∧ ds.all isDecimal then some (ofDecimal ds, text.drop count) else none

/-- A number of two digits within bounds. -/
def readField (low high : Nat) : Reader Nat := fun text =>
  match digits? 2 text with
  | none => .error .malformed
  | some (n, rest) => if low ≤ n ∧ n ≤ high then .ok (n, rest) else .error .outOfRange

/-- Passes over one character. -/
def skipMark (mark : Char) : List Char → Except Fault (List Char)
  | [] => .error .malformed
  | c :: rest => if c = mark then .ok rest else .error .malformed

/-- How many days a month has. -/
def daysIn (year month : Nat) : Nat :=
  if month = 2 then if year % 4 = 0 ∧ (year % 100 ≠ 0 ∨ year % 400 = 0) then 29 else 28
  else if month = 4 ∨ month = 6 ∨ month = 9 ∨ month = 11 then 30
  else 31

/-- The month and the day of a date, after the year and its hyphen. -/
def readMonthDay (year : Nat) (text : List Char) : Except Fault (List Char) := do
  let (month, rest) ← readField 1 12 text
  let (day, rest) ← readField 1 31 (← skipMark '-' rest)
  if daysIn year month < day then throw .outOfRange
  return rest

/-- The minute and the second of a time, after the hour and its colon. -/
def readMinuteSecond (text : List Char) : Except Fault (List Char) := do
  let (_, rest) ← readField 0 59 text
  let (_, rest) ← readField 0 60 (← skipMark ':' rest)
  match rest with
  | '.' :: c :: more => return if isDecimal c then more.dropWhile isDecimal else rest
  | _ => return rest

/-- The text after an hour and its colon, if it begins with them. -/
def skipHour? (text : List Char) : Option (List Char) :=
  match digits? 2 text with
  | some (hour, ':' :: rest) => if hour ≤ 23 then some rest else none
  | _ => none

/-- A time offset, if one follows. -/
def readOffset (text : List Char) : Except Fault (List Char) :=
  match text with
  | 'Z' :: rest => .ok rest
  | 'z' :: rest => .ok rest
  | c :: rest =>
    if c = '+' ∨ c = '-' then do
      let (_, rest) ← readField 0 23 rest
      let (_, rest) ← readField 0 59 (← skipMark ':' rest)
      return rest
    else .ok text
  | [] => .ok text

/-- The time after a date, if one follows. -/
def readTimeOfDate (text : List Char) : Except Fault (List Char) :=
  match text with
  | c :: rest =>
    if c = 'T' ∨ c = 't' ∨ c = ' ' then
      match skipHour? rest with
      | some rest => readMinuteSecond rest >>= readOffset
      | none => .ok text
    else .ok text
  | [] => .ok text

/-- The text after a date or a time, if it begins with one: a year and a hyphen are followed by a date, an hour and a
colon by a time. -/
def readDate (text : List Char) : Except Fault (Option (List Char)) :=
  match digits? 4 text with
  | some (year, '-' :: rest) => (readMonthDay year rest >>= readTimeOfDate).map some
  | _ =>
    match skipHour? text with
    | some rest => (readMinuteSecond rest).map some
    | none => .ok none

/-! ## Numbers -/

/-- Digits of a base; `seen` holds those before, last one first. An underscore stands between two of them only. -/
def readDigits (isDigit : Char → Bool) (seen : List Char) : Reader (List Char)
  | [] => if seen.isEmpty then .error .malformed else .ok (seen.reverse, [])
  | c :: rest =>
    if isDigit c then readDigits isDigit (c :: seen) rest
    else if seen.isEmpty then .error .malformed
    else if c = '_' then
      match rest with
      | d :: more => if isDigit d then readDigits isDigit (d :: seen) more else .error .malformed
      | [] => .error .malformed
    else .ok (seen.reverse, c :: rest)

def readDecimals : Reader (List Char) := readDigits isDecimal []

/-- A decimal number without its sign; a zero stands alone. -/
def readWhole : Reader (List Char)
  | '0' :: rest => .ok (['0'], rest)
  | text => readDecimals text

/-- A sign, if one stands first. -/
def takeSign : List Char → Bool × List Char
  | '-' :: rest => (true, rest)
  | '+' :: rest => (false, rest)
  | text => (false, text)

/-- The least number that is rounded beyond the largest binary64 number. -/
def binary64Bound : Nat := Nat.pow 2 1024 - Nat.pow 2 970

/-- Whether `value · 10 ^ exponent` is rounded beyond the largest binary64 number. -/
def isTooLarge (value : Nat) (exponent : Int) : Bool :=
  if value = 0 then false
  else if exponent > 400 then true
  else if exponent ≥ 0 then decide (binary64Bound ≤ value * Nat.pow 10 exponent.toNat)
  else
    let places := (-exponent).toNat
    if value.log2 < places then false else decide (binary64Bound * Nat.pow 10 places ≤ value)

/-- The exponent of a float, after its letter. -/
def readExponent (text : List Char) : Except Fault (Int × List Char) :=
  let (negative, rest) := takeSign text
  (readDecimals rest).map fun (ds, rest) => ((if negative then -(ofDecimal ds : Int) else (ofDecimal ds : Int)), rest)

/-- A float whose whole part was read, if a fraction or an exponent follows. Only a float without a minus sign can be
too large. -/
def readFloat (negative : Bool) (whole : List Char) (text : List Char) : Except Fault (Option (List Char)) := do
  let (fraction, rest) ← match text with
    | '.' :: rest => readDecimals rest
    | _ => .ok ([], text)
  let (exponent, rest) ← match rest with
    | c :: more => if c = 'e' ∨ c = 'E' then (readExponent more).map fun (e, r) => (some e, r) else .ok (none, rest)
    | [] => .ok (none, rest)
  if fraction.isEmpty ∧ exponent.isNone then return none
  let scale := exponent.getD 0 - fraction.length
  if !negative && isTooLarge (ofDecimal (whole ++ fraction)) scale then throw .outOfRange
  return some rest

def integerOf (negative : Bool) (n : Nat) : Except Fault Value :=
  if negative then if n ≤ Nat.pow 2 63 then .ok (.integer (-(n : Int))) else .error .outOfRange
  else if n < Nat.pow 2 63 then .ok (.integer n)
  else .error .outOfRange

/-- An integer in another base than ten, after its prefix. -/
def readBased (base : Nat) : Reader Value := fun text => do
  let isDigit := fun c => match hexValue? c with
    | some d => decide (d < base)
    | none => false
  let (ds, rest) ← readDigits isDigit [] text
  let n := ds.foldl (fun n c => base * n + (hexValue? c).getD 0) 0
  return (← integerOf false n, rest)

def readNumber : Reader Value := fun text =>
  match text with
  | '0' :: 'x' :: rest => readBased 16 rest
  | '0' :: 'o' :: rest => readBased 8 rest
  | '0' :: 'b' :: rest => readBased 2 rest
  | _ =>
    let (negative, unsigned) := takeSign text
    match unsigned with
    | 'i' :: 'n' :: 'f' :: rest => .ok (.float, rest)
    | 'n' :: 'a' :: 'n' :: rest => .ok (.float, rest)
    | _ => do
      let (whole, rest) ← readWhole unsigned
      match ← readFloat negative whole rest with
      | some rest => return (.float, rest)
      | none => return (← integerOf negative (ofDecimal whole), rest)

def readNumberOrDate : Reader Value := fun text => do
  match ← readDate text with
  | some rest => return (.date, rest)
  | none => readNumber text

end CompileDb.Toml
