import CompileDb.Shell.Formula

/-!
# Numbers with a fraction

A numeral stands for the number of so many binary digits that is nearest to it, and of two that are as near for the even
one. Such a number is written with decimal places or with an exponent, again as the nearest of what can be written.
-/

namespace CompileDb.Shell

/-- A number that is not negative: a quotient, or none. -/
inductive Magnitude where
  | quotient (num den : Nat)
  | infinite
  | undefined
deriving DecidableEq, Repr

/-- A number with its sign. -/
structure Fraction where
  negative : Bool
  magnitude : Magnitude
deriving DecidableEq, Repr

/-- How a machine keeps numbers. -/
structure FloatFormat where
  /-- The binary digits of a number. -/
  digits : Nat
  /-- The least exponent of the last digit is minus this. -/
  least : Nat
  /-- Numbers are below two to this. -/
  bound : Nat

def FloatFormat.double : FloatFormat := ⟨53, 1074, 1024⟩

def FloatFormat.extended : FloatFormat := ⟨64, 16445, 16384⟩

/-- A quotient rounded to the nearest natural number, and of two that are as near to the even one. -/
def roundQuotient (num den : Nat) : Nat :=
  let q := num / den
  let twice := 2 * (num % den)
  if den < twice ∨ (twice = den ∧ q % 2 = 1) then q + 1 else q

def FloatFormat.nearest (f : FloatFormat) (num den : Nat) : Magnitude :=
  if num = 0 then .quotient 0 1
  else
    -- the exponent of the last digit: at first a guess, which may be one too small
    let guess : Int := (num.log2 : Int) - den.log2 - f.digits
    let scaled (e : Int) : Nat × Nat := if 0 ≤ e then (num, den * Nat.pow 2 e.toNat) else (num * Nat.pow 2 (-e).toNat, den)
    let fits (e : Int) : Bool := let (n, d) := scaled e; decide (n < d * Nat.pow 2 f.digits)
    let e := if fits guess then guess else guess + 1
    let e := max e (-(f.least : Int))
    let (n, d) := scaled e
    let q := roundQuotient n d
    let (n, d) := if 0 ≤ e then (q * Nat.pow 2 e.toNat, 1) else (q, Nat.pow 2 (-e).toNat)
    if d * Nat.pow 2 f.bound ≤ n then .infinite else .quotient n d

namespace Fraction

/-- The digits at the front of a text, with a point among them: their value without the point, how many stand behind
it, whether there are any, and the text after them. -/
def readPlaces (base : Nat) (text : List Char) : Nat × Nat × Bool × List Char :=
  let isDigit (c : Char) : Bool := (Formula.digit? base c).isSome
  let whole := text.takeWhile isDigit
  let (part, rest) := match text.dropWhile isDigit with
    | '.' :: rest => (rest.takeWhile isDigit, rest.dropWhile isDigit)
    | rest => ([], rest)
  let value := (whole ++ part).foldl (fun n c => base * n + (Formula.digit? base c).getD 0) 0
  let rest := if whole.isEmpty ∧ part.isEmpty then text else rest
  (value, part.length, !(whole.isEmpty && part.isEmpty), rest)

/-- The exponent at the front of a text, after its letter. -/
def readExponent (letters : List Char) (text : List Char) : Int × List Char :=
  match text with
  | c :: rest =>
    if letters.contains c then
      let (negative, digits) := match rest with
        | '-' :: ds => (true, ds)
        | '+' :: ds => (false, ds)
        | ds => (false, ds)
      match decimal? (digits.takeWhile Char.isDigit) with
      | some n =>
        let n := min n 100000
        (if negative then -(n : Int) else n, digits.dropWhile Char.isDigit)
      | none => (0, text)
    else (0, text)
  | [] => (0, text)

/-- The number at the front of a text, and the text after it. Without a number it is zero, and the whole text stays. -/
def read (f : FloatFormat) (text : List Char) : Fraction × List Char :=
  let body := text.dropWhile Formula.isBlank
  let (negative, unsigned) := match body with
    | '-' :: rest => (true, rest)
    | '+' :: rest => (false, rest)
    | rest => (false, rest)
  let lower := unsigned.map Char.toLower
  let scaled (value : Nat) (base : Nat) (e : Int) : Magnitude :=
    if 0 ≤ e then f.nearest (value * Nat.pow base e.toNat) 1 else f.nearest value (Nat.pow base (-e).toNat)
  if ['i', 'n', 'f', 'i', 'n', 'i', 't', 'y'].isPrefixOf lower then (⟨negative, .infinite⟩, unsigned.drop 8)
  else if ['i', 'n', 'f'].isPrefixOf lower then (⟨negative, .infinite⟩, unsigned.drop 3)
  else if ['n', 'a', 'n'].isPrefixOf lower then (⟨negative, .undefined⟩, unsigned.drop 3)
  else
    let hex := readPlaces 16 (unsigned.drop 2)
    if ['0', 'x'].isPrefixOf lower ∧ hex.2.2.1 then
      let (value, places, _, rest) := hex
      let (e, rest) := readExponent ['p', 'P'] rest
      (⟨negative, scaled value 2 (e - 4 * places)⟩, rest)
    else
      let (value, places, found, rest) := readPlaces 10 unsigned
      if found then
        let (e, rest) := readExponent ['e', 'E'] rest
        (⟨negative, scaled value 10 (e - places)⟩, rest)
      else (⟨false, .quotient 0 1⟩, text)

/-! ## Writing -/

/-- A natural number with a point before its last digits. -/
def withPoint (value places : Nat) (alternate : Bool) : List Char :=
  let digits := Nat.toDigits 10 value
  let digits := List.replicate (places + 1 - digits.length) '0' ++ digits
  let whole := digits.take (digits.length - places)
  if places = 0 then if alternate then whole ++ ['.'] else whole
  else whole ++ '.' :: digits.drop (digits.length - places)

/-- A quotient with so many decimal places. -/
def fixed (num den places : Nat) (alternate : Bool) : List Char :=
  withPoint (roundQuotient (num * Nat.pow 10 places) den) places alternate

/-- The exponent of ten for the first digit of a quotient, as it is before rounding. -/
def firstExponent (num den : Nat) : Int :=
  if num = 0 then 0
  else
    let guess : Int := (Nat.toDigits 10 num).length - (Nat.toDigits 10 den).length
    let reaches (e : Int) : Bool :=
      if 0 ≤ e then decide (den * Nat.pow 10 e.toNat ≤ num) else decide (den ≤ num * Nat.pow 10 (-e).toNat)
    if reaches guess then guess else guess - 1

/-- A quotient as digits, the first of which is not zero, and the exponent of that one. -/
def scientificParts (num den places : Nat) : Nat × Int :=
  let e := firstExponent num den
  let shift := (places : Int) - e
  let q := if 0 ≤ shift then roundQuotient (num * Nat.pow 10 shift.toNat) den else roundQuotient num (den * Nat.pow 10 (-shift).toNat)
  if Nat.pow 10 (places + 1) ≤ q then (q / 10, e + 1) else (q, e)

/-- An exponent with its letter: a sign and two digits at least. -/
def exponentText (letter : Char) (e : Int) : List Char :=
  let digits := Nat.toDigits 10 e.natAbs
  letter :: (if e < 0 then '-' else '+') :: List.replicate (2 - digits.length) '0' ++ digits

def scientific (letter : Char) (num den places : Nat) (alternate : Bool) : List Char :=
  let (q, e) := scientificParts num den places
  withPoint q places alternate ++ exponentText letter e

/-- A text without the zeros at the end of its decimal places. -/
def withoutZeros (text : List Char) : List Char :=
  if text.contains '.' then
    match (text.reverse.dropWhile (· = '0')) with
    | '.' :: whole => whole.reverse
    | rest => rest.reverse
  else text

/-- A quotient with so many digits in all, in the shorter way. -/
def general (letter : Char) (num den digits : Nat) (alternate : Bool) : List Char :=
  let digits := max digits 1
  let (q, e) := scientificParts num den (digits - 1)
  let trim (text : List Char) : List Char := if alternate then text else withoutZeros text
  if -4 ≤ e ∧ e < digits then trim (fixed num den ((digits : Int) - 1 - e).toNat alternate)
  else trim (withPoint q (digits - 1) alternate) ++ exponentText letter e

/-- A number without its sign, as a directive asks for it. -/
def body (directive : Char) (precision : Nat) (alternate : Bool) : Magnitude → List Char
  | .infinite => if directive.isUpper then ['I', 'N', 'F'] else ['i', 'n', 'f']
  | .undefined => if directive.isUpper then ['N', 'A', 'N'] else ['n', 'a', 'n']
  | .quotient num den =>
    match directive with
    | 'e' => scientific 'e' num den precision alternate
    | 'E' => scientific 'E' num den precision alternate
    | 'g' => general 'e' num den precision alternate
    | 'G' => general 'E' num den precision alternate
    | _ => fixed num den precision alternate

end Fraction

end CompileDb.Shell
