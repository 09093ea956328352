import CompileDb.Shell.Recipe

/-!
# Arithmetic formulas

A formula is worked out in whole numbers of 64 bits, with the operators, the precedences and the assignments that
programmers know. A part that is not needed, behind `&&`, `||` or `?`, is read but not worked out.
-/

namespace CompileDb.Shell

/-- Why a formula has no value. -/
inductive FormulaFault where
  | divisionByZero
  /-- Something else should stand there. -/
  | expecting (what : String)
  /-- The value of a variable is no number. -/
  | illegalNumber (text : String)
deriving DecidableEq, Repr

namespace Formula

/-- A number wrapped to 64 bits. -/
def wrap (n : Int) : Int := Int.bmod n (Nat.pow 2 64)

/-! ## Numerals -/

def digit? (base : Nat) (c : Char) : Option Nat :=
  let value :=
    if c.isDigit then c.toNat - 48
    else if 'a' ≤ c.toLower ∧ c.toLower ≤ 'f' then c.toLower.toNat - 87
    else 16
  if value < base then some value else none

/-- The number that digits of a base at the front of a text stand for, and the text after them. -/
def digits (base : Nat) (text : List Char) : Nat × List Char :=
  let isDigit (c : Char) : Bool := (digit? base c).isSome
  ((text.takeWhile isDigit).foldl (fun n c => base * n + (digit? base c).getD 0) 0, text.dropWhile isDigit)

/-- The number that stands at the front of a text, decimal, octal or hexadecimal, and the text after it. -/
def magnitude (text : List Char) : Nat × List Char :=
  match text with
  | '0' :: x :: c :: rest =>
    if (x = 'x' ∨ x = 'X') ∧ (digit? 16 c).isSome then digits 16 (c :: rest) else digits 8 text
  | '0' :: _ => digits 8 text
  | _ => digits 10 text

def isBlank (c : Char) : Bool := c = ' ' || (decide (9 ≤ c.toNat) && decide (c.toNat ≤ 13))

/-- The number that a whole text stands for: blanks, a sign, a numeral, blanks. A text without a numeral stands for zero
if it holds nothing else. -/
def number? (text : List Char) : Option Int :=
  let body := text.dropWhile isBlank
  let (negative, unsigned) := match body with
    | '-' :: rest => (true, rest)
    | '+' :: rest => (false, rest)
    | rest => (false, rest)
  let hasDigits := unsigned.head?.any Char.isDigit
  let (n, rest) := if hasDigits then magnitude unsigned else (0, text)
  let value : Int := if negative then -(n : Int) else n
  if !rest.all isBlank then none
  else if -Nat.pow 2 63 ≤ value ∧ value < Nat.pow 2 63 then some value
  else none

/-! ## Tokens -/

/-- A token of a formula. -/
inductive Token where
  | number (n : Int)
  | name (n : String)
  | sign (s : String)
deriving DecidableEq, Repr

/-- The signs of formulas, longer ones before those they begin with. -/
def signs : List String :=
  ["<<=", ">>=", "<<", ">>", "<=", ">=", "==", "!=", "&&", "||", "*=", "/=", "%=", "+=", "-=", "&=", "^=", "|=", "=", "*",
    "/", "%", "+", "-", "<", ">", "&", "^", "|", "!", "~", "(", ")", "?", ":"]

/-- The tokens of a formula. `fuel` is at least the length of the text. What is no token is a sign of its own. -/
def tokens : Nat → List Char → List Token
  | fuel + 1, c :: rest =>
    if c = ' ' ∨ c = '\t' ∨ c = '\n' then tokens fuel rest
    else if c.isDigit then
      let (n, after) := magnitude (c :: rest)
      .number (min n (Nat.pow 2 63 - 1)) :: tokens fuel after
    else if isNameStart c then
      .name (.ofList ((c :: rest).takeWhile isNameChar)) :: tokens fuel (rest.dropWhile isNameChar)
    else
      match signs.find? fun s => s.toList.isPrefixOf (c :: rest) with
      | some s => .sign s :: tokens fuel ((c :: rest).drop s.length)
      | none => .sign "" :: tokens fuel rest
  | _, _ => []

/-! ## Working out -/

/-- A formula being worked out: the tokens that are left, and the variables that were set, the last first. -/
structure Progress where
  tokens : List Token
  settings : List (String × Int)

abbrev Working := StateT Progress (Except FormulaFault)

/-- How strongly an operator binds; a stronger one has a lower rank. -/
def rank? : String → Option Nat
  | "*" | "/" | "%" => some 0
  | "+" | "-" => some 1
  | "<<" | ">>" => some 2
  | "<" | "<=" | ">" | ">=" => some 3
  | "==" | "!=" => some 4
  | "&" => some 5
  | "^" => some 6
  | "|" => some 7
  | _ => none

def bits (n : Int) : Nat := (n % Nat.pow 2 64).toNat

/-- One for true. -/
def ofBool (b : Bool) : Int := if b then 1 else 0

def apply (operator : String) (a b : Int) : Except FormulaFault Int :=
  match operator with
  | "*" => .ok (wrap (a * b))
  | "/" => if b = 0 then .error .divisionByZero else .ok (wrap (Int.tdiv a b))
  | "%" => if b = 0 then .error .divisionByZero else .ok (Int.tmod a b)
  | "+" => .ok (wrap (a + b))
  | "-" => .ok (wrap (a - b))
  | "<<" => .ok (wrap (a * Nat.pow 2 (bits b % 64)))
  | ">>" => .ok (Int.fdiv a (Nat.pow 2 (bits b % 64)))
  | "<" => .ok (ofBool (a < b))
  | "<=" => .ok (ofBool (a ≤ b))
  | ">" => .ok (ofBool (b < a))
  | ">=" => .ok (ofBool (b ≤ a))
  | "==" => .ok (ofBool (a = b))
  | "!=" => .ok (ofBool (a ≠ b))
  | "&" => .ok (wrap (bits a &&& bits b : Nat))
  | "^" => .ok (wrap (bits a ^^^ bits b : Nat))
  | "|" => .ok (wrap (bits a ||| bits b : Nat))
  | _ => .ok b

/-- Signs that set a variable. -/
def assignments : List String := ["=", "*=", "/=", "%=", "+=", "-=", "<<=", ">>=", "&=", "^=", "|="]

/-- Takes the sign `s`, if it comes next. -/
def takeSign (s : String) : Working Bool := do
  let p ← get
  match p.tokens with
  | .sign t :: rest =>
    if t = s then
      set { p with tokens := rest }
      return true
    else return false
  | _ => return false

def skip : Working Unit := modify fun p => { p with tokens := p.tokens.drop 1 }

def valueOf (environment : String → Option String) (name : String) : Working Int := do
  match (← get).settings.lookup name with
  | some n => return n
  | none =>
    let text := (environment name).getD ""
    match number? text.toList with
    | some n => return n
    | none => throw (.illegalNumber text)

mutual

/-- A formula that may set a variable. With `silent`, its value is not needed. -/
def assignment (environment : String → Option String) : Nat → Bool → Working Int
  | 0, _ => throw (.expecting "primary")
  | fuel + 1, silent => do
    let p ← get
    match p.tokens with
    | .name n :: .sign s :: rest =>
      if s ∈ assignments then
        set { p with tokens := rest }
        let value ← assignment environment fuel silent
        if silent then return value
        let result ←
          if s = "=" then pure value
          else do
            let old ← valueOf environment n
            match apply (.ofList (s.toList.dropLast)) old value with
            | .ok r => pure r
            | .error f => throw f
        modify fun p => { p with settings := (n, result) :: p.settings }
        return result
      else conditional environment fuel silent
    | _ => conditional environment fuel silent

/-- A formula that may choose between two others. -/
def conditional (environment : String → Option String) : Nat → Bool → Working Int
  | 0, _ => throw (.expecting "primary")
  | fuel + 1, silent => do
    let a ← disjunction environment fuel silent
    if ← takeSign "?" then
      let b ← assignment environment fuel (silent || a = 0)
      if !(← takeSign ":") then throw (.expecting "\x27:\x27")
      let c ← conditional environment fuel (silent || a ≠ 0)
      return if a ≠ 0 then b else c
    else return a

def disjunction (environment : String → Option String) : Nat → Bool → Working Int
  | 0, _ => throw (.expecting "primary")
  | fuel + 1, silent => do
    let a ← conjunction environment fuel silent
    if ← takeSign "||" then
      let b ← disjunction environment fuel (silent || a ≠ 0)
      return ofBool (a ≠ 0 || b ≠ 0)
    else return a

def conjunction (environment : String → Option String) : Nat → Bool → Working Int
  | 0, _ => throw (.expecting "primary")
  | fuel + 1, silent => do
    let a ← operand environment fuel silent
    let a ← operation environment fuel silent a 8
    if ← takeSign "&&" then
      let b ← conjunction environment fuel (silent || a = 0)
      return ofBool (a ≠ 0 && b ≠ 0)
    else return a

/-- The operators after a first operand that bind more strongly than a rank. -/
def operation (environment : String → Option String) : Nat → Bool → Int → Nat → Working Int
  | 0, _, _, _ => throw (.expecting "primary")
  | fuel + 1, silent, a, limit => do
    match (← get).tokens with
    | .sign s :: _ =>
      match rank? s with
      | none => return a
      | some r =>
        if limit ≤ r then return a
        skip
        let b ← operand environment fuel silent
        let b ← operation environment fuel silent b r
        let value ←
          if silent then pure b
          else
            match apply s a b with
            | .ok v => pure v
            | .error f => throw f
        operation environment fuel silent value limit
    | _ => return a

def operand (environment : String → Option String) : Nat → Bool → Working Int
  | 0, _ => throw (.expecting "primary")
  | fuel + 1, silent => do
    match (← get).tokens with
    | .number n :: _ =>
      skip
      return n
    | .name n :: _ =>
      skip
      if silent then return 0 else valueOf environment n
    | .sign "(" :: _ =>
      skip
      let a ← assignment environment fuel silent
      if ← takeSign ")" then return a else throw (.expecting "\x27)\x27")
    | .sign "+" :: _ =>
      skip
      operand environment fuel silent
    | .sign "-" :: _ =>
      skip
      return wrap (-(← operand environment fuel silent))
    | .sign "!" :: _ =>
      skip
      return ofBool ((← operand environment fuel silent) = 0)
    | .sign "~" :: _ =>
      skip
      return -(← operand environment fuel silent) - 1
    | _ => throw (.expecting "primary")

end

/-- The value of a formula and the variables that it sets, in order. -/
def value (environment : String → Option String) (text : List Char) : Except FormulaFault (Int × List (String × Int)) :=
  let ts := tokens text.length text
  match (assignment environment (10 * ts.length + 10) false).run ⟨ts, []⟩ with
  | .error f => .error f
  | .ok (n, p) => if p.tokens.isEmpty then .ok (n, p.settings.reverse) else .error (.expecting "EOF")

def complaint (text : String) : FormulaFault → String
  | .divisionByZero => s!"arithmetic expression: division by zero: \"{text}\""
  | .expecting what => s!"arithmetic expression: expecting {what}: \"{text}\""
  | .illegalNumber number => s!"Illegal number: {number}"

end Formula

end CompileDb.Shell
