import CompileDb.Json.Scalar

/-!
# Reading JSON of a wanted shape

A reader takes the value it wants from the front of a text and returns it with the rest. It fails at the first
fault met from left to right, so a wrong shape found early hides what comes after it.
-/

namespace CompileDb.Json

/-- Takes a value from the front of a text. -/
abbrev Reader (α : Type) := List Char → Except Fault (α × List Char)

/-- The blanks between JSON tokens. -/
def isJsonBlank (c : Char) : Bool := c == ' ' || c == '\n' || c == '\t' || c == '\r'

/-- The text from its first token on. -/
def skipBlanks (text : List Char) : List Char := text.dropWhile isJsonBlank

/-- Passes over the letters of a literal. -/
def skipLetters : List Char → List Char → Except Fault (List Char)
  | [], text => .ok text
  | _ :: _, [] => .error .endOfInput
  | l :: letters, c :: rest => if c = l then skipLetters letters rest else .error .notJson

/-- The fault that a result without a use leads to: its own, else that its shape is not wanted. -/
def faultOf {α : Type} : Except Fault α → Fault
  | .error f => f
  | .ok _ => .wrongShape

/-- The fault of the value at the front of a text, where a value of another shape is wanted. Literals, numbers and
quoted texts are read to their end; lists and objects are refused at once. -/
def unwanted : List Char → Fault
  | [] => .endOfInput
  | c :: rest =>
    match c with
    | 'n' => faultOf (skipLetters ['u', 'l', 'l'] rest)
    | 't' => faultOf (skipLetters ['r', 'u', 'e'] rest)
    | 'f' => faultOf (skipLetters ['a', 'l', 's', 'e'] rest)
    | '"' => faultOf (readQuoted .plain [] rest)
    | '[' => .wrongShape
    | '\x7b' => .wrongShape
    | c =>
      if c = '-' ∨ isDigit c then
        match readNumber .endOfInput (c :: rest) with
        | .error f => f
        | .ok (n, _) => if n.isTooLarge then .notJson else .wrongShape
      else .notJson

/-- A text. -/
def readText : Reader String := fun text =>
  match skipBlanks text with
  | '"' :: rest => readQuoted .plain [] rest
  | other => .error (unwanted other)

/-- `null`, or a value. -/
def readOptional {α : Type} (value : Reader α) : Reader (Option α) := fun text =>
  match skipBlanks text with
  | 'n' :: rest => (skipLetters ['u', 'l', 'l'] rest).map (none, ·)
  | other => (value other).map fun (a, rest) => (some a, rest)

/-- The start of the next element of a list, or nothing before its closing bracket. Every element but the first
follows a comma. -/
def nextElement (first : Bool) (text : List Char) : Except Fault (Option (List Char)) :=
  match skipBlanks text with
  | [] => .error .endOfInput
  | ']' :: _ => .ok none
  | c :: rest =>
    if first then .ok (some (c :: rest))
    else if c = ',' then
      match skipBlanks rest with
      | [] => .error .endOfInput
      | ']' :: _ => .error .notJson
      | rest => .ok (some rest)
    else .error .notJson

/-- The closing bracket `close` of a list or an object. -/
def readClosing (close : Char) (text : List Char) : Except Fault (List Char) :=
  match skipBlanks text with
  | [] => .error .endOfInput
  | c :: rest => if c = close then .ok rest else .error .notJson

/-- The elements up to the closing bracket, at most `fuel` of them; `seen` is what was read so far, last first. -/
def readElements {α : Type} (element : Reader α) : Nat → List α → Reader (List α)
  | 0, _, _ => .error .endOfInput
  | fuel + 1, seen, text =>
    match nextElement seen.isEmpty text with
    | .error f => .error f
    | .ok none => (readClosing ']' text).map (seen.reverse, ·)
    | .ok (some rest) =>
      match element rest with
      | .error f => .error f
      | .ok (a, rest) => readElements element fuel (a :: seen) rest

/-- A list. Each element takes at least one character, so `fuel` is enough if it is at least the length of the text. -/
def readList {α : Type} (fuel : Nat) (element : Reader α) : Reader (List α) := fun text =>
  match skipBlanks text with
  | '[' :: rest => readElements element fuel [] rest
  | other => .error (unwanted other)

/-! ## Objects -/

/-- The name of the next member of an object and what follows it, or nothing before the closing brace. -/
def nextMember (first : Bool) (text : List Char) : Except Fault (Option (String × List Char)) :=
  let name : List Char → Except Fault (Option (String × List Char))
    | [] => .error .endOfInput
    | '"' :: rest => (readQuoted .plain [] rest).map some
    | _ => .error .notJson
  match skipBlanks text with
  | [] => .error .endOfInput
  | '\x7d' :: _ => .ok none
  | c :: rest => if first then name (c :: rest) else if c = ',' then name (skipBlanks rest) else .error .notJson

/-- The colon between a name and its value. -/
def skipColon (text : List Char) : Except Fault (List Char) :=
  match skipBlanks text with
  | [] => .error .endOfInput
  | ':' :: rest => .ok rest
  | _ => .error .notJson

/-! ## Values that are passed over -/

/-- An open bracket. -/
inductive Bracket where
  | list
  | object
deriving DecidableEq, Repr

/-- What is passed over next. -/
inductive Awaited where
  | value
  /-- The first element or member after an opening bracket, or its closing one. -/
  | first
  /-- The name of a member and its colon. -/
  | name
  /-- A comma or a closing bracket. -/
  | next
deriving DecidableEq, Repr

/-- Passes over one token, given the brackets that are open, innermost first. -/
def skipToken (awaited : Awaited) (opened : List Bracket) (text : List Char) :
    Except Fault (Awaited × List Bracket × List Char) :=
  let element : Bracket → Awaited
    | .list => .value
    | .object => .name
  match awaited, opened, text with
  | _, _, [] => .error .endOfInput
  | .value, _, c :: rest =>
    match c with
    | 'n' => (skipLetters ['u', 'l', 'l'] rest).map (.next, opened, ·)
    | 't' => (skipLetters ['r', 'u', 'e'] rest).map (.next, opened, ·)
    | 'f' => (skipLetters ['a', 'l', 's', 'e'] rest).map (.next, opened, ·)
    | '"' => (skipQuoted .plain rest).map (.next, opened, ·)
    | '[' => .ok (.first, .list :: opened, rest)
    | '\x7b' => .ok (.first, .object :: opened, rest)
    | c =>
      if c = '-' ∨ isDigit c then (readNumber .notJson (c :: rest)).map fun (_, rest) => (.next, opened, rest)
      else .error .notJson
  | .name, _, c :: rest =>
    if c = '"' then do
      let rest ← skipQuoted .plain rest
      return (.value, opened, ← skipColon rest)
    else .error .notJson
  | .first, b :: outer, c :: rest =>
    if (c = ']' ∧ b = .list) ∨ (c = '\x7d' ∧ b = .object) then .ok (.next, outer, rest)
    else .ok (element b, opened, c :: rest)
  | .next, b :: outer, c :: rest =>
    if c = ',' then .ok (element b, opened, rest)
    else if (c = ']' ∧ b = .list) ∨ (c = '\x7d' ∧ b = .object) then .ok (.next, outer, rest)
    else .error .notJson
  | _, [], _ => .error .notJson

/-- Passes over tokens until no bracket is open. -/
def skipTokens : Nat → Awaited → List Bracket → List Char → Except Fault (List Char)
  | 0, _, _, _ => .error .endOfInput
  | fuel + 1, awaited, opened, text =>
    if awaited = .next ∧ opened = [] then .ok text
    else
      match skipToken awaited opened (skipBlanks text) with
      | .error f => .error f
      | .ok (awaited, opened, rest) => skipTokens fuel awaited opened rest

/-- Passes over one value of any shape, however deep. Two tokens take at least one character, so `fuel` is enough if it
is at least the length of the text. -/
def skipValue (fuel : Nat) (text : List Char) : Except Fault (List Char) :=
  skipTokens (2 * fuel + 2) .value [] text

/-! ## Documents -/

/-- A whole document: one value and nothing but blanks after it. The value is read with fuel enough for the text. -/
def readDocument {α : Type} (value : Nat → Reader α) (text : String) : Except Fault α :=
  let chars := text.toList
  match value (chars.length + 1) chars with
  | .error f => .error f
  | .ok (a, rest) => if (skipBlanks rest).isEmpty then .ok a else .error .notJson

end CompileDb.Json
