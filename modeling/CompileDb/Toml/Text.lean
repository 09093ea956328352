import CompileDb.Toml.Value

/-!
# Blanks, keys and texts in TOML

Readers take what they want from the front of a text and return it with the rest. Texts come in four forms: between
double quotes with escapes, between apostrophes without, and each of them over several lines between triple quotes.
-/

namespace CompileDb.Toml

/-- Takes a value from the front of a text. -/
abbrev Reader (α : Type) := List Char → Except Fault (α × List Char)

/-! ## Blanks and comments -/

/-- A space or a tab. -/
def isTomlBlank (c : Char) : Bool := c == ' ' || c == '\t'

/-- The text after its blanks. -/
def skipBlanks (text : List Char) : List Char := text.dropWhile isTomlBlank

/-- A character that may stand in a comment: all but control characters, of which the tab is allowed. -/
def isCommentChar (c : Char) : Bool := c == '\t' || (decide (0x20 ≤ c.toNat) && c.toNat != 0x7F)

/-- The text after a line break, if it begins with one. -/
def skipBreak? : List Char → Option (List Char)
  | '\n' :: rest => some rest
  | '\r' :: '\n' :: rest => some rest
  | _ => none

/-- The text after a comment, if it begins with one. -/
def skipComment : List Char → List Char
  | '#' :: rest => rest.dropWhile isCommentChar
  | text => text

/-- Passes over the end of a line: blanks, a comment, and the line break or the end of the text. -/
def skipLineEnd (text : List Char) : Except Fault (List Char) :=
  match skipComment (skipBlanks text) with
  | [] => .ok []
  | rest =>
    match skipBreak? rest with
    | some rest => .ok rest
    | none => .error .malformed

/-- A line break or a blank stands at the front of a text. -/
def isSpace (c : Char) (rest : List Char) : Bool :=
  isTomlBlank c || c == '\n' || (c == '\r' && rest.head? == some '\n')

/-- The text after blanks, comments and line breaks, as they may stand in a list. With `inComment`, the text begins
within a comment. -/
def skipGaps (inComment : Bool) : List Char → List Char
  | [] => []
  | c :: rest =>
    if inComment && isCommentChar c then skipGaps true rest
    else if c = '#' then skipGaps true rest
    else if isSpace c rest then skipGaps false rest
    else c :: rest

/-- The text after blanks and line breaks. -/
def skipSpace : List Char → List Char
  | [] => []
  | c :: rest => if isSpace c rest then skipSpace rest else c :: rest

/-! ## Escapes -/

/-- The value of a hexadecimal digit of either case. -/
def hexValue? (c : Char) : Option Nat :=
  if '0' ≤ c ∧ c ≤ '9' then some (c.toNat - 48)
  else if 'A' ≤ c ∧ c ≤ 'F' then some (c.toNat - 55)
  else if 'a' ≤ c ∧ c ≤ 'f' then some (c.toNat - 87)
  else none

/-- The character with a number of exactly so many hexadecimal digits. -/
def readCodePoint (digits : Nat) : Reader Char := fun text =>
  match (text.take digits).mapM hexValue? with
  | none => .error .malformed
  | some values =>
    let n := values.foldl (fun n d => 16 * n + d) 0
    if values.length < digits then .error .malformed
    else if n.isValidChar then .ok (Char.ofNat n, text.drop digits)
    else .error .outOfRange

/-- What follows a backslash. -/
def readEscape : Reader Char
  | 'b' :: rest => .ok ('\x08', rest)
  | 't' :: rest => .ok ('\t', rest)
  | 'n' :: rest => .ok ('\n', rest)
  | 'f' :: rest => .ok ('\x0c', rest)
  | 'r' :: rest => .ok ('\r', rest)
  | '"' :: rest => .ok ('"', rest)
  | '\\' :: rest => .ok ('\\', rest)
  | 'u' :: rest => readCodePoint 4 rest
  | 'U' :: rest => readCodePoint 8 rest
  | _ => .error .malformed

/-! ## Texts -/

/-- A text up to its closing double quote, on one line. `fuel` is more than the length of the text. -/
def readBasic : Nat → List Char → Reader String
  | 0, _, _ => .error .malformed
  | fuel + 1, seen, text =>
    match text with
    | '"' :: rest => .ok (String.ofList seen.reverse, rest)
    | '\\' :: rest =>
      match readEscape rest with
      | .error f => .error f
      | .ok (c, rest) => readBasic fuel (c :: seen) rest
    | c :: rest => if isCommentChar c then readBasic fuel (c :: seen) rest else .error .malformed
    | [] => .error .malformed

def apostrophe : Char := '\x27'

/-- A text up to its closing apostrophe, on one line. -/
def readLiteral : Reader String := fun text =>
  let body := text.takeWhile fun c => isCommentChar c && c != apostrophe
  match text.drop body.length with
  | c :: rest => if c = apostrophe then .ok (String.ofList body, rest) else .error .malformed
  | [] => .error .malformed

/-- A text up to three closing quotes, over any number of lines. Up to two quotes more belong to the text. In a text
with escapes, a backslash at the end of a line takes the line break and the space after it away. `fuel` is more than
the length of the text. -/
def readLines (quote : Char) (escapes : Bool) : Nat → List Char → Reader String
  | 0, _, _ => .error .malformed
  | fuel + 1, seen, text =>
    match text with
    | [] => .error .malformed
    | c :: rest =>
      if c = quote then
        let quotes := min 5 (text.takeWhile (· == quote)).length
        let kept := if quotes < 3 then quotes else quotes - 3
        let seen := List.replicate kept quote ++ seen
        if quotes < 3 then readLines quote escapes fuel seen (text.drop quotes)
        else .ok (String.ofList seen.reverse, text.drop quotes)
      else if c = '\\' ∧ escapes then
        match skipBreak? (skipBlanks rest) with
        | some rest => readLines quote escapes fuel seen (skipSpace rest)
        | none =>
          match readEscape rest with
          | .error f => .error f
          | .ok (c, rest) => readLines quote escapes fuel (c :: seen) rest
      else
        match skipBreak? text with
        | some rest => readLines quote escapes fuel ('\n' :: seen) rest
        | none => if isCommentChar c then readLines quote escapes fuel (c :: seen) rest else .error .malformed

/-- A text of several lines after its opening quotes. A line break that follows at once does not count. -/
def readBlock (quote : Char) (escapes : Bool) (fuel : Nat) : Reader String := fun text =>
  readLines quote escapes fuel [] ((skipBreak? text).getD text)

/-- A text in any of its forms. `fuel` is more than the length of the text. -/
def readText (fuel : Nat) : Reader String := fun text =>
  match text with
  | '"' :: '"' :: '"' :: rest => readBlock '"' true fuel rest
  | '"' :: rest => readBasic fuel [] rest
  | '\x27' :: '\x27' :: '\x27' :: rest => readBlock apostrophe false fuel rest
  | '\x27' :: rest => readLiteral rest
  | _ => .error .malformed

/-! ## Keys -/

/-- A character of a key without quotes. -/
def isBareKeyChar (c : Char) : Bool := c.isAlphanum || c == '_' || c == '-'

/-- One part of a key. `fuel` is more than the length of the text. -/
def readKeyPart (fuel : Nat) : Reader String := fun text =>
  match text with
  | '"' :: rest => readBasic fuel [] rest
  | '\x27' :: rest => readLiteral rest
  | _ =>
    let part := text.takeWhile isBareKeyChar
    if part.isEmpty then .error .malformed else .ok (String.ofList part, text.drop part.length)

/-- A key has fewer parts than this, and values are nested less deeply. -/
def depthLimit : Nat := 80

/-- The parts of a dotted key, with blanks around them; `seen` holds the parts before, last one first. `fuel` is more
than the length of the text. -/
def readKeyParts : Nat → List String → Reader (List String)
  | 0, _, _ => .error .malformed
  | fuel + 1, seen, text =>
    match readKeyPart (fuel + 1) (skipBlanks text) with
    | .error f => .error f
    | .ok (part, rest) =>
      match skipBlanks rest with
      | '.' :: rest => readKeyParts fuel (part :: seen) rest
      | rest => .ok ((part :: seen).reverse, rest)

/-- A key: the parts before the last, and the last. `fuel` is more than the length of the text. -/
def readKey (fuel : Nat) : Reader (List String × String) := fun text =>
  match readKeyParts fuel [] text with
  | .error f => .error f
  | .ok (parts, rest) =>
    if depthLimit ≤ parts.length then .error .tooDeep
    else
      match parts.getLast? with
      | none => .error .malformed
      | some last => .ok ((parts.dropLast, last), rest)

end CompileDb.Toml
