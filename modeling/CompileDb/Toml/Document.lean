import CompileDb.Toml.Number

/-!
# TOML documents

A document is read line by line: a header chooses the table that the keys after it belong to, first it is the table of
the whole document.
-/

namespace CompileDb.Toml

/-! ## Values -/

/-- The items of a list up to its closing bracket. A comma may follow the last one. `fuel` is more than the length of
the text. -/
def readItems (item : Reader Value) : Nat → List Value → Reader (List Value)
  | 0, _, _ => .error .malformed
  | fuel + 1, seen, text =>
    match skipGaps false text with
    | ']' :: rest => .ok (seen.reverse, rest)
    | text =>
      match item text with
      | .error f => .error f
      | .ok (v, rest) =>
        match skipGaps false rest with
        | ',' :: rest => readItems item fuel (v :: seen) rest
        | ']' :: rest => .ok ((v :: seen).reverse, rest)
        | _ => .error .malformed

/-- A key, its equals sign and its value. `fuel` is more than the length of the text. -/
def readPair (fuel : Nat) (value : Reader Value) : Reader ((List String × String) × Value) := fun text => do
  let (key, rest) ← readKey fuel text
  let (v, rest) ← value (skipBlanks (← skipMark '=' rest))
  return ((key, v), rest)

/-- The members of a table up to its closing brace, on one line. No comma follows the last one. `fuel` is more than the
length of the text. -/
def readMembers (value : Reader Value) : Nat → Members → Reader Members
  | 0, _, _ => .error .malformed
  | fuel + 1, members, text =>
    match readPair (fuel + 1) value text with
    | .error f => .error f
    | .ok (((path, key), v), rest) =>
      match members.insert path key v .braces with
      | .error f => .error f
      | .ok members =>
        match skipBlanks rest with
        | ',' :: rest => readMembers value fuel members rest
        | '\x7d' :: rest => .ok (members, rest)
        | _ => .error .malformed

/-- A value in which lists and tables are nested at most so deeply. `fuel` is more than the length of the text. -/
def readValue (fuel : Nat) : Nat → Reader Value
  | depth, '[' :: rest =>
    match depth with
    | 0 => .error .tooDeep
    | depth + 1 => (readItems (readValue fuel depth) fuel [] rest).map fun (vs, rest) => (.list vs, rest)
  | depth, '\x7b' :: rest =>
    match depth with
    | 0 => .error .tooDeep
    | depth + 1 =>
      match skipBlanks rest with
      | '\x7d' :: rest => .ok (.table .braces [], rest)
      | rest => (readMembers (readValue fuel depth) fuel [] rest).map fun (m, rest) => (.table .braces m, rest)
  | _, 't' :: 'r' :: 'u' :: 'e' :: rest => .ok (.boolean true, rest)
  | _, 'f' :: 'a' :: 'l' :: 's' :: 'e' :: rest => .ok (.boolean false, rest)
  | _, text =>
    match text with
    | '"' :: _ => (readText fuel text).map fun (s, rest) => (.text s, rest)
    | '\x27' :: _ => (readText fuel text).map fun (s, rest) => (.text s, rest)
    | _ => readNumberOrDate text

/-! ## Lines -/

/-- What was read of a document: all its members and the table that further keys belong to. -/
structure Reading where
  members : Members
  current : List String

/-- A header, after its first bracket. `fuel` is more than the length of the text. -/
def Reading.header (fuel : Nat) (r : Reading) (text : List Char) : Except Fault (Reading × List Char) := do
  match text with
  | '[' :: text =>
    let ((path, key), rest) ← readKey fuel text
    let rest ← skipMark ']' (← skipMark ']' rest)
    let rest ← skipLineEnd rest
    return (⟨← r.members.append path key, path ++ [key]⟩, rest)
  | _ =>
    let ((path, key), rest) ← readKey fuel text
    let rest ← skipLineEnd (← skipMark ']' rest)
    return (⟨← r.members.define path key, path ++ [key]⟩, rest)

/-- A key and its value. `fuel` is more than the length of the text. -/
def Reading.pair (fuel : Nat) (r : Reading) (text : List Char) : Except Fault (Reading × List Char) := do
  let (((path, key), v), rest) ← readPair fuel (readValue fuel (depthLimit - 1)) text
  let rest ← skipLineEnd rest
  let members ← Members.within .passed false (Members.insert path key v) r.current .header r.members
  return ({ r with members }, rest)

/-- Reads the lines of a document. `fuel` is more than the length of the text. -/
def Reading.lines : Nat → Reading → List Char → Except Fault Members
  | 0, _, _ => .error .malformed
  | fuel + 1, r, text =>
    match skipBlanks text with
    | [] => .ok r.members
    | '#' :: rest =>
      match skipLineEnd ('#' :: rest) with
      | .error f => .error f
      | .ok rest => lines fuel r rest
    | '[' :: rest =>
      match header (fuel + 1) r rest with
      | .error f => .error f
      | .ok (r, rest) => lines fuel r rest
    | text =>
      match skipBreak? text with
      | some rest => lines fuel r rest
      | none =>
        match pair (fuel + 1) r text with
        | .error f => .error f
        | .ok (r, rest) => lines fuel r rest

/-- The byte order mark, which may stand before a document. -/
def byteOrderMark : Char := '\ufeff'

/-- The members of a document. -/
def read (text : String) : Except Fault Members :=
  let chars := match text.toList with
    | c :: rest => if c = byteOrderMark then rest else c :: rest
    | [] => []
  Reading.lines (chars.length + 1) ⟨[], []⟩ chars

end CompileDb.Toml
