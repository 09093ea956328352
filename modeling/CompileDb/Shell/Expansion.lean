import CompileDb.Shell.Field
import CompileDb.Shell.State

/-!
# Parts of words and their values

How the values of parameters become items of a word, and what a tilde stands for.
-/

namespace CompileDb.Shell

/-- How the parts of a word are worked out. -/
structure Expansion where
  /-- Between quotes. -/
  isQuoted : Bool
  /-- The word becomes fields. -/
  cuts : Bool
  /-- A tilde counts after colons too. -/
  afterColons : Bool
  /-- The word stands for a parameter, and is cut like its value. -/
  isValue : Bool
deriving DecidableEq, Repr

namespace Expansion

def ofFields : Expansion := ⟨false, true, false, false⟩

def whole : Expansion := ⟨false, false, false, false⟩

def setting : Expansion := ⟨false, false, true, false⟩

/-- A text that stands between quotes. -/
def quoted : Expansion := ⟨true, false, false, false⟩

end Expansion

/-- The value of a parameter. -/
inductive ParameterValue where
  | unset
  | text (t : String)
  /-- All positional parameters, and whether each of them stays a field of its own between quotes. -/
  | all (values : List String) (apart : Bool)

def State.parameter (s : State) (name : String) : ParameterValue :=
  if name = "@" then .all s.positional true
  else if name = "*" then .all s.positional false
  else
    match s.value? name with
    | some t => .text t
    | none => .unset

/-- What stands between positional parameters that are joined. -/
def State.joint (s : State) : List Char :=
  match s.variableValue? "IFS" with
  | none => [' ']
  | some separators => separators.toList.take 1

def joined (joint : List Char) (texts : List String) : List Char :=
  joint.intercalate (texts.map String.toList)

namespace ParameterValue

def text? (s : State) : ParameterValue → Option (List Char)
  | unset => none
  | text t => some t.toList
  | all values _ => some (joined s.joint values)

def items (s : State) (e : Expansion) : ParameterValue → List Item
  | unset => []
  | text t => ofText t.toList
  | all values apart =>
    if e.isQuoted then
      if apart && e.cuts then
        if values.isEmpty then []
        else .value true :: [Item.divider].intercalate (values.map fun v => Item.ofQuoted v.toList)
      else Item.ofQuoted (joined s.joint values)
    else if e.cuts then
      .value false :: [Item.divider].intercalate (values.map fun v => v.toList.map Item.loose)
    else ofText (joined s.joint values)
where
  /-- The items of one text. -/
  ofText (t : List Char) : List Item := if e.isQuoted then Item.ofQuoted t else .value false :: t.map Item.loose

end ParameterValue

def valueItems (e : Expansion) (t : List Char) : List Item :=
  if e.isQuoted then Item.ofQuoted t else .value false :: t.map Item.loose

/-! ## Tildes -/

def State.homeOf? (s : State) (user : String) : Option String :=
  if user.isEmpty then s.variableValue? "HOME" else if user = "root" then some "/root" else none

/-- A written text whose beginning may be a tilde. With `isWhole`, nothing is written behind it. -/
def tildeGlyphs (s : State) (isWhole : Bool) (t : List Char) : List Glyph :=
  let plain := t.map (·, false)
  match t with
  | '~' :: rest =>
    let user := rest.takeWhile (· ≠ '/')
    let after := rest.dropWhile (· ≠ '/')
    if after.isEmpty && !isWhole then plain
    else
      match s.homeOf? (.ofList user) with
      | some home => home.toList.map (·, true) ++ after.map (·, false)
      | none => plain
  | _ => plain

def cutColons (t : List Char) : List (List Char) :=
  t.foldr (fun c cut => match cut with
    | piece :: rest => if c = ':' then [] :: piece :: rest else (c :: piece) :: rest
    | [] => [[c]]) [[]]

/-- The pieces of a text between colons, with what tildes stand for. `isStart` says whether one counts in the first. -/
def pieces (s : State) (isLast : Bool) : Bool → List (List Char) → List Glyph
  | _, [] => []
  | isStart, [piece] => if isStart then tildeGlyphs s isLast piece else piece.map (·, false)
  | isStart, piece :: rest =>
    (if isStart then tildeGlyphs s true piece else piece.map (·, false)) ++ (':', false) :: pieces s isLast true rest

/-- A written text with what tildes stand for. -/
def writtenGlyphs (s : State) (e : Expansion) (isStart isLast : Bool) (t : List Char) : List Glyph :=
  if e.afterColons then pieces s isLast isStart (cutColons t)
  else if isStart then tildeGlyphs s isLast t
  else t.map (·, false)

def writtenItems (s : State) (e : Expansion) (isStart isLast : Bool) (t : List Char) : List Item :=
  if e.isQuoted then Item.ofQuoted t
  else
    let item : Glyph → Item
      | (c, true) => .char c true
      | (c, false) => if e.isValue then .loose c else .char c false
    (if e.isValue then [.value false] else []) ++ (writtenGlyphs s e isStart isLast t).map item

end CompileDb.Shell
