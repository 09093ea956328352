import CompileDb.FileTree
import CompileDb.Shell.Pattern
import CompileDb.Text

/-!
# Fields

A word becomes fields: what came of values is cut at separators, and a field that is a pattern becomes the names of the
files that it matches. What stands between quotes is neither cut nor a pattern.
-/

namespace CompileDb.Shell

/-- What a word consists of once its parts have values. -/
inductive Item where
  /-- A character as it is. -/
  | char (c : Char) (quoted : Bool)
  /-- A character of a value, at which a field may be cut. -/
  | loose (c : Char)
  /-- Nothing, but enough for a field. -/
  | mark
  /-- Between two parameters. -/
  | divider
  /-- Here begins a value. If it is strict, it is cut at dividers only, and none of its fields is lost. -/
  | value (strict : Bool)
deriving DecidableEq, Repr

/-- Characters that are always blank between fields, if fields are cut at them. -/
def isFieldBlank (c : Char) : Bool := c = ' ' || c = '\t' || c = '\n'

def Item.ofQuoted (text : List Char) : List Item := text.map (.char · true)

def Item.glyph? : Item → Option Glyph
  | char c quoted => some (c, quoted)
  | loose c => some (c, false)
  | _ => none

def glyphs (items : List Item) : List Glyph := items.filterMap Item.glyph?

def textOf (items : List Item) : List Char := (glyphs items).map Prod.fst

/-! ## Cutting -/

/-- Items being cut. -/
structure Cutting where
  /-- The fields that are done, last one first. -/
  fields : List (List Glyph)
  /-- The field at hand, last character first. -/
  field : List Glyph
  /-- There is a field at hand, perhaps an empty one. -/
  begun : Bool
  /-- Blanks have been passed over since the last field. -/
  blank : Bool
  /-- The value at hand is strict, and the one before it was. -/
  strict : Bool
  afterStrict : Bool
  /-- How many more fields there may be, if that is limited. The last one is not cut. -/
  left : Option Nat
  /-- The length of the last field without what does not belong to it. -/
  shortened : Option Nat

namespace Cutting

/-- Nothing has been cut. -/
def start (limit : Option Nat) : Cutting := ⟨[], [], false, false, false, false, limit, none⟩

def add (s : Cutting) (g : Glyph) : Cutting := { s with field := g :: s.field, begun := true }

def addAny (s : Cutting) : Option Glyph → Cutting
  | some g => s.add g
  | none => s

def cut (s : Cutting) : Cutting := { s with fields := s.field.reverse :: s.fields, field := [], begun := false }

/-- Ends a field at a place, unless it is the last one there may be. -/
def cutAt (s : Cutting) (g : Option Glyph) : Cutting :=
  match s.left with
  | some 1 => { s with left := some 0, shortened := some s.field.length }.addAny g
  | left => { s.cut with left := left.map (· - 1) }

/-- Passes over a place in the last field there may be. -/
def pass (s : Cutting) (g : Option Glyph) (separates isBlank : Bool) : Cutting :=
  if isBlank then { s with shortened := some (s.shortened.getD s.field.length) }.addAny g
  else
    let shortened := if separates && s.blank then s.shortened else none
    { s with shortened, blank := false }.addAny g

/-- Passes over a place where a field may be cut, with its character if it has one. `separates` says whether it is cut
there, and `isBlank` whether more such places count as one. -/
def separate (s : Cutting) (g : Option Glyph) (separates isBlank : Bool) : Cutting :=
  if s.left = some 0 then s.pass g separates (separates && isBlank)
  else if s.blank then
    if separates then if isBlank then s else { s with blank := false }
    else { s with blank := false }.addAny g
  else if separates then
    let blank := if s.afterStrict || s.strict then false else isBlank
    if blank && !s.begun then s else { s with blank }.cutAt g
  else s.addAny g

def take (separators : List Char) (s : Cutting) : Item → Cutting
  | .char c quoted => s.add (c, quoted)
  | .mark => { s with begun := true }
  | .value strict => { s with strict, afterStrict := s.strict, blank := false }
  | .divider => s.separate none true true
  | .loose c => s.separate (some (c, false)) (separators.contains c) (isFieldBlank c)

end Cutting

/-- The fields of items. If there may only be so many, the last one holds what is left. -/
def fields (separators : List Char) (limit : Option Nat) (items : List Item) : List (List Glyph) :=
  let s := items.foldl (Cutting.take separators) (.start limit)
  let s := match s.shortened with
    | some n => { s with field := s.field.drop (s.field.length - n), begun := n ≠ 0 }
    | none => s
  (if s.strict || s.begun then s.cut else s).fields.reverse

/-! ## Names of files -/

def pathOf (octets : String) : Path := ⟨Text.ofOctets octets⟩

def namesIn (files : FileTree) (directory : String) : List String :=
  match files.locate (pathOf (if directory.isEmpty then "." else directory)) with
  | .error _ => []
  | .ok trail =>
    match files.node? trail with
    | some .directory => "." :: ".." :: (files.names trail).map Text.octets
    | _ => []

/-- Something stands at a path, be it a link that leads nowhere. -/
def isThere (files : FileTree) (path : String) : Bool :=
  ((files.locateLink false (pathOf path)).toOption.bind files.node?).isSome

/-- The paths that begin in a certain way and whose names match patterns, one after the other. -/
def matching (files : FileTree) : String → List (List Glyph) → List String
  | path, [] => if isThere files path then [path] else []
  | path, name :: rest =>
    let after (n : String) : String := if rest.isEmpty then path ++ n else path ++ n ++ "/"
    let signs := Sign.ofText name
    if signs.any Sign.isOpen then
      let isHidden (n : String) : Bool := n.toList.head? = some '.'
      let showsHidden := name.head?.any (·.1 = '.')
      let names := (namesIn files path).filter fun n => (showsHidden || !isHidden n) && Sign.matchAll signs n.toList
      if rest.isEmpty then names.map after else names.flatMap fun n => matching files (after n) rest
    else matching files (after (.ofList (name.map Prod.fst))) rest

def cutSlashes (text : List Glyph) : List (List Glyph) :=
  text.foldr (fun g cut => match g, cut with
    | ('/', _), cut => [] :: cut
    | g, name :: rest => (g :: name) :: rest
    | g, [] => [[g]]) [[]]

/-- What a field stands for: the names that it matches, or itself if it is no pattern or there are none. -/
def fileNames (files : FileTree) (field : List Glyph) : List String :=
  let plain := String.ofList (field.map Prod.fst)
  if (Sign.ofText field).any Sign.isOpen then
    match matching files "" (cutSlashes field) with
    | [] => [plain]
    | names => names.mergeSort fun a b => a ≤ b
  else [plain]

end CompileDb.Shell
