/-!
# Patterns

A pattern matches texts sign by sign: `*` any text, `?` any character, a bracketed set one of its characters, and every
other character itself. A character that was quoted stands for itself.
-/

namespace CompileDb.Shell

/-- A member of a bracketed set. -/
inductive Member where
  /-- The characters between two ends. -/
  | range (low high : Char)
  /-- A class of characters by its name. -/
  | named (name : String)
deriving DecidableEq, Repr

/-- One sign of a pattern. -/
inductive Sign where
  | any
  | one
  | oneOf (but : Bool) (members : List Member)
  | char (c : Char)
deriving DecidableEq, Repr

abbrev Glyph := Char × Bool

def classNames : List String :=
  ["alpha", "digit", "alnum", "upper", "lower", "space", "blank", "punct", "print", "graph", "cntrl", "xdigit"]

def inClass (name : String) (c : Char) : Bool :=
  match name with
  | "alpha" => c.isAlpha
  | "digit" => c.isDigit
  | "alnum" => c.isAlphanum
  | "upper" => c.isUpper
  | "lower" => c.isLower
  | "space" => c = ' ' || (decide (9 ≤ c.toNat) && decide (c.toNat ≤ 13))
  | "blank" => c = ' ' || c = '\t'
  | "punct" => decide (33 ≤ c.toNat) && decide (c.toNat ≤ 126) && !c.isAlphanum
  | "print" => decide (32 ≤ c.toNat) && decide (c.toNat ≤ 126)
  | "graph" => decide (33 ≤ c.toNat) && decide (c.toNat ≤ 126)
  | "cntrl" => decide (c.toNat < 32) || c.toNat = 127
  | "xdigit" => c.isDigit || (decide ('a' ≤ c.toLower) && decide (c.toLower ≤ 'f'))
  | _ => false

namespace Member

def accepts (c : Char) : Member → Bool
  | range low high => decide (low ≤ c) && decide (c ≤ high)
  | named name => inClass name c

end Member

namespace Sign

/-- The name of a class at the front of a text, behind its `[:`, and the text after its `:]`. -/
def className? (text : List Glyph) : Option (String × List Glyph) :=
  let name := text.takeWhile fun g => g.1.isAlpha
  match text.dropWhile fun g => g.1.isAlpha with
  | (':', _) :: (']', _) :: rest => some (.ofList (name.map Prod.fst), rest)
  | _ => none

/-- A character of a set that stands for itself, and the text after it. -/
def plain : List Glyph → Option (Char × List Glyph)
  | ('\\', false) :: (c, _) :: rest => some (c, rest)
  | (c, _) :: rest => some (c, rest)
  | [] => none

/-- The members of a set up to its closing bracket, and the text after it. The first one may be that bracket. -/
def members : Nat → Bool → List Glyph → Option (List Member × List Glyph)
  | 0, _, _ => none
  | fuel + 1, first, text =>
    match text with
    | [] => none
    | (']', false) :: rest =>
      if first then after fuel ']' rest else some ([], rest)
    | ('[', false) :: (':', q) :: rest =>
      match className? rest with
      | some (name, rest) => (members fuel false rest).map fun (ms, rest) => (.named name :: ms, rest)
      | none => after fuel '[' ((':', q) :: rest)
    | text =>
      match plain text with
      | some (c, rest) => after fuel c rest
      | none => none
where
  /-- The members that begin with a character. -/
  after (fuel : Nat) (c : Char) (rest : List Glyph) : Option (List Member × List Glyph) :=
    match rest with
    | ('-', false) :: (']', false) :: _ => (members fuel false rest).map fun (ms, rest) => (.range c c :: ms, rest)
    | ('-', false) :: high =>
      match plain high with
      | some (d, rest) => (members fuel false rest).map fun (ms, rest) => (.range c d :: ms, rest)
      | none => none
    | rest => (members fuel false rest).map fun (ms, rest) => (.range c c :: ms, rest)

/-- The signs of a text. `fuel` is more than its length. -/
def ofGlyphs : Nat → List Glyph → List Sign
  | 0, _ => []
  | fuel + 1, text =>
    match text with
    | [] => []
    | ('*', false) :: rest => any :: ofGlyphs fuel rest
    | ('?', false) :: rest => one :: ofGlyphs fuel rest
    | ('\\', false) :: (c, _) :: rest => char c :: ofGlyphs fuel rest
    | ('[', false) :: rest =>
      let (but, set) := match rest with
        | ('!', false) :: set => (true, set)
        | set => (false, set)
      match members (fuel + 1) true set with
      | some (ms, rest) => oneOf but ms :: ofGlyphs fuel rest
      | none => char '[' :: ofGlyphs fuel rest
    | (c, _) :: rest => char c :: ofGlyphs fuel rest

def ofText (text : List Glyph) : List Sign := ofGlyphs (text.length + 1) text

def isOpen : Sign → Bool
  | char _ => false
  | _ => true

def accepts (c : Char) : Sign → Bool
  | any => true
  | one => true
  | oneOf but set => (set.any (Member.accepts c)) != but
  | char d => c == d

/-- Whether signs match a whole text. -/
def matchAll : List Sign → List Char → Bool
  | [], text => text.isEmpty
  | any :: signs, text => (List.range (text.length + 1)).any fun n => matchAll signs (text.drop n)
  | sign :: signs, c :: text => sign.accepts c && matchAll signs text
  | _ :: _, [] => false

end Sign

/-- A text without what the signs match at its front. -/
def withoutFront (longest : Bool) (signs : List Sign) (text : List Char) : List Char :=
  let cuts := (List.range (text.length + 1)).filter fun n => Sign.matchAll signs (text.take n)
  text.drop ((if longest then cuts.getLast? else cuts.head?).getD 0)

/-- A text without what the signs match at its back. -/
def withoutBack (longest : Bool) (signs : List Sign) (text : List Char) : List Char :=
  let cuts := (List.range (text.length + 1)).filter fun n => Sign.matchAll signs (text.drop n)
  text.take ((if longest then cuts.head? else cuts.getLast?).getD text.length)

end CompileDb.Shell
