import CompileDb.Shell.Pattern
import CompileDb.Shell.Recipe

/-!
# Regular expressions

Expressions in the basic and in the extended way of writing. A match begins as early as it can; repetitions take as much as
they can, and of two alternatives the one with the longer match is taken.
-/

namespace CompileDb.Utility

/-- A regular expression. -/
inductive Regex where
  | empty
  | char (c : Char)
  | any
  | oneOf (but : Bool) (members : List Shell.Member)
  | start
  | finish
  | wordStart
  | wordEnd
  | wordEdge
  | sequence (first second : Regex)
  | either (first second : Regex)
  | repeated (r : Regex) (least : Nat) (most : Option Nat)
  /-- A group, by its number. -/
  | group (n : Nat) (r : Regex)
  /-- What a group has matched. -/
  | again (n : Nat)
deriving Repr

/-- A place in a text. -/
structure Place where
  /-- The characters before it, last one first. -/
  before : List Char
  after : List Char
  /-- What groups have matched, the last first. -/
  groups : List (Nat × List Char)

namespace Regex

def groupCount : Regex → Nat
  | sequence first second => first.groupCount + second.groupCount
  | either first second => first.groupCount + second.groupCount
  | repeated r _ _ => r.groupCount
  | group _ r => r.groupCount + 1
  | _ => 0

def isWordChar (c : Char) : Bool := c.isAlphanum || c = '_'

/-- Whether two characters are the same, perhaps but for their case. -/
def same (ignoresCase : Bool) (c d : Char) : Bool := if ignoresCase then c.toLower = d.toLower else c = d

/-- Goes on behind one character that is accepted. -/
def step (p : Place) (accepts : Char → Bool) (next : Place → Option Place) : Option Place :=
  match p.after with
  | c :: rest => if accepts c then next { p with before := c :: p.before, after := rest } else none
  | [] => none

/-- Goes on behind a match of an expression. `fuel` bounds the depth of the search. -/
def run (ignoresCase : Bool) : Nat → Regex → Place → (Place → Option Place) → Option Place
  | 0, _, _, _ => none
  | fuel + 1, r, p, next =>
    let isInside (c : Option Char) : Bool := c.any isWordChar
    let wordBefore := isInside p.before.head?
    let wordAfter := isInside p.after.head?
    match r with
    | .empty => next p
    | .char c => step p (same ignoresCase c) next
    | .any => step p (fun _ => true) next
    | .oneOf but members =>
      let accepts (c : Char) : Bool :=
        members.any (Shell.Member.accepts c) ||
          (ignoresCase && (members.any (Shell.Member.accepts c.toLower) || members.any (Shell.Member.accepts c.toUpper)))
      step p (fun c => accepts c != but) next
    | .start => if p.before.isEmpty then next p else none
    | .finish => if p.after.isEmpty then next p else none
    | .wordStart => if !wordBefore && wordAfter then next p else none
    | .wordEnd => if wordBefore && !wordAfter then next p else none
    | .wordEdge => if wordBefore != wordAfter then next p else none
    | .sequence first second => run ignoresCase fuel first p fun q => run ignoresCase fuel second q next
    | .either first second =>
      match run ignoresCase fuel first p next, run ignoresCase fuel second p next with
      | some a, some b => if a.after.length ≤ b.after.length then some a else some b
      | some a, none => some a
      | none, b => b
    | .repeated r least most =>
      let more : Option Place :=
        if most = some 0 then none
        else
          run ignoresCase fuel r p fun q =>
            if q.after.length = p.after.length ∧ least = 0 then none
            else run ignoresCase fuel (.repeated r (least - 1) (most.map (· - 1))) q next
      match more with
      | some q => some q
      | none => if least = 0 then next p else none
    | .group n r =>
      run ignoresCase fuel r p fun q =>
        let taken := (q.before.take (p.after.length - q.after.length)).reverse
        next { q with groups := (n, taken) :: q.groups }
    | .again n =>
      let text := (p.groups.lookup n).getD []
      let here := p.after.take text.length
      if here.length = text.length && (here.zip text).all fun (c, d) => same ignoresCase c d then
        next { p with before := here.reverse ++ p.before, after := p.after.drop text.length }
      else none

/-- The depth that a search in a text may need. -/
def searchDepth (text : List Char) : Nat := 64 * text.length + 4096

/-- The place behind a match that begins at a place. -/
def matchAt (r : Regex) (ignoresCase : Bool) (p : Place) : Option Place :=
  run ignoresCase (searchDepth p.after) r { p with groups := [] } some

/-- The first match from a place on: the text before it and the place behind it, with what it matches. -/
def find (r : Regex) (ignoresCase : Bool) : Nat → Place → List Char → Option (List Char × List Char × Place)
  | 0, _, _ => none
  | fuel + 1, p, skipped =>
    match matchAt r ignoresCase p with
    | some q => some (skipped.reverse, p.after.take (p.after.length - q.after.length), q)
    | none =>
      match p.after with
      | [] => none
      | c :: rest => find r ignoresCase fuel { p with before := c :: p.before, after := rest } (c :: skipped)

def matchesIn (r : Regex) (ignoresCase : Bool) (text : List Char) : Bool :=
  (find r ignoresCase (text.length + 1) ⟨[], text, []⟩ []).isSome

/-! ## Reading -/

/-- An expression that matches itself. -/
def ofText (text : List Char) : Regex := text.foldr (fun c r => .sequence (.char c) r) .empty

/-- Alternatives, one of which at least is there. -/
def ofAlternatives : List Regex → Regex
  | [] => .empty
  | [r] => r
  | r :: rest => .either r (ofAlternatives rest)

/-- The bounds of a repetition between braces, and the text behind them. -/
def bounds (closing : List Char) (text : List Char) : Option (Nat × Option Nat × List Char) :=
  let low := text.takeWhile Char.isDigit
  match text.dropWhile Char.isDigit with
  | ',' :: rest =>
    let high := rest.takeWhile Char.isDigit
    let after := rest.dropWhile Char.isDigit
    if closing.isPrefixOf after then
      some ((Shell.decimal? low).getD 0, Shell.decimal? high, after.drop closing.length)
    else none
  | after =>
    match Shell.decimal? low with
    | some n => if closing.isPrefixOf after then some (n, some n, after.drop closing.length) else none
    | none => none

/-- An expression being read. -/
structure Reading where
  rest : List Char
  /-- The groups that were opened. -/
  groups : Nat
  /-- The groups that are open. -/
  depth : Nat

/-- The expression for a letter behind a backslash. -/
def special? (c : Char) : Option Regex :=
  let word : List Shell.Member := [.named "alnum", .range '_' '_']
  match c with
  | 'w' => some (.oneOf false word)
  | 'W' => some (.oneOf true word)
  | 's' => some (.oneOf false [.named "space"])
  | 'S' => some (.oneOf true [.named "space"])
  | 'b' => some .wordEdge
  | '<' => some .wordStart
  | '>' => some .wordEnd
  | 'n' => some (.char '\n')
  | 't' => some (.char '\t')
  | _ => none

/-- What an operator at the front of a text is, if it is one. -/
inductive Operator where
  | openGroup
  | closeGroup
  | alternative
  | repetition (least : Nat) (most : Option Nat)

/-- The operator at the front of a text, and the text behind it. -/
def operator? (extended : Bool) (text : List Char) : Option (Operator × List Char) :=
  let braces (closing rest : List Char) : Option (Operator × List Char) :=
    (bounds closing rest).map fun (least, most, rest) => (.repetition least most, rest)
  match extended, text with
  | _, '*' :: rest => some (.repetition 0 none, rest)
  | true, '(' :: rest => some (.openGroup, rest)
  | true, ')' :: rest => some (.closeGroup, rest)
  | true, '|' :: rest => some (.alternative, rest)
  | true, '+' :: rest => some (.repetition 1 none, rest)
  | true, '?' :: rest => some (.repetition 0 (some 1), rest)
  | true, '\x7b' :: rest => braces ['\x7d'] rest
  | false, '\\' :: '(' :: rest => some (.openGroup, rest)
  | false, '\\' :: ')' :: rest => some (.closeGroup, rest)
  | false, '\\' :: '|' :: rest => some (.alternative, rest)
  | false, '\\' :: '+' :: rest => some (.repetition 1 none, rest)
  | false, '\\' :: '?' :: rest => some (.repetition 0 (some 1), rest)
  | false, '\\' :: '\x7b' :: rest => braces ['\\', '\x7d'] rest
  | _, _ => none

/-- What is wrong with a member of a bracketed set, if something is. -/
def memberFault? : Shell.Member → Option String
  | .range low high => if high < low then some "Invalid range end" else none
  | .named name => if Shell.classNames.contains name then none else some "Invalid character class name"

/-- A bracketed set behind its opening bracket. -/
def readSet (text : List Char) : Except String (Regex × List Char) :=
  let (but, set) := match text with
    | '^' :: set => (true, set)
    | set => (false, set)
  -- a backslash stands for itself here
  let glyphs : List Shell.Glyph := set.map fun c => (c, c == '\\')
  match Shell.Sign.members (text.length + 2) true glyphs with
  | none => .error (if set.isEmpty then "Invalid regular expression" else "Unmatched [, [^, [:, [., or [=")
  | some (members, rest) =>
    match members.findSome? memberFault? with
    | some fault => .error fault
    | none => .ok (.oneOf but members, rest.map Prod.fst)

mutual

/-- Alternatives up to the end of their group, the ones before them last one first. -/
def readAlternatives (extended : Bool) : Nat → Reading → List Regex → Except String (Regex × Reading)
  | 0, _, _ => .error "Regular expression too big"
  | fuel + 1, s, seen => do
    let (r, s) ← readSequence extended fuel s none .empty
    match operator? extended s.rest with
    | some (.alternative, rest) => readAlternatives extended fuel { s with rest } (r :: seen)
    | _ => return (ofAlternatives (r :: seen).reverse, s)

/-- A sequence. `last` is its last part, which may still be repeated, and `all` what is before that. -/
def readSequence (extended : Bool) : Nat → Reading → Option Regex → Regex → Except String (Regex × Reading)
  | 0, _, _, _ => .error "Regular expression too big"
  | fuel + 1, s, last, all => do
    let whole : Regex := match last with
      | some r => .sequence all r
      | none => all
    let isStart := match last, all with
      | none, .empty => true
      | some .start, .empty => true
      | _, _ => false
    let goOn (r : Regex) (s : Reading) : Except String (Regex × Reading) :=
      readSequence extended fuel s (some r) whole
    match operator? extended s.rest with
    | some (.alternative, _) => return (whole, s)
    | some (.closeGroup, rest) =>
      if s.depth = 0 then
        if extended then goOn (.char ')') { s with rest }
        else throw "Unmatched ) or \\)"
      else return (whole, s)
    | some (.openGroup, rest) =>
      let n := s.groups + 1
      let (r, s) ← readAlternatives extended fuel { rest, groups := n, depth := s.depth + 1 } []
      match operator? extended s.rest with
      | some (.closeGroup, rest) => goOn (.group n r) { s with rest, depth := s.depth - 1 }
      | _ => throw "Unmatched ( or \\("
    | some (.repetition least most, rest) =>
      if most.any (· < least) then throw "Invalid content of \\\x7b\\\x7d"
      if 32767 < max least (most.getD 0) then throw "Regular expression too big"
      match last, isStart with
      | some r, false => readSequence extended fuel { s with rest } (some (.repeated r least most)) all
      | _, _ =>
        if extended then readSequence extended fuel { s with rest } last all
        else goOn (.char (s.rest.headD '*')) { s with rest := s.rest.drop 1 }
    | none =>
      match s.rest with
      | [] => return (whole, s)
      | '.' :: rest => goOn .any { s with rest }
      | '[' :: rest => do
        let (r, rest) ← readSet rest
        goOn r { s with rest }
      | '^' :: rest =>
        if extended || isStart then goOn .start { s with rest } else goOn (.char '^') { s with rest }
      | '$' :: rest =>
        let ends := extended || rest.isEmpty || (match operator? extended rest with
          | some (.closeGroup, _) => true
          | some (.alternative, _) => true
          | _ => false)
        goOn (if ends then .finish else .char '$') { s with rest }
      | ['\\'] => throw "Trailing backslash"
      | '\\' :: c :: rest =>
        if c = '\x7b' && !extended then
          throw (if rest.contains '\x7d' then "Invalid content of \\\x7b\\\x7d" else "Unmatched \\\x7b")
        if c.isDigit && c ≠ '0' then
          let n := c.toNat - 48
          if s.groups < n then throw "Invalid back reference" else goOn (.again n) { s with rest }
        else goOn ((special? c).getD (.char c)) { s with rest }
      | c :: rest => goOn (.char c) { s with rest }

end

/-- The expression that is written as a text, or what is wrong with it. -/
def ofPattern (extended : Bool) (text : List Char) : Except String Regex :=
  (readAlternatives extended (4 * text.length + 8) ⟨text, 0, 0⟩ []).map Prod.fst

end Regex

end CompileDb.Utility
