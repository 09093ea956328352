import CompileDb.Utility.Compare
import CompileDb.Utility.Filter

/-!
# Sorting

Lines are sorted by keys, each of which is a part of the line. A key is compared as text or as a number of some kind. If no
key tells two lines apart, they are compared as they are.
-/

namespace CompileDb.Utility

open Host

/-! ## Comparing -/

/-- What keys are taken for. -/
inductive Measure where
  | text
  /-- Digits, perhaps with a point and more digits. -/
  | number
  /-- A number, perhaps with an exponent. -/
  | scaled
  /-- A number with a letter that tells its size. -/
  | size
  | month
  /-- Digits and other characters in turns. -/
  | version
deriving DecidableEq, Repr

/-- How two keys are compared. -/
structure Order where
  measure : Measure
  ignoresCase : Bool
  ignoresBlanks : Bool
  /-- Only blanks, letters and digits count. -/
  onlyWords : Bool
  /-- Only characters that can be printed count. -/
  onlyPrinted : Bool
  reversed : Bool
deriving DecidableEq, Repr

/-- A whole number times a power of ten. -/
structure Scaled where
  digits : Int
  power : Int
deriving DecidableEq, Repr

namespace Scaled

def compare (a b : Scaled) : Ordering :=
  let low := min a.power b.power
  Ord.compare (a.digits * Nat.pow 10 (a.power - low).toNat) (b.digits * Nat.pow 10 (b.power - low).toNat)

/-- The highest exponent that is taken as it is written. -/
def exponentLimit : Nat := 5000

/-- The number at the front of a text and the text behind it. With `exponents`, it may have an exponent and a sign of any
kind. -/
def ofFront (exponents : Bool) (text : List Char) : Option (Scaled × List Char) :=
  let (negative, unsigned) := match text.dropWhile Shell.Formula.isBlank with
    | '-' :: rest => (true, rest)
    | '+' :: rest => (false, if exponents then rest else '+' :: rest)
    | rest => (false, rest)
  let whole := unsigned.takeWhile Char.isDigit
  let (part, rest) := match unsigned.dropWhile Char.isDigit with
    | '.' :: rest => (rest.takeWhile Char.isDigit, rest.dropWhile Char.isDigit)
    | rest => ([], rest)
  let (exponent, rest) : Int × List Char := match exponents, rest with
    | true, e :: rest =>
      let (isLess, digits) := match rest with
        | '-' :: digits => (true, digits)
        | '+' :: digits => (false, digits)
        | digits => (false, digits)
      match Shell.decimal? (digits.takeWhile Char.isDigit), e.toLower with
      | some n, 'e' =>
        let n : Int := min n exponentLimit
        (if isLess then -n else n, digits.dropWhile Char.isDigit)
      | _, _ => (0, e :: rest)
    | _, rest => (0, rest)
  (Shell.decimal? (whole ++ part)).map fun n =>
    (⟨if negative then -(n : Int) else n, exponent - part.length⟩, rest)

/-- How large a number with a letter for its size is: by the letter, the other way round below zero. -/
def sizeOf (n : Scaled) (rest : List Char) : Int :=
  let rank : Int := match rest.head?.map Char.toUpper with
    | some c => ((['K', 'M', 'G', 'T', 'P', 'E', 'Z', 'Y'].idxOf? c).map fun i => (i : Int) + 1).getD 0
    | none => 0
  if n.digits = 0 then 0 else if n.digits < 0 then -rank else rank

end Scaled

def monthOf (text : List Char) : Nat :=
  let name := ((text.dropWhile Shell.Formula.isBlank).take 3).map Char.toUpper
  let names := ["JAN", "FEB", "MAR", "APR", "MAY", "JUN", "JUL", "AUG", "SEP", "OCT", "NOV", "DEC"]
  ((names.idxOf? (String.ofList name)).map (· + 1)).getD 0

/-- The rank of a character that is no digit within a version. A tilde comes before the end. -/
def versionRank : Option Char → Nat
  | some '~' => 0
  | none => 1
  | some c => if c.isDigit then 1 else if c.isAlpha then c.toNat + 2 else c.toNat + 256

/-- Compares two versions. `fuel` is more than both lengths together. -/
def compareVersions : Nat → List Char → List Char → Ordering
  | 0, _, _ => .eq
  | fuel + 1, a, b =>
    let isWordy (t : List Char) : Bool := t.head?.any (!·.isDigit)
    if a.isEmpty && b.isEmpty then .eq
    else if isWordy a || isWordy b then
      match Ord.compare (versionRank a.head?) (versionRank b.head?) with
      | .eq => compareVersions fuel (a.drop 1) (b.drop 1)
      | o => o
    else
      let value (t : List Char) : Nat := (Shell.decimal? (t.takeWhile Char.isDigit)).getD 0
      match Ord.compare (value a) (value b) with
      | .eq => compareVersions fuel (a.dropWhile Char.isDigit) (b.dropWhile Char.isDigit)
      | o => o

/-- Compares two numbers of which those that are missing come first. -/
def compareNumbers : Option (Scaled × List Char) → Option (Scaled × List Char) → Ordering
  | some (x, _), some (y, _) => x.compare y
  | none, some _ => .lt
  | some _, none => .gt
  | none, none => .eq

namespace Order

/-- What counts of a key that is compared as text. -/
def essence (o : Order) (key : List Char) : List Char :=
  let isBlank (c : Char) : Bool := c = ' ' || c = '\t'
  let key := if o.ignoresBlanks then key.dropWhile isBlank else key
  let key := if o.onlyWords then key.filter fun c => isBlank c || c.isAlphanum
    else if o.onlyPrinted then key.filter (Shell.inClass "print")
    else key
  if o.ignoresCase then key.map Char.toUpper else key

def compareMeasured (m : Measure) (a b : List Char) : Ordering :=
  let zero : Scaled := ⟨0, 0⟩
  let number (t : List Char) : Scaled × List Char := (Scaled.ofFront false t).getD (zero, [])
  match m with
  | .text => compareTexts a b
  | .number => (number a).1.compare (number b).1
  | .scaled => compareNumbers (Scaled.ofFront true a) (Scaled.ofFront true b)
  | .size =>
    let (x, restX) := number a
    let (y, restY) := number b
    (Ord.compare (x.sizeOf restX) (y.sizeOf restY)).then (x.compare y)
  | .month => Ord.compare (monthOf a) (monthOf b)
  | .version => compareVersions (a.length + b.length + 1) a b

def compare (o : Order) (a b : List Char) : Ordering :=
  let result := if o.measure = .text then compareTexts (o.essence a) (o.essence b) else compareMeasured o.measure a b
  if o.reversed then result.swap else result

def measures : List (Char × Measure) :=
  [('g', .scaled), ('h', .size), ('M', .month), ('n', .number), ('V', .version)]

def letters : List Char := ['b', 'd', 'f', 'g', 'h', 'i', 'M', 'n', 'r', 'V']

def ofLetters (given : List Char) : Order :=
  let measure := (measures.find? fun (c, _) => given.contains c).elim .text Prod.snd
  ⟨measure, given.contains 'f', given.contains 'b', given.contains 'd', given.contains 'i', given.contains 'r'⟩

/-- Letters that cannot stand together, if there are some: more than one measure, or one with what is for texts. -/
def clash? (given : List Char) : Option String :=
  let chosen := measures.filter fun (c, _) => given.contains c
  let forText := ['d', 'i'].any given.contains
  if 1 < chosen.length || (forText && !chosen.isEmpty) then
    some (.ofList (letters.filter fun c => given.contains c && c ≠ 'b' && c ≠ 'r'))
  else none

end Order

/-! ## Keys -/

/-- A key: the field and the character where it begins, where it ends, and how it is compared. -/
structure Key where
  first : Nat × Nat
  last : Option (Nat × Nat)
  order : Order

namespace Key

/-- The fields of a line, each with the blanks before it unless a separator is given. -/
def fieldsOf (separator : Option Char) (line : List Char) : List (List Char) :=
  match separator with
  | some c => line.splitOn c
  | none =>
    let step (state : List (List Char) × Bool) (c : Char) : List (List Char) × Bool :=
      let isBlank := c = ' ' || c = '\t'
      match state with
      | (field :: rest, inWord) => if isBlank && inWord then ([c] :: field :: rest, false) else ((c :: field) :: rest, !isBlank)
      | ([], _) => ([[c]], !isBlank)
    ((line.foldl step ([], false)).1.map List.reverse).reverse

def part (k : Key) (separator : Option Char) (line : List Char) : List Char :=
  let fields := fieldsOf separator line
  let (f, c) := k.first
  let fields := match k.last with
    | none => fields
    | some (lf, lc) =>
      let kept := fields.take lf
      if lc = 0 then kept else if lf ≤ fields.length then kept.dropLast ++ (kept.getLast?.map (List.take lc)).toList else kept
  match fields.drop (f - 1) with
  | [] => []
  | field :: rest =>
    let body := if k.order.ignoresBlanks then field.dropWhile (fun c => c = ' ' || c = '\t') else field
    separator.toList.intercalate (body.drop (c - 1) :: rest)

/-- The number at the front of a text, which is at a place like this. -/
def number (place : String) (text : List Char) : Except String (Nat × List Char) :=
  match Shell.decimal? (text.takeWhile Char.isDigit) with
  | some n => .ok (n, text.dropWhile Char.isDigit)
  | none =>
    let rest := quoted (.ofList text)
    .error s!"invalid number {place}: invalid count at start of {rest}"

def ofText (spec : String) (usual : Order) : Except String Key := do
  let invalid (why : String) : String := why ++ ": invalid field specification " ++ quoted spec
  let character (usual : Nat) : List Char → Except String (Nat × List Char)
    | '.' :: rest => number "after \x27.\x27" rest
    | rest => .ok (usual, rest)
  let isLetter (c : Char) : Bool := Order.letters.contains c
  let (field, rest) ← number "at field start" spec.toList
  if field = 0 then throw (invalid "field number is zero")
  let (first, rest) ← character 1 rest
  if first = 0 then throw (invalid "character offset is zero")
  let letters := rest.takeWhile isLetter
  let order (letters : List Char) : Order := if letters.isEmpty then usual else .ofLetters letters
  match rest.dropWhile isLetter with
  | [] => return ⟨(field, first), none, order letters⟩
  | ',' :: rest =>
    let (lastField, rest) ← number "after \x27,\x27" rest
    if lastField = 0 then throw (invalid "field number is zero")
    let (last, rest) ← character 0 rest
    if !(rest.dropWhile isLetter).isEmpty then throw (invalid "stray character in field spec")
    return ⟨(field, first), some (lastField, last), order (letters ++ rest)⟩
  | _ => throw (invalid "stray character in field spec")

end Key

/-! ## Sorting lines -/

def withoutRepeats {α : Type} (same : α → α → Bool) (l : List α) : List α :=
  (l.foldl (fun (kept : List α) a => if kept.head?.any (same · a) then kept else a :: kept) []).reverse

/-- What lines are sorted by. -/
structure Plan where
  keys : List Key
  usual : Order
  separator : Option Char
  /-- Lines with the same keys stay as they were. -/
  isStable : Bool
  /-- Of lines with the same keys, only one stays. -/
  isUnique : Bool

namespace Plan

def ofOptions (options : List (Char × String)) : Except String Plan := do
  let letters := (options.map Prod.fst).filter Order.letters.contains
  if let some clash := Order.clash? letters then
    throw ("options " ++ quoted ("-" ++ clash) ++ " are incompatible")
  let usual := Order.ofLetters letters
  let separator ← match valueOf? options 't' with
    | none => pure none
    | some text =>
      match text.toList with
      | [] => throw "empty tab"
      | [c] => pure (some c)
      | ['\\', '0'] => pure (some '\x00')
      | _ => throw s!"multi-character tab {quoted text}"
  let keys ← ((options.filter (·.1 = 'k')).map Prod.snd).mapM fun k => Key.ofText k usual
  return ⟨keys, usual, separator, has options 's', has options 'u'⟩

def compareKeys (p : Plan) (a b : List Char) : Ordering :=
  if p.keys.isEmpty then p.usual.compare a b
  else p.keys.foldl (fun o k => o.then (k.order.compare (k.part p.separator a) (k.part p.separator b))) .eq

def inOrder (p : Plan) (a b : List Char) : Bool :=
  let last := if p.isStable || p.isUnique then .eq
    else if p.usual.reversed then (compareTexts a b).swap
    else compareTexts a b
  (p.compareKeys a b).then last != .gt

def sorted (p : Plan) (lines : List (List Char)) : List (List Char) :=
  let sorted := lines.mergeSort p.inOrder
  if p.isUnique then withoutRepeats (fun a b => p.compareKeys a b == .eq) sorted else sorted

/-- The first line that is not in order, and its number. -/
def disorder? (p : Plan) (lines : List (List Char)) : Option (Nat × List Char) :=
  let isWrong (a b : List Char) : Bool := if p.isUnique then p.compareKeys a b != .lt else !p.inOrder a b
  ((lines.zip (lines.drop 1)).zipIdx.find? fun ((a, b), _) => isWrong a b).map fun ((_, b), i) => (i + 2, b)

end Plan

/-- The options of `sort`. -/
def sortOptions : OptionTable :=
  ⟨"bdfghiMnrRsuCVcmz", "ktoST", [("reverse", 'r'), ("numeric-sort", 'n'), ("unique", 'u'), ("key", 'k'),
    ("field-separator", 't'), ("output", 'o'), ("ignore-case", 'f'), ("stable", 's'), ("check", 'c'), ("merge", 'm'),
    ("ignore-leading-blanks", 'b'), ("dictionary-order", 'd'), ("general-numeric-sort", 'g'), ("zero-terminated", 'z'),
    ("human-numeric-sort", 'h'), ("ignore-nonprinting", 'i'), ("month-sort", 'M'), ("version-sort", 'V')]⟩

def sort (inv : Invocation) : Action Nat :=
  withOptions sortOptions 2 inv fun options operands => do
    let fail (text : String) : Action Nat := do
      complain inv.name text
      return 2
    let checks := has options 'c' || has options 'C'
    match Plan.ofOptions options, if checks then operands[1]? else none with
    | .error text, _ => fail text
    | .ok _, some extra => fail s!"extra operand {quoted extra} not allowed with -c"
    | .ok plan, none =>
      let contents ← readOperands operands
      match contents.find? fun (_, content) => !content.isOk with
      | some (operand, content) =>
        let reason := match content with
          | .error r => r.message
          | .ok _ => ""
        fail (if operand = "-" then s!"stat failed: -: {reason}" else s!"cannot read: {operand}: {reason}")
      | none =>
        let texts := contents.filterMap fun (_, content) => content.toOption.map (endingIn (has options 'z'))
        let lines := texts.map fun t => (Lines.ofText t).all
        if checks then
          match plan.disorder? lines.flatten with
          | none => return 0
          | some (number, line) =>
            if !has options 'C' then
              let file := operands.headD "-"
              complain inv.name (s!"{file}:{number}: disorder: " ++ .ofList line)
            return 1
        else
          let result := if has options 'm' then lines.foldl (fun all more => all.merge more plan.inOrder) []
            else plan.sorted lines.flatten
          let text := endingIn (has options 'z') (unlines result)
          match valueOf? options 'o' with
          | none => (Report.ofOutput text).deliver inv.name
          | some path =>
            match ← Action.change fun files => files.write ⟨Text.ofOctets path⟩ (Text.narrow text) with
            | .ok () => return 0
            | .error o => fail s!"open failed: {path}: {Refusal.message (.path o)}"

end CompileDb.Utility
