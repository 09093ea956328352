import CompileDb.Utility.Regex
import CompileDb.Utility.Report

/-!
# Sums

What `expr` works out: whole numbers of any size, comparisons, parts of texts and matches.
-/

namespace CompileDb.Utility.Sum

/-- Why nothing is worked out. -/
inductive Fault where
  | missingAfter (argument : String)
  | unexpected (argument : String)
  | expectingClose (argument : String)
  | nonInteger
  | divisionByZero
  | badPattern (text : String)
deriving DecidableEq, Repr

def Fault.message : Fault → String
  | missingAfter a => s!"syntax error: missing argument after {quoted a}"
  | unexpected a => s!"syntax error: unexpected argument {quoted a}"
  | expectingClose a => s!"syntax error: expecting \x27)\x27 after {quoted a}"
  | nonInteger => "non-integer argument"
  | divisionByZero => "division by zero"
  | badPattern text => text

def integer? (text : String) : Option Int :=
  match text.toList with
  | '-' :: digits => (Shell.decimal? digits).map fun n => -(n : Int)
  | digits => (Shell.decimal? digits).map Int.ofNat

/-- A text that counts as nothing: an empty one, or zero. -/
def isNull (text : String) : Bool := text.isEmpty || integer? text = some 0

/-- The texts that are left, and the one before them. -/
structure Progress where
  rest : List String
  last : String

abbrev Working := StateT Progress (Except Fault)

def next : Working String := do
  let p ← get
  match p.rest with
  | [] => throw (.missingAfter p.last)
  | a :: rest =>
    set (Progress.mk rest a)
    return a

/-- Takes the next argument, if it is one of these. -/
def takeOne (operators : List String) : Working (Option String) := do
  let p ← get
  match p.rest with
  | a :: rest =>
    if operators.contains a then
      set (Progress.mk rest a)
      return some a
    else return none
  | [] => return none

/-- What a pattern matches at the beginning of a text: what its group matches, or how many characters it takes. -/
def matchText (text pattern : String) : Working String := do
  match Regex.ofPattern false pattern.toList with
  | .error e => throw (.badPattern e)
  | .ok r =>
    let hasGroup := (pattern.splitOn "\\(").length ≠ 1
    match Regex.matchAt r false ⟨[], text.toList, []⟩ with
    | some p =>
      if hasGroup then return .ofList ((p.groups.lookup 1).getD [])
      else return toString p.before.length
    | none => return if hasGroup then "" else "0"

def apply (operator a b : String) : Working String := do
  let numbers (f : Int → Int → Working Int) : Working String := do
    match integer? a, integer? b with
    | some m, some n => return toString (← f m n)
    | _, _ => throw .nonInteger
  let compared (holds : Ordering → Bool) : Working String := do
    let order := match integer? a, integer? b with
      | some m, some n => compare m n
      | _, _ => compare a b
    return if holds order then "1" else "0"
  match operator with
  | "+" => numbers fun m n => return m + n
  | "-" => numbers fun m n => return m - n
  | "*" => numbers fun m n => return m * n
  | "/" => numbers fun m n => if n = 0 then throw .divisionByZero else return Int.tdiv m n
  | "%" => numbers fun m n => if n = 0 then throw .divisionByZero else return Int.tmod m n
  | "<" => compared (· == .lt)
  | "<=" => compared (· != .gt)
  | "=" => compared (· == .eq)
  | "==" => compared (· == .eq)
  | "!=" => compared (· != .eq)
  | ">=" => compared (· != .lt)
  | ">" => compared (· == .gt)
  | ":" => matchText a b
  | "&" => return if isNull a || isNull b then "0" else a
  | "|" => return if !isNull a then a else if !isNull b then b else "0"
  | _ => return b

/-- The operators of each rank, the weakest first. -/
def ranks : List (List String) :=
  [["|"], ["&"], ["<", "<=", "=", "==", "!=", ">=", ">"], ["+", "-"], ["*", "/", "%"], [":"]]

mutual

def ranked : Nat → List (List String) → Working String
  | 0, _ => throw .nonInteger
  | fuel + 1, [] => primary fuel
  | fuel + 1, operators :: stronger => do
    let a ← ranked fuel stronger
    rankedRest fuel operators stronger a

/-- The operators of a rank after a first operand. -/
def rankedRest : Nat → List String → List (List String) → String → Working String
  | 0, _, _, _ => throw .nonInteger
  | fuel + 1, operators, stronger, a => do
    match ← takeOne operators with
    | none => return a
    | some operator =>
      let b ← ranked fuel stronger
      rankedRest fuel operators stronger (← apply operator a b)

def primary : Nat → Working String
  | 0 => throw .nonInteger
  | fuel + 1 => do
    match ← next with
    | "(" =>
      let a ← ranked fuel ranks
      match ← takeOne [")"] with
      | some _ => return a
      | none =>
        let p ← get
        match p.rest with
        | [] => throw (.expectingClose p.last)
        | b :: _ => throw (.expectingClose b)
    | ")" => throw (.unexpected ")")
    | "+" => next
    | "length" => return toString (← ranked fuel []).length
    | "match" =>
      let text ← ranked fuel []
      matchText text (← ranked fuel [])
    | "index" =>
      let text ← ranked fuel []
      let wanted ← ranked fuel []
      return toString ((text.toList.findIdx? fun c => wanted.toList.contains c).elim 0 (· + 1))
    | "substr" =>
      let text ← ranked fuel []
      let first := (integer? (← ranked fuel [])).getD 0
      let count := (integer? (← ranked fuel [])).getD 0
      if first ≤ 0 || count ≤ 0 then return ""
      return .ofList ((text.toList.drop (first.toNat - 1)).take count.toNat)
    | a => return a

end

def value (arguments : List String) : Except Fault String := do
  let (a, p) ← (ranked (16 * arguments.length + 32) ranks).run ⟨arguments, ""⟩
  match p.rest with
  | [] => return a
  | extra :: _ => throw (.unexpected extra)

end CompileDb.Utility.Sum
