import CompileDb.Path
import CompileDb.Shell.Condition
import CompileDb.Shell.Printing
import CompileDb.Utility.Sum

/-!
# Utilities for words

Utilities that write their arguments, or what they make of them.
-/

namespace CompileDb.Utility

open Host

def echo (inv : Invocation) : Action Nat := (Report.ofOutput (Shell.programEcho inv.arguments)).deliver inv.name

def printf (inv : Invocation) : Action Nat := do
  let arguments := match inv.arguments with
    | "--" :: rest => rest
    | arguments => arguments
  match arguments with
  | [] => misused inv.name "missing operand" 1
  | format :: arguments =>
    let p := Shell.printf true format arguments
    let explain : Shell.ArgumentFault → String
      | .notNumber => "expected a numeric value"
      | .partly => "value not completely converted"
      | .tooLarge => "Numerical result out of range"
    let faults := p.faults.map fun (argument, fault) => s!"{quoted argument}: {explain fault}"
    let format := match p.fault with
      | some (.invalid directive) => [s!"{directive}: invalid conversion specification"]
      | some .incomplete => ["%: invalid conversion specification"]
      | none => []
    let extra := if !p.took && !p.ended then p.arguments.take 1 else []
    let warnings := extra.map fun a => s!"warning: ignoring excess arguments, starting with {quoted a}"
    Report.deliver ⟨p.octets.reverse, faults ++ format ++ warnings, if faults.isEmpty && format.isEmpty then 0 else 1⟩ inv.name

/-- A complaint about a condition, as utilities put it. -/
def conditionComplaint (text : String) : String :=
  match text.splitOn ": " with
  | ["Illegal number", n] => s!"invalid integer {quoted n}"
  | [operator, "argument expected"] => s!"missing argument after {quoted operator}"
  | [operator, "unexpected operator"] => s!"extra argument {quoted operator}"
  | ["missing ]"] => "missing \x27]\x27"
  | ["closing paren expected"] => "\x27)\x27 expected"
  | _ => text

/-- Tells what a condition is worth. -/
def test (bracketed : Bool) (inv : Invocation) : Action Nat := do
  match inv.arguments with
  | [a, b] =>
    if !bracketed && (Shell.Condition.operator? a).isNone then
      complain inv.name s!"missing argument after {quoted b}"
      return 2
  | [_, operator, _] =>
    if !bracketed && (Shell.Condition.operator? operator).isNone && !(["!", "("].contains (inv.arguments.headD "")) then
      complain inv.name s!"{quoted operator}: binary operator expected"
      return 2
  | _ => pure ()
  match Shell.Condition.status (← Action.files) bracketed inv.arguments with
  | .ok status => return status
  | .error text =>
    complain inv.name (conditionComplaint text)
    return 2

def expr (inv : Invocation) : Action Nat := do
  let arguments := match inv.arguments with
    | "--" :: rest => rest
    | arguments => arguments
  if arguments.isEmpty then misused inv.name "missing operand" 2
  else
    match Sum.value arguments with
    | .error fault =>
      complain inv.name fault.message
      return 2
    | .ok text => Report.deliver ⟨(text ++ "\n").toList, [], if Sum.isNull text then 1 else 0⟩ inv.name

/-! ## Parts of paths -/

def withoutSlashes (path : List Char) : List Char := (path.reverse.dropWhile (· = '/')).reverse

/-- The last name of a path, without a suffix that it has. -/
def baseName (path suffix : String) : String :=
  let whole := withoutSlashes path.toList
  if whole.isEmpty then if path.isEmpty then "" else "/"
  else
    let name := (whole.reverse.takeWhile (· ≠ '/')).reverse
    let suffix := suffix.toList
    if suffix.isSuffixOf name && suffix.length < name.length then .ofList (name.take (name.length - suffix.length))
    else .ofList name

def directoryName (path : String) : String :=
  let whole := withoutSlashes path.toList
  if whole.isEmpty then if path.isEmpty then "." else "/"
  else if !whole.contains '/' then "."
  else
    let before := withoutSlashes (whole.reverse.dropWhile (· ≠ '/')).reverse
    if before.isEmpty then "/" else .ofList before

/-- Writes the last names of paths. -/
def basename (inv : Invocation) : Action Nat :=
  withOptions ⟨"az", "s", [("multiple", 'a'), ("suffix", 's'), ("zero", 'z')]⟩ 1 inv fun options operands => do
    let ending := if has options 'z' then "\x00" else "\n"
    let isMultiple := has options 'a' || has options 's'
    match operands with
    | [] => misused inv.name "missing operand" 1
    | path :: rest =>
      if isMultiple then
        let suffix := (valueOf? options 's').getD ""
        report inv (String.join (operands.map fun p => baseName p suffix ++ ending))
      else
        match rest with
        | _ :: extra :: _ => misused inv.name s!"extra operand {quoted extra}" 1
        | rest => report inv (baseName path (rest.headD "") ++ ending)

/-- Writes paths without their last names. -/
def dirname (inv : Invocation) : Action Nat :=
  withOptions ⟨"z", "", [("zero", 'z')]⟩ 1 inv fun options operands => do
    if operands.isEmpty then misused inv.name "missing operand" 1
    else
      let ending := if has options 'z' then "\x00" else "\n"
      report inv (String.join (operands.map fun p => directoryName p ++ ending))

/-! ## Rows of numbers -/

/-- A decimal number: a whole number of units, of which so many places make one. -/
structure Decimal where
  units : Int
  places : Nat
deriving DecidableEq, Repr

namespace Decimal

def ofText? (text : String) : Option Decimal := do
  let (negative, unsigned) := match text.toList with
    | '-' :: rest => (true, rest)
    | '+' :: rest => (false, rest)
    | rest => (false, rest)
  let whole := unsigned.takeWhile Char.isDigit
  let (part, rest) := match unsigned.dropWhile Char.isDigit with
    | '.' :: rest => (rest.takeWhile Char.isDigit, rest.dropWhile Char.isDigit)
    | rest => ([], rest)
  let n ← Shell.decimal? (whole ++ part)
  let exponent ← match rest with
    | [] => some (0 : Int)
    | e :: digits =>
      if e = 'e' || e = 'E' then Sum.integer? (.ofList (if digits.head? = some '+' then digits.drop 1 else digits)) else none
  let value : Int := if negative then -(n : Int) else n
  let places : Int := part.length - exponent
  return if 0 ≤ places then ⟨value, places.toNat⟩ else ⟨value * Nat.pow 10 (-places).toNat, 0⟩

def unitsAt (d : Decimal) (places : Nat) : Int := d.units * Nat.pow 10 (places - d.places)

def render (units : Int) (places : Nat) : List Char :=
  let digits := Nat.toDigits 10 units.natAbs
  let digits := List.replicate (places + 1 - digits.length) '0' ++ digits
  let whole := digits.take (digits.length - places)
  let text := if places = 0 then whole else whole ++ '.' :: digits.drop (digits.length - places)
  if units < 0 then '-' :: text else text

end Decimal

/-- A text filled up with zeros behind its sign. -/
def zeroFilled (width : Nat) (text : List Char) : List Char :=
  let zeros := List.replicate (width - text.length) '0'
  match text with
  | '-' :: digits => '-' :: zeros ++ digits
  | digits => zeros ++ digits

def rowOf (first step last : Decimal) (fill : Bool) : List (List Char) :=
  let fine := max (max first.places step.places) last.places
  let (a, d, z) := (first.unitsAt fine, step.unitsAt fine, last.unitsAt fine)
  let count := if d = 0 then 0 else (Int.fdiv (z - a) d + 1).toNat
  let places := max first.places step.places
  let shown := (List.range count).map fun (i : Nat) => Decimal.render ((a + i * d) / Nat.pow 10 (fine - places)) places
  if fill then
    let ends := [Decimal.render (first.unitsAt places) places, Decimal.render (z / Nat.pow 10 (fine - places)) places]
    let width := (ends.map List.length).foldl max 0
    shown.map (zeroFilled width)
  else shown

/-- An argument that looks like an option but is a number. -/
def isNegative (argument : String) : Bool :=
  match argument.toList with
  | '-' :: c :: _ => c.isDigit || c = '.'
  | _ => false

/-- The options of `seq` are those before its first number. -/
def beforeNumbers : List String → List String
  | [] => []
  | argument :: rest => if isNegative argument then "--" :: argument :: rest else
    match argument.toList with
    | ['-', 's'] => argument :: (rest.take 1 ++ beforeNumbers (rest.drop 1))
    | ['-', 'f'] => argument :: (rest.take 1 ++ beforeNumbers (rest.drop 1))
    | ['-', '-'] => argument :: rest
    | '-' :: _ :: _ => argument :: beforeNumbers rest
    | _ => "--" :: argument :: rest
termination_by arguments => arguments.length
decreasing_by all_goals simp only [List.length_drop, List.length_cons]; omega

/-- Writes a row of numbers. -/
def seq (inv : Invocation) : Action Nat :=
  withOptions ⟨"w", "sf", [("separator", 's'), ("format", 'f'), ("equal-width", 'w')]⟩ 1
    { inv with arguments := beforeNumbers inv.arguments } fun options operands => do
      let one : Decimal := ⟨1, 0⟩
      let separator := ((valueOf? options 's').getD "\n").toList
      let write (first step last : Decimal) : Action Nat := do
        let row := match valueOf? options 'f' with
          | some format =>
            (rowOf first step last false).map fun t => (Shell.printf true format [.ofList t]).octets.reverse
          | none => rowOf first step last (has options 'w')
        (Report.ofOutput (if row.isEmpty then [] else separator.intercalate row ++ ['\n'])).deliver inv.name
      match operands.find? fun a => (Decimal.ofText? a).isNone with
      | some a => misused inv.name s!"invalid floating point argument: {quoted a}" 1
      | none =>
        match operands.filterMap Decimal.ofText? with
        | [] => misused inv.name "missing operand" 1
        | [last] => write one one last
        | [first, last] => write first one last
        | [first, step, last] =>
          if step.units = 0 then
            misused inv.name ("invalid Zero increment value: " ++ quoted (operands[1]?.getD "")) 1
          else write first step last
        | _ => misused inv.name ("extra operand " ++ quoted (operands[3]?.getD "")) 1

end CompileDb.Utility
