import CompileDb.FileTree
import CompileDb.Shell.Formula
import CompileDb.Text

/-!
# Conditions

What `test` finds out about texts, numbers and files. Conditions are joined by `-a`, which binds more strongly, and `-o`,
turned round by `!`, and bracketed. Three or four arguments are read by rules of their own, so that a text may look like
an operator.
-/

namespace CompileDb.Shell

namespace Condition

/-- What an argument is. -/
inductive Kind where
  | operand
  | unary
  | binary
  | and
  | or
  | not
  | openParen
  | closeParen
  /-- There is no argument. -/
  | nothing
deriving DecidableEq, Repr

def operator? (text : String) : Option Kind :=
  if text ∈ ["-r", "-w", "-x", "-e", "-f", "-d", "-c", "-b", "-p", "-u", "-g", "-k", "-s", "-t", "-z", "-n", "-h", "-L", "-O",
      "-G", "-S"] then some .unary
  else if text ∈ ["=", "!=", "<", ">", "-eq", "-ne", "-ge", "-gt", "-le", "-lt", "-nt", "-ot", "-ef"] then some .binary
  else
    match text with
    | "-a" => some .and
    | "-o" => some .or
    | "!" => some .not
    | "(" => some .openParen
    | ")" => some .closeParen
    | _ => none

/-- The argument at the front stands for itself, although it looks like an operator for one argument. -/
def isOperand : List String → Bool
  | [_] => true
  | [_, _] => false
  | _ :: next :: _ :: _ => operator? next = some .binary
  | [] => true

def kind (arguments : List String) : Kind :=
  match arguments with
  | [] => .nothing
  | text :: rest =>
    match operator? text with
    | some .unary => if isOperand arguments then .operand else .unary
    | some .openParen => if rest.isEmpty then .operand else .openParen
    | some k => k
    | none => .operand

/-- Conditions fail with a complaint. -/
abbrev Checked := Except String

def complaint (operator message : String) : String :=
  if operator.isEmpty then message else s!"{operator}: {message}"

def number (text : String) : Checked Int :=
  match Formula.number? text.toList with
  | some n => if text.toList.any Char.isDigit then .ok (decimalOf text.toList n) else .error s!"Illegal number: {text}"
  | none => .error s!"Illegal number: {text}"
where
  /-- Digits are always decimal here. -/
  decimalOf (text : List Char) (n : Int) : Int :=
    match decimal? (text.filter Char.isDigit) with
    | some d => if text.contains '-' then -(d : Int) else d
    | none => n

/-- What `files` say of a path. -/
def file (files : FileTree) (operator path : String) : Bool :=
  let p : Path := ⟨Text.ofOctets path⟩
  if operator = "-h" ∨ operator = "-L" then
    match (files.locateLink false p).toOption.bind files.node? with
    | some (.link _) => true
    | _ => false
  else
    match operator, (files.look p).toOption with
    | _, none => false
    | "-d", some n => n = .directory
    | "-f", some (.file ..) => true
    | "-s", some (.file bytes _) => !bytes.isEmpty
    | "-s", some .directory => true
    | "-c", some (.device _) => true
    | "-x", some (.file _ executable) => executable
    | "-x", some .directory => true
    | operator, some _ => operator ∈ ["-e", "-r", "-w", "-O", "-G"]

def unary (files : FileTree) (operator operand : String) : Checked Bool :=
  match operator with
  | "-z" => .ok operand.isEmpty
  | "-n" => .ok (!operand.isEmpty)
  | "-t" => (number operand).map fun _ => false
  | _ => .ok (file files operator operand)

/-- Both paths lead to one file. -/
def sameFile (files : FileTree) (a b : String) : Bool :=
  match (files.locate ⟨Text.ofOctets a⟩).toOption, (files.locate ⟨Text.ofOctets b⟩).toOption with
  | some s, some t => s = t && (files.node? s).isSome
  | _, _ => false

def binary (files : FileTree) (a operator b : String) : Checked Bool := do
  let numbers (compare : Int → Int → Bool) : Checked Bool := do
    let m ← number a
    let n ← number b
    return compare m n
  match operator with
  | "=" => return a = b
  | "!=" => return a ≠ b
  | "<" => return decide (a < b)
  | ">" => return decide (b < a)
  | "-eq" => numbers fun m n => decide (m = n)
  | "-ne" => numbers fun m n => decide (m ≠ n)
  | "-lt" => numbers fun m n => decide (m < n)
  | "-le" => numbers fun m n => decide (m ≤ n)
  | "-gt" => numbers fun m n => decide (n < m)
  | "-ge" => numbers fun m n => decide (n ≤ m)
  | "-ef" => return sameFile files a b
  | "-nt" => return file files "-e" a && !file files "-e" b
  | "-ot" => return !file files "-e" a && file files "-e" b
  | _ => return false

mutual

/-- Conditions joined by `-o`. The answer comes with the last argument that was used and those after it. -/
def disjunction (files : FileTree) : Nat → Kind → List String → Checked (Bool × List String)
  | 0, _, arguments => .ok (false, arguments)
  | fuel + 1, k, arguments => do
    let (a, rest) ← conjunction files fuel k arguments
    match kind (rest.drop 1) with
    | .or =>
      let rest := rest.drop 2
      let (b, rest) ← disjunction files fuel (kind rest) rest
      return (a || b, rest)
    | _ => return (a, rest)

/-- Conditions joined by `-a`. -/
def conjunction (files : FileTree) : Nat → Kind → List String → Checked (Bool × List String)
  | 0, _, arguments => .ok (false, arguments)
  | fuel + 1, k, arguments => do
    let (a, rest) ← negation files fuel k arguments
    match kind (rest.drop 1) with
    | .and =>
      let rest := rest.drop 2
      let (b, rest) ← conjunction files fuel (kind rest) rest
      return (a && b, rest)
    | _ => return (a, rest)

/-- A condition that may be turned round. -/
def negation (files : FileTree) : Nat → Kind → List String → Checked (Bool × List String)
  | 0, _, arguments => .ok (false, arguments)
  | fuel + 1, k, arguments => do
    if k = .not then
      let next := kind (arguments.drop 1)
      let rest := if next = .nothing then arguments else arguments.drop 1
      let (a, rest) ← negation files fuel next rest
      return (!a, rest)
    else primary files fuel k arguments

def primary (files : FileTree) : Nat → Kind → List String → Checked (Bool × List String)
  | 0, _, arguments => .ok (false, arguments)
  | fuel + 1, k, arguments => do
    match k with
    | .nothing => return (false, arguments)
    | .openParen =>
      let inner := arguments.drop 1
      if kind inner = .closeParen then return (false, inner)
      let (a, rest) ← disjunction files fuel (kind inner) inner
      if kind (rest.drop 1) ≠ .closeParen then throw "closing paren expected"
      return (a, rest.drop 1)
    | .unary =>
      let operator := arguments.headD ""
      match arguments.drop 1 with
      | [] => throw (complaint operator "argument expected")
      | operand :: rest => return (← unary files operator operand, operand :: rest)
    | _ =>
      let a := arguments.headD ""
      if kind (arguments.drop 1) = .binary then
        let operator := (arguments.drop 1).headD ""
        match arguments.drop 2 with
        | [] => throw (complaint operator "argument expected")
        | b :: rest => return (← binary files a operator b, b :: rest)
      else return (!a.isEmpty, arguments)

end

/-- The truth of a condition. With `turned`, it is turned round. -/
def holds (files : FileTree) : Bool → List String → Checked Bool
  | turned, [] => .ok turned
  | turned, arguments =>
    let finish (k : Kind) (arguments : List String) : Checked Bool := do
      let (a, rest) ← disjunction files (4 * arguments.length + 4) k arguments
      match rest with
      | text :: _ :: _ => throw (complaint text "unexpected operator")
      | _ => return a != turned
    let isBinary := arguments.length = 3 ∧ operator? (arguments[1]?.getD "") = some .binary
    if isBinary then finish .operand arguments
    else if arguments.length = 3 ∨ arguments.length = 4 then
      match arguments with
      | "(" :: rest =>
        if rest.getLast? = some ")" then finish (kind rest.dropLast) rest.dropLast else finish (kind arguments) arguments
      | "!" :: rest => holds files (!turned) rest
      | _ => finish (kind arguments) arguments
    else finish (kind arguments) arguments

/-- What `test` finds out: its status, or its complaint. `bracketed` arguments have to end in a bracket. -/
def status (files : FileTree) (bracketed : Bool) (arguments : List String) : Checked Nat := do
  if bracketed ∧ arguments.getLast? ≠ some "]" then throw "missing ]"
  let a ← holds files false (if bracketed then arguments.dropLast else arguments)
  return if a then 0 else 1

end Condition

end CompileDb.Shell
