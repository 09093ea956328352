import CompileDb.Host.Program
import CompileDb.Text

/-!
# Invocations

How a program is called, and how the program of a file is found. Names, arguments and variables are octets.
-/

namespace CompileDb.Host

/-- A call of a program. -/
structure Invocation where
  /-- What the program is called. -/
  name : String
  arguments : List String
  environment : List (String × String)
deriving DecidableEq, Repr

abbrev Loader := FileTree → String → Invocation → Except Refusal Program

/-- The variable with the directories in which programs are looked up. -/
def searchVariable : String := "PATH"

/-- The directories in which programs are looked up unless a variable says otherwise. -/
def standardSearch : String := "/usr/local/sbin:/usr/local/bin:/usr/sbin:/usr/bin:/sbin:/bin"

/-- The files in which a program of this name is looked up. -/
def candidates (search name : String) : List String :=
  if name.toList.contains '/' then [name]
  else (search.splitOn ":").map fun d => if d.isEmpty then name else d ++ "/" ++ name

/-- A refusal that leads to the next file in which a program is looked up. -/
def Refusal.isPassed : Refusal → Bool
  | .path .missing => true
  | .path .notDirectory => true
  | .denied => true
  | _ => false

/-- The program of the first file that has one. If some file was not executable, that is the refusal. -/
def firstProgram (load : Loader) (files : FileTree) (inv : Invocation) (denied : Bool) :
    List String → Except Refusal Program
  | [] => .error (if denied then .denied else .path .missing)
  | file :: rest =>
    match load files (Text.ofOctets file) inv with
    | .ok p => .ok p
    | .error r =>
      if r.isPassed then firstProgram load files inv (denied || r = .denied) rest else .error r

/-- The octets of an argument or a variable that can be given to a program, with the octet that ends it. -/
def textLimit : Nat := 131072

/-- The octets of all arguments and variables that can be given to a program. -/
def totalLimit : Nat := 2097152

def Invocation.texts (inv : Invocation) : List String :=
  inv.name :: inv.arguments ++ inv.environment.map fun (n, v) => n ++ "=" ++ v

/-- Texts can be given to a program. Each of them takes its octets, one more and the eight of its address. -/
def fits (sizes : List Nat) : Bool :=
  sizes.all (· < textLimit) && decide (sizes.foldl (fun n size => n + (size + 9)) 0 < totalLimit)

/-- Becomes the program of a file. What comes back is why that is not possible. -/
def execute (load : Loader) (search : String) (file : String) (inv : Invocation) : Action (Option Refusal) := do
  if !fits (inv.texts.map String.length) then return some .tooMuch
  match firstProgram load (← Action.files) inv false (candidates search file) with
  | .ok p => Action.become p
  | .error r => return some r

end CompileDb.Host
