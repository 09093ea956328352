import CompileDb.Host.Machine
import CompileDb.Installed
import CompileDb.Run.Script

/-!
# Launching programs

A program is looked up, started in a directory with its variables, and carried out to its end. What comes back is all
that its observer can see of it: what it writes to its two streams, in order, and how it ends.
-/

namespace CompileDb

open Host
open Run (Behaviour RunError)

/-- What is to be started, and where. -/
structure Launch where
  program : String
  arguments : List String
  /-- The variables that are added to those every program is given. -/
  environment : List (String × String)
  /-- The directory it is started in, if that is another one than home. -/
  directory : Option Path
  files : FileTree

namespace Launch

/-- The variables that every program is given. -/
def inherited : List (String × String) := [("HOME", "/root"), (searchVariable, standardSearch)]

/-- A variable as programs are given it: its name ends at the first equals sign. -/
def asGiven (setting : String × String) : String × String :=
  let text := (setting.1 ++ "=" ++ setting.2).toList
  (.ofList (text.takeWhile (· ≠ '=')), .ofList ((text.dropWhile (· ≠ '=')).drop 1))

/-- The variables that the program is given, as octets and in order. -/
def given (l : Launch) : List (String × String) :=
  let kept := inherited.filter fun (n, _) => (l.environment.lookup n).isNone
  let all := (kept ++ l.environment).mergeSort fun a b => a.1 ≤ b.1
  (all.map asGiven).map fun (n, v) => (Text.octets n, Text.octets v)

def invocation (l : Launch) : Invocation :=
  ⟨Text.octets l.program, l.arguments.map Text.octets, l.given⟩

/-- Every text can be given to a program. -/
def isClean (l : Launch) : Bool :=
  let added := l.environment.flatMap fun (n, v) => [n, v]
  let texts := l.program :: l.arguments ++ added ++ (l.directory.map Path.text).toList
  texts.all (!·.toList.contains '\x00') && fits (l.invocation.texts.map String.length)

/-- The files as the started program sees them. -/
def place? (l : Launch) : Option FileTree :=
  match l.directory with
  | none => some l.files
  | some p => (l.files.enter p).toOption

/-- The program that is started. -/
def find? (l : Launch) (files : FileTree) : Option Program :=
  let search := ((l.given.lookup searchVariable).getD standardSearch)
  (firstProgram (Installed.load Installed.callDepth) files l.invocation false
    (candidates search (Text.octets l.program))).toOption

/-- The files and the program that begins on them, or why it cannot be started. -/
def start (l : Launch) : Except RunError (FileTree × Program) :=
  match if l.isClean then l.place?.bind fun files => (l.find? files).map (files, ·) else none with
  | some started => .ok started
  | none => .error (.launch l.program)

/-- What the program does, or why it cannot be started. -/
def behaviour (l : Launch) : Except RunError Behaviour :=
  l.start.map fun (files, p) => Machine.behaviour files p

end Launch

end CompileDb
