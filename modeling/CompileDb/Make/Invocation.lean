import CompileDb.Database
import CompileDb.Text

/-!
# Compiler calls in printed lines

A line calls a compiler if the file name of its first word names a compiler driver and one of its other words
names a source file. Words are separated by single spaces, and empty ones do not count.
-/

namespace CompileDb.Make

/-- A compiler call that is not yet tied to a directory. -/
structure Invocation where
  /-- The source file, exactly as it was printed. -/
  file : String
  /-- The words of the call, the compiler first. -/
  arguments : List String
deriving DecidableEq, Repr

namespace Invocation

/-- A program whose name contains one of these is a compiler driver. -/
def driverNames : List String := ["gcc", "g++", "clang"]

/-- Options whose value is the next word. -/
def valueFlags : List String := ["-o", "-include", "-MF"]

/-- How the name of a source file ends. -/
def sourceSuffixes : List String := [".c", ".h", ".cc", ".cpp", ".cxx", ".hh", ".hpp", ".hxx"]

/-- Whether a program, possibly given with its directory, is a compiler driver. -/
def isCompiler (program : String) : Bool :=
  match (Path.mk program).fileName? with
  | some name => driverNames.any fun driver => Text.occursIn driver.toList name.toList
  | none => false

/-- Whether a word names a source file. -/
def isSource (word : String) : Bool :=
  sourceSuffixes.any fun suffix => suffix.toList.isSuffixOf word.toList

/-- The word without its backslashes. -/
def withoutBackslashes (word : String) : String :=
  String.ofList (word.toList.filter (· != '\\'))

/-- The source file that a call names, if any: the last word that looks like one and is not the value of the
option before it. `shielded` says that the first word is such a value. -/
def sourceFile? (shielded : Bool) : List String → Option String
  | [] => none
  | word :: rest =>
    if valueFlags.contains word then sourceFile? true rest
    else if shielded then sourceFile? false rest
    else if isSource word then sourceFile? false rest <|> some word
    else sourceFile? false rest

/-- The words of a line: the text before the first space, and the non-empty pieces after it. -/
def wordsOf (line : String) : String × List String :=
  match line.toList.splitOn ' ' with
  | [] => ("", [])
  | program :: pieces => (String.ofList program, (pieces.filter (!·.isEmpty)).map String.ofList)

/-- The compiler call that a line prints, if it prints one. -/
def ofLine? (line : String) : Option Invocation :=
  let (program, words) := wordsOf line
  if isCompiler program then
    (sourceFile? false words).map fun file => ⟨file, program :: words.map withoutBackslashes⟩
  else none

/-- The call as a command run in a directory. -/
def toCommand (call : Invocation) (directory : Path) : Command :=
  ⟨directory, ⟨call.file⟩, call.arguments⟩

end Invocation

end CompileDb.Make
