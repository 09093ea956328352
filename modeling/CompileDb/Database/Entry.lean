import CompileDb.Database
import CompileDb.Json.Reader
import CompileDb.Words

/-!
# Entries of a database file

An entry on file gives a directory, a file and either the words of the call or one command text. Each of its members
may be absent or `null`. All entries of a file are read before the first one is checked.
-/

namespace CompileDb

/-- A member of an object: not there, there as `null`, or given. -/
inductive Member (α : Type) where
  | absent
  | null
  | given (value : α)
deriving DecidableEq, Repr

namespace Member

/-- The given value, if there is one. -/
def get? {α : Type} : Member α → Option α
  | given a => some a
  | _ => none

/-- A member that is there. -/
def ofOption {α : Type} : Option α → Member α
  | some a => given a
  | none => null

/-- The member is there, possibly as `null`. -/
def isPresent {α : Type} : Member α → Bool
  | absent => false
  | _ => true

end Member

/-- What is wrong with an entry. -/
inductive EntryFault where
  | noFile
  | noDirectory
  | noCommand
  | noCompiler
deriving DecidableEq, Repr

/-- The fault in words. -/
def EntryFault.reason : EntryFault → String
  | noFile => "missing key 'file'"
  | noDirectory => "missing key 'directory'"
  | noCommand => "one of 'command' or 'arguments' must be given"
  | noCompiler => "empty compiler invocation"

/-- An entry as it stands in a file. -/
structure Entry where
  directory : Member String
  file : Member String
  command : Member String
  arguments : Member (List String)
deriving DecidableEq, Repr

namespace Entry

/-- The entry without members. -/
def blank : Entry := ⟨.absent, .absent, .absent, .absent⟩

/-- The words of the call: the given arguments, else the words of the command text. -/
def words? (e : Entry) : Option (List String) :=
  e.arguments.get? <|> e.command.get?.map Words.ofText

/-- The command of an entry, or the first thing that is wrong with it. -/
def toCommand (e : Entry) : Except EntryFault Command :=
  match e.file.get?, e.directory.get?, e.words? with
  | none, _, _ => .error .noFile
  | _, none, _ => .error .noDirectory
  | _, _, none => .error .noCommand
  | _, _, some [] => .error .noCompiler
  | some file, some directory, some words => .ok ⟨⟨directory⟩, ⟨file⟩, words⟩

/-! ## Reading -/

open Json

/-- Reads the value of a known member, which is refused before that if it is there already. -/
def readKnown {α : Type} (known : Member α) (read : Reader α) (set : Member α → Entry) : Reader Entry := fun text => do
  if known.isPresent then throw .wrongShape
  let (a, rest) ← readOptional read (← skipColon text)
  return (set (.ofOption a), rest)

/-- Reads the value of the member `name` into an entry. That of an unknown one is passed over. `fuel` is at least the
length of the text. -/
def readMember (fuel : Nat) (e : Entry) (name : String) : Reader Entry := fun text =>
  match name with
  | "directory" => readKnown e.directory readText (fun m => { e with directory := m }) text
  | "file" => readKnown e.file readText (fun m => { e with file := m }) text
  | "command" => readKnown e.command readText (fun m => { e with command := m }) text
  | "arguments" => readKnown e.arguments (readList fuel readText) (fun m => { e with arguments := m }) text
  | _ => do return (e, ← skipValue fuel (← skipColon text))

/-- Reads the members up to the closing brace. `fuel` is at least the length of the text. -/
def readMembers : Nat → Bool → Entry → Reader Entry
  | 0, _, _, _ => .error .endOfInput
  | fuel + 1, first, e, text =>
    match nextMember first text with
    | .error f => .error f
    | .ok none => (readClosing '\x7d' text).map (e, ·)
    | .ok (some (name, rest)) =>
      match readMember fuel e name rest with
      | .error f => .error f
      | .ok (e, rest) => readMembers fuel false e rest

/-- One element of an entry written as a list, which must be there. -/
def readPosition {α : Type} (first : Bool) (read : Reader α) (text : List Char) :
    Except Fault (Member α × List Char) := do
  match ← nextElement first text with
  | none => throw .wrongShape
  | some rest =>
    let (a, rest) ← readOptional read rest
    return (.ofOption a, rest)

/-- One element of an entry written as a list, which may be left out at its end. -/
def readLatePosition {α : Type} (read : Reader α) (text : List Char) : Except Fault (Member α × List Char) := do
  match ← nextElement false text with
  | none => return (.absent, text)
  | some rest =>
    let (a, rest) ← readOptional read rest
    return (.ofOption a, rest)

/-- An entry written as the list of its members: the directory and the file, then the command text and the arguments
as far as they are there. -/
def readPositions (fuel : Nat) : Reader Entry := fun text => do
  let (directory, rest) ← readPosition true readText text
  let (file, rest) ← readPosition false readText rest
  let (command, rest) ← readLatePosition readText rest
  let (arguments, rest) ← readLatePosition (readList fuel readText) rest
  return (⟨directory, file, command, arguments⟩, ← readClosing ']' rest)

/-- An entry, as an object or as a list. `fuel` is more than the length of the text. -/
def read (fuel : Nat) : Reader Entry := fun text =>
  match skipBlanks text with
  | '\x7b' :: rest => readMembers fuel true blank rest
  | '[' :: rest => readPositions fuel rest
  | other => .error (unwanted other)

/-- All entries of a document. -/
def readAll (text : String) : Except Fault (List Entry) :=
  readDocument (fun fuel => readList fuel (read fuel)) text

end Entry

end CompileDb
