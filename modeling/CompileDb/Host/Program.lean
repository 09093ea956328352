import CompileDb.FileTree
import CompileDb.Run.Child

/-!
# Programs

A program is what a process goes on to do: its next request to the host, and for each answer the program from there on.
So a program holds no more than what can be seen of it from outside.

Actions are programs with a result. They are composed in sequence, and an action becomes a program when it is said what is
done with its result.
-/

namespace CompileDb.Host

open Run (ExitStatus Stream)

/-- Why a request is refused. -/
inductive Refusal where
  | path (o : Obstacle)
  /-- The descriptor leads nowhere, or not in the wanted direction. -/
  | badDescriptor
  /-- Nobody reads what would be written. -/
  | noReader
  /-- The file is not executable. -/
  | denied
  /-- The file is executable, but no program. -/
  | notProgram
  /-- The arguments of a program are too long. -/
  | tooMuch
deriving DecidableEq, Repr

def Refusal.message : Refusal → String
  | path .missing => "No such file or directory"
  | path .notDirectory => "Not a directory"
  | path .isDirectory => "Is a directory"
  | path .tooLong => "File name too long"
  | path .endlessLinks => "Too many levels of symbolic links"
  | path .malformed => "Invalid argument"
  | path .exists => "File exists"
  | path .notEmpty => "Directory not empty"
  | path .noRoom => "No space left on device"
  | badDescriptor => "Bad file descriptor"
  | noReader => "Broken pipe"
  | denied => "Permission denied"
  | notProgram => "Exec format error"
  | tooMuch => "Argument list too long"

/-- The open files of a process: a number of the host's for each descriptor. -/
abbrev Descriptors := List (Nat × Nat)

/-- How much is read. -/
inductive Amount where
  /-- At most so many bytes. -/
  | upTo (n : Nat)
  /-- Up to the end of a line. -/
  | line
  /-- All that is there. -/
  | available
deriving DecidableEq, Repr

/-- How a file is opened. -/
inductive Access where
  | read
  /-- To be written from its beginning; what it held is gone. -/
  | write
  /-- To be written at its end. -/
  | append
  /-- To be read and written. What it holds stays. -/
  | update
deriving DecidableEq, Repr

/-- Where an open file leads. -/
inductive Source where
  | file (trail : Trail)
  | directory
  | device (d : Device)
  | pipe (number : Nat)
  /-- A stream that somebody outside of the machine reads. -/
  | stream (s : Stream)
deriving DecidableEq, Repr

/-- An open file, which processes may share. -/
structure Opening where
  number : Nat
  source : Source
  access : Access
  position : Nat
deriving DecidableEq, Repr

/-- What a signal does to a process. -/
inductive Disposition where
  | default
  | ignored
  /-- The process asks for it when it has time. -/
  | caught
deriving DecidableEq, Repr

/-- What waiting for a process brings. -/
inductive Awaited where
  | ended (process : Nat) (exit : ExitStatus)
  /-- There is nobody to wait for. -/
  | nobody
  /-- A signal was caught. -/
  | interrupted
deriving DecidableEq, Repr

/-- What a process goes on to do. -/
inductive Program where
  | exit (status : Nat)
  | read (descriptor : Nat) (amount : Amount) (next : Except Refusal (List UInt8) → Program)
  /-- Goes back over bytes that were read of a file. What is not a file cannot be gone back over. -/
  | unread (descriptor count : Nat) (next : Program)
  | write (descriptor : Nat) (bytes : List UInt8) (next : Except Refusal Unit → Program)
  /-- Opens a file at the lowest descriptor that is free. -/
  | openFile (path : String) (access : Access) (next : Except Refusal Nat → Program)
  /-- Asks what a descriptor leads to. -/
  | opening (descriptor : Nat) (next : Option Opening → Program)
  /-- Opens both ends of a pipe, the one that is read first. -/
  | openPipe (next : Nat → Nat → Program)
  /-- Rearranges its descriptors, and goes on with those it had. -/
  | arrange (change : Descriptors → Descriptors) (next : Descriptors → Program)
  /-- Looks at the files and changes them. Their home is the directory of the process. -/
  | onFiles (act : FileTree → FileTree × Program)
  /-- Does nothing for a time, in microseconds. -/
  | sleep (time : Nat) (next : Program)
  | fork (child : Program) (next : Nat → Program)
  /-- Waits for a child, or for any child. With `wakes`, a caught signal ends the wait. -/
  | wait (child : Option Nat) (wakes : Bool) (next : Awaited → Program)
  /-- Sends a signal to a process, if it is there. -/
  | signal (process number : Nat) (next : Bool → Program)
  | handle (number : Nat) (disposition : Disposition) (next : Program)
  /-- Takes the signals that were caught. -/
  | caught (next : List Nat → Program)
  /-- Becomes another program: caught signals have their default again, and private descriptors are closed. -/
  | become (next : Program)
  | ownNumber (next : Nat → Program)
  /-- The number of the parent. -/
  | parentNumber (next : Nat → Program)

def privateDescriptor : Nat := 10

/-! ## Actions -/

def Action (α : Type) : Type := (α → Program) → Program

namespace Action

instance : Monad Action where
  pure a := fun next => next a
  bind action f := fun next => action fun a => f a next

def exit {α : Type} (status : Nat) : Action α := fun _ => .exit status

/-- Reads from a descriptor. Nothing is read at the end. -/
def read (descriptor : Nat) (amount : Amount) : Action (Except Refusal (List UInt8)) :=
  fun next => .read descriptor amount next

/-- Goes back over bytes that were read of a file. -/
def unread (descriptor count : Nat) : Action Unit := fun next => .unread descriptor count (next ())

/-- Writes all of the bytes to a descriptor. -/
def write (descriptor : Nat) (bytes : List UInt8) : Action (Except Refusal Unit) :=
  fun next => .write descriptor bytes next

/-- Opens a file at the lowest descriptor that is free, which comes back. -/
def openFile (path : String) (access : Access) : Action (Except Refusal Nat) :=
  fun next => .openFile path access next

def opening (descriptor : Nat) : Action (Option Opening) := fun next => .opening descriptor next

/-- Opens a pipe. The end that is read and the end that is written come back. -/
def openPipe : Action (Nat × Nat) := fun next => .openPipe fun source target => next (source, target)

/-- Rearranges the descriptors. Those before come back. -/
def arrange (change : Descriptors → Descriptors) : Action Descriptors := fun next => .arrange change next

/-- Looks at the files and changes them. -/
def onFiles {α : Type} (act : FileTree → FileTree × α) : Action α :=
  fun next => .onFiles fun t => let (t, a) := act t; (t, next a)

/-- Does nothing for a time, in microseconds. -/
def sleep (time : Nat) : Action Unit := fun next => .sleep time (next ())

/-- Starts a child that does an action and exits with its result. The number of the child comes back. -/
def fork (child : Action Nat) : Action Nat := fun next => .fork (child .exit) next

/-- Waits for a child, or for any child. With `wakes`, a caught signal ends the wait. -/
def wait (child : Option Nat) (wakes : Bool) : Action Awaited := fun next => .wait child wakes next

/-- Sends a signal to a process. The answer says whether it was there. -/
def signal (process number : Nat) : Action Bool := fun next => .signal process number next

def handle (number : Nat) (disposition : Disposition) : Action Unit :=
  fun next => .handle number disposition (next ())

/-- The signals that were caught since they were last asked for. -/
def caught : Action (List Nat) := fun next => .caught next

/-- Becomes another program. -/
def become {α : Type} (p : Program) : Action α := fun _ => .become p

def ownNumber : Action Nat := fun next => .ownNumber next

def parentNumber : Action Nat := fun next => .parentNumber next

def files : Action FileTree := onFiles fun t => (t, t)

/-- Changes the files, if that is possible. -/
def change (act : FileTree → Except Obstacle FileTree) : Action (Except Obstacle Unit) :=
  onFiles fun t =>
    match act t with
    | .ok after => (after, .ok ())
    | .error o => (t, .error o)

def descriptors : Action Descriptors := arrange id

def close (descriptor : Nat) : Action Unit := do
  let _ ← arrange fun ds => ds.filter (·.1 ≠ descriptor)

/-- Leads a descriptor to where another one leads. -/
def duplicate (source target : Nat) : Action Unit := do
  let _ ← arrange fun ds =>
    match ds.lookup source with
    | some number => (target, number) :: ds.filter (·.1 ≠ target)
    | none => ds.filter (·.1 ≠ target)

/-- Leads a descriptor to where another one leads, which is closed. -/
def move (source target : Nat) : Action Unit := do
  if source ≠ target then
    duplicate source target
    close source

/-- The pieces that are read of one descriptor at most. -/
def pieceLimit : Nat := Nat.pow 2 48

/-- Reads what is left, after pieces that were read, last one first. -/
def readPieces (descriptor : Nat) : Nat → List (List UInt8) → Action (Except Refusal (List UInt8))
  | 0, seen => return .ok seen.reverse.flatten
  | fuel + 1, seen => do
    match ← read descriptor .available with
    | .ok [] => return .ok seen.reverse.flatten
    | .ok bytes => readPieces descriptor fuel (bytes :: seen)
    | .error r => return .error r

def readAll (descriptor : Nat) : Action (Except Refusal (List UInt8)) := readPieces descriptor pieceLimit []

end Action

end CompileDb.Host
