import CompileDb.Make.Announcement

/-!
# Scripts of processes

A process as its observer sees it: what each poll of its two streams brings, and how it ends. Every behaviour of a
process and every moment of a cancellation has a script. An error says why a run was given up.
-/

namespace CompileDb.Run

/-- The end of a process. -/
inductive ExitStatus where
  | code (n : Nat)
  | signal (n : Nat)
deriving DecidableEq, Repr

namespace ExitStatus

/-- The process did what it was asked to. -/
def isSuccess : ExitStatus → Bool
  | code n => n == 0
  | signal _ => false

/-- The names of the signals, from number 1 on. -/
def signalNames : List String :=
  ["SIGHUP", "SIGINT", "SIGQUIT", "SIGILL", "SIGTRAP", "SIGABRT", "SIGBUS", "SIGFPE", "SIGKILL", "SIGUSR1", "SIGSEGV",
    "SIGUSR2", "SIGPIPE", "SIGALRM", "SIGTERM", "SIGSTKFLT", "SIGCHLD", "SIGCONT", "SIGSTOP", "SIGTSTP", "SIGTTIN",
    "SIGTTOU", "SIGURG", "SIGXCPU", "SIGXFSZ", "SIGVTALRM", "SIGPROF", "SIGWINCH", "SIGIO", "SIGPWR", "SIGSYS"]

/-- The end in words; a signal with its name, if it has one. -/
def describe : ExitStatus → String
  | code n => s!"exit status: {n}"
  | signal n =>
    match n with
    | 0 => s!"signal: {n}"
    | k + 1 =>
      match signalNames[k]? with
      | some name => s!"signal: {n} ({name})"
      | none => s!"signal: {n}"

end ExitStatus

/-- What one poll brings. -/
structure Poll where
  out : List UInt8
  err : List UInt8
  /-- Cancellation is requested during the poll. -/
  cancels : Bool
  /-- The poll fails with this text and brings no bytes. -/
  failure : Option String
deriving DecidableEq, Repr

/-- A process to be polled. It is alive while polls are left. -/
structure Script where
  polls : List Poll
  exit : Option ExitStatus
  /-- What stopping the process fails with, if it fails. -/
  terminateError : Option String
deriving DecidableEq, Repr

/-- What went wrong in a run. -/
inductive RunError where
  /-- The program could not be started. -/
  | launch (program : String)
  /-- Bytes could not be read or written, or the process could not be stopped. -/
  | io (text : String)
  /-- A printed line could not be followed. -/
  | line (e : Make.LineError)
deriving DecidableEq, Repr

namespace RunError

/-- The text shown to the user. -/
def message : RunError → String
  | launch program => s!"Failed to start \x60{program}\x60"
  | io text => s!"I/O error while running the build: {text}"
  | line e => e.message

/-- The code under which the error is documented. -/
def code : RunError → String
  | launch _ => "makecdb::run::launch"
  | io _ => "makecdb::run::io"
  | line e => e.code

/-- What the user can do about it. -/
def help? : RunError → Option String
  | launch _ => some "check that the program exists and is on PATH, or set it with --make"
  | io _ => none
  | line e => e.help?

end RunError

end CompileDb.Run
