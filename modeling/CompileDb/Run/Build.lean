import CompileDb.Config.Document
import CompileDb.Make.Session
import CompileDb.Run.Drive

/-!
# Runs of the build tool

The observed run prints the commands of a build, which are recorded. The real run builds, and its output is passed
through.
-/

namespace CompileDb.Run

/-- A program and its arguments. -/
structure Call where
  program : String
  arguments : List String
deriving DecidableEq, Repr

/-- What is reported when a program is started. -/
def Call.event (c : Call) : Event :=
  let words := " ".intercalate c.arguments
  ⟨.info, s!"** running: {c.program} {words}"⟩

/-- What is reported at the end of a run. -/
def Outcome.event? (program : String) : Outcome → Option Event
  | .completed none => none
  | .completed (some status) =>
    if status.isSuccess then none else some ⟨.warn, s!"{program} exited with {status.describe}"⟩
  | .interrupted => some ⟨.warn, s!"{program} was interrupted"⟩

/-! ## The observed run -/

/-- Reads each line into a session. -/
def recorder : Handler Make.Session := fun s line =>
  match s.feed line with
  | (after, .error e) => ⟨after, s.directories.readEvents line, false, some (.line e)⟩
  | (after, .ok _) => ⟨after, s.directories.readEvents line, false, none⟩

/-- The call of the observed run. -/
def observedCall (settings : MakeSettings) (arguments : List String) : Call :=
  ⟨settings.program, arguments ++ settings.dryRunFlags⟩

/-- An observed run. On an error the database holds what was recorded before it. -/
structure Observation where
  session : Make.Session
  cancelled : Bool
  diagnostics : Sink
  log : List Event
  result : Except RunError Outcome

/-- Observes a run. `process` is the started program, if it could be started. -/
def observe (settings : MakeSettings) (arguments : List String) (process : Option Script) (cancelled : Bool)
    (db : Database) (diagnostics : Sink) : Observation :=
  let begun := (observedCall settings arguments).event
  let session := Make.Session.start db
  match process with
  | none => ⟨session, cancelled, diagnostics, [begun], .error (.launch settings.program)⟩
  | some script =>
    let (d, result) := drive script cancelled recorder session diagnostics
    let ended := match result with
      | .error _ => []
      | .ok outcome =>
        (if outcome.isInterrupted then none else d.caller.directories.endEvent?).toList ++
          (outcome.event? settings.program).toList
    ⟨d.caller, d.cancelled, d.diagnostics, begun :: d.log.toList ++ ended, result⟩

/-! ## The real run -/

/-- Writes each line to a sink. -/
def copier : Handler Sink := fun s line =>
  let (after, failure) := s.writeLine (Text.encode line)
  ⟨after, [], false, failure.map .io⟩

/-- A real run. -/
structure Passage where
  output : Sink
  cancelled : Bool
  diagnostics : Sink
  log : List Event
  result : Except RunError Outcome

/-- Runs a build and passes its output through. `process` is the started program, if it could be started. -/
def passThrough (settings : MakeSettings) (arguments : List String) (process : Option Script) (cancelled : Bool)
    (output diagnostics : Sink) : Passage :=
  let begun := (Call.mk settings.program arguments).event
  match process with
  | none => ⟨output, cancelled, diagnostics, [begun], .error (.launch settings.program)⟩
  | some script =>
    let (d, result) := drive script cancelled copier output diagnostics
    match result with
    | .error e => ⟨d.caller, d.cancelled, d.diagnostics, begun :: d.log.toList, .error e⟩
    | .ok outcome =>
      match d.caller.flush with
      | (output, some text) => ⟨output, d.cancelled, d.diagnostics, begun :: d.log.toList, .error (.io text)⟩
      | (output, none) =>
        ⟨output, d.cancelled, d.diagnostics, begun :: d.log.toList ++ (outcome.event? settings.program).toList,
          .ok outcome⟩

end CompileDb.Run
