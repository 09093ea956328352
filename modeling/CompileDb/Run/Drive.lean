import CompileDb.Log
import CompileDb.Run.Script
import CompileDb.Run.Sink

/-!
# Driving a process

A process is polled until it has ended. After each poll the complete lines of both streams are taken in turns: one
line of output goes to the caller, then one line of diagnostics to a sink. Between polls a cancellation is noticed,
and the process is stopped. A last line without its newline is never passed on.
-/

namespace CompileDb.Run

/-- How a driven process ended. -/
inductive Outcome where
  /-- It ended by itself and all its output was taken. -/
  | completed (exit : Option ExitStatus)
  /-- Cancellation was requested. -/
  | interrupted
deriving DecidableEq, Repr

/-- The run was cancelled. -/
def Outcome.isInterrupted : Outcome → Bool
  | completed _ => false
  | interrupted => true

/-- What the caller makes of a line. -/
structure Reaction (σ : Type) where
  state : σ
  events : List Event
  /-- Cancellation is requested meanwhile. -/
  cancels : Bool
  error : Option RunError

/-- What the caller does with each line. -/
abbrev Handler (σ : Type) := σ → String → Reaction σ

/-- A process while it is driven. -/
structure Drive (σ : Type) where
  script : Script
  /-- How often the process was told to stop. -/
  terminations : Nat
  cancelled : Bool
  out : LineBuffer
  err : LineBuffer
  caller : σ
  diagnostics : Sink
  log : Array Event

namespace Drive

variable {σ : Type}

/-- A process that has not been polled. -/
def start (script : Script) (cancelled : Bool) (caller : σ) (diagnostics : Sink) : Drive σ :=
  ⟨script, 0, cancelled, .empty, .empty, caller, diagnostics, #[]⟩

/-- Reports an event. -/
def report (d : Drive σ) (e : Event) : Drive σ := { d with log := d.log.push e }

/-- Stops the process. -/
def terminate (d : Drive σ) : Drive σ × Option RunError :=
  ({ d with terminations := d.terminations + 1 }, d.script.terminateError.map .io)

/-- Gives a line of output to the caller. If the caller fails, the process is stopped, and whether that fails does
not matter. -/
def offer (handler : Handler σ) (d : Drive σ) (line : List UInt8) : Drive σ × Option RunError :=
  let r := handler d.caller (Text.decodeLossy line)
  let d := { d with caller := r.state, log := d.log ++ r.events, cancelled := d.cancelled || r.cancels }
  match r.error with
  | none => (d, none)
  | some e => (d.terminate.1, some e)

/-- Writes a line of diagnostics to the sink. -/
def echo (d : Drive σ) (line : List UInt8) : Drive σ × Option RunError :=
  let (diagnostics, failure) := d.diagnostics.writeLine line
  ({ d with diagnostics }, failure.map .io)

/-- Passes on the sink's bytes. -/
def flush (d : Drive σ) : Drive σ × Option RunError :=
  let (diagnostics, failure) := d.diagnostics.flush
  ({ d with diagnostics }, failure.map .io)

@[simp] theorem out_offer (handler : Handler σ) (d : Drive σ) (line : List UInt8) :
    (offer handler d line).1.out = d.out := by
  unfold offer
  dsimp only
  split <;> rfl

@[simp] theorem err_offer (handler : Handler σ) (d : Drive σ) (line : List UInt8) :
    (offer handler d line).1.err = d.err := by
  unfold offer
  dsimp only
  split <;> rfl

/-- Gives the next complete line of output to the caller, if one has arrived. -/
def offerNext (handler : Handler σ) (d : Drive σ) : Drive σ × Option RunError :=
  match d.out.nextRaw? with
  | none => (d, none)
  | some (line, out) => offer handler { d with out } line

/-- Writes the next complete line of diagnostics, if one has arrived. -/
def echoNext (d : Drive σ) : Drive σ × Option RunError :=
  match d.err.nextRaw? with
  | none => (d, none)
  | some (line, err) => echo { d with err } line

/-- A line of output, then a line of diagnostics, as far as each has arrived. -/
def turn (handler : Handler σ) (d : Drive σ) : Drive σ × Option RunError :=
  match d.offerNext handler with
  | (d, some e) => (d, some e)
  | (d, none) => d.echoNext

/-- A complete line of either stream has arrived. -/
def hasLine (d : Drive σ) : Bool :=
  d.out.hasLine || d.err.hasLine

/-- How many bytes of both streams wait to be passed on. -/
def waiting (d : Drive σ) : Nat :=
  d.out.pending.length + d.err.pending.length

/-- Offering a line takes it from the output buffer. -/
theorem out_offerNext (handler : Handler σ) (d : Drive σ) : (d.offerNext handler).1.out = d.out.afterLine := by
  unfold offerNext LineBuffer.afterLine
  cases h : d.out.nextRaw? <;> simp

theorem err_offerNext (handler : Handler σ) (d : Drive σ) : (d.offerNext handler).1.err = d.err := by
  unfold offerNext
  cases h : d.out.nextRaw? <;> simp

/-- Echoing a line takes it from the diagnostics buffer. -/
theorem err_echoNext (d : Drive σ) : d.echoNext.1.err = d.err.afterLine := by
  unfold echoNext LineBuffer.afterLine
  cases h : d.err.nextRaw? <;> simp [echo]

theorem out_echoNext (d : Drive σ) : d.echoNext.1.out = d.out := by
  unfold echoNext
  cases h : d.err.nextRaw? <;> simp [echo]

/-- A turn that does not fail has taken what it could of both streams. -/
theorem buffers_turn {handler : Handler σ} {d after : Drive σ} (h : d.turn handler = (after, none)) :
    after.out = d.out.afterLine ∧ after.err = d.err.afterLine := by
  unfold turn at h
  split at h
  · simp at h
  · rename_i middle offered
    have out := out_offerNext handler d
    have err := err_offerNext handler d
    rw [offered] at out err
    have same : after = middle.echoNext.1 := by rw [h]
    rw [same, out_echoNext, err_echoNext]
    exact ⟨out, congrArg LineBuffer.afterLine err⟩

/-- Every turn takes a line, so the loop ends. -/
theorem waiting_turn_lt {handler : Handler σ} {d after : Drive σ} (more : d.hasLine = true)
    (h : d.turn handler = (after, none)) : after.waiting < d.waiting := by
  obtain ⟨out, err⟩ := buffers_turn h
  have outLe := d.out.length_afterLine_le
  have errLe := d.err.length_afterLine_le
  simp only [waiting, out, err]
  rcases Bool.or_eq_true _ _ ▸ more with has | has
  · have := LineBuffer.length_afterLine_lt has
    omega
  · have := LineBuffer.length_afterLine_lt has
    omega

/-- Passes on the complete lines of both streams in turns, up to the first that fails. -/
def drain (handler : Handler σ) (d : Drive σ) : Drive σ × Option RunError :=
  if _more : d.hasLine = true then
    match _h : d.turn handler with
    | (d, some e) => (d, some e)
    | (after, none) => drain handler after
  else (d, none)
termination_by d.waiting
decreasing_by exact waiting_turn_lt _more _h

theorem drain_of_hasLine {handler : Handler σ} {d : Drive σ} (more : d.hasLine = true) :
    d.drain handler =
      match d.turn handler with
      | (after, some e) => (after, some e)
      | (after, none) => after.drain handler := by
  rw [drain, dif_pos more]
  split <;> rename_i turned <;> rw [turned]

theorem drain_of_not_hasLine {handler : Handler σ} {d : Drive σ} (lineless : ¬ d.hasLine = true) :
    d.drain handler = (d, .none) := by
  rw [drain, dif_neg lineless]

/-- Takes what a poll has brought and passes its complete lines on. -/
def take (handler : Handler σ) (d : Drive σ) (poll : Poll) : Drive σ × Option RunError :=
  if poll.out.isEmpty && poll.err.isEmpty then (d, none)
  else drain handler { d with out := d.out.push poll.out, err := d.err.push poll.err }

/-- A poll of the process. -/
def poll (handler : Handler σ) (d : Drive σ) (p : Poll) (rest : List Poll) : Drive σ × Option RunError :=
  let d := { d with script := { d.script with polls := rest }, cancelled := d.cancelled || p.cancels }
  match p.failure with
  | some text => (d, some (.io text))
  | none => d.take handler p

/-- The end of a process that was stopped for a cancellation. -/
def stop (d : Drive σ) : Drive σ × Except RunError Outcome :=
  match (d.report ⟨.debug, "cancellation requested, stopping build process"⟩).terminate with
  | (d, some e) => (d, .error e)
  | (d, none) => (d, .ok .interrupted)

/-- The end of a process that has ended by itself. A cancellation may still have come with its last lines. -/
def finish (d : Drive σ) : Drive σ × Except RunError Outcome :=
  if d.cancelled then
    match (d.report ⟨.debug, "cancellation requested after the build process finished"⟩).flush with
    | (d, some e) => (d, .error e)
    | (d, none) => (d, .ok .interrupted)
  else
    let d := if d.out.pending.isEmpty then d else d.report ⟨.debug, "discarding unterminated output line"⟩
    match d.flush with
    | (d, some e) => (d, .error e)
    | (d, none) => (d, .ok (.completed d.script.exit))

/-- Drives a process with these polls left. -/
def run (handler : Handler σ) (d : Drive σ) : List Poll → Drive σ × Except RunError Outcome
  | [] => d.finish
  | p :: rest =>
    if d.cancelled then d.stop
    else
      match d.poll handler p rest with
      | (d, some e) => (d, .error e)
      | (d, none) => run handler d rest

end Drive

/-- Drives a process from its first poll to its end. -/
def drive {σ : Type} (script : Script) (cancelled : Bool) (handler : Handler σ) (caller : σ) (diagnostics : Sink) :
    Drive σ × Except RunError Outcome :=
  (Drive.start script cancelled caller diagnostics).run handler script.polls

end CompileDb.Run
