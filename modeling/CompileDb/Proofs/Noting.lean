import CompileDb.Run.Drive

/-!
# Callers that note their lines

A caller may note the lines it is given, next to whatever else it does. That disturbs nothing: `run_noting` says that a
driven process and its caller do the same with and without the notes. So what is proved of the notes holds of the lines
that any caller is given.
-/

namespace CompileDb.Run

variable {σ : Type}

/-- The caller that also notes the lines it is given, the first one first. -/
def Handler.noting (handler : Handler σ) : Handler (σ × List String) := fun (s, lines) line =>
  let r := handler s line
  ⟨(r.state, lines ++ [line]), r.events, r.cancels, r.error⟩

namespace Drive

/-- The drive without the notes of its caller. -/
def forget (d : Drive (σ × List String)) : Drive σ :=
  { d with caller := d.caller.1 }

variable (handler : Handler σ) (d : Drive (σ × List String))

@[simp] theorem out_forget : d.forget.out = d.out := rfl

@[simp] theorem err_forget : d.forget.err = d.err := rfl

@[simp] theorem cancelled_forget : d.forget.cancelled = d.cancelled := rfl

@[simp] theorem report_forget (e : Event) : d.forget.report e = (d.report e).forget := rfl

@[simp] theorem flush_forget : d.forget.flush = (d.flush.1.forget, d.flush.2) := rfl

/-- Noting a line does not change how the caller takes it. -/
theorem offer_noting (line : List UInt8) :
    offer handler d.forget line =
      ((offer handler.noting d line).1.forget, (offer handler.noting d line).2) := by
  simp only [offer, Handler.noting, forget]
  cases (handler d.caller.1 (Text.decodeLossy line)).error <;> rfl

theorem offerNext_noting :
    d.forget.offerNext handler = ((d.offerNext handler.noting).1.forget, (d.offerNext handler.noting).2) := by
  unfold offerNext
  simp only [out_forget]
  cases d.out.nextRaw? with
  | none => rfl
  | some taken => exact offer_noting handler { d with out := taken.2 } taken.1

theorem echoNext_forget : d.forget.echoNext = (d.echoNext.1.forget, d.echoNext.2) := by
  unfold echoNext
  simp only [err_forget]
  cases d.err.nextRaw? <;> rfl

theorem turn_noting :
    d.forget.turn handler = ((d.turn handler.noting).1.forget, (d.turn handler.noting).2) := by
  unfold turn
  rw [offerNext_noting handler d]
  cases d.offerNext handler.noting with
  | mk after failure =>
    cases failure with
    | some e => rfl
    | none => exact echoNext_forget after

/-- Noting the lines does not change how the caller takes all the complete ones. -/
theorem drain_noting :
    d.forget.drain handler = ((d.drain handler.noting).1.forget, (d.drain handler.noting).2) := by
  induction d using drain.induct handler.noting with
  | case1 d more after e turned =>
    have same := turn_noting handler d
    rw [turned] at same
    rw [drain_of_hasLine more, drain_of_hasLine (d := d.forget) more, turned, same]
  | case2 d more after turned ih =>
    have same := turn_noting handler d
    rw [turned] at same
    rw [drain_of_hasLine more, drain_of_hasLine (d := d.forget) more, turned, same]
    exact ih
  | case3 d none =>
    rw [drain_of_not_hasLine none, drain_of_not_hasLine (d := d.forget) none]

/-- A noted poll is the plain one with a note beside it. -/
theorem poll_noting (p : Poll) (rest : List Poll) :
    d.forget.poll handler p rest =
      ((d.poll handler.noting p rest).1.forget, (d.poll handler.noting p rest).2) := by
  unfold poll take
  cases p.failure with
  | some text => rfl
  | none =>
    simp only
    split
    · rfl
    · exact drain_noting handler { d with
        script := { d.script with polls := rest }, cancelled := d.cancelled || p.cancels,
        out := d.out.push p.out, err := d.err.push p.err }

theorem stop_forget : d.forget.stop = (d.stop.1.forget, d.stop.2) := by
  unfold stop
  simp only [terminate, report, forget]
  cases d.script.terminateError <;> rfl

theorem finish_forget : d.forget.finish = (d.finish.1.forget, d.finish.2) := by
  unfold finish
  simp only [cancelled_forget, out_forget, report_forget]
  by_cases cancelled : d.cancelled = true
  · simp only [cancelled, if_true, flush_forget]
    cases (d.report _).flush with
    | mk after failure => cases failure <;> rfl
  · by_cases empty : d.out.pending.isEmpty = true
    · simp only [cancelled, empty, Bool.false_eq_true, if_true, if_false, flush_forget]
      cases d.flush with
      | mk after failure => cases failure <;> rfl
    · simp only [cancelled, empty, Bool.false_eq_true, if_false, flush_forget]
      cases (d.report _).flush with
      | mk after failure => cases failure <;> rfl

/-- A run with notes is the run without them. -/
theorem run_noting (polls : List Poll) :
    d.forget.run handler polls = ((d.run handler.noting polls).1.forget, (d.run handler.noting polls).2) := by
  induction polls generalizing d with
  | nil => exact finish_forget d
  | cons p rest ih =>
    rw [run, run, poll_noting]
    by_cases cancelled : d.cancelled = true
    · simp only [cancelled_forget, cancelled, if_true]
      exact stop_forget d
    · simp only [cancelled_forget, cancelled, Bool.false_eq_true, if_false]
      cases d.poll handler.noting p rest with
      | mk after failure =>
        cases failure with
        | some e => rfl
        | none => exact ih after

end Drive

/-- **Noting lines disturbs nothing.** -/
theorem drive_noting (script : Script) (cancelled : Bool) (handler : Handler σ) (caller : σ) (diagnostics : Sink) :
    let noted := drive script cancelled handler.noting (caller, []) diagnostics
    drive script cancelled handler caller diagnostics = (noted.1.forget, noted.2) :=
  Drive.run_noting handler (.start script cancelled (caller, []) diagnostics) script.polls

end CompileDb.Run
