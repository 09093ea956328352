import Mathlib.Data.List.DropRight
import CompileDb.Proofs.Driving
import CompileDb.Proofs.Noting

/-!
# What a driven process passes on

A run may end at any point: the caller fails at a line, the sink is full within a line, a poll fails, cancellation is
noticed, or the polls come to an end. `drive_relays` says that nothing is lost, said twice or moved until then.
Between any two steps the lines given to the caller and the complete lines that wait are those of the bytes brought so
far, and so are the bytes in the sink and the bytes that wait (`Relaying`). A step that fails leaves less (`Within`).
-/

namespace CompileDb.Run

/-- A stream up to its last newline, with that newline. -/
def throughLastNewline (bytes : List UInt8) : List UInt8 :=
  bytes.rdropWhile (· != newline)

/-- Bytes without a newline do not complete a line. -/
theorem throughLastNewline_append {rest : List UInt8} (free : newline ∉ rest) (bytes : List UInt8) :
    throughLastNewline (bytes ++ rest) = throughLastNewline bytes := by
  have all : ∀ c ∈ rest.reverse, (c != newline) = true := by
    intro c mem
    simpa using fun same : c = newline => free (same ▸ List.mem_reverse.1 mem)
  simp only [throughLastNewline, List.rdropWhile, List.reverse_append, List.dropWhile_append_of_pos all]

theorem throughLastNewline_concat (bytes : List UInt8) :
    throughLastNewline (bytes ++ [newline]) = bytes ++ [newline] := by
  simp [throughLastNewline]

/-- The bytes of output that polls have brought. A poll that fails brings none. -/
def broughtOut (polls : List Poll) : List UInt8 :=
  (polls.filter (·.failure.isNone)).flatMap Poll.out

/-- The bytes of diagnostics that polls have brought. -/
def broughtErr (polls : List Poll) : List UInt8 :=
  (polls.filter (·.failure.isNone)).flatMap Poll.err

@[simp] theorem broughtOut_nil : broughtOut [] = [] := rfl

@[simp] theorem broughtErr_nil : broughtErr [] = [] := rfl

/-- What the polls bring is what the first brings and then the others. -/
theorem broughtOut_cons (p : Poll) (polls : List Poll) :
    broughtOut (p :: polls) = broughtOut [p] ++ broughtOut polls := by
  cases h : p.failure <;> simp [broughtOut, h]

theorem broughtErr_cons (p : Poll) (polls : List Poll) :
    broughtErr (p :: polls) = broughtErr [p] ++ broughtErr polls := by
  cases h : p.failure <;> simp [broughtErr, h]

/-- A write that does not fail has written all. -/
theorem Sink.bytes_of_write {s : Sink} {bytes : List UInt8} (h : (s.write bytes).2 = none) :
    (s.write bytes).1.bytes = s.bytes ++ bytes := by
  have fits : bytes.length ≤ s.room bytes.length := by
    by_contra full
    simp [write, full] at h
  rw [bytes_write, List.take_of_length_le fits]

namespace Drive

variable {σ : Type} {out err : List UInt8} {d : Drive (σ × List String)}

/-- Of the bytes brought, everything has been passed on but what waits. -/
structure Relaying (out err : List UInt8) (d : Drive (σ × List String)) : Prop where
  lines : textLines out = d.caller.2 ++ textLines d.out.pending
  fragment : fragment d.out.pending = fragment out
  bytes : err = d.diagnostics.bytes ++ d.err.pending
  ended : throughLastNewline d.diagnostics.bytes = d.diagnostics.bytes

/-- Of the bytes brought, nothing else has been passed on. -/
structure Within (out err : List UInt8) (d : Drive (σ × List String)) : Prop where
  lines : d.caller.2 <+: textLines out
  bytes : d.diagnostics.bytes <+: err

theorem Relaying.within (h : Relaying out err d) : Within out err d :=
  ⟨h.lines ▸ List.prefix_append .., h.bytes ▸ List.prefix_append ..⟩

/-- A step that may fail. -/
def Relays (out err : List UInt8) : Drive (σ × List String) × Option RunError → Prop
  | (d, none) => Relaying out err d
  | (d, some _) => Within out err d

/-- Bytes that are brought wait first. -/
theorem Relaying.push (h : Relaying out err d) (moreOut moreErr : List UInt8) :
    Relaying (out ++ moreOut) (err ++ moreErr) { d with out := d.out.push moreOut, err := d.err.push moreErr } where
  lines := by
    simp only [LineBuffer.pending_push]
    rw [textLines_append out, textLines_append d.out.pending, h.lines, h.fragment, List.append_assoc]
  fragment := by
    simp only [LineBuffer.pending_push]
    rw [fragment_append out, fragment_append d.out.pending, h.fragment]
  bytes := by
    simp only [LineBuffer.pending_push]
    rw [h.bytes, List.append_assoc]
  ended := h.ended

/-- The next line has been given to the caller even if it fails at it. -/
theorem Relaying.offerNext (h : Relaying out err d) (handler : Handler σ) :
    Relaying out err (d.offerNext handler.noting).1 := by
  unfold Drive.offerNext
  cases next : d.out.nextRaw? with
  | none => exact h
  | some taken =>
    obtain ⟨line, rest⟩ := taken
    have given : ∀ after : Drive (σ × List String), after.caller.2 = d.caller.2 ++ [Text.decodeLossy line] →
        after.out = rest → after.err = d.err → after.diagnostics = d.diagnostics → Relaying out err after := by
      intro after lines out err diagnostics
      refine ⟨?_, ?_, by rw [err, diagnostics]; exact h.bytes, by rw [diagnostics]; exact h.ended⟩
      · rw [h.lines, LineBuffer.textLines_of_nextRaw? next, lines, out]
        simp
      · rw [out, ← h.fragment, LineBuffer.fragment_of_nextRaw? next]
    simp only [offer, Handler.noting]
    split <;> exact given _ rfl rfl rfl rfl

/-- The next line of diagnostics goes to the sink as far as there is room for it. -/
theorem Relaying.echoNext (h : Relaying out err d) : Relays out err d.echoNext := by
  unfold Drive.echoNext
  cases next : d.err.nextRaw? with
  | none => exact h
  | some taken =>
    obtain ⟨line, rest⟩ := taken
    have pending := LineBuffer.pending_of_nextRaw? next
    simp only [echo, Sink.writeLine]
    cases failed : (d.diagnostics.write (line ++ [newline])).2 with
    | none =>
      have written := Sink.bytes_of_write failed
      refine ⟨h.lines, h.fragment, ?_, ?_⟩
      · simp only [written, h.bytes, pending, List.append_assoc, List.singleton_append]
      · simp only [written, ← List.append_assoc, throughLastNewline_concat]
    | some text =>
      refine ⟨h.within.lines, ?_⟩
      simp only [Sink.bytes_write, h.bytes, pending]
      rw [List.prefix_append_right_inj]
      exact (List.take_prefix ..).trans ⟨rest.pending, by simp⟩

/-- A turn hands on a line of each stream and keeps the relay. -/
theorem Relaying.turn (h : Relaying out err d) (handler : Handler σ) : Relays out err (d.turn handler.noting) := by
  have first := h.offerNext handler
  unfold Drive.turn
  cases offered : d.offerNext handler.noting with
  | mk after failure =>
    rw [offered] at first
    cases failure with
    | some e => exact first.within
    | none => exact first.echoNext

/-- Passing on in turns ends when no complete line waits any more. -/
theorem Relaying.drain (h : Relaying out err d) (handler : Handler σ) :
    Relays out err (d.drain handler.noting) ∧
      ((d.drain handler.noting).2 = none → ¬ (d.drain handler.noting).1.hasLine = true) := by
  induction d using drain.induct handler.noting with
  | case1 d more after e turned =>
    have failed := h.turn handler
    rw [drain_of_hasLine more, turned]
    rw [turned] at failed
    exact ⟨failed, by simp⟩
  | case2 d more after turned ih =>
    have next := h.turn handler
    rw [turned] at next
    rw [drain_of_hasLine more, turned]
    exact ih next
  | case3 d none =>
    rw [drain_of_not_hasLine none]
    exact ⟨h, fun _ => none⟩

/-! ## Polls -/

theorem script_offerNext (handler : Handler σ) (d : Drive σ) : (d.offerNext handler).1.script = d.script := by
  unfold offerNext
  cases d.out.nextRaw? with
  | none => rfl
  | some taken =>
    simp only [offer]
    split <;> rfl

theorem script_echoNext (d : Drive σ) : d.echoNext.1.script = d.script := by
  unfold echoNext
  cases d.err.nextRaw? <;> rfl

/-- Handling lines makes no poll. -/
theorem script_turn (handler : Handler σ) (d : Drive σ) : (d.turn handler).1.script = d.script := by
  have first := script_offerNext handler d
  unfold turn
  cases offered : d.offerNext handler with
  | mk after failure =>
    rw [offered] at first
    cases failure with
    | some e => exact first
    | none => exact (script_echoNext after).trans first

/-- Passing lines on makes no polls. -/
theorem script_drain (handler : Handler σ) (d : Drive σ) : (d.drain handler).1.script = d.script := by
  induction d using drain.induct handler with
  | case1 d more after e turned =>
    have first := script_turn handler d
    rw [turned] at first
    rw [drain_of_hasLine more, turned]
    exact first
  | case2 d more after turned ih =>
    have first := script_turn handler d
    rw [turned] at first
    rw [drain_of_hasLine more, turned]
    exact ih.trans first
  | case3 d none => rw [drain_of_not_hasLine none]

/-- What the polls made have brought has been passed on, and no complete line waits. -/
structure Settled (out err : List UInt8) (d : Drive (σ × List String)) : Prop where
  relaying : Relaying out err d
  idle : ¬ d.hasLine = true

/-- Before the first poll nothing has been brought or relayed. -/
theorem Settled.start (script : Script) (cancelled : Bool) (caller : σ) (limit : Option Nat)
    (flushError : Option String) : Settled [] [] (.start script cancelled (caller, []) (.fresh limit flushError)) :=
  ⟨⟨rfl, rfl, rfl, rfl⟩, by simp [hasLine, Drive.start]⟩

/-- No complete line waits: all lines have been given to the caller, and all lines of diagnostics are in the sink. -/
theorem Settled.lines (h : Settled out err d) : d.caller.2 = textLines out := by
  rw [h.relaying.lines, textLines_of_notMem (newline_notMem_of_not_hasLine h.idle).1, List.append_nil]

/-- Between polls the sink holds the diagnostics up to their last newline. -/
theorem Settled.bytes (h : Settled out err d) : d.diagnostics.bytes = throughLastNewline err := by
  rw [h.relaying.bytes, throughLastNewline_append (newline_notMem_of_not_hasLine h.idle).2, h.relaying.ended]

/-- A run goes on when all that a poll has brought is passed on, and else what has been passed on is part of it. -/
def Continues (out err : List UInt8) : Drive (σ × List String) × Option RunError → Prop
  | (d, none) => Settled out err d
  | (d, some _) => Within out err d

/-- A poll's bytes are added to those brought. -/
theorem Settled.take (h : Settled out err d) (handler : Handler σ) (p : Poll) :
    (d.take handler.noting p).1.script = d.script ∧
      Continues (out ++ p.out) (err ++ p.err) (d.take handler.noting p) := by
  unfold Drive.take
  split
  · rename_i empty
    obtain ⟨out, err⟩ : p.out = [] ∧ p.err = [] := by simpa using empty
    rw [out, err, List.append_nil, List.append_nil]
    exact ⟨rfl, h⟩
  · have drained := (h.relaying.push p.out p.err).drain handler
    refine ⟨script_drain .., ?_⟩
    generalize Drive.drain _ _ = r at drained
    obtain ⟨after, failure⟩ := r
    cases failure with
    | some e => exact drained.1
    | none => exact ⟨drained.1, drained.2 rfl⟩

/-- A poll that fails brings nothing and ends the run. -/
theorem Settled.poll (h : Settled out err d) (handler : Handler σ) (p : Poll) (rest : List Poll) :
    (d.poll handler.noting p rest).1.script.polls = rest ∧
      ((d.poll handler.noting p rest).2 = none → p.failure = none) ∧
      Continues (out ++ broughtOut [p]) (err ++ broughtErr [p]) (d.poll handler.noting p rest) := by
  unfold Drive.poll
  cases fails : p.failure with
  | some text =>
    refine ⟨rfl, by simp, ?_⟩
    simp only [broughtOut, broughtErr, fails, List.filter_singleton, Option.isNone_some, cond_false, List.flatMap_nil,
      List.append_nil]
    exact ⟨h.relaying.within.lines, h.relaying.within.bytes⟩
  | none =>
    have brought : broughtOut [p] = p.out ∧ broughtErr [p] = p.err := by simp [broughtOut, broughtErr, fails]
    have same : Settled out err { d with
        script := { d.script with polls := rest }, cancelled := d.cancelled || p.cancels } :=
      ⟨⟨h.relaying.lines, h.relaying.fragment, h.relaying.bytes, h.relaying.ended⟩, h.idle⟩
    obtain ⟨script, goes⟩ := same.take handler p
    rw [brought.1, brought.2]
    exact ⟨congrArg Script.polls script, fun _ => rfl, goes⟩

/-- The end of the polls only adds to the log and passes on what is in the sink. -/
theorem finish_fst (d : Drive σ) : ∃ log, d.finish.1 = { d with log, diagnostics := d.diagnostics.flush.1 } := by
  have flushed {log : Array Event} {after : Drive σ} {failure : Option RunError}
      (h : ({ d with log } : Drive σ).flush = (after, failure)) :
      ∃ log, after = { d with log, diagnostics := d.diagnostics.flush.1 } := ⟨log, (congrArg Prod.fst h).symm⟩
  unfold finish
  split
  case isTrue cancelled =>
    split
    case h_1 h => exact flushed h
    case h_2 h => exact flushed h
  case isFalse =>
    dsimp only
    by_cases empty : d.out.pending.isEmpty = true
    · rw [if_pos empty]
      split
      case h_1 h => exact flushed h
      case h_2 h => exact flushed h
    · rw [if_neg empty]
      split
      case h_1 h => exact flushed h
      case h_2 h => exact flushed h

/-- Stopping the process only adds to the log, and the run is not complete. -/
theorem stop_eq (d : Drive σ) :
    (∃ log, d.stop.1 = { d with log, terminations := d.terminations + 1 }) ∧
      ∀ exit, d.stop.2 ≠ .ok (.completed exit) := by
  unfold stop terminate report
  cases d.script.terminateError with
  | none => exact ⟨⟨_, rfl⟩, by simp⟩
  | some text => exact ⟨⟨_, rfl⟩, by simp⟩

theorem Settled.finish (h : Settled out err d) : Settled out err d.finish.1 := by
  obtain ⟨log, same⟩ := finish_fst d
  rw [same]
  refine ⟨⟨h.relaying.lines, h.relaying.fragment, ?_, ?_⟩, h.idle⟩
  · simpa using h.relaying.bytes
  · simpa using h.relaying.ended

/-- What a run that may end anyhow has passed on of what its polls have brought. -/
theorem Settled.run (h : Settled out err d) (handler : Handler σ) {polls : List Poll}
    (left : d.script.polls = polls) :
    ∃ made, polls = made ++ (d.run handler.noting polls).1.script.polls ∧
      Within (out ++ broughtOut made) (err ++ broughtErr made) (d.run handler.noting polls).1 ∧
      ∀ exit, (d.run handler.noting polls).2 = .ok (.completed exit) →
        (d.run handler.noting polls).1.script.polls = [] ∧ (∀ p ∈ made, p.failure = none) ∧
          Settled (out ++ broughtOut made) (err ++ broughtErr made) (d.run handler.noting polls).1 := by
  induction polls generalizing d out err with
  | nil =>
    obtain ⟨log, same⟩ := finish_fst d
    have script : d.finish.1.script.polls = [] := by rw [same]; exact left
    rw [Drive.run, script]
    refine ⟨[], rfl, ?_, fun exit _ => ⟨rfl, by simp, ?_⟩⟩
    · simpa using h.finish.relaying.within
    · simpa using h.finish
  | cons p rest ih =>
    rw [Drive.run]
    split
    · obtain ⟨⟨log, same⟩, unfinished⟩ := stop_eq d
      refine ⟨[], ?_, ?_, fun exit completed => absurd completed (unfinished exit)⟩
      · rw [same]
        exact left.symm
      · rw [same, broughtOut_nil, broughtErr_nil, List.append_nil, List.append_nil]
        exact ⟨h.relaying.within.lines, h.relaying.within.bytes⟩
    · obtain ⟨script, brings, goes⟩ := h.poll handler p rest
      cases polled : d.poll handler.noting p rest with
      | mk after failure =>
        rw [polled] at script brings goes
        cases failure with
        | some e => exact ⟨[p], congrArg (p :: ·) script.symm, goes, by simp⟩
        | none =>
          obtain ⟨made, split, within, complete⟩ := ih goes script
          rw [List.append_assoc, List.append_assoc, ← broughtOut_cons, ← broughtErr_cons] at within complete
          refine ⟨p :: made, congrArg (p :: ·) split, within, fun exit completed => ?_⟩
          obtain ⟨finished, bring, settled⟩ := complete exit completed
          exact ⟨finished, List.forall_mem_cons.2 ⟨brings rfl, bring⟩, settled⟩

end Drive

/-! ## From the first poll -/

/-- Polls that do not fail bring all their output. -/
theorem broughtOut_of_forall {polls : List Poll} (bring : ∀ p ∈ polls, p.failure = none) :
    broughtOut polls = polls.flatMap Poll.out := by
  rw [broughtOut, List.filter_eq_self.2 fun p mem => by simp [bring p mem]]

theorem broughtErr_of_forall {polls : List Poll} (bring : ∀ p ∈ polls, p.failure = none) :
    broughtErr polls = polls.flatMap Poll.err := by
  rw [broughtErr, List.filter_eq_self.2 fun p mem => by simp [bring p mem]]

variable {σ : Type}

/-- What any run has passed on when it ends. -/
theorem drive_noting_run (script : Script) (cancelled : Bool) (handler : Handler σ) (caller : σ) (limit : Option Nat)
    (flushError : Option String) :
    let noted := drive script cancelled handler.noting (caller, []) (.fresh limit flushError)
    ∃ made, script.polls = made ++ noted.1.script.polls ∧
      Drive.Within (broughtOut made) (broughtErr made) noted.1 ∧
      ∀ exit, noted.2 = .ok (.completed exit) →
        noted.1.script.polls = [] ∧ (∀ p ∈ made, p.failure = none) ∧
          Drive.Settled (broughtOut made) (broughtErr made) noted.1 :=
  (Drive.Settled.start script cancelled caller limit flushError).run handler rfl

/-- A run that completes has passed on all complete lines of both streams. -/
theorem drive_noting_completed {script : Script} {cancelled : Bool} {handler : Handler σ} {caller : σ}
    {limit : Option Nat} {flushError : Option String} {exit : Option ExitStatus}
    (completed : (drive script cancelled handler.noting (caller, []) (.fresh limit flushError)).2 =
      .ok (.completed exit)) :
    let noted := drive script cancelled handler.noting (caller, []) (.fresh limit flushError)
    noted.1.caller.2 = textLines (script.polls.flatMap Poll.out) ∧
      noted.1.diagnostics.bytes = throughLastNewline (script.polls.flatMap Poll.err) := by
  obtain ⟨made, split, -, complete⟩ := drive_noting_run script cancelled handler caller limit flushError
  obtain ⟨finished, bring, settled⟩ := complete exit completed
  obtain rfl : script.polls = made := by rw [split, finished, List.append_nil]
  rw [← broughtOut_of_forall bring, ← broughtErr_of_forall bring]
  exact ⟨settled.lines, settled.bytes⟩

/-- **A run loses, repeats and moves nothing.** Whatever the process does, whenever cancellation is requested, whatever
the caller makes of its lines and wherever the sink is full: when the run ends in any way, the lines given to the caller
are, in order, the first complete lines of the output that the polls made have brought, and the bytes in the sink are the
first bytes of the diagnostics that they have brought. A run that completes has given all complete lines to the
caller, and the sink holds the diagnostics through their last newline. So two such runs with the same bytes give the
same lines and the same diagnostics, however the bytes are cut into polls. -/
theorem drive_relays (script : Script) (cancelled : Bool) (handler : Handler σ) (caller : σ) (limit : Option Nat)
    (flushError : Option String) :
    let noted := drive script cancelled handler.noting (caller, []) (.fresh limit flushError)
    drive script cancelled handler caller (.fresh limit flushError) = (noted.1.forget, noted.2) ∧
    (∃ made, script.polls = made ++ noted.1.script.polls ∧
      noted.1.caller.2 <+: textLines (broughtOut made) ∧
      noted.1.diagnostics.bytes <+: broughtErr made) ∧
    ∀ exit, noted.2 = .ok (.completed exit) →
      noted.1.caller.2 = textLines (script.polls.flatMap Poll.out) ∧
      noted.1.diagnostics.bytes = throughLastNewline (script.polls.flatMap Poll.err) ∧
      ∀ (τ : Type) (other : Script) (cancelled' : Bool) (handler' : Handler τ) (caller' : τ) (limit' : Option Nat)
          (flushError' : Option String) (exit' : Option ExitStatus),
        other.polls.flatMap Poll.out = script.polls.flatMap Poll.out →
        other.polls.flatMap Poll.err = script.polls.flatMap Poll.err →
        let noted' := drive other cancelled' handler'.noting (caller', []) (.fresh limit' flushError')
        noted'.2 = .ok (.completed exit') →
        noted'.1.caller.2 = noted.1.caller.2 ∧ noted'.1.diagnostics.bytes = noted.1.diagnostics.bytes := by
  intro noted
  obtain ⟨made, split, within, -⟩ := drive_noting_run script cancelled handler caller limit flushError
  refine ⟨drive_noting script cancelled handler caller _, ⟨made, split, within.lines, within.bytes⟩, ?_⟩
  intro exit completed
  obtain ⟨lines, bytes⟩ := drive_noting_completed completed
  refine ⟨lines, bytes, ?_⟩
  intro τ other cancelled' handler' caller' limit' flushError' exit' sameOut sameErr noted' completed'
  obtain ⟨lines', bytes'⟩ := drive_noting_completed completed'
  rw [sameOut] at lines'
  rw [sameErr] at bytes'
  exact ⟨lines'.trans lines.symm, bytes'.trans bytes.symm⟩

end CompileDb.Run
