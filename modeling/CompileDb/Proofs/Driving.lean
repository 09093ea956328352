import CompileDb.Proofs.Framing
import CompileDb.Run.Drive

/-!
# What a driven process says to its caller

A caller that does not cancel and a sink that takes everything leave two ends to a run: the caller fails at a line, or
the polls come to an end. `drive_of_quiet` says which lines the caller has got then: the complete lines of all bytes that
the polls have brought, up to the first at which it fails, however the bytes were cut.
-/

namespace CompileDb.Run

/-- The complete lines of a stream as texts. -/
def textLines (bytes : List UInt8) : List String :=
  (completeLines bytes).map Text.decodeLossy

theorem textLines_of_notMem {bytes : List UInt8} (h : newline ∉ bytes) : textLines bytes = [] := by
  simp [textLines, completeLines_of_notMem h]

/-- Bytes that arrive later complete the line the earlier ones began. -/
theorem textLines_append (a b : List UInt8) : textLines (a ++ b) = textLines a ++ textLines (fragment a ++ b) := by
  simp [textLines, completeLines_append a b]

/-- The lines of a buffer are the next one and those of the buffer behind it. -/
theorem LineBuffer.textLines_of_nextRaw? {b after : LineBuffer} {line : List UInt8}
    (h : b.nextRaw? = some (line, after)) :
    textLines b.pending = Text.decodeLossy line :: textLines after.pending := by
  simp [textLines, completeLines_of_nextRaw? h]

/-- Taking a line leaves the unfinished one as it is. -/
theorem LineBuffer.fragment_afterLine (b : LineBuffer) : fragment b.afterLine.pending = fragment b.pending := by
  unfold LineBuffer.afterLine
  cases h : b.nextRaw? with
  | none => rfl
  | some taken => exact (fragment_of_nextRaw? h).symm

/-! ## Sinks that take everything -/

/-- A sink that takes every byte and whose flush does not fail. -/
structure Sink.Willing (s : Sink) : Prop where
  unlimited : s.limit = none
  flushes : s.flushError = none

theorem Sink.Willing.fresh : (Sink.fresh none none).Willing := ⟨rfl, rfl⟩

/-- A sink that never fails takes every line and stays so. -/
theorem Sink.Willing.writeLine {s : Sink} (h : s.Willing) (line : List UInt8) :
    (s.writeLine line).1.Willing ∧ (s.writeLine line).2 = none := by
  refine ⟨⟨h.unlimited, h.flushes⟩, ?_⟩
  simp [Sink.writeLine, Sink.write, Sink.room, h.unlimited]

theorem Sink.Willing.flush {s : Sink} (h : s.Willing) : s.flush.2 = none := by
  simp [Sink.flush, h.flushes]

/-! ## Callers -/

variable {σ : Type}

/-- A caller that never asks for cancellation. -/
def Handler.Calm (handler : Handler σ) : Prop :=
  ∀ s line, (handler s line).cancels = false

/-- Gives lines to the caller in order, up to the first at which it fails. -/
def Handler.handle (handler : Handler σ) (s : σ) : List String → σ × Option RunError
  | [] => (s, none)
  | line :: rest =>
    match (handler s line).error with
    | some e => ((handler s line).state, some e)
    | none => handler.handle (handler s line).state rest

/-- Lines handled in two stretches are handled in one, up to the first error. -/
theorem Handler.handle_append (handler : Handler σ) (s : σ) (a b : List String) :
    handler.handle s (a ++ b) =
      match handler.handle s a with
      | (after, some e) => (after, some e)
      | (after, none) => handler.handle after b := by
  induction a generalizing s with
  | nil => rfl
  | cons line rest ih =>
    rw [List.cons_append, handle, handle]
    cases (handler s line).error with
    | none => exact ih _
    | some e => rfl

namespace Drive

variable {handler : Handler σ} {d after : Drive σ}

theorem newline_notMem_of_not_hasLine (lineless : ¬ d.hasLine = true) :
    newline ∉ d.out.pending ∧ newline ∉ d.err.pending := by
  simpa [hasLine, LineBuffer.hasLine_iff] using lineless

/-- Passing lines on has left alone what decides about the end of the run. -/
structure Steady (d after : Drive σ) : Prop where
  script : after.script = d.script
  cancelled : after.cancelled = d.cancelled
  willing : after.diagnostics.Willing

theorem Steady.refl (h : d.diagnostics.Willing) : d.Steady d := ⟨rfl, rfl, h⟩

theorem Steady.trans {last : Drive σ} (h : d.Steady after) (h' : after.Steady last) : d.Steady last :=
  ⟨h'.script.trans h.script, h'.cancelled.trans h.cancelled, h'.willing⟩

/-- The caller has got the complete lines that were pending, up to the first at which it failed. -/
structure Drained (handler : Handler σ) (d : Drive σ) (r : Drive σ × Option RunError) : Prop where
  handled : handler.handle d.caller (textLines d.out.pending) = (r.1.caller, r.2)
  left : r.2 = none → r.1.out.pending = fragment d.out.pending
  steady : d.Steady r.1

/-- A caller that does not cancel leaves the rest of the run alone. -/
theorem steady_offerNext (calm : handler.Calm) (willing : d.diagnostics.Willing) :
    d.Steady (d.offerNext handler).1 := by
  unfold offerNext
  cases h : d.out.nextRaw? with
  | none => exact .refl willing
  | some taken =>
    unfold offer
    dsimp only
    split
    · exact ⟨rfl, by simp [calm _ _], willing⟩
    · exact ⟨rfl, by simp [calm _ _, terminate], willing⟩

/-- Echoing to a sink that never fails cannot fail, and the caller does not notice. -/
theorem echoNext_of_willing (willing : d.diagnostics.Willing) :
    d.echoNext.2 = none ∧ d.echoNext.1.caller = d.caller ∧ d.Steady d.echoNext.1 := by
  unfold echoNext
  cases h : d.err.nextRaw? with
  | none => exact ⟨rfl, rfl, .refl willing⟩
  | some taken =>
    obtain ⟨kept, taken⟩ := willing.writeLine taken.1
    exact ⟨by simp [echo, taken], rfl, rfl, rfl, kept⟩

/-- The next line is the one to begin with. -/
theorem handle_offerNext (handler : Handler σ) (d : Drive σ) :
    handler.handle d.caller (textLines d.out.pending) =
      match d.offerNext handler with
      | (after, some e) => (after.caller, some e)
      | (after, none) => handler.handle after.caller (textLines after.out.pending) := by
  unfold offerNext
  cases h : d.out.nextRaw? with
  | none => rfl
  | some taken =>
    rw [LineBuffer.textLines_of_nextRaw? h, Handler.handle]
    simp only [offer]
    cases (handler d.caller (Text.decodeLossy taken.1)).error with
    | none => rfl
    | some e => rfl

theorem steady_turn (calm : handler.Calm) (willing : d.diagnostics.Willing) : d.Steady (d.turn handler).1 := by
  have first := steady_offerNext calm willing
  unfold turn
  split
  · rename_i middle e offered
    rwa [offered] at first
  · rename_i middle offered
    rw [offered] at first
    exact first.trans (echoNext_of_willing first.willing).2.2

/-- A turn that fails has failed at the caller's first line. -/
theorem handle_of_turn_error (calm : handler.Calm) (willing : d.diagnostics.Willing) {e : RunError}
    (turned : d.turn handler = (after, some e)) :
    handler.handle d.caller (textLines d.out.pending) = (after.caller, some e) := by
  have first := steady_offerNext calm willing
  rw [handle_offerNext]
  unfold turn at turned
  cases offered : d.offerNext handler with
  | mk middle failure =>
    rw [offered] at turned first
    cases failure with
    | some e' => cases turned; rfl
    | none =>
      have fine := (echoNext_of_willing first.willing).1
      simp only at turned fine
      rw [turned] at fine
      cases fine

/-- A turn that does not fail leaves the rest of the lines to the caller. -/
theorem handle_of_turn (calm : handler.Calm) (willing : d.diagnostics.Willing)
    (turned : d.turn handler = (after, none)) :
    handler.handle d.caller (textLines d.out.pending) =
      handler.handle after.caller (textLines after.out.pending) := by
  have first := steady_offerNext calm willing
  rw [handle_offerNext]
  unfold turn at turned
  cases offered : d.offerNext handler with
  | mk middle failure =>
    rw [offered] at turned first
    cases failure with
    | some e => cases turned
    | none =>
      have caller := (echoNext_of_willing first.willing).2.1
      have out := out_echoNext middle
      simp only at turned caller
      rw [turned] at caller out
      rw [caller, out]

/-- Passing on in turns gives the caller its lines one after the other. -/
theorem drained_drain (calm : handler.Calm) (willing : d.diagnostics.Willing) :
    Drained handler d (d.drain handler) := by
  induction d using drain.induct handler with
  | case1 d more middle e turned =>
    have steady := steady_turn calm willing
    rw [turned] at steady
    rw [drain_of_hasLine more, turned]
    exact ⟨handle_of_turn_error calm willing turned, nofun, steady⟩
  | case2 d more middle turned ih =>
    have steady := steady_turn calm willing
    rw [turned] at steady
    obtain ⟨handled, left, last⟩ := ih steady.willing
    rw [drain_of_hasLine more, turned]
    refine ⟨(handle_of_turn calm willing turned).trans handled, fun fine => ?_, steady.trans last⟩
    rw [left fine, (buffers_turn turned).1, LineBuffer.fragment_afterLine]
  | case3 d none =>
    rw [drain_of_not_hasLine none]
    have free := (newline_notMem_of_not_hasLine none).1
    exact ⟨by rw [textLines_of_notMem free]; rfl, fun _ => (fragment_of_notMem free).symm, .refl willing⟩

/-! ## Polls -/

/-- A poll has brought the caller the lines that it completed. -/
structure Polled (handler : Handler σ) (d : Drive σ) (p : Poll) (r : Drive σ × Option RunError) : Prop where
  handled : handler.handle d.caller (textLines (d.out.pending ++ p.out)) = (r.1.caller, r.2)
  left : r.2 = none → r.1.out.pending = fragment (d.out.pending ++ p.out)
  exit : r.1.script.exit = d.script.exit
  cancelled : r.1.cancelled = (d.cancelled || p.cancels)
  willing : r.1.diagnostics.Willing

/-- A poll hands on exactly the lines it completes. -/
theorem polled_poll (calm : handler.Calm) (willing : d.diagnostics.Willing) (free : newline ∉ d.out.pending)
    {p : Poll} (brings : p.failure = none) (rest : List Poll) : Polled handler d p (d.poll handler p rest) := by
  simp only [poll, brings, take]
  split
  · rename_i empty
    obtain ⟨out, -⟩ : p.out = [] ∧ p.err = [] := by simpa using empty
    rw [← List.append_nil d.out.pending, ← out] at free
    refine ⟨by rw [textLines_of_notMem free]; rfl, fun _ => ?_, rfl, rfl, willing⟩
    rw [fragment_of_notMem free, out, List.append_nil]
  · obtain ⟨handled, left, steady⟩ := drained_drain (d := { d with
      script := { d.script with polls := rest }, cancelled := d.cancelled || p.cancels,
      out := d.out.push p.out, err := d.err.push p.err }) calm willing
    simp only [LineBuffer.pending_push] at handled left
    exact ⟨handled, left, by rw [steady.script], steady.cancelled, steady.willing⟩

theorem flush_of_willing (willing : d.diagnostics.Willing) :
    d.flush = ({ d with diagnostics := d.diagnostics.flush.1 }, none) := by
  simp [flush, willing.flush]

/-- The end of the polls passes nothing on, and a sink that takes everything does not disturb it. -/
theorem finish_of_willing (willing : d.diagnostics.Willing) :
    d.finish.1.caller = d.caller ∧
      d.finish.2 = .ok (if d.cancelled then .interrupted else .completed d.script.exit) := by
  have flushes (e : Event) := flush_of_willing (d := d.report e) willing
  unfold finish
  cases cancelled : d.cancelled with
  | true =>
    simp only [if_true, flushes]
    exact ⟨rfl, trivial⟩
  | false =>
    simp only [Bool.false_eq_true, if_false]
    by_cases empty : d.out.pending.isEmpty = true
    · rw [if_pos empty, flush_of_willing willing]
      exact ⟨rfl, rfl⟩
    · rw [if_neg empty, flushes]
      exact ⟨rfl, rfl⟩

/-- Without cancellation and failing polls, only the caller decides how a run ends. -/
theorem run_of_quiet (calm : handler.Calm) (willing : d.diagnostics.Willing) (free : newline ∉ d.out.pending)
    (running : d.cancelled = false) {polls : List Poll}
    (quiet : ∀ p ∈ polls, p.cancels = false ∧ p.failure = none) :
    (d.run handler polls).1.caller =
        (handler.handle d.caller (textLines (d.out.pending ++ polls.flatMap Poll.out))).1 ∧
      (d.run handler polls).2 =
        match (handler.handle d.caller (textLines (d.out.pending ++ polls.flatMap Poll.out))).2 with
        | some e => .error e
        | none => .ok (.completed d.script.exit) := by
  induction polls generalizing d with
  | nil =>
    have finish := finish_of_willing willing
    rw [running] at finish
    simp only [run, List.flatMap_nil, List.append_nil, textLines_of_notMem free, Handler.handle]
    exact finish
  | cons p rest ih =>
    obtain ⟨cancels, brings⟩ := quiet p List.mem_cons_self
    have polled := polled_poll calm willing free brings rest
    rw [run, if_neg (by simp [running]), List.flatMap_cons, ← List.append_assoc, textLines_append,
      Handler.handle_append, polled.handled]
    split
    · rename_i middle e polling
      rw [polling]
      exact ⟨rfl, rfl⟩
    · rename_i middle polling
      rw [polling] at polled ⊢
      have left := polled.left rfl
      have free' : newline ∉ middle.out.pending := left ▸ newline_notMem_fragment _
      have last := ih polled.willing free' (polled.cancelled.trans (by simp [cancels, running]))
        fun q mem => quiet q (List.mem_cons_of_mem _ mem)
      rw [left, polled.exit] at last
      exact last

end Drive

/-! ## From the first poll -/

variable {handler : Handler σ} {script : Script} {caller : σ} {diagnostics : Sink}

/-- Without cancellation or failure the run is the handling of all the lines. -/
theorem drive_of_quiet (calm : handler.Calm) (willing : diagnostics.Willing)
    (quiet : ∀ p ∈ script.polls, p.cancels = false ∧ p.failure = none) :
    (drive script false handler caller diagnostics).1.caller =
        (handler.handle caller (textLines (script.polls.flatMap Poll.out))).1 ∧
      (drive script false handler caller diagnostics).2 =
        match (handler.handle caller (textLines (script.polls.flatMap Poll.out))).2 with
        | some e => .error e
        | none => .ok (.completed script.exit) :=
  Drive.run_of_quiet (d := .start script false caller diagnostics) calm willing List.not_mem_nil rfl quiet

end CompileDb.Run
