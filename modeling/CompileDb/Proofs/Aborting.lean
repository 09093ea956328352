import CompileDb.Proofs.Interrupting

/-!
# Runs that are given up at a line

When the caller fails at a line, the process is stopped at once, in the middle of the turns in which lines of both
streams are passed on. `Ends` lists all ways in which the turns after a poll can end, with the number of lines of each
stream that have been passed on by then. From it `drive_aborts` tells where a run stands when it is given up, and that
nothing else but a cancellation stops a process.
-/

namespace CompileDb.Run

/-- Lines as they are written, each with its newline. -/
def written (lines : List (List UInt8)) : List UInt8 :=
  lines.flatMap (· ++ [newline])

theorem written_append (a b : List (List UInt8)) : written (a ++ b) = written a ++ written b :=
  List.flatMap_append

/-- More lines take at least as many bytes. -/
theorem length_written_take_le (lines : List (List UInt8)) {m n : Nat} (le : m ≤ n) :
    (written (lines.take m)).length ≤ (written (lines.take n)).length := by
  obtain ⟨k, rfl⟩ := Nat.exists_eq_add_of_le le
  rw [List.take_add, written_append, List.length_append]
  exact Nat.le_add_right _ _

/-- The complete lines of a stream are written as the stream through its last newline. -/
theorem written_completeLines (bytes : List UInt8) : written (completeLines bytes) = throughLastNewline bytes := by
  have whole : written (completeLines bytes) ++ fragment bytes = bytes := flatMap_completeLines_append_fragment bytes
  have ended : throughLastNewline (written (completeLines bytes)) = written (completeLines bytes) := by
    rcases List.eq_nil_or_concat (completeLines bytes) with lineless | ⟨front, last, split⟩
    · rw [lineless]
      rfl
    · rw [split, List.concat_eq_append, written_append]
      simp only [written, List.flatMap_cons, List.flatMap_nil, List.append_nil, ← List.append_assoc]
      exact throughLastNewline_concat _
  rw [← ended, ← throughLastNewline_append (newline_notMem_fragment bytes), whole]

/-! ## Sinks with room -/

/-- There is room for so many further bytes. -/
def Sink.Fits (s : Sink) (n : Nat) : Prop :=
  ∀ limit ∈ s.limit, s.bytes.length + n ≤ limit

theorem Sink.Fits.mono {s : Sink} {m n : Nat} (fits : s.Fits n) (le : m ≤ n) : s.Fits m :=
  fun limit mem => (Nat.add_le_add_left le _).trans (fits limit mem)

/-- A sink with room takes the whole write. -/
theorem Sink.write_of_fits {s : Sink} {bytes : List UInt8} (fits : s.Fits bytes.length) : (s.write bytes).2 = none := by
  have room : bytes.length ≤ s.room bytes.length := by
    unfold room
    split
    case h_1 => exact Nat.le_refl _
    case h_2 limit limited =>
      have enough := fits limit limited
      rw [Sink.bytes, Array.length_toList] at enough
      omega
  simp [write, room]

/-! ## Lines passed on -/

variable {σ : Type}

/-- A caller that does not fail at some of the first lines has been given no more than those before the first at which it
fails. -/
theorem Handler.length_le_of_handle {handler : Handler σ} {s t t' : σ} {front back : List String} {line : String}
    {e : RunError} (fine : handler.handle s front = (t, none)) (fails : (handler t line).error = some e) {n : Nat}
    (handled : handler.handle s ((front ++ line :: back).take n) = (t', none)) : n ≤ front.length := by
  by_contra more
  obtain ⟨k, rfl⟩ := Nat.exists_eq_add_of_lt (Nat.lt_of_not_le more)
  rw [Nat.add_assoc, List.take_length_add_append, List.take_succ_cons, Handler.handle_append, fine] at handled
  simp [Handler.handle, fails] at handled

/-- A caller that notes its lines fails where it would without, and until then it has noted all of them. -/
theorem Handler.handle_noting_iff {handler : Handler σ} {s t : σ} {lines given notes : List String} :
    handler.noting.handle (s, given) lines = ((t, notes), none) ↔
      handler.handle s lines = (t, none) ∧ notes = given ++ lines := by
  induction lines generalizing s given with
  | nil => simp [handle, eq_comm]
  | cons line lines ih =>
    rw [handle, handle]
    cases fails : (handler s line).error with
    | some e => simp [noting, fails]
    | none =>
      simp only [noting, fails]
      rw [ih, List.append_assoc, List.singleton_append]

/-- A caller that does not fail at some lines does not fail at the first of them. -/
theorem Handler.handle_of_append {handler : Handler σ} {s : σ} {a b : List String}
    (handled : (handler.handle s (a ++ b)).2 = none) : (handler.handle s a).2 = none := by
  rw [handle_append] at handled
  cases first : handler.handle s a with
  | mk t failure =>
    rw [first] at handled
    cases failure with
    | some e => cases handled
    | none => rfl

namespace Drive

variable {handler : Handler σ} {d middle after : Drive σ}

/-- So many lines of output have been given to the caller, and so many lines of diagnostics have been written. Neither
has failed. -/
structure Passed (handler : Handler σ) (d : Drive σ) (n m : Nat) (after : Drive σ) : Prop where
  script : after.script = d.script
  terminations : after.terminations = d.terminations
  limit : after.diagnostics.limit = d.diagnostics.limit
  handled : handler.handle d.caller ((textLines d.out.pending).take n) = (after.caller, none)
  out : textLines after.out.pending = (textLines d.out.pending).drop n
  bytes : after.diagnostics.bytes = d.diagnostics.bytes ++ written ((completeLines d.err.pending).take m)
  err : completeLines after.err.pending = (completeLines d.err.pending).drop m

namespace Passed

theorem refl (handler : Handler σ) (d : Drive σ) : Passed handler d 0 0 d :=
  ⟨rfl, rfl, rfl, rfl, rfl, by simp [written], rfl⟩

/-- Lines passed in two stretches are passed in one. -/
theorem trans {n m n' m' : Nat} (h : Passed handler d n m middle) (h' : Passed handler middle n' m' after) :
    Passed handler d (n + n') (m + m') after where
  script := h'.script.trans h.script
  terminations := h'.terminations.trans h.terminations
  limit := h'.limit.trans h.limit
  handled := by
    rw [List.take_add, Handler.handle_append, h.handled, ← h.out]
    exact h'.handled
  out := by rw [h'.out, h.out, List.drop_drop]
  bytes := by rw [h'.bytes, h.bytes, h.err, List.take_add, written_append, List.append_assoc]
  err := by rw [h'.err, h.err, List.drop_drop]

/-- The sink has room for further lines if it has had room for all of them together. -/
theorem fits {n m k : Nat} (h : Passed handler d n m middle)
    (fits : d.diagnostics.Fits (written ((completeLines d.err.pending).take (m + k))).length) :
    middle.diagnostics.Fits (written ((completeLines middle.err.pending).take k)).length := by
  intro limit limited
  have room := fits limit (h.limit ▸ limited)
  rw [List.take_add, written_append, List.length_append] at room
  rw [h.err, h.bytes, List.length_append]
  omega

end Passed

/-- The caller has failed at its next line, and the process has been stopped. -/
structure Aborted (handler : Handler σ) (d : Drive σ) (line : String) (e : RunError) (after : Drive σ) : Prop where
  next : (textLines d.out.pending).head? = some line
  fails : (handler d.caller line).error = some e
  caller : after.caller = (handler d.caller line).state
  script : after.script = d.script
  terminations : after.terminations = d.terminations + 1
  diagnostics : after.diagnostics = d.diagnostics

theorem passed_offerNext (offered : d.offerNext handler = (after, none)) : Passed handler d 1 0 after := by
  unfold offerNext at offered
  cases next : d.out.nextRaw? with
  | none =>
    rw [next] at offered
    cases offered
    have lineless : textLines d.out.pending = [] := textLines_of_notMem (LineBuffer.nextRaw?_eq_none_iff.1 next)
    exact ⟨rfl, rfl, rfl, by rw [lineless]; rfl, by rw [lineless]; rfl, by simp [written], rfl⟩
  | some taken =>
    simp only [next, offer] at offered
    cases fails : (handler d.caller (Text.decodeLossy taken.1)).error with
    | some e => simp [fails] at offered
    | none =>
      rw [fails] at offered
      cases offered
      have lines := LineBuffer.textLines_of_nextRaw? next
      refine ⟨rfl, rfl, rfl, ?_, by rw [lines]; rfl, by simp [written], rfl⟩
      rw [lines, List.take_succ_cons, List.take_zero, Handler.handle, fails]
      rfl

/-- An error while a line is offered is the caller's own, at that line. -/
theorem aborted_offerNext {e : RunError} (offered : d.offerNext handler = (after, some e)) :
    ∃ line, Aborted handler d line e after := by
  unfold offerNext at offered
  cases next : d.out.nextRaw? with
  | none =>
    rw [next] at offered
    cases offered
  | some taken =>
    simp only [next, offer] at offered
    cases fails : (handler d.caller (Text.decodeLossy taken.1)).error with
    | none => simp [fails] at offered
    | some e' =>
      rw [fails] at offered
      cases offered
      exact ⟨_, by rw [LineBuffer.textLines_of_nextRaw? next]; rfl, fails, rfl, rfl, rfl, rfl⟩

theorem passed_echoNext (handler : Handler σ) (echoed : d.echoNext = (after, none)) : Passed handler d 0 1 after := by
  unfold echoNext at echoed
  cases next : d.err.nextRaw? with
  | none =>
    rw [next] at echoed
    cases echoed
    have lineless : completeLines d.err.pending = [] := completeLines_of_notMem (LineBuffer.nextRaw?_eq_none_iff.1 next)
    exact ⟨rfl, rfl, rfl, rfl, rfl, by simp [lineless, written], by rw [lineless]; rfl⟩
  | some taken =>
    simp only [next, echo, Sink.writeLine, Prod.mk.injEq, Option.map_eq_none_iff] at echoed
    obtain ⟨rfl, fine⟩ := echoed
    have lines := LineBuffer.completeLines_of_nextRaw? next
    refine ⟨rfl, rfl, rfl, rfl, rfl, ?_, by rw [lines]; rfl⟩
    rw [lines, Sink.bytes_of_write fine]
    simp [written]

/-- Only a sink without room for its next line stops the turns. -/
theorem full_echoNext {e : RunError} (echoed : d.echoNext = (after, some e)) :
    after.caller = d.caller ∧ after.script = d.script ∧ after.terminations = d.terminations ∧
      ¬ d.diagnostics.Fits (written ((completeLines d.err.pending).take 1)).length := by
  unfold echoNext at echoed
  cases next : d.err.nextRaw? with
  | none =>
    rw [next] at echoed
    cases echoed
  | some taken =>
    simp only [next, echo, Sink.writeLine, Prod.mk.injEq] at echoed
    obtain ⟨rfl, failed⟩ := echoed
    refine ⟨rfl, rfl, rfl, fun fits => ?_⟩
    have line : written ((completeLines d.err.pending).take 1) = taken.1 ++ [newline] := by
      rw [LineBuffer.completeLines_of_nextRaw? next]
      simp [written]
    rw [line] at fits
    rw [Sink.write_of_fits fits] at failed
    cases failed

/-! ## The turns after a poll -/

/-- How the turns can end after so many of them: no complete line waits any more, the caller fails at its next line, or the
sink is full at its next line, behind one more line of output. -/
inductive Ends (handler : Handler σ) (d : Drive σ) : Drive σ × Option RunError → Prop where
  | idle {n : Nat} {after : Drive σ} : Passed handler d n n after → ¬ after.hasLine = true → Ends handler d (after, none)
  | aborted {n : Nat} {middle after : Drive σ} {line : String} {e : RunError} : Passed handler d n n middle →
      Aborted handler middle line e after → Ends handler d (after, some e)
  | full {n : Nat} {middle after : Drive σ} {e : RunError} : Passed handler d (n + 1) n middle →
      after.caller = middle.caller → after.script = middle.script → after.terminations = middle.terminations →
      ¬ middle.diagnostics.Fits (written ((completeLines middle.err.pending).take 1)).length → Ends handler d (after, some e)

/-- Behind turns that have not failed. -/
theorem Ends.behind {n : Nat} (h : Passed handler d n n middle) {r : Drive σ × Option RunError}
    (ends : Ends handler middle r) : Ends handler d r := by
  cases ends with
  | idle passed done => exact .idle (h.trans passed) done
  | aborted passed aborted => exact .aborted (h.trans passed) aborted
  | full passed caller script terminations full => exact .full (h.trans passed) caller script terminations full

theorem passed_turn (turned : d.turn handler = (after, none)) : Passed handler d 1 1 after := by
  unfold turn at turned
  cases offered : d.offerNext handler with
  | mk middle failure =>
    rw [offered] at turned
    cases failure with
    | some e => cases turned
    | none => exact (passed_offerNext offered).trans (passed_echoNext handler turned)

/-- A turn that fails ends the run at the line it was about. -/
theorem ends_turn {e : RunError} (turned : d.turn handler = (after, some e)) : Ends handler d (after, some e) := by
  unfold turn at turned
  cases offered : d.offerNext handler with
  | mk middle failure =>
    rw [offered] at turned
    cases failure with
    | some e' =>
      cases turned
      obtain ⟨line, aborted⟩ := aborted_offerNext offered
      exact .aborted (.refl handler d) aborted
    | none =>
      obtain ⟨caller, script, terminations, full⟩ := full_echoNext turned
      exact .full (passed_offerNext offered) caller script terminations full

/-- The loop over the complete lines either passes them all or ends at one of them. -/
theorem ends_drain (handler : Handler σ) (d : Drive σ) : Ends handler d (d.drain handler) := by
  induction d using drain.induct handler with
  | case1 d more after e turned =>
    rw [drain_of_hasLine more, turned]
    exact ends_turn turned
  | case2 d more after turned ih =>
    rw [drain_of_hasLine more, turned]
    exact ih.behind (passed_turn turned)
  | case3 d none =>
    rw [drain_of_not_hasLine none]
    exact .idle (.refl handler d) none

/-- The line at which the caller fails is behind all lines that it has been given. -/
theorem Passed.lines_of_aborted {n m : Nat} (passed : Passed handler d n m middle) {line : String} {e : RunError}
    (aborted : Aborted handler middle line e after) :
    ((textLines d.out.pending).take n).length = n ∧
      ∃ back, textLines d.out.pending = (textLines d.out.pending).take n ++ line :: back := by
  have next := aborted.next
  rw [passed.out] at next
  obtain ⟨back, rest⟩ := List.head?_eq_some_iff.1 next
  have lt : n < (textLines d.out.pending).length := by
    by_contra le
    rw [List.drop_eq_nil_of_le (Nat.le_of_not_lt le)] at rest
    cases rest
  exact ⟨List.length_take_of_le lt.le, back, by rw [← rest, List.take_append_drop]⟩

/-- Turns in which neither the caller nor the sink can fail do not fail. -/
theorem Ends.passed_of_handled {r : Drive σ × Option RunError} (ends : Ends handler d r)
    (handled : (handler.handle d.caller (textLines d.out.pending)).2 = none)
    (fits : d.diagnostics.Fits (written (completeLines d.err.pending)).length) :
    ∃ n after, r = (after, none) ∧ Passed handler d n n after := by
  cases ends with
  | @idle n after passed => exact ⟨n, after, rfl, passed⟩
  | aborted passed aborted =>
    obtain ⟨-, back, lines⟩ := passed.lines_of_aborted aborted
    rw [lines, Handler.handle_append, passed.handled] at handled
    simp [Handler.handle, aborted.fails] at handled
  | @full n _ _ _ passed _ _ _ full =>
    refine absurd (passed.fits (fits.mono ?_)) full
    have all := length_written_take_le (completeLines d.err.pending)
      (Nat.le_max_left (n + 1) (completeLines d.err.pending).length)
    rwa [List.take_of_length_le (Nat.le_max_right _ _)] at all

/-- Where the caller fails at a line, the turns end there: the lines before it have been given to the caller, and as many
lines of diagnostics, as far as there were so many, have been written. -/
theorem Ends.aborted_of_fails {r : Drive σ × Option RunError} (ends : Ends handler d r) {front back : List String}
    {line : String} {s : σ} {e : RunError} (lines : textLines d.out.pending = front ++ line :: back)
    (fine : handler.handle d.caller front = (s, none)) (fails : (handler s line).error = some e)
    (fits : d.diagnostics.Fits (written ((completeLines d.err.pending).take front.length)).length) :
    ∃ middle after, r = (after, some e) ∧ Passed handler d front.length front.length middle ∧ middle.caller = s ∧
      Aborted handler middle line e after := by
  cases ends with
  | @idle n after passed done =>
    have all := passed.out.symm.trans (textLines_of_notMem (newline_notMem_of_not_hasLine done).1)
    have le := Handler.length_le_of_handle fine fails (lines ▸ passed.handled)
    rw [lines, List.drop_eq_nil_iff, List.length_append, List.length_cons] at all
    omega
  | @full n middle after e' passed _ _ _ full =>
    have le := Handler.length_le_of_handle fine fails (lines ▸ passed.handled)
    exact absurd (passed.fits (fits.mono (length_written_take_le _ le))) full
  | @aborted n middle after line' e' passed aborted =>
    obtain ⟨length, back', lines'⟩ := passed.lines_of_aborted aborted
    have handled := passed.handled
    rw [lines] at length lines' handled
    -- Either of the two lines is the first at which the caller fails, so they are the same.
    have le := Handler.length_le_of_handle fine fails handled
    have prefixed : (front ++ line :: back).take front.length = front := List.take_left
    have given : handler.handle d.caller (((front ++ line :: back).take n ++ line' :: back').take front.length) =
        (s, none) := by
      rw [← lines', prefixed]
      exact fine
    have ge := Handler.length_le_of_handle handled aborted.fails given
    obtain rfl : n = front.length := Nat.le_antisymm le (ge.trans_eq length)
    rw [prefixed] at lines' handled
    obtain ⟨rfl, -⟩ := List.cons.inj (List.append_cancel_left lines')
    obtain rfl : s = middle.caller := congrArg Prod.fst (fine.symm.trans handled)
    obtain rfl : e = e' := Option.some.inj (fails.symm.trans aborted.fails)
    exact ⟨middle, after, rfl, passed, rfl, aborted⟩

/-- A poll has brought its bytes. -/
def brought (d : Drive σ) (p : Poll) (rest : List Poll) : Drive σ :=
  { d with
    script := { d.script with polls := rest }, cancelled := d.cancelled || p.cancels,
    out := d.out.push p.out, err := d.err.push p.err }

@[simp] theorem out_brought (d : Drive σ) (p : Poll) (rest : List Poll) :
    (d.brought p rest).out.pending = d.out.pending ++ p.out :=
  LineBuffer.pending_push ..

@[simp] theorem err_brought (d : Drive σ) (p : Poll) (rest : List Poll) :
    (d.brought p rest).err.pending = d.err.pending ++ p.err :=
  LineBuffer.pending_push ..

/-- A poll that brings nothing is as good as one whose turns have come to an end. -/
theorem ends_poll (handler : Handler σ) (idle : ¬ d.hasLine = true) {p : Poll} (brings : p.failure = none)
    (rest : List Poll) : Ends handler (d.brought p rest) (d.poll handler p rest) := by
  simp only [poll, brings, take]
  split
  case isTrue empty =>
    obtain ⟨out, err⟩ : p.out = [] ∧ p.err = [] := by simpa using empty
    refine .idle (n := 0) ⟨rfl, rfl, rfl, rfl, ?_, ?_, ?_⟩ idle
    · simp [out]
    · simp [brought, written]
    · simp [err]
  case isFalse => exact ends_drain handler (d.brought p rest)

/-! ## Between polls -/

section Settled

variable {out err : List UInt8} {d : Drive (σ × List String)}

theorem Settled.pending_out (h : Settled out err d) : d.out.pending = fragment out := by
  rw [← h.relaying.fragment, fragment_of_notMem (newline_notMem_of_not_hasLine h.idle).1]

/-- Once a poll is over, exactly the complete diagnostic lines have been echoed. -/
theorem Settled.bytes_eq_written (h : Settled out err d) : d.diagnostics.bytes = written (completeLines err) :=
  h.bytes.trans (written_completeLines err).symm

theorem Settled.pending_err (h : Settled out err d) : d.err.pending = fragment err := by
  have whole : written (completeLines err) ++ fragment err = err := flatMap_completeLines_append_fragment err
  have parts := h.relaying.bytes
  rw [h.bytes_eq_written] at parts
  exact (List.append_cancel_left (whole.trans parts)).symm

end Settled

variable {cancelled : Bool} {s : σ} {made : List Poll} {d : Drive (σ × List String)}

/-- Noting the lines does not change what the caller makes of the later ones. -/
theorem Heeding.handle_append {asked : Bool} (h : Heeding handler asked s d) (lines : List String) :
    handler.handle s (d.caller.2 ++ lines) = handler.handle d.caller.1 lines := by
  rw [Handler.handle_append, h.handled]

/-- The caller does with the lines of the next poll what it does with all lines up to them. -/
theorem Heeded.handle_brought (h : Heeded cancelled handler s made d) (p : Poll) (rest : List Poll) :
    handler.handle s (textLines (made.flatMap Poll.out ++ p.out)) =
      handler.handle d.caller.1 (textLines (d.brought p rest).out.pending) := by
  rw [textLines_append, ← h.settled.lines, ← h.settled.pending_out, h.heeding.handle_append, out_brought]

/-- There is room for so many bytes together with all diagnostics that have been written. -/
theorem Heeded.fits (h : Heeded cancelled handler s made d) {n : Nat}
    (fits : ∀ room ∈ d.diagnostics.limit, (written (completeLines (made.flatMap Poll.err))).length + n ≤ room) :
    d.diagnostics.Fits n := by
  rwa [Sink.Fits, h.settled.bytes_eq_written]

/-- A poll whose lines neither the caller nor the sink can fail at is followed by the next. -/
theorem Heeded.poll_of_handled (h : Heeded cancelled handler s made d) {p : Poll} (brings : p.failure = none)
    (handled : (handler.handle s (textLines ((made ++ [p]).flatMap Poll.out))).2 = none)
    (fits : ∀ room ∈ d.diagnostics.limit, (written (completeLines ((made ++ [p]).flatMap Poll.err))).length ≤ room)
    (rest : List Poll) :
    ∃ after, d.poll handler.noting p rest = (after, none) ∧ after.terminations = d.terminations ∧
      after.diagnostics.limit = d.diagnostics.limit := by
  rw [List.flatMap_append, List.flatMap_singleton] at handled fits
  rw [h.handle_brought p rest] at handled
  rw [completeLines_append, written_append, List.length_append, ← h.settled.pending_err, ← err_brought d p rest] at fits
  obtain ⟨n, after, polled, passed⟩ := (ends_poll handler.noting h.settled.idle brings rest).passed_of_handled
    (congrArg Prod.snd (Handler.handle_noting_iff.2 ⟨Prod.ext rfl handled, rfl⟩)) (h.fits fits)
  exact ⟨after, polled, passed.terminations, passed.limit⟩

/-- Polls whose lines neither the caller nor the sink can fail at are made while nothing has been requested. -/
theorem Heeded.run_append (h : Heeded cancelled handler s made d) {more : List Poll} (rest : List Poll)
    (brings : ∀ p ∈ more, p.failure = none)
    (unseen : ∀ front p back, more = front ++ p :: back → requested cancelled handler s (made ++ front) = false)
    (handled : (handler.handle s (textLines ((made ++ more).flatMap Poll.out))).2 = none)
    (fits : ∀ room ∈ d.diagnostics.limit, (written (completeLines ((made ++ more).flatMap Poll.err))).length ≤ room) :
    ∃ after, d.run handler.noting (more ++ rest) = after.run handler.noting rest ∧
      Heeded cancelled handler s (made ++ more) after ∧ after.terminations = d.terminations ∧
      after.diagnostics.limit = d.diagnostics.limit := by
  induction more generalizing made d with
  | nil => exact ⟨d, rfl, by rwa [List.append_nil], rfl, rfl⟩
  | cons p more ih =>
    rw [List.append_cons] at handled fits ⊢
    have unnoticed : ¬ d.cancelled = true := by
      rw [h.flag, ← List.append_nil made, unseen [] p more rfl]
      exact Bool.false_ne_true
    have first : (handler.handle s (textLines ((made ++ [p]).flatMap Poll.out))).2 = none := by
      rw [List.flatMap_append, textLines_append] at handled
      exact Handler.handle_of_append handled
    have firstFits : ∀ room ∈ d.diagnostics.limit,
        (written (completeLines ((made ++ [p]).flatMap Poll.err))).length ≤ room := by
      intro room limited
      have all := fits room limited
      rw [List.flatMap_append, completeLines_append, written_append, List.length_append] at all
      exact (Nat.le_add_right _ _).trans all
    obtain ⟨middle, polled, terminations, limit⟩ :=
      h.poll_of_handled (brings p List.mem_cons_self) first firstFits (more ++ rest)
    have later : ∀ front q back, more = front ++ q :: back →
        requested cancelled handler s (made ++ [p] ++ front) = false := by
      intro front q back same
      rw [← List.append_cons]
      exact unseen (p :: front) q back (congrArg (p :: ·) same)
    rw [List.cons_append, Drive.run, if_neg unnoticed, polled]
    obtain ⟨after, ran, heeded, terminations', limit'⟩ :=
      ih (h.poll polled).2 (fun q mem => brings q (List.mem_cons_of_mem p mem)) later handled (limit ▸ fits)
    exact ⟨after, ran, heeded, terminations'.trans terminations, limit'.trans limit⟩

end Drive

/-! ## The call that fails -/

/-- A run in which the caller fails at a line that the poll `last` brings, and has not failed before. Until then no poll
fails, and no request for cancellation is there to be seen before a poll. -/
structure FailingCall (script : Script) (cancelled : Bool) (handler : Handler σ) (caller : σ) where
  made : List Poll
  last : Poll
  unmade : List Poll
  polls : script.polls = made ++ last :: unmade
  brings : ∀ p ∈ made ++ [last], p.failure = none
  unseen : ∀ front back, made = front ++ back → requested cancelled handler caller front = false
  /-- The lines that this poll brings before the one at which the caller fails. -/
  front : List String
  line : String
  behind : List String
  lines : textLines (fragment (made.flatMap Poll.out) ++ last.out) = front ++ line :: behind
  state : σ
  error : RunError
  fine : handler.handle caller (textLines (made.flatMap Poll.out) ++ front) = (state, none)
  fails : (handler state line).error = some error

namespace FailingCall

variable {script : Script} {cancelled : Bool} {handler : Handler σ} {caller : σ}

/-- The lines that are given to the caller before. -/
def before (c : FailingCall script cancelled handler caller) : List String :=
  textLines (c.made.flatMap Poll.out) ++ c.front

/-- The diagnostics that are written before: all complete lines from before the last poll, and as many more as this poll
brings lines of output before the one that fails, as far as there are so many. -/
def echoed (c : FailingCall script cancelled handler caller) : List UInt8 :=
  written (completeLines (c.made.flatMap Poll.err)) ++
    written ((completeLines (fragment (c.made.flatMap Poll.err) ++ c.last.err)).take c.front.length)

/-- The run is given up at the call. -/
structure EndsRun (c : FailingCall script cancelled handler caller)
    (noted : Drive (σ × List String) × Except RunError Outcome) : Prop where
  result : noted.2 = .error c.error
  calls : noted.1.caller.2 = c.before ++ [c.line]
  terminations : noted.1.terminations = 1
  polls : noted.1.script.polls = c.unmade
  diagnostics : noted.1.diagnostics.bytes = c.echoed

/-- A failing call for whose diagnostics the sink has room ends the run. -/
theorem endsRun (c : FailingCall script cancelled handler caller) {limit : Option Nat}
    (fits : ∀ room ∈ limit, c.echoed.length ≤ room) (flushError : Option String) :
    c.EndsRun (drive script cancelled handler.noting (caller, []) (.fresh limit flushError)) := by
  have start := Drive.Heeded.start script cancelled handler caller limit flushError
  have polls : ∀ p ∈ c.made, p.failure = none := fun p mem => c.brings p (List.mem_append_left _ mem)
  have handled : (handler.handle caller (textLines (c.made.flatMap Poll.out) ++ c.front)).2 = none := by rw [c.fine]
  rw [echoed, List.length_append] at fits
  obtain ⟨d, ran, heeded, terminations, limited⟩ := start.run_append (c.last :: c.unmade) polls
    (fun front p back same => c.unseen front (p :: back) same) (Handler.handle_of_append handled)
    (fun room mem => (Nat.le_add_right _ _).trans (fits room mem))
  rw [List.nil_append] at heeded
  have unnoticed : ¬ d.cancelled = true := by
    rw [heeded.flag, c.unseen c.made [] (List.append_nil _).symm]
    exact Bool.false_ne_true
  have lines : textLines (d.brought c.last c.unmade).out.pending = c.front ++ c.line :: c.behind := by
    rw [Drive.out_brought, heeded.settled.pending_out, c.lines]
  have fine := c.fine
  rw [← heeded.settled.lines, heeded.heeding.handle_append] at fine
  have same : d.diagnostics.limit = limit := limited
  rw [← same, ← heeded.settled.pending_err, ← Drive.err_brought d c.last c.unmade] at fits
  obtain ⟨middle, after, polled, passed, same, aborted⟩ :=
    (Drive.ends_poll handler.noting heeded.settled.idle (c.brings c.last (by simp)) c.unmade).aborted_of_fails lines
      (Handler.handle_noting_iff.2 ⟨fine, rfl⟩) c.fails (heeded.fits fits)
  rw [drive, c.polls, ran, Drive.run, if_neg unnoticed, polled]
  refine ⟨rfl, ?_, ?_, ?_, ?_⟩
  · rw [aborted.caller, same, before, ← heeded.settled.lines]
    rfl
  · rw [aborted.terminations, passed.terminations]
    exact congrArg (· + 1) terminations
  · rw [aborted.script, passed.script]
    rfl
  · rw [aborted.diagnostics, passed.bytes, Drive.err_brought, heeded.settled.pending_err, echoed,
      ← heeded.settled.bytes_eq_written]
    rfl

end FailingCall

/-! ## All other runs -/

/-- No call has failed, and the process has been stopped at most once, for a request that was seen before a poll. -/
structure Unfailing (script : Script) (cancelled : Bool) (handler : Handler σ) (caller : σ)
    (noted : Drive (σ × List String)) : Prop where
  handled : (handler.handle caller noted.caller.2).2 = none
  stopped : noted.terminations = 0 ∨ noted.terminations = 1 ∧ ∃ made p rest, script.polls = made ++ p :: rest ∧
    noted.script.polls = p :: rest ∧ requested cancelled handler caller made = true

namespace Drive

variable {script : Script} {cancelled : Bool} {handler : Handler σ} {caller : σ} {made : List Poll}
  {d : Drive (σ × List String)}

/-- Before a poll, or after the last one. -/
structure Reached (script : Script) (cancelled : Bool) (handler : Handler σ) (caller : σ) (made : List Poll)
    (d : Drive (σ × List String)) : Prop where
  heeded : Heeded cancelled handler caller made d
  terminations : d.terminations = 0
  polls : script.polls = made ++ d.script.polls
  brings : ∀ p ∈ made, p.failure = none
  unseen : ∀ front p back, made = front ++ p :: back → requested cancelled handler caller front = false

variable {after : Drive (σ × List String)} {p : Poll} {rest : List Poll}

theorem Reached.start (script : Script) (cancelled : Bool) (handler : Handler σ) (caller : σ) (limit : Option Nat)
    (flushError : Option String) :
    Reached script cancelled handler caller [] (.start script cancelled (caller, []) (.fresh limit flushError)) :=
  ⟨.start script cancelled handler caller limit flushError, rfl, rfl, by simp, by simp⟩

/-- A poll is made while no request is there to be seen. -/
theorem Reached.requested_eq_false (h : Reached script cancelled handler caller made d) (unnoticed : ¬ d.cancelled = true)
    {front back : List Poll} (split : made = front ++ back) : requested cancelled handler caller front = false := by
  cases back with
  | nil =>
    rw [List.append_nil] at split
    rw [← split, ← h.heeded.flag]
    exact Bool.eq_false_iff.2 unnoticed
  | cons q back => exact h.unseen front q back split

/-- A poll that ends without an error leads to the next state between polls. -/
theorem Reached.poll (h : Reached script cancelled handler caller made d) (unnoticed : ¬ d.cancelled = true)
    (left : d.script.polls = p :: rest) (polled : d.poll handler.noting p rest = (after, none)) :
    Reached script cancelled handler caller (made ++ [p]) after := by
  obtain ⟨polls, heeded⟩ := h.heeded.poll polled
  have brings : p.failure = none := by
    have fine := (h.heeded.settled.poll handler p rest).2.1
    rw [polled] at fine
    exact fine rfl
  refine ⟨heeded, ?_, ?_, ?_, ?_⟩
  · have ends := ends_poll handler.noting h.heeded.settled.idle brings rest
    rw [polled] at ends
    cases ends with
    | idle passed => exact passed.terminations.trans h.terminations
  · rw [h.polls, left, polls, List.append_cons]
  · exact List.forall_mem_append.2 ⟨h.brings, List.forall_mem_singleton.2 brings⟩
  · intro front q back split
    rcases List.eq_nil_or_concat back with rfl | ⟨back, last, rfl⟩
    · have whole : made = front ++ [] := by
        rw [List.append_nil]
        exact (List.append_inj' split rfl).1
      exact h.requested_eq_false unnoticed whole
    · refine h.unseen front q back ?_
      rw [List.concat_eq_append, ← List.cons_append, ← List.append_assoc] at split
      exact (List.append_inj' split rfl).1

/-- A poll at whose lines the caller fails. -/
theorem Reached.endsRun (h : Reached script cancelled handler caller made d) (unnoticed : ¬ d.cancelled = true)
    (left : d.script.polls = p :: rest) (brings : p.failure = none) {n : Nat} {middle : Drive (σ × List String)}
    (passed : Passed handler.noting (d.brought p rest) n n middle) {line : String} {e : RunError}
    (aborted : Aborted handler.noting middle line e after) :
    ∃ c : FailingCall script cancelled handler caller, c.EndsRun (after, .error e) := by
  obtain ⟨length, back, split⟩ := passed.lines_of_aborted aborted
  obtain ⟨fine, notes⟩ := Handler.handle_noting_iff.1 passed.handled
  generalize (textLines (d.brought p rest).out.pending).take n = front at length split fine notes
  obtain rfl := length
  rw [out_brought, h.heeded.settled.pending_out] at split
  let c : FailingCall script cancelled handler caller :=
    { made := made
      last := p
      unmade := rest
      polls := by rw [h.polls, left]
      brings := List.forall_mem_append.2 ⟨h.brings, List.forall_mem_singleton.2 brings⟩
      unseen := fun front back same => h.requested_eq_false unnoticed same
      front := front
      line := line
      behind := back
      lines := split
      state := middle.caller.1
      error := e
      fine := by
        rw [← h.heeded.settled.lines, h.heeded.heeding.handle_append]
        exact fine
      fails := aborted.fails }
  refine ⟨c, rfl, ?_, ?_, ?_, ?_⟩
  · rw [aborted.caller, FailingCall.before, ← h.heeded.settled.lines]
    exact congrArg (· ++ [line]) notes
  · rw [aborted.terminations, passed.terminations]
    exact congrArg (· + 1) h.terminations
  · rw [aborted.script, passed.script]
    rfl
  · rw [aborted.diagnostics, passed.bytes, err_brought, h.heeded.settled.pending_err, FailingCall.echoed,
      ← h.heeded.settled.bytes_eq_written]
    rfl

/-- A poll that fails at anything else than a call leaves the process alone. -/
theorem Reached.poll_failed (h : Reached script cancelled handler caller made d) (unnoticed : ¬ d.cancelled = true)
    (left : d.script.polls = p :: rest) {e : RunError} (polled : d.poll handler.noting p rest = (after, some e)) :
    (∃ c : FailingCall script cancelled handler caller, c.EndsRun (after, .error e)) ∨
      Unfailing script cancelled handler caller after := by
  cases brings : p.failure with
  | some text =>
    simp only [Drive.poll, brings] at polled
    cases polled
    exact .inr ⟨congrArg Prod.snd h.heeded.heeding.handled, .inl h.terminations⟩
  | none =>
    have ends := ends_poll handler.noting h.heeded.settled.idle brings rest
    rw [polled] at ends
    cases ends with
    | aborted passed aborted => exact .inl (h.endsRun unnoticed left brings passed aborted)
    | full passed caller script terminations full =>
      obtain ⟨fine, notes⟩ := Handler.handle_noting_iff.1 passed.handled
      refine .inr ⟨?_, .inl ((terminations.trans passed.terminations).trans h.terminations)⟩
      rw [caller, notes]
      exact congrArg Prod.snd ((h.heeded.heeding.handle_append _).trans fine)

/-- In the end a run has been given up at a call that fails, or no call has failed. -/
theorem Reached.run (h : Reached script cancelled handler caller made d) {polls : List Poll}
    (left : d.script.polls = polls) :
    (∃ c : FailingCall script cancelled handler caller, c.EndsRun (d.run handler.noting polls)) ∨
      Unfailing script cancelled handler caller (d.run handler.noting polls).1 := by
  have handled : (handler.handle caller d.caller.2).2 = none := congrArg Prod.snd h.heeded.heeding.handled
  induction polls generalizing made d with
  | nil =>
    obtain ⟨log, same⟩ := finish_fst d
    rw [Drive.run, same]
    exact .inr ⟨handled, .inl h.terminations⟩
  | cons p rest ih =>
    rw [Drive.run]
    by_cases noticed : d.cancelled = true
    · obtain ⟨⟨log, same⟩, -⟩ := stop_eq d
      rw [if_pos noticed, same]
      refine .inr ⟨handled, .inr ⟨?_, made, p, rest, ?_, left, h.heeded.flag ▸ noticed⟩⟩
      · rw [h.terminations]
      · rw [h.polls, left]
    · rw [if_neg noticed]
      cases polled : d.poll handler.noting p rest with
      | mk after failure =>
        cases failure with
        | some e => exact h.poll_failed noticed left polled
        | none =>
          have next := h.poll noticed left polled
          exact ih next (h.heeded.poll polled).1 (congrArg Prod.snd next.heeded.heeding.handled)

end Drive

/-- **A run is given up at the first line at which its caller fails.** Where no request has been seen before and the sink
has room, the run ends with the error of that call, whatever stopping the process comes to and whether or not
cancellation has been requested meanwhile. The caller has been given the lines up to this one and no more, the process
has been stopped once, and nothing has been polled since. The sink holds the diagnostics from before the last poll, and
of those that it has brought one line less than lines of output have been given to the caller since, or all if there are
not so many. In every other run no call has failed, and the process has been stopped at most once, for a request that
was seen before a poll. -/
theorem drive_aborts (script : Script) (cancelled : Bool) (handler : Handler σ) (caller : σ) (limit : Option Nat)
    (flushError : Option String) :
    let noted := drive script cancelled handler.noting (caller, []) (.fresh limit flushError)
    drive script cancelled handler caller (.fresh limit flushError) = (noted.1.forget, noted.2) ∧
    (∀ c : FailingCall script cancelled handler caller, (∀ room ∈ limit, c.echoed.length ≤ room) → c.EndsRun noted) ∧
    ((∃ c : FailingCall script cancelled handler caller, c.EndsRun noted) ∨
      Unfailing script cancelled handler caller noted.1) := by
  intro noted
  refine ⟨drive_noting script cancelled handler caller _, fun c fits => c.endsRun fits flushError, ?_⟩
  exact (Drive.Reached.start script cancelled handler caller limit flushError).run rfl

/-- A caller that fails at one line. -/
def refusing (refused : String) : Handler Unit := fun _ line =>
  ⟨(), [], false, if line = refused then some (.io "refused") else none⟩

/-- The second poll brings three lines of output and two of diagnostics. -/
def threePolls : Script :=
  ⟨[⟨Text.encode "a\nb", Text.encode "e\nf", false, none⟩,
    ⟨Text.encode "\nc\nd\n", Text.encode "\ng\n", true, none⟩,
    ⟨Text.encode "i\n", [], false, none⟩], none, some "not stopped"⟩

/-- The caller fails at the second line of this poll. -/
theorem drive_aborts_midPoll :
    let r := drive threePolls false (refusing "c").noting ((), []) (.fresh (some 4) none)
    r.2 = .error (.io "refused") ∧ r.1.caller.2 = ["a", "b", "c"] ∧ r.1.terminations = 1 ∧
      r.1.script.polls.length = 1 ∧ r.1.diagnostics.bytes = Text.encode "e\nf\n" := by
  intro r
  let c : FailingCall threePolls false (refusing "c") () :=
    { made := threePolls.polls.take 1
      last := ⟨Text.encode "\nc\nd\n", Text.encode "\ng\n", true, none⟩
      unmade := threePolls.polls.drop 2
      polls := rfl
      brings := by decide
      unseen := by
        intro front back split
        rcases List.singleton_eq_append_iff.1 split with ⟨rfl, -⟩ | ⟨rfl, -⟩
        · decide +kernel
        · decide +kernel
      front := ["b"]
      line := "c"
      behind := ["d"]
      lines := by decide +kernel
      state := ()
      error := .io "refused"
      fine := by decide +kernel
      fails := by decide }
  obtain ⟨result, calls, terminations, polls, diagnostics⟩ :=
    (drive_aborts threePolls false (refusing "c") () (some 4) none).2.1 c (by decide +kernel)
  have echoed : c.echoed = Text.encode "e\nf\n" := by decide +kernel
  have before : c.before = ["a", "b"] := by decide +kernel
  exact ⟨result, by rw [calls, before]; rfl, terminations, congrArg List.length polls, diagnostics.trans echoed⟩

end CompileDb.Run
