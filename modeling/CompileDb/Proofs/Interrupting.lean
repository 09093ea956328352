import CompileDb.Proofs.Observation
import CompileDb.Proofs.Relaying

/-!
# Cancelling a driven process

Cancellation may be requested before a run, during any poll, and by the caller at any line. It is looked for before
each poll and after the last one. `drive_heeds` says that a run which does not fail has not missed a request, has not
seen one that was not there, and has polled no more since. Between polls the flag tells what has been requested by
those made so far and by the caller at the lines that they brought (`Heeded`).
-/

namespace CompileDb.Run

variable {σ : Type}

/-! ## Requests -/

/-- The caller requests cancellation at one of these lines. -/
def Handler.cancelsWithin (handler : Handler σ) (s : σ) : List String → Bool
  | [] => false
  | line :: rest => (handler s line).cancels || handler.cancelsWithin (handler s line).state rest

/-- The caller cancels in one stretch of lines or the other. -/
theorem Handler.cancelsWithin_append {handler : Handler σ} {s after : σ} {a : List String}
    (handled : handler.handle s a = (after, none)) (b : List String) :
    handler.cancelsWithin s (a ++ b) = (handler.cancelsWithin s a || handler.cancelsWithin after b) := by
  induction a generalizing s with
  | nil =>
    cases handled
    rfl
  | cons line a ih =>
    rw [handle] at handled
    cases fails : (handler s line).error with
    | some e => simp [fails] at handled
    | none =>
      rw [fails] at handled
      rw [List.cons_append, cancelsWithin, cancelsWithin, ih handled, Bool.or_assoc]

theorem Handler.Calm.cancelsWithin {handler : Handler σ} (calm : handler.Calm) (s : σ) (lines : List String) :
    handler.cancelsWithin s lines = false := by
  induction lines generalizing s with
  | nil => rfl
  | cons line lines ih => rw [Handler.cancelsWithin, calm, ih, Bool.or_self]

/-- Cancellation is requested before a run, during one of these polls, or by the caller at one of the complete lines
that they bring. -/
def requested (cancelled : Bool) (handler : Handler σ) (caller : σ) (polls : List Poll) : Bool :=
  cancelled || polls.any Poll.cancels || handler.cancelsWithin caller (textLines (polls.flatMap Poll.out))

/-- Nothing is polled once cancellation has been requested beforehand. -/
theorem eq_nil_of_requested {handler : Handler σ} {caller : σ} {made : List Poll}
    (unasked : ∀ front p back, made = front ++ p :: back → requested true handler caller front = false) :
    made = [] := by
  cases made with
  | nil => rfl
  | cons p made => cases unasked [] p made rfl

/-- With a caller that never cancels only the polls can. -/
theorem requested_of_calm {handler : Handler σ} (calm : handler.Calm) (cancelled : Bool) (caller : σ)
    (polls : List Poll) : requested cancelled handler caller polls = (cancelled || polls.any Poll.cancels) := by
  rw [requested, calm.cancelsWithin, Bool.or_false]

namespace Drive

variable {handler : Handler σ} {asked : Bool} {s : σ} {d after : Drive (σ × List String)}

/-! ## Lines -/

/-- The caller has not failed at the lines given to it, and the flag tells whether cancellation has been requested, by
it or from elsewhere. -/
structure Heeding (handler : Handler σ) (asked : Bool) (s : σ) (d : Drive (σ × List String)) : Prop where
  handled : handler.handle s d.caller.2 = (d.caller.1, none)
  flag : d.cancelled = (asked || handler.cancelsWithin s d.caller.2)

theorem Heeding.offerNext (h : Heeding handler asked s d) (offered : d.offerNext handler.noting = (after, none)) :
    Heeding handler asked s after := by
  unfold Drive.offerNext at offered
  cases next : d.out.nextRaw? with
  | none =>
    rw [next] at offered
    cases offered
    exact h
  | some taken =>
    simp only [next, offer, Handler.noting] at offered
    cases fails : (handler d.caller.1 (Text.decodeLossy taken.1)).error with
    | some e => simp [fails] at offered
    | none =>
      rw [fails] at offered
      cases offered
      refine ⟨?_, ?_⟩
      · simp only [Handler.handle_append, h.handled, Handler.handle, fails]
      · simp only [Handler.cancelsWithin_append h.handled, h.flag, Handler.cancelsWithin, Bool.or_false, Bool.or_assoc]

theorem Heeding.echoNext (h : Heeding handler asked s d) : Heeding handler asked s d.echoNext.1 := by
  unfold Drive.echoNext
  cases d.err.nextRaw? with
  | none => exact h
  | some taken => exact ⟨h.handled, h.flag⟩

theorem Heeding.turn (h : Heeding handler asked s d) (turned : d.turn handler.noting = (after, none)) :
    Heeding handler asked s after := by
  unfold Drive.turn at turned
  cases offered : d.offerNext handler.noting with
  | mk middle failure =>
    rw [offered] at turned
    cases failure with
    | some e => cases turned
    | none =>
      have last := (h.offerNext offered).echoNext
      simp only at turned
      rwa [turned] at last

/-- Draining the lines keeps the flag true to what was asked. -/
theorem Heeding.drain (h : Heeding handler asked s d) (drained : d.drain handler.noting = (after, none)) :
    Heeding handler asked s after := by
  induction d using drain.induct handler.noting with
  | case1 d more middle e turned =>
    rw [drain_of_hasLine more, turned] at drained
    cases drained
  | case2 d more middle turned ih =>
    rw [drain_of_hasLine more, turned] at drained
    exact ih (h.turn turned) drained
  | case3 d none =>
    rw [drain_of_not_hasLine none] at drained
    cases drained
    exact h

/-! ## Polls -/

theorem Heeding.take (h : Heeding handler asked s d) {p : Poll} (taken : d.take handler.noting p = (after, none)) :
    Heeding handler asked s after := by
  have pushed : Heeding handler asked s { d with out := d.out.push p.out, err := d.err.push p.err } :=
    ⟨h.handled, h.flag⟩
  unfold Drive.take at taken
  split at taken
  · cases taken
    exact h
  · exact pushed.drain taken

/-- A poll adds its own request to those from elsewhere. -/
theorem Heeding.poll (h : Heeding handler asked s d) {p : Poll} {rest : List Poll}
    (polled : d.poll handler.noting p rest = (after, none)) : Heeding handler (asked || p.cancels) s after := by
  have begun : Heeding handler (asked || p.cancels) s
      { d with script := { d.script with polls := rest }, cancelled := d.cancelled || p.cancels } := by
    refine ⟨h.handled, ?_⟩
    simp only [h.flag]
    exact Bool.or_right_comm ..
  unfold Drive.poll at polled
  cases fails : p.failure with
  | some text => simp [fails] at polled
  | none =>
    simp only [fails] at polled
    exact begun.take polled

/-- After these polls everything that they brought has been passed on, and the flag tells whether cancellation has been
requested. -/
structure Heeded (cancelled : Bool) (handler : Handler σ) (s : σ) (made : List Poll)
    (d : Drive (σ × List String)) : Prop where
  settled : Settled (made.flatMap Poll.out) (made.flatMap Poll.err) d
  heeding : Heeding handler (cancelled || made.any Poll.cancels) s d

variable {cancelled : Bool} {made : List Poll}

/-- Between polls the flag is set iff cancellation was requested. -/
theorem Heeded.flag (h : Heeded cancelled handler s made d) : d.cancelled = requested cancelled handler s made := by
  rw [h.heeding.flag, h.settled.lines, requested]

theorem Heeded.start (script : Script) (cancelled : Bool) (handler : Handler σ) (s : σ) (limit : Option Nat)
    (flushError : Option String) :
    Heeded cancelled handler s [] (.start script cancelled (s, []) (.fresh limit flushError)) where
  settled := .start script cancelled s limit flushError
  heeding := ⟨rfl, by simp [Drive.start, Handler.cancelsWithin]⟩

/-- A poll keeps that and drops itself from those to come. -/
theorem Heeded.poll (h : Heeded cancelled handler s made d) {p : Poll} {rest : List Poll}
    (polled : d.poll handler.noting p rest = (after, none)) :
    after.script.polls = rest ∧ Heeded cancelled handler s (made ++ [p]) after := by
  obtain ⟨left, brings, goes⟩ := h.settled.poll handler p rest
  have heeding := h.heeding.poll polled
  rw [polled] at left brings goes
  have fine : ∀ q ∈ [p], q.failure = none := List.forall_mem_singleton.2 (brings rfl)
  rw [broughtOut_of_forall fine, broughtErr_of_forall fine] at goes
  refine ⟨left, ?_, ?_⟩
  · rw [List.flatMap_append, List.flatMap_append]
    exact goes
  · rw [List.any_append, ← Bool.or_assoc, List.any_cons, List.any_nil, Bool.or_false]
    exact heeding

theorem Heeded.finish (h : Heeded cancelled handler s made d) : Heeded cancelled handler s made d.finish.1 := by
  obtain ⟨log, same⟩ := finish_fst d
  have settled := h.settled.finish
  rw [same] at settled ⊢
  exact ⟨settled, h.heeding.handled, h.heeding.flag⟩

theorem Heeded.stop (h : Heeded cancelled handler s made d) : Heeded cancelled handler s made d.stop.1 := by
  obtain ⟨⟨log, same⟩, -⟩ := stop_eq d
  obtain ⟨⟨relaying, idle⟩, handled, flag⟩ := h
  rw [same]
  exact ⟨⟨⟨relaying.lines, relaying.fragment, relaying.bytes, relaying.ended⟩, idle⟩, handled, flag⟩

/-- The end of the polls finds a request if there is one. -/
theorem isInterrupted_of_finish {outcome : Outcome} (finished : d.finish.2 = .ok outcome) :
    outcome.isInterrupted = d.cancelled := by
  unfold finish at finished
  cases cancelled : d.cancelled with
  | true =>
    simp only [cancelled, if_true] at finished
    split at finished
    · cases finished
    · cases finished
      rfl
  | false =>
    simp only [cancelled, Bool.false_eq_true, if_false] at finished
    split at finished
    · cases finished
    · cases finished
      rfl

/-- A process is only stopped for a request. -/
theorem isInterrupted_of_stop {outcome : Outcome} (stopped : d.stop.2 = .ok outcome) :
    outcome.isInterrupted = true := by
  cases outcome with
  | completed exit => exact absurd stopped ((stop_eq d).2 exit)
  | interrupted => rfl

/-- A run that does not fail has made some of its polls, each of them while nothing had been requested. It is
interrupted if and only if something has been requested in the end. -/
theorem Heeded.run (h : Heeded cancelled handler s made d) {polls : List Poll} (left : d.script.polls = polls)
    {outcome : Outcome} (ended : (d.run handler.noting polls).2 = .ok outcome) :
    ∃ more, polls = more ++ (d.run handler.noting polls).1.script.polls ∧
      outcome.isInterrupted = (d.run handler.noting polls).1.cancelled ∧
      Heeded cancelled handler s (made ++ more) (d.run handler.noting polls).1 ∧
      ∀ front p back, more = front ++ p :: back → requested cancelled handler s (made ++ front) = false := by
  induction polls generalizing d made with
  | nil =>
    obtain ⟨log, same⟩ := finish_fst d
    rw [Drive.run] at ended ⊢
    refine ⟨[], ?_, ?_, ?_, by simp⟩
    · rw [same]
      exact left.symm
    · rw [isInterrupted_of_finish ended, same]
    · rw [List.append_nil]
      exact h.finish
  | cons p rest ih =>
    rw [Drive.run] at ended ⊢
    by_cases noticed : d.cancelled = true
    · rw [if_pos noticed] at ended ⊢
      obtain ⟨⟨log, same⟩, -⟩ := stop_eq d
      refine ⟨[], ?_, ?_, ?_, by simp⟩
      · rw [same]
        exact left.symm
      · rw [isInterrupted_of_stop ended, same]
        exact noticed.symm
      · rw [List.append_nil]
        exact h.stop
    · rw [if_neg noticed] at ended ⊢
      cases polled : d.poll handler.noting p rest with
      | mk middle failure =>
        rw [polled] at ended
        cases failure with
        | some e => cases ended
        | none =>
          obtain ⟨left, heeded⟩ := h.poll polled
          obtain ⟨more, split, interrupted, last, unasked⟩ := ih heeded left ended
          refine ⟨p :: more, congrArg (p :: ·) split, interrupted, ?_, ?_⟩
          · rw [List.append_cons]
            exact last
          · intro front q back same
            cases front with
            -- The poll made here: the flag has just been looked at, and it tells of all polls before.
            | nil =>
              rw [List.append_nil, ← h.flag]
              exact Bool.eq_false_iff.2 noticed
            | cons q' front =>
              obtain ⟨rfl, rfl⟩ := List.cons.inj same
              rw [List.append_cons]
              exact unasked front q back rfl

/-- Polls of which only the last one requests cancellation are all those made, and so are all polls if none requests it. -/
theorem pollsMade_append {left : List Poll} (whole : made.any Poll.cancels = false → left = [])
    (first : ∀ front p back, made = front ++ p :: back → front.any Poll.cancels = false) :
    pollsMade (made ++ left) = made := by
  induction made with
  | nil => rw [whole rfl, List.append_nil, pollsMade]
  | cons p made ih =>
    rw [List.cons_append, pollsMade]
    cases h : p.cancels with
    | true =>
      cases made with
      | nil => rfl
      | cons q made =>
        have unasked := first [p] q made rfl
        simp [h] at unasked
    | false =>
      rw [List.any_cons, h, Bool.false_or] at whole
      rw [if_neg Bool.false_ne_true, ih whole]
      intro front q back same
      have unasked := first (p :: front) q back (congrArg (p :: ·) same)
      rwa [List.any_cons, h, Bool.false_or] at unasked

end Drive

/-! ## From the first poll -/

/-- What a run that does not fail has done when it ends. -/
theorem drive_noting_ok {script : Script} {cancelled : Bool} {handler : Handler σ} {caller : σ} {limit : Option Nat}
    {flushError : Option String} {outcome : Outcome}
    (ended : (drive script cancelled handler.noting (caller, []) (.fresh limit flushError)).2 = .ok outcome) :
    let noted := drive script cancelled handler.noting (caller, []) (.fresh limit flushError)
    ∃ made, script.polls = made ++ noted.1.script.polls ∧ outcome.isInterrupted = noted.1.cancelled ∧
      Drive.Heeded cancelled handler caller made noted.1 ∧
      ∀ front p back, made = front ++ p :: back → requested cancelled handler caller front = false :=
  (Drive.Heeded.start script cancelled handler caller limit flushError).run rfl ended

/-- An observed run that does not fail has read these lines, and none of them has failed. -/
theorem feedLines_of_observe {settings : MakeSettings} {arguments : List String} {script : Script} {cancelled : Bool}
    {db : Database} {limit : Option Nat} {flushError : Option String} {outcome : Outcome}
    (ended : (observe settings arguments (some script) cancelled db (.fresh limit flushError)).result = .ok outcome) :
    (Make.Session.start db).feedLines (if cancelled then [] else observedLines script) =
      ((observe settings arguments (some script) cancelled db (.fresh limit flushError)).session, none) := by
  obtain ⟨session, result⟩ := observe_started settings arguments script cancelled db (.fresh limit flushError)
  rw [result, drive_noting] at ended
  rw [session, drive_noting]
  obtain ⟨_, -, -, complete⟩ := drive_noting_run script cancelled recorder (.start db) limit flushError
  obtain ⟨made, split, flagged, heeded, unasked⟩ := drive_noting_ok ended
  have handled := heeded.heeding.handled
  rw [handle_recorder, heeded.settled.lines, Prod.mk.injEq, Option.map_eq_none_iff] at handled
  have lines : (if cancelled then [] else observedLines script) = textLines (made.flatMap Poll.out) := by
    cases cancelled with
    | true => rw [eq_nil_of_requested unasked, if_pos rfl, List.flatMap_nil, textLines_of_notMem List.not_mem_nil]
    | false =>
      have requests := heeded.flag.symm.trans flagged.symm
      simp only [requested_of_calm recorder_calm, Bool.false_or] at requests unasked
      rw [if_neg Bool.false_ne_true, observedLines, split, Drive.pollsMade_append (fun quiet => ?_) unasked]
      cases outcome with
      | completed exit => exact (complete exit ended).1
      | interrupted => cases quiet.symm.trans requests
  rw [lines]
  exact Prod.ext handled.1 handled.2

/-- **No cancellation is missed, and none is invented.** Cancellation may be requested before a run, during any poll,
and by the caller at any line. A run that does not fail is interrupted if and only if it has been requested in the end.
Every poll that it makes, it makes while nothing has been requested. When it ends, all complete lines that the polls
made have brought have been given to the caller, and the sink holds their diagnostics through the last newline. So an
interrupted dry run leaves the session that has read those lines. -/
theorem drive_heeds (script : Script) (cancelled : Bool) (handler : Handler σ) (caller : σ) (limit : Option Nat)
    (flushError : Option String) :
    let noted := drive script cancelled handler.noting (caller, []) (.fresh limit flushError)
    drive script cancelled handler caller (.fresh limit flushError) = (noted.1.forget, noted.2) ∧
    (∀ outcome, noted.2 = .ok outcome →
      outcome.isInterrupted = noted.1.cancelled ∧
      ∃ made, script.polls = made ++ noted.1.script.polls ∧
        noted.1.cancelled = requested cancelled handler caller made ∧
        (cancelled = true → made = []) ∧
        (∀ front p back, made = front ++ p :: back → requested cancelled handler caller front = false) ∧
        noted.1.caller.2 = textLines (made.flatMap Poll.out) ∧
        noted.1.diagnostics.bytes = throughLastNewline (made.flatMap Poll.err)) ∧
    ∀ (settings : MakeSettings) (arguments : List String) (db : Database),
      let seen := observe settings arguments (some script) cancelled db (.fresh limit flushError)
      seen.result = .ok .interrupted →
        (Make.Session.start db).feedLines (if cancelled then [] else observedLines script) = (seen.session, none) := by
  intro noted
  refine ⟨drive_noting script cancelled handler caller _, fun outcome ended => ?_, ?_⟩
  · obtain ⟨made, split, flagged, heeded, unasked⟩ := drive_noting_ok ended
    refine ⟨flagged, made, split, heeded.flag, ?_, unasked, heeded.settled.lines, heeded.settled.bytes⟩
    rintro rfl
    exact eq_nil_of_requested unasked
  · intro settings arguments db seen interrupted
    exact feedLines_of_observe interrupted

/-- The caller cancels at its second line. It still gets the third, and the second poll is not made. -/
example :
    let script : Script := ⟨[⟨Text.encode "a\nb\nc\nd", [], false, none⟩, ⟨Text.encode "\n", [], false, none⟩],
      some (.code 0), none⟩
    let r := drive script false (Handler.noting fun () line => ⟨(), [], line == "b", none⟩) ((), []) (.fresh none none)
    r.1.caller.2 = ["a", "b", "c"] ∧ r.1.script.polls.length = 1 ∧ r.2 = .ok .interrupted := by
  decide +kernel

end CompileDb.Run
