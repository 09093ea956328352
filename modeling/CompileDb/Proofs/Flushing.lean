import CompileDb.Proofs.Interrupting

/-!
# Flushing diagnostics

The diagnostics of a process are written to a sink line by line, and the sink is flushed once the polls have come to an
end, whether or not cancellation is noticed then. A process that is stopped between two polls is left without that.
`drive_flushed_iff` says that of the runs which do not fail these are the ones that do not flush what they have written,
and what that is. Until the polls come to an end the sink is never flushed (`unflushed_poll`).
-/

namespace CompileDb.Run

variable {σ : Type}

/-- The sink has not been flushed yet. -/
structure Sink.Unflushed (s : Sink) : Prop where
  unsettled : s.settled = false
  untried : s.flushTried = false

theorem Sink.Unflushed.writeLine {s : Sink} (h : s.Unflushed) (line : List UInt8) : (s.writeLine line).1.Unflushed :=
  ⟨rfl, h.untried⟩

namespace Drive

variable {handler : Handler σ} {d after : Drive σ}

theorem diagnostics_offerNext (handler : Handler σ) (d : Drive σ) :
    (d.offerNext handler).1.diagnostics = d.diagnostics := by
  unfold offerNext
  cases d.out.nextRaw? with
  | none => rfl
  | some taken =>
    simp only [offer]
    split <;> rfl

theorem unflushed_echoNext (h : d.diagnostics.Unflushed) : d.echoNext.1.diagnostics.Unflushed := by
  unfold echoNext
  cases d.err.nextRaw? with
  | none => exact h
  | some taken => exact h.writeLine taken.1

theorem unflushed_turn (h : d.diagnostics.Unflushed) (handler : Handler σ) :
    (d.turn handler).1.diagnostics.Unflushed := by
  have first := diagnostics_offerNext handler d
  unfold turn
  cases offered : d.offerNext handler with
  | mk middle failure =>
    rw [offered] at first
    have middle : middle.diagnostics.Unflushed := first ▸ h
    cases failure with
    | some e => exact middle
    | none => exact unflushed_echoNext middle

/-- Echoing lines never flushes them. -/
theorem unflushed_drain (h : d.diagnostics.Unflushed) (handler : Handler σ) :
    (d.drain handler).1.diagnostics.Unflushed := by
  induction d using drain.induct handler with
  | case1 d more middle e turned =>
    have turn := unflushed_turn h handler
    rw [turned] at turn
    rwa [drain_of_hasLine more, turned]
  | case2 d more middle turned ih =>
    have turn := unflushed_turn h handler
    rw [turned] at turn
    rw [drain_of_hasLine more, turned]
    exact ih turn
  | case3 d none => rwa [drain_of_not_hasLine none]

/-- Nothing is flushed while lines are passed on. -/
theorem unflushed_poll (h : d.diagnostics.Unflushed) (handler : Handler σ) (p : Poll) (rest : List Poll) :
    (d.poll handler p rest).1.diagnostics.Unflushed := by
  unfold poll
  cases p.failure with
  | some text => exact h
  | none =>
    simp only [take]
    split
    · exact h
    · refine unflushed_drain ?_ handler
      exact h

theorem polls_poll (handler : Handler σ) (d : Drive σ) (p : Poll) (rest : List Poll) :
    (d.poll handler p rest).1.script.polls = rest := by
  unfold poll
  cases p.failure with
  | some text => rfl
  | none =>
    simp only [take]
    split
    · rfl
    · rw [script_drain]

/-- The end of the polls fails if the sink cannot be flushed. -/
theorem flush_of_finish {outcome : Outcome} (finished : d.finish.2 = .ok outcome) : d.diagnostics.flush.2 = none := by
  have flushes {log : Array Event} {after : Drive σ} (h : ({ d with log } : Drive σ).flush = (after, none)) :
      d.diagnostics.flush.2 = none := by
    have failure : d.diagnostics.flush.2.map RunError.io = none := congrArg Prod.snd h
    simpa using failure
  unfold finish at finished
  split at finished
  case isTrue cancelled =>
    split at finished
    case h_1 => cases finished
    case h_2 h => exact flushes h
  case isFalse =>
    dsimp only at finished
    by_cases empty : d.out.pending.isEmpty = true
    · rw [if_pos empty] at finished
      split at finished
      case h_1 => cases finished
      case h_2 h => exact flushes h
    · rw [if_neg empty] at finished
      split at finished
      case h_1 => cases finished
      case h_2 h => exact flushes h

/-- A run that ends well has flushed the diagnostics. -/
theorem settled_finish {outcome : Outcome} (finished : d.finish.2 = .ok outcome) :
    d.finish.1.diagnostics.settled = true ∧ d.finish.1.diagnostics.flushTried = true := by
  have flushed := flush_of_finish finished
  obtain ⟨log, same⟩ := finish_fst d
  rw [same]
  unfold Sink.flush at flushed ⊢
  cases fails : d.diagnostics.flushError with
  | none => exact ⟨rfl, rfl⟩
  | some text => simp [fails] at flushed

/-- A run that does not fail flushes the sink if it comes to the end of its polls, and only then. -/
theorem flushed_run (h : d.diagnostics.Unflushed) {polls : List Poll} (left : d.script.polls = polls)
    {outcome : Outcome} (ended : (d.run handler polls).2 = .ok outcome) :
    let after := (d.run handler polls).1
    after.script.polls = [] ∧ after.diagnostics.settled = true ∧ after.diagnostics.flushTried = true ∨
      after.script.polls ≠ [] ∧ after.diagnostics.Unflushed ∧ outcome = .interrupted := by
  induction polls generalizing d with
  | nil =>
    obtain ⟨log, same⟩ := finish_fst d
    refine .inl ⟨?_, settled_finish ended⟩
    rw [run, same]
    exact left
  | cons p rest ih =>
    rw [run] at ended ⊢
    by_cases noticed : d.cancelled = true
    · rw [if_pos noticed] at ended ⊢
      obtain ⟨⟨log, same⟩, unfinished⟩ := stop_eq d
      refine .inr ⟨?_, ?_, ?_⟩
      · rw [same]
        exact left ▸ List.cons_ne_nil p rest
      · rwa [same]
      · cases outcome with
        | completed exit => exact absurd ended (unfinished exit)
        | interrupted => rfl
    · rw [if_neg noticed] at ended ⊢
      have next := unflushed_poll h handler p rest
      have polls := polls_poll handler d p rest
      cases polled : d.poll handler p rest with
      | mk middle failure =>
        rw [polled] at ended next polls
        cases failure with
        | some e => cases ended
        | none => exact ih next polls ended

end Drive

/-- **The sink is flushed unless the process is stopped.** Where a run does not fail, the sink holds the complete lines
of diagnostics that the polls made have brought. If no poll is left, the sink has been flushed since the last of them
has been written, whether the run is complete or cancellation has been noticed in the end. A run that is interrupted
with polls left, for a request until then, has never flushed it, so that whatever has been written remains in a sink
that holds bytes back. -/
theorem drive_flushed_iff (script : Script) (cancelled : Bool) (handler : Handler σ) (caller : σ) (limit : Option Nat)
    (flushError : Option String) (outcome : Outcome)
    (ended : (drive script cancelled handler caller (.fresh limit flushError)).2 = .ok outcome) :
    let after := (drive script cancelled handler caller (.fresh limit flushError)).1
    ∃ made, script.polls = made ++ after.script.polls ∧
      after.diagnostics.bytes = throughLastNewline (made.flatMap Poll.err) ∧
      (after.diagnostics.settled = true ↔ after.script.polls = []) ∧
      (after.script.polls ≠ [] → outcome = .interrupted ∧ after.diagnostics.flushTried = false ∧
        requested cancelled handler caller made = true) := by
  intro after
  have unflushed : (Sink.fresh limit flushError).Unflushed := ⟨rfl, rfl⟩
  have flushed := Drive.flushed_run (d := .start script cancelled caller (.fresh limit flushError)) unflushed rfl ended
  have same := drive_noting script cancelled handler caller (.fresh limit flushError)
  rw [same] at ended
  obtain ⟨made, split, flagged, heeded, -⟩ := drive_noting_ok ended
  have after_eq : after = (drive script cancelled handler.noting (caller, []) (.fresh limit flushError)).1.forget :=
    congrArg Prod.fst same
  refine ⟨made, after_eq ▸ split, after_eq ▸ heeded.settled.bytes, ?_, fun left => ?_⟩
  · rcases flushed with ⟨finished, settled, -⟩ | ⟨left, unflushed, -⟩
    · exact iff_of_true settled finished
    · exact iff_of_false (fun settled => Bool.false_ne_true (unflushed.unsettled.symm.trans settled)) left
  · rcases flushed with ⟨finished, -⟩ | ⟨-, unflushed, rfl⟩
    · exact absurd finished left
    · exact ⟨rfl, unflushed.untried, heeded.flag.symm.trans flagged.symm⟩

/-- Cancellation is requested while the first poll brings a line of diagnostics, and a second poll is left. -/
def cutShort : Script :=
  ⟨[⟨[], Text.encode "e\n", true, none⟩, ⟨Text.encode "a\n", [], false, none⟩], some (.code 0), none⟩

/-- The caller does nothing with its lines. -/
def ignoring : Handler Unit := fun _ _ => ⟨(), [], false, none⟩

theorem drive_flushed_iff_cutShort :
    let driven := drive cutShort false ignoring () (.fresh none none)
    driven.2 = .ok .interrupted ∧ driven.1.script.polls ≠ [] ∧ driven.1.diagnostics.settled ≠ true ∧
      driven.1.diagnostics.flushTried = false := by
  intro driven
  have ended : driven.2 = .ok .interrupted := by decide +kernel
  have left : driven.1.script.polls ≠ [] := by decide +kernel
  obtain ⟨made, -, -, flushed, unflushed⟩ := drive_flushed_iff cutShort false ignoring () none none .interrupted ended
  exact ⟨ended, left, fun settled => left (flushed.mp settled), (unflushed left).2.1⟩

/-- A run that does not fail writes a line of diagnostics and does not flush it. -/
theorem drive_unflushed :
    let driven := drive cutShort false ignoring () (.fresh none none)
    driven.2 = .ok .interrupted ∧ driven.1.diagnostics.bytes = Text.encode "e\n" ∧
      driven.1.diagnostics.settled = false ∧ driven.1.diagnostics.flushTried = false := by
  decide +kernel

end CompileDb.Run
