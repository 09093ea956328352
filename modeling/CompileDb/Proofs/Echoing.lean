import CompileDb.Proofs.Aborting
import CompileDb.Proofs.Encoding

/-!
# What a real run echoes

A real run decodes make's output line by line and writes each line again. No part of a character can go on behind a
newline, so the lines together are the output decoded as a whole (`encode_decodeLossy_written`). The sink takes them in
order as far as there is room for them, and a run that completes has found room for all.
-/

namespace CompileDb

/-! ## Decoding line by line -/

namespace Text

/-- What has been read before does not change what is read. -/
theorem foldl_push_eq (bytes : List UInt8) (parts : List (Option Char)) (begun : Begun) :
    bytes.foldl Decoder.push ⟨parts, begun⟩ =
      ⟨(bytes.foldl Decoder.push ⟨[], begun⟩).parts ++ parts, (bytes.foldl Decoder.push ⟨[], begun⟩).begun⟩ := by
  induction bytes generalizing parts begun with
  | nil => rfl
  | cons b bytes ih =>
    rw [List.foldl_cons, List.foldl_cons, Decoder.push, Decoder.push, ih, ih ((nextByte begun b.toNat).1.reverse ++ [])]
    simp

/-- What is begun goes on with a byte beyond those of ASCII. -/
def Begun.High : Begun → Prop
  | nothing => True
  | char _ low _ _ => 0x80 ≤ low

theorem high_firstByte (b : Nat) : (firstByte b).2.High := by
  unfold firstByte
  repeat' split
  all_goals simp [Begun.High]

/-- A sequence in progress was begun by a byte of 0x80 or more. -/
theorem high_nextByte (begun : Begun) (b : Nat) : (nextByte begun b).2.High := by
  unfold nextByte
  split
  case h_1 => exact high_firstByte b
  case h_2 left low high value =>
    split
    case isTrue =>
      dsimp only
      split <;> simp [Begun.High]
    case isFalse => exact high_firstByte b

theorem high_foldl_push {d : Decoder} (high : d.begun.High) (bytes : List UInt8) :
    (bytes.foldl Decoder.push d).begun.High := by
  induction bytes generalizing d with
  | nil => exact high
  | cons b bytes ih => exact ih (high_nextByte d.begun b.toNat)

/-- A newline ends what is begun. -/
theorem nextByte_newline {begun : Begun} (high : begun.High) :
    nextByte begun Run.newline.toNat = (begun.finish ++ [some '\n'], .nothing) := by
  cases begun with
  | nothing => rfl
  | char left low high' value =>
    have below : ¬ (low ≤ Run.newline.toNat ∧ Run.newline.toNat ≤ high') := by
      have small : Run.newline.toNat = 10 := rfl
      have beyond : 0x80 ≤ low := high
      omega
    rw [nextByte, if_neg below]
    rfl

/-- A newline ends any sequence in progress, so lines decode apart. -/
theorem decodeParts_line (line rest : List UInt8) :
    decodeParts (line ++ Run.newline :: rest) = decodeParts line ++ some '\n' :: decodeParts rest := by
  have high := @high_foldl_push ⟨[], .nothing⟩ trivial line
  have palindrome (begun : Begun) : begun.finish.reverse = begun.finish := by cases begun <;> rfl
  simp only [decodeParts, List.foldl_append, List.foldl_cons]
  rw [Decoder.push, nextByte_newline high, foldl_push_eq rest]
  simp [palindrome]

/-- A line is decoded and encoded again without regard to what follows it. -/
theorem encode_decodeLossy_line (line rest : List UInt8) :
    encode (decodeLossy (line ++ Run.newline :: rest)) =
      encode (decodeLossy line) ++ Run.newline :: encode (decodeLossy rest) := by
  have ended : encodeChar '\n' = [Run.newline] := by decide
  simp [encode, decodeLossy, decodeParts_line, ended]

/-- **Decoding lines is decoding the whole.** -/
theorem encode_decodeLossy_written (lines : List (List UInt8)) :
    encode (decodeLossy (Run.written lines)) = Run.written (lines.map fun line => encode (decodeLossy line)) := by
  induction lines with
  | nil => rfl
  | cons line lines ih =>
    simp only [Run.written, List.map_cons, List.flatMap_cons, List.append_assoc, List.singleton_append] at ih ⊢
    rw [encode_decodeLossy_line, ih]

end Text

namespace Run

/-- The complete lines of a stream, decoded and written again, are the stream through its last newline decoded as a
whole. -/
theorem written_textLines (bytes : List UInt8) :
    written ((textLines bytes).map Text.encode) = Text.encode (Text.decodeLossy (throughLastNewline bytes)) := by
  rw [← written_completeLines, Text.encode_decodeLossy_written, textLines, List.map_map]
  rfl

/-! ## What a sink takes -/

/-- The first bytes, as many as a sink with this limit takes. -/
def Sink.taken (limit : Option Nat) (bytes : List UInt8) : List UInt8 :=
  match limit with
  | none => bytes
  | some room => bytes.take room

theorem Sink.taken_prefix (limit : Option Nat) (bytes : List UInt8) : taken limit bytes <+: bytes := by
  cases limit with
  | none => exact List.prefix_rfl
  | some room => exact List.take_prefix room bytes

/-- Of two writes together a sink takes what it takes of each. -/
theorem Sink.bytes_write_of_taken {s : Sink} {before : List UInt8} (taken : s.bytes = taken s.limit before)
    (bytes : List UInt8) : (s.write bytes).1.bytes = Sink.taken s.limit (before ++ bytes) := by
  rw [bytes_write, taken]
  cases limited : s.limit with
  | none =>
    have all : s.room bytes.length = bytes.length := by simp [room, limited]
    rw [all, List.take_length]
    rfl
  | some n =>
    have size : s.accepted.size = min n before.length := by
      rw [limited] at taken
      have length := congrArg List.length taken
      simpa [Sink.bytes, Sink.taken] using length
    have free : s.room bytes.length = min bytes.length (n - before.length) := by
      simp only [room, limited, size]
      omega
    simp only [Sink.taken, List.take_append, free]
    rw [← List.take_take, List.take_of_length_le (List.length_take_le' _ bytes)]

/-- Lines that are all copied are all in the sink. -/
theorem bytes_handle_copier {s after : Sink} {lines : List String} (copied : copier.handle s lines = (after, none)) :
    after.bytes = s.bytes ++ written (lines.map Text.encode) := by
  induction lines generalizing s with
  | nil =>
    cases copied
    simp [written]
  | cons line lines ih =>
    rw [Handler.handle] at copied
    cases failed : (copier s line).error with
    | some e => simp [failed] at copied
    | none =>
      rw [failed] at copied
      have fits : (s.write (Text.encode line ++ [newline])).2 = none := by
        simpa [copier, Sink.writeLine] using failed
      have first : (copier s line).state.bytes = s.bytes ++ (Text.encode line ++ [newline]) := Sink.bytes_of_write fits
      rw [ih copied, first]
      simp [written]

/-! ## What the caller keeps -/

/-- Whatever line a handler is given, it keeps this. -/
def Handler.Keeps {σ : Type} (handler : Handler σ) (P : σ → Prop) : Prop :=
  ∀ s line, P s → P (handler s line).state

namespace Drive

variable {σ : Type} {handler : Handler σ} {P : σ → Prop} {d : Drive σ}

theorem caller_offerNext (keeps : handler.Keeps P) (h : P d.caller) :
    P (d.offerNext handler).1.caller := by
  unfold offerNext
  cases d.out.nextRaw? with
  | none => exact h
  | some taken =>
    simp only [offer]
    split
    case h_1 => exact keeps _ _ h
    case h_2 => exact keeps _ _ h

theorem caller_echoNext (d : Drive σ) : d.echoNext.1.caller = d.caller := by
  unfold echoNext
  cases d.err.nextRaw? <;> rfl

theorem caller_turn (keeps : handler.Keeps P) (h : P d.caller) :
    P (d.turn handler).1.caller := by
  have first := caller_offerNext keeps h
  unfold turn
  cases offered : d.offerNext handler with
  | mk after failure =>
    rw [offered] at first
    cases failure with
    | some e => exact first
    | none =>
      simp only
      rw [caller_echoNext]
      exact first

/-- What the caller keeps at each line holds after all of them. -/
theorem caller_drain (keeps : handler.Keeps P) (h : P d.caller) :
    P (d.drain handler).1.caller := by
  induction d using drain.induct handler with
  | case1 d more after e turned =>
    have first := caller_turn keeps h
    rw [turned] at first
    rw [drain_of_hasLine more, turned]
    exact first
  | case2 d more after turned ih =>
    have first := caller_turn keeps h
    rw [turned] at first
    rw [drain_of_hasLine more, turned]
    exact ih first
  | case3 d none =>
    rw [drain_of_not_hasLine none]
    exact h

/-- What the caller keeps at each line holds after a whole poll. -/
theorem caller_poll (keeps : handler.Keeps P) (h : P d.caller) (p : Poll) (rest : List Poll) :
    P (d.poll handler p rest).1.caller := by
  unfold poll
  cases p.failure with
  | some text => exact h
  | none =>
    simp only [take]
    split
    · exact h
    · exact caller_drain keeps h

/-- What the handler keeps the caller keeps through the run, however that ends. -/
theorem caller_run (keeps : handler.Keeps P) (h : P d.caller) (polls : List Poll) :
    P (d.run handler polls).1.caller := by
  induction polls generalizing d with
  | nil =>
    obtain ⟨log, same⟩ := finish_fst d
    rw [run, same]
    exact h
  | cons p rest ih =>
    have next := caller_poll keeps h p rest
    rw [run]
    split
    · obtain ⟨⟨log, same⟩, -⟩ := stop_eq d
      rw [same]
      exact h
    · cases polled : d.poll handler p rest with
      | mk after failure =>
        rw [polled] at next
        cases failure with
        | some e => exact next
        | none => exact ih next

end Drive

/-! ## Real runs -/

/-- The sink has taken what it could of the lines that have been given to it. -/
def Copied (limit : Option Nat) (s : Sink × List String) : Prop :=
  s.1.limit = limit ∧ s.1.bytes = Sink.taken limit (written (s.2.map Text.encode))

/-- One more line is copied as far as the room goes. -/
theorem Copied.line {limit : Option Nat} {s : Sink × List String} (h : Copied limit s) (line : String) :
    Copied limit (copier.noting s line).state := by
  obtain ⟨rfl, taken⟩ := h
  refine ⟨rfl, ?_⟩
  have lines : written ((s.2 ++ [line]).map Text.encode) =
      written (s.2.map Text.encode) ++ (Text.encode line ++ [newline]) := by simp [written]
  simp only [Handler.noting, copier, Sink.writeLine, lines]
  exact Sink.bytes_write_of_taken taken _

/-- What a driven process has had copied is the beginning of its output, decoded as a whole. -/
theorem drive_copier (script : Script) (cancelled : Bool) (limit limit' : Option Nat)
    (flushError flushError' : Option String) :
    let driven := drive script cancelled copier (.fresh limit flushError) (.fresh limit' flushError')
    ∃ made, script.polls = made ++ driven.1.script.polls ∧
      driven.1.caller.bytes <+: Text.encode (Text.decodeLossy (throughLastNewline (broughtOut made))) ∧
      ∀ exit, driven.2 = .ok (.completed exit) → made = script.polls ∧ (∀ p ∈ made, p.failure = none) ∧
        driven.1.caller.bytes = Text.encode (Text.decodeLossy (throughLastNewline (broughtOut made))) := by
  intro driven
  let noted := drive script cancelled copier.noting (.fresh limit flushError, []) (.fresh limit' flushError')
  have same : driven = (noted.1.forget, noted.2) := drive_noting script cancelled copier _ _
  obtain ⟨made, split, within, complete⟩ :=
    drive_noting_run script cancelled copier (.fresh limit flushError) limit' flushError'
  rw [same]
  refine ⟨made, split, ?_, fun exit completed => ?_⟩
  · have copied : Copied limit noted.1.caller := by
      refine Drive.caller_run (fun s line h => h.line line) ⟨rfl, ?_⟩ script.polls
      cases limit <;> simp [Drive.start, written, Sink.taken]
    obtain ⟨later, lines⟩ := within.lines
    have front : written (noted.1.caller.2.map Text.encode) <+:
        Text.encode (Text.decodeLossy (throughLastNewline (broughtOut made))) := by
      rw [← written_textLines, ← lines, List.map_append, written_append]
      exact List.prefix_append ..
    exact (copied.2 ▸ Sink.taken_prefix limit _).trans front
  · obtain ⟨finished, bring, settled⟩ := complete exit completed
    obtain ⟨_, _, _, heeded, _⟩ := drive_noting_ok completed
    have bytes := bytes_handle_copier heeded.heeding.handled
    rw [settled.lines, written_textLines, Sink.bytes_fresh, List.nil_append] at bytes
    exact ⟨by rw [split, finished, List.append_nil], bring, bytes⟩

/-- Flushing the sink in the end adds nothing to it, and only a driven process that has ended well ends well. -/
theorem passThrough_started (settings : MakeSettings) (arguments : List String) (script : Script) (cancelled : Bool)
    (output diagnostics : Sink) :
    let passed := passThrough settings arguments (some script) cancelled output diagnostics
    let driven := drive script cancelled copier output diagnostics
    passed.output.bytes = driven.1.caller.bytes ∧ ∀ outcome, passed.result = .ok outcome → driven.2 = .ok outcome := by
  intro passed driven
  have flushed := Sink.bytes_flush driven.1.caller
  simp only [passed, passThrough]
  cases ended : (drive script cancelled copier output diagnostics).2 with
  | error e => exact ⟨rfl, fun outcome done => by cases done⟩
  | ok outcome =>
    simp only
    split
    case h_1 sink text failed =>
      rw [failed] at flushed
      exact ⟨flushed, fun outcome done => by cases done⟩
    case h_2 sink done =>
      rw [done] at flushed
      exact ⟨flushed, fun outcome done => done⟩

/-- **A real run echoes make's output.** Whatever the process does, however its bytes are cut into polls, whenever
cancellation is requested, and wherever either sink is full or fails: what the sink has taken is the beginning of the
output brought so far, through its last newline, decoded as a whole. A run that completes has brought all output and
has echoed all of it. Decoding the lines one by one is the same as decoding the whole, and where the output is the
encoding of a text, it is echoed as it is. -/
theorem passThrough_echoes (settings : MakeSettings) (arguments : List String) (script : Script) (cancelled : Bool)
    (limit limit' : Option Nat) (flushError flushError' : Option String) :
    let passed := passThrough settings arguments (some script) cancelled (.fresh limit flushError)
      (.fresh limit' flushError')
    let driven := drive script cancelled copier (.fresh limit flushError) (.fresh limit' flushError')
    ∃ made, script.polls = made ++ driven.1.script.polls ∧
      let heard := throughLastNewline (broughtOut made)
      passed.output.bytes <+: Text.encode (Text.decodeLossy heard) ∧
      (∀ exit, passed.result = .ok (.completed exit) →
        heard = throughLastNewline (script.polls.flatMap Poll.out) ∧
        passed.output.bytes = Text.encode (Text.decodeLossy heard)) ∧
      Text.encode (Text.decodeLossy heard) = written ((textLines (broughtOut made)).map Text.encode) ∧
      ∀ text, heard = Text.encode text → Text.encode (Text.decodeLossy heard) = heard := by
  intro passed driven
  obtain ⟨made, split, front, complete⟩ := drive_copier script cancelled limit limit' flushError flushError'
  obtain ⟨output, ended⟩ := passThrough_started settings arguments script cancelled (.fresh limit flushError)
    (.fresh limit' flushError')
  refine ⟨made, split, ?_, fun exit completed => ?_, (written_textLines _).symm, ?_⟩
  · rw [output]
    exact front
  · obtain ⟨rfl, bring, all⟩ := complete exit (ended _ completed)
    exact ⟨by rw [broughtOut_of_forall bring], output.trans all⟩
  · rintro text heard
    rw [heard, Text.decodeLossy_encode]

/-- The first poll ends within a character, and the second line ends within one. -/
def cutCharacters : Script :=
  ⟨[⟨[0xC3], [], false, none⟩, ⟨[0xA9, 0x0A, 0xE2, 0x82], [], false, none⟩, ⟨[0x0A, 0x61], [], false, none⟩],
    none, none⟩

theorem passThrough_echoes_cut :
    let passed := passThrough .standard [] (some cutCharacters) false (.fresh none none) (.fresh none none)
    passed.result = .ok (.completed none) ∧ passed.output.bytes = Text.encode "é\n\ufffd\n" := by
  intro passed
  have completed : passed.result = .ok (.completed none) := by decide +kernel
  obtain ⟨made, -, -, all, -⟩ := passThrough_echoes .standard [] cutCharacters false none none none none
  obtain ⟨heard, bytes⟩ := all none completed
  refine ⟨completed, bytes.trans ?_⟩
  rw [heard]
  decide +kernel

end Run

end CompileDb
