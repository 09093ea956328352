import CompileDb.Run.LineBuffer

/-!
# Sinks

Where bytes are written. A sink may have room for so many bytes only, and its flush may fail. A write that does not
fit is taken up to the last byte that does.
-/

namespace CompileDb.Run

/-- A sink and what became of the bytes written to it. -/
structure Sink where
  /-- How many bytes there is room for, if not for all. -/
  limit : Option Nat
  /-- What a flush fails with, if it fails. -/
  flushError : Option String
  accepted : Array UInt8
  /-- A flush has been tried. -/
  flushTried : Bool
  /-- Since the last successful flush nothing has been written. -/
  settled : Bool
deriving DecidableEq, Repr

namespace Sink

/-- A sink with nothing written to it. -/
def fresh (limit : Option Nat) (flushError : Option String) : Sink := ⟨limit, flushError, #[], false, false⟩

/-- The bytes that were accepted, in order. -/
def bytes (s : Sink) : List UInt8 := s.accepted.toList

/-- What a write into a full sink fails with. -/
def fullText : String := "sink full"

/-- How many of `n` further bytes there is room for. -/
def room (s : Sink) (n : Nat) : Nat :=
  match s.limit with
  | none => n
  | some limit => min n (limit - s.accepted.size)

/-- Writes bytes as far as there is room for them. -/
def write (s : Sink) (bytes : List UInt8) : Sink × Option String :=
  let room := s.room bytes.length
  let s := { s with accepted := s.accepted ++ bytes.take room, settled := false }
  (s, if bytes.length ≤ room then none else some fullText)

/-- Writes a line and its newline. -/
def writeLine (s : Sink) (line : List UInt8) : Sink × Option String :=
  s.write (line ++ [newline])

/-- Passes on what was written. -/
def flush (s : Sink) : Sink × Option String :=
  match s.flushError with
  | none => ({ s with flushTried := true, settled := true }, none)
  | some text => ({ s with flushTried := true }, some text)

@[simp] theorem bytes_fresh (limit : Option Nat) (flushError : Option String) : (fresh limit flushError).bytes = [] :=
  rfl

/-- A write adds the bytes there is room for. -/
@[simp] theorem bytes_write (s : Sink) (bytes : List UInt8) :
    (s.write bytes).1.bytes = s.bytes ++ bytes.take (s.room bytes.length) := by
  simp [write, Sink.bytes]

@[simp] theorem bytes_flush (s : Sink) : s.flush.1.bytes = s.bytes := by
  unfold flush
  split <;> rfl

end Sink

end CompileDb.Run
