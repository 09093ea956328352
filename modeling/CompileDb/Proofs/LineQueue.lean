import Mathlib.Data.List.Forall2
import CompileDb.Run.LineBuffer

/-!
# Line buffers as queues of bytes

A line buffer keeps bytes that were taken, forgets them now and then, and moves the pending ones when it does. Whoever
uses it sees a plain queue of bytes. `foldl_use_empty` says so for every sequence of uses: the lines handed out and the
bytes pending are the bytes that have arrived, a line is refused exactly while no newline is pending, and fewer than
`compactAt` taken bytes are kept.
-/

namespace CompileDb.Run.LineBuffer

/-- The form in which a line is asked for. -/
inductive Form where
  | raw
  | text
deriving DecidableEq, Repr

/-- A line as it is handed out. -/
inductive Handed where
  | raw (line : List UInt8)
  | text (line : String)
deriving DecidableEq, Repr

/-- The line that is handed out is that of these bytes. -/
def Handed.Shows : Handed → List UInt8 → Prop
  | raw line, bytes => line = bytes
  | text line, bytes => line = Text.decodeLossy bytes

/-- Asks for the next line. -/
def ask (b : LineBuffer) : Form → Option (Handed × LineBuffer)
  | .raw => b.nextRaw?.map fun (line, after) => (.raw line, after)
  | .text => b.next?.map fun (line, after) => (.text line, after)

/-- What is done with a line buffer. -/
inductive Use where
  /-- Bytes that have arrived are appended. -/
  | append (bytes : List UInt8)
  | ask (form : Form)
deriving DecidableEq, Repr

/-- The bytes that a use brings. -/
def Use.bytes : Use → List UInt8
  | append bytes => bytes
  | ask _ => []

/-- A use of a buffer from which these lines have been taken, the first one first. -/
def use : LineBuffer × List Handed → Use → LineBuffer × List Handed
  | (b, handed), .append bytes => (b.push bytes, handed)
  | (b, handed), .ask form =>
    match b.ask form with
    | none => (b, handed)
    | some (line, after) => (after, handed ++ [line])

variable {b after : LineBuffer} {form : Form} {line : Handed}

/-- In either form, asking takes the next line or finds none. -/
theorem ask_eq_none_iff : b.ask form = none ↔ newline ∉ b.pending := by
  rw [← nextRaw?_eq_none_iff]
  cases form <;> simp [ask, next?]

/-- A request that answers shows the next line. -/
theorem ask_eq_some (h : b.ask form = some (line, after)) :
    ∃ bytes, b.nextRaw? = some (bytes, after) ∧ line.Shows bytes := by
  cases form with
  | raw =>
    obtain ⟨⟨bytes, rest⟩, taken, same⟩ := Option.map_eq_some_iff.1 h
    cases same
    exact ⟨bytes, taken, rfl⟩
  | text =>
    simp only [ask, next?, Option.map_map] at h
    obtain ⟨⟨bytes, rest⟩, taken, same⟩ := Option.map_eq_some_iff.1 h
    cases same
    exact ⟨bytes, taken, rfl⟩

/-- The line taken is what is pending before the first newline. -/
theorem line_of_nextRaw? {bytes : List UInt8} (h : b.nextRaw? = some (bytes, after)) :
    bytes = b.pending.takeWhile (· != newline) := by
  obtain ⟨free, pending, -⟩ := nextRaw?_eq_some h
  have all : ∀ c ∈ bytes, (c != newline) = true := fun c mem => by
    simpa using fun same : c = newline => free (same ▸ mem)
  rw [pending, List.takeWhile_append_of_pos all]
  simp

/-! ## What is kept of taken bytes -/

/-- The bytes already taken are dropped before they are many. -/
theorem start_takenTo_lt (b : LineBuffer) (stop : Nat) (h : stop ≤ b.held.size) :
    (b.takenTo stop h).start < compactAt := by
  have pos : 0 < compactAt := by decide
  unfold takenTo
  split
  case isTrue => exact pos
  case isFalse =>
    split
    case isTrue => exact pos
    case isFalse few => exact Nat.lt_of_not_le few

/-- Nothing is kept once all bytes have been taken. -/
theorem start_takenTo_eq_zero (b : LineBuffer) (stop : Nat) (h : stop ≤ b.held.size)
    (drained : (b.takenTo stop h).pending = []) : (b.takenTo stop h).start = 0 := by
  have le : b.held.size ≤ stop := by simpa using drained
  rw [takenTo, if_pos (by omega)]
  rfl

/-! ## Any sequence of uses -/

/-- The books of a buffer: the lines handed out and the pending bytes are all that has arrived, and of the bytes taken
few are kept, none of them once nothing else is left. -/
structure Balanced (arrived : List UInt8) (state : LineBuffer × List Handed) : Prop where
  whole : ∃ lines, List.Forall₂ Handed.Shows state.2 lines ∧
    lines.flatMap (· ++ [newline]) ++ state.1.pending = arrived
  few : state.1.start < compactAt
  rewound : state.1.pending = [] → state.1.start = 0

theorem Balanced.empty : Balanced [] (empty, []) := ⟨⟨[], .nil, rfl⟩, by decide, fun _ => rfl⟩

/-- The books stay right with every use. -/
theorem Balanced.use {arrived : List UInt8} {state : LineBuffer × List Handed} (h : Balanced arrived state) (u : Use) :
    Balanced (arrived ++ u.bytes) (use state u) := by
  obtain ⟨b, handed⟩ := state
  obtain ⟨⟨lines, shown, whole⟩, few, rewound⟩ := h
  cases u with
  | append bytes =>
    refine ⟨⟨lines, shown, ?_⟩, few, fun drained => ?_⟩
    · simp only [LineBuffer.use, pending_push, Use.bytes, ← whole, List.append_assoc]
    · simp only [LineBuffer.use, pending_push, List.append_eq_nil_iff] at drained
      exact rewound drained.1
  | ask form =>
    rw [Use.bytes, List.append_nil]
    simp only [LineBuffer.use]
    cases asked : b.ask form with
    | none => exact ⟨⟨lines, shown, whole⟩, few, rewound⟩
    | some taken =>
      obtain ⟨line, after⟩ := taken
      obtain ⟨bytes, next, shows⟩ := ask_eq_some asked
      obtain ⟨-, pending, stop, le, -, rfl⟩ := nextRaw?_eq_some next
      refine ⟨⟨lines ++ [bytes], List.rel_append shown (.cons shows .nil), ?_⟩, start_takenTo_lt .., ?_⟩
      · rw [← whole, pending]
        simp
      · exact start_takenTo_eq_zero b stop le

/-- No sequence of appends and requests loses, adds or reorders a byte. -/
theorem Balanced.foldl_use {arrived : List UInt8} {state : LineBuffer × List Handed} (h : Balanced arrived state)
    (uses : List Use) : Balanced (arrived ++ uses.flatMap Use.bytes) (uses.foldl LineBuffer.use state) := by
  induction uses generalizing arrived state with
  | nil => simpa using h
  | cons u rest ih => simpa using ih (h.use u)

/-- **A line buffer is a queue of bytes.** After any appends and requests in any order, the lines handed out, each with
its newline, and then the pending bytes are exactly the bytes that have arrived. The position up to which bytes have
been taken is within the buffer and below 65536, and it is the start as soon as nothing is pending. A further request is
refused exactly if no newline is pending, and changes nothing then; else it takes what is pending before the first
newline. -/
theorem foldl_use_empty (uses : List Use) :
    let (b, handed) := uses.foldl use (empty, [])
    (∃ lines, List.Forall₂ Handed.Shows handed lines ∧
      lines.flatMap (· ++ [newline]) ++ b.pending = uses.flatMap Use.bytes) ∧
    (b.start ≤ b.held.size ∧ b.start < 65536 ∧ (b.pending = [] → b.start = 0)) ∧
    ∀ form,
      (b.ask form = none ↔ newline ∉ b.pending) ∧
      (newline ∉ b.pending → use (b, handed) (.ask form) = (b, handed)) ∧
      ∀ line after, b.ask form = some (line, after) →
        use (b, handed) (.ask form) = (after, handed ++ [line]) ∧
        line.Shows (b.pending.takeWhile (· != newline)) := by
  have books := Balanced.empty.foldl_use uses
  generalize uses.foldl use (empty, []) = state at books
  obtain ⟨b, handed⟩ := state
  refine ⟨books.whole, ⟨b.start_le, books.few, books.rewound⟩, fun form => ⟨ask_eq_none_iff, fun free => ?_, ?_⟩⟩
  · simp only [use, ask_eq_none_iff.2 free]
  · intro line after asked
    obtain ⟨bytes, next, shows⟩ := ask_eq_some asked
    exact ⟨by simp only [use, asked], line_of_nextRaw? next ▸ shows⟩

end CompileDb.Run.LineBuffer
