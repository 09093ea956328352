import CompileDb.Run.LineBuffer

/-!
# The lines of a stream

A stream as a whole has complete lines, and behind its last newline a fragment. A line buffer that gets the stream in
pieces hands out these lines and keeps the fragment, wherever the cuts are: everything follows from
`completeLines_append` and `fragment_append`, by which a piece is framed together with the fragment before it.
-/

namespace CompileDb.Run

/-- The complete lines of a stream, without their newlines. -/
def completeLines (bytes : List UInt8) : List (List UInt8) :=
  (bytes.splitOn newline).dropLast

/-- What follows the last newline of a stream. -/
def fragment (bytes : List UInt8) : List UInt8 :=
  (bytes.splitOn newline).getLast (List.splitOn_ne_nil newline bytes)

theorem completeLines_of_notMem {bytes : List UInt8} (h : newline ∉ bytes) : completeLines bytes = [] := by
  simp [completeLines, List.splitOn_eq_singleton h]

theorem fragment_of_notMem {bytes : List UInt8} (h : newline ∉ bytes) : fragment bytes = bytes := by
  simp [fragment, List.splitOn_eq_singleton h]

/-- A newline completes the line before it. -/
theorem completeLines_line {line : List UInt8} (h : newline ∉ line) (rest : List UInt8) :
    completeLines (line ++ newline :: rest) = line :: completeLines rest := by
  simp only [completeLines, List.splitOn_append_cons_self_of_not_mem h]
  exact List.dropLast_cons_of_ne_nil (List.splitOn_ne_nil newline rest)

theorem fragment_line {line : List UInt8} (h : newline ∉ line) (rest : List UInt8) :
    fragment (line ++ newline :: rest) = fragment rest := by
  simp only [fragment, List.splitOn_append_cons_self_of_not_mem h]
  exact List.getLast_cons (List.splitOn_ne_nil newline rest)

/-- A stream is a fragment, or a line before a shorter stream. -/
theorem stream_induction {motive : List UInt8 → Prop} (piece : ∀ bytes, newline ∉ bytes → motive bytes)
    (line : ∀ line rest, newline ∉ line → motive rest → motive (line ++ newline :: rest)) (bytes : List UInt8) :
    motive bytes := by
  induction h : bytes.length using Nat.strongRecOn generalizing bytes with
  | ind n ih =>
    by_cases has : newline ∈ bytes
    · obtain ⟨front, rest, rfl, free⟩ := List.eq_append_cons_of_mem has
      exact line front rest free (ih rest.length (by simp at h; omega) rest rfl)
    · exact piece bytes has

/-- The lines of a stream in two pieces: those of the first, then those that the second piece ends. -/
theorem completeLines_append (a b : List UInt8) :
    completeLines (a ++ b) = completeLines a ++ completeLines (fragment a ++ b) := by
  induction a using stream_induction with
  | piece bytes free => rw [completeLines_of_notMem free, fragment_of_notMem free, List.nil_append]
  | line line rest free ih =>
    rw [List.append_assoc, List.cons_append, completeLines_line free, completeLines_line free, fragment_line free, ih,
      List.cons_append]

/-- The unfinished line depends on the earlier bytes only through theirs. -/
theorem fragment_append (a b : List UInt8) : fragment (a ++ b) = fragment (fragment a ++ b) := by
  induction a using stream_induction with
  | piece bytes free => rw [fragment_of_notMem free]
  | line line rest free ih => rw [List.append_assoc, List.cons_append, fragment_line free, fragment_line free, ih]

theorem newline_notMem_fragment (bytes : List UInt8) : newline ∉ fragment bytes := by
  induction bytes using stream_induction with
  | piece bytes free => rwa [fragment_of_notMem free]
  | line line rest free ih => rwa [fragment_line free]

/-- The lines and the fragment are the whole stream. -/
theorem flatMap_completeLines_append_fragment (bytes : List UInt8) :
    (completeLines bytes).flatMap (· ++ [newline]) ++ fragment bytes = bytes := by
  induction bytes using stream_induction with
  | piece bytes free => simp [completeLines_of_notMem free, fragment_of_notMem free]
  | line line rest free ih =>
    rw [completeLines_line free, fragment_line free, List.flatMap_cons, List.append_assoc, ih]
    simp

namespace LineBuffer

/-- A line taken ends before its newline. -/
theorem notMem_of_nextRaw? {b after : LineBuffer} {line : List UInt8} (h : b.nextRaw? = some (line, after)) :
    newline ∉ line :=
  (nextRaw?_eq_some h).1

/-- The line taken is the first of the pending stream. -/
theorem completeLines_of_nextRaw? {b after : LineBuffer} {line : List UInt8} (h : b.nextRaw? = some (line, after)) :
    completeLines b.pending = line :: completeLines after.pending := by
  rw [pending_of_nextRaw? h, completeLines_line (notMem_of_nextRaw? h)]

/-- Taking a line leaves the unfinished one as it is. -/
theorem fragment_of_nextRaw? {b after : LineBuffer} {line : List UInt8} (h : b.nextRaw? = some (line, after)) :
    fragment b.pending = fragment after.pending := by
  rw [pending_of_nextRaw? h, fragment_line (notMem_of_nextRaw? h)]

end LineBuffer

end CompileDb.Run
