import CompileDb.Text

/-!
# Line buffers

Bytes arrive in pieces and leave as lines. A line is taken only once its newline has arrived. Bytes that were taken
stay in front of the pending ones for a while, so that not every line moves the rest of the buffer. They are dropped
when nothing else is held, or when too many of them have come together.
-/

namespace CompileDb.Run

/-- The byte that ends a line. -/
def newline : UInt8 := 10

/-- Where the first newline stands, from a position on. -/
def newlineFrom (bytes : Array UInt8) (i : Nat) : Option Nat :=
  if h : i < bytes.size then
    if bytes[i] = newline then some i else newlineFrom bytes (i + 1)
  else none
termination_by bytes.size - i

/-- No newline is found exactly if there is none. -/
theorem newlineFrom_eq_none_iff {bytes : Array UInt8} {i : Nat} :
    newlineFrom bytes i = none ↔ newline ∉ bytes.toList.drop i := by
  fun_induction newlineFrom bytes i with
  | case1 i inside found =>
    rw [List.drop_eq_getElem_cons (by simpa using inside)]
    simp [found]
  | case2 i inside other ih =>
    rw [List.drop_eq_getElem_cons (by simpa using inside), ih]
    simp [Ne.symm other]
  | case3 i outside =>
    rw [List.drop_eq_nil_of_le (by simpa using outside)]
    simp

/-- A newline that is found divides the bytes, and none stands before it. -/
theorem newlineFrom_eq_some {bytes : Array UInt8} {i stop : Nat} (h : newlineFrom bytes i = some stop) :
    i ≤ stop ∧ stop < bytes.size ∧ newline ∉ (bytes.toList.drop i).take (stop - i) ∧
      bytes.toList.drop i = (bytes.toList.drop i).take (stop - i) ++ newline :: bytes.toList.drop (stop + 1) := by
  fun_induction newlineFrom bytes i with
  | case1 i inside found =>
    obtain rfl : i = stop := Option.some.inj h
    refine ⟨Nat.le_refl i, inside, by simp, ?_⟩
    rw [List.drop_eq_getElem_cons (by simpa using inside)]
    simp [found]
  | case2 i inside other ih =>
    obtain ⟨le, lt, free, divided⟩ := ih h
    have further : stop - i = stop - (i + 1) + 1 := by omega
    rw [List.drop_eq_getElem_cons (by simpa using inside), further, List.take_succ_cons]
    refine ⟨by omega, lt, ?_, by rw [List.cons_append, ← divided]⟩
    simpa [Ne.symm other] using free
  | case3 i outside => contradiction

/-- The bytes that a buffer holds. Those before `start` have been taken. -/
structure LineBuffer where
  held : Array UInt8
  start : Nat
  start_le : start ≤ held.size
deriving DecidableEq, Repr

namespace LineBuffer

/-- A buffer without bytes. -/
def empty : LineBuffer := ⟨#[], 0, Nat.le_refl 0⟩

/-- So many taken bytes are never kept. -/
def compactAt : Nat := 65536

/-- How many bytes the buffer holds, with those that were taken. -/
def size (b : LineBuffer) : Nat := b.held.size

/-- The bytes that have not been taken. -/
def pending (b : LineBuffer) : List UInt8 := b.held.toList.drop b.start

/-- Appends bytes that have arrived. -/
def push (b : LineBuffer) (bytes : List UInt8) : LineBuffer :=
  ⟨b.held ++ bytes, b.start, by have := b.start_le; simp [← Array.length_toList] at this ⊢; omega⟩

@[simp] theorem pending_empty : empty.pending = [] := rfl

@[simp] theorem pending_push (b : LineBuffer) (bytes : List UInt8) : (b.push bytes).pending = b.pending ++ bytes := by
  have le : b.start ≤ b.held.toList.length := by simpa using b.start_le
  simp [pending, push, List.drop_append_of_le_length le]

/-- The buffer with all bytes before a position taken. -/
def takenTo (b : LineBuffer) (stop : Nat) (h : stop ≤ b.held.size) : LineBuffer :=
  if stop = b.held.size then empty
  else if compactAt ≤ stop then ⟨b.held.extract stop b.held.size, 0, Nat.zero_le _⟩
  else ⟨b.held, stop, h⟩

/-- Dropping taken bytes drops no pending ones. -/
@[simp] theorem pending_takenTo (b : LineBuffer) (stop : Nat) (h : stop ≤ b.held.size) :
    (b.takenTo stop h).pending = b.held.toList.drop stop := by
  unfold takenTo
  split
  case isTrue all => simp [all, ← Array.length_toList]
  case isFalse =>
    split
    case isTrue => simp [pending, List.take_of_length_le]
    case isFalse => rfl

/-- Takes the first complete line, without its newline. -/
def nextRaw? (b : LineBuffer) : Option (List UInt8 × LineBuffer) :=
  match h : newlineFrom b.held b.start with
  | none => none
  | some stop => some ((b.held.extract b.start stop).toList, b.takenTo (stop + 1) (newlineFrom_eq_some h).2.1)

/-- Takes the first complete line as text. -/
def next? (b : LineBuffer) : Option (String × LineBuffer) :=
  b.nextRaw?.map fun (line, b) => (Text.decodeLossy line, b)

/-- No line is taken exactly while no newline is pending. -/
theorem nextRaw?_eq_none_iff {b : LineBuffer} : b.nextRaw? = none ↔ newline ∉ b.pending := by
  rw [pending, ← newlineFrom_eq_none_iff]
  unfold nextRaw?
  split
  case h_1 missing => simp [missing]
  case h_2 stop found => simp [found]

/-- A line is taken up to the newline that was found first, and that newline with it. -/
theorem nextRaw?_eq_some {b after : LineBuffer} {line : List UInt8} (h : b.nextRaw? = some (line, after)) :
    newline ∉ line ∧ b.pending = line ++ newline :: after.pending ∧
      ∃ stop le, b.start < stop ∧ after = b.takenTo stop le := by
  unfold nextRaw? at h
  split at h
  case h_1 => contradiction
  case h_2 stop found =>
    obtain ⟨le, lt, free, divided⟩ := newlineFrom_eq_some found
    simp only [Option.some.injEq, Prod.mk.injEq, Array.toList_extract, List.extract_eq_take_drop] at h
    obtain ⟨rfl, rfl⟩ := h
    exact ⟨free, by rw [pending_takenTo]; exact divided, stop + 1, lt, by omega, rfl⟩

/-- What is pending is the line taken, its newline and what is pending afterwards. -/
theorem pending_of_nextRaw? {b after : LineBuffer} {line : List UInt8} (h : b.nextRaw? = some (line, after)) :
    b.pending = line ++ newline :: after.pending :=
  (nextRaw?_eq_some h).2.1

/-- A complete line is pending. -/
def hasLine (b : LineBuffer) : Bool := (newlineFrom b.held b.start).isSome

/-- A complete line is there iff a newline is. -/
theorem hasLine_iff {b : LineBuffer} : b.hasLine = true ↔ newline ∈ b.pending := by
  rw [hasLine, Option.isSome_iff_ne_none, Ne, newlineFrom_eq_none_iff, Decidable.not_not]
  rfl

@[simp] theorem hasLine_empty : empty.hasLine = false := by
  simp [hasLine, empty, newlineFrom]

/-- The buffer without its first complete line, if it has one. -/
def afterLine (b : LineBuffer) : LineBuffer := (b.nextRaw?.map Prod.snd).getD b

theorem length_afterLine_le (b : LineBuffer) : b.afterLine.pending.length ≤ b.pending.length := by
  unfold afterLine
  cases h : b.nextRaw? with
  | none => simp
  | some taken =>
    rw [pending_of_nextRaw? h]
    simp
    omega

/-- Taking a line shortens what is held, by its newline at least. -/
theorem length_afterLine_lt {b : LineBuffer} (has : b.hasLine = true) :
    b.afterLine.pending.length < b.pending.length := by
  unfold afterLine
  cases h : b.nextRaw? with
  | none => exact absurd (hasLine_iff.1 has) (nextRaw?_eq_none_iff.1 h)
  | some taken =>
    rw [pending_of_nextRaw? h]
    simp
    omega

/-- Takes all complete lines; `taken` is what was taken before, last line first. -/
def takeLines (b : LineBuffer) (taken : List (List UInt8)) : List (List UInt8) × LineBuffer :=
  match _h : b.nextRaw? with
  | none => (taken.reverse, b)
  | some (line, after) => takeLines after (line :: taken)
termination_by b.pending.length
decreasing_by
  rw [pending_of_nextRaw? _h]
  simp
  omega

/-- All complete lines and what is left. -/
def lines (b : LineBuffer) : List (List UInt8) × LineBuffer := b.takeLines []

end LineBuffer

end CompileDb.Run
