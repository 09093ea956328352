import CompileDb.Run.Child
import Mathlib.Data.List.TakeWhile

/-!
# Collected output

The end of a process, the ends of its two streams and the last pieces can come to its observer in any order.
`Child.Accounts` keeps the books of the channel: where each piece is, and which streams the observer has yet to hear to be
closed. It holds after every course of events (`Accounts.move`), and from it comes `Child.moves_keep_output`: no piece is
missing once the process is found not to be alive. What a process is known to write is collected as a whole
(`Behaviour.collect_rounds`).
-/

namespace CompileDb.Run

/-! ## The books -/

/-- The pieces that are read from a stream. A read that brings nothing is the end. -/
def piecesOf (reads : List (List UInt8)) : List (List UInt8) :=
  reads.takeWhile (!·.isEmpty)

/-- The pieces still to be sent. -/
def Reader.left : Reader → List (List UInt8)
  | reading pieces => pieces
  | _ => []

/-- The reader is still to say that its stream is closed. -/
def Reader.isOpen : Reader → Bool
  | reading _ => true
  | _ => false

/-- Bytes have come in behind those of before, and the answers say of which streams. -/
def Intake.Since (before after : Intake) : Prop :=
  ∀ s, ∃ more, after.bytes s = before.bytes s ++ more ∧ (after.got s = true ↔ more ≠ [])

/-- The piece of a stream that a message holds. -/
def Message.piece? (s : Stream) : Message → Option (List UInt8)
  | data t bytes => if t = s then some bytes else none
  | closed => none

namespace Child

/-- The pieces of a stream on the channel. -/
def queued (c : Child) (s : Stream) : List (List UInt8) :=
  c.queue.filterMap (Message.piece? s)

/-- The same child with another channel. -/
abbrev withQueue (c : Child) (queue : List Message) : Child :=
  { c with queue }

/-- The number of readers that are still to say that their stream is closed. -/
def openReaders (c : Child) : Nat :=
  c.out.isOpen.toNat + c.err.isOpen.toNat

/-- The books of the channel. -/
structure Accounts (pieces : Stream → List (List UInt8)) (c : Child) (i : Intake) : Prop where
  /-- Each piece of a stream has been taken, or it is on the channel, or it is still to be sent. -/
  kept : ∀ s, ∃ taken, taken ++ c.queued s ++ (c.reader s).left = pieces s ∧ i.bytes s = taken.flatten
  /-- A stream counts as open until the observer has heard that it is closed. -/
  counted : c.openStreams = c.queue.count .closed + c.openReaders
  /-- Once both readers have said that their stream is closed, the channel does not end with a piece. -/
  last : c.openReaders = 0 → ∀ m, c.queue.getLast? = some m → m = .closed

variable {pieces : Stream → List (List UInt8)} {c : Child} {i : Intake} {s t : Stream} {r : Reader}

/-- Replacing one stream's reader leaves the other one. -/
theorem reader_withReader : (c.withReader r s).reader t = if t = s then r else c.reader t := by
  cases s <;> cases t <;> rfl

@[simp] theorem queue_withReader : (c.withReader r s).queue = c.queue := by
  cases s <;> rfl

@[simp] theorem openStreams_withReader : (c.withReader r s).openStreams = c.openStreams := by
  cases s <;> rfl

theorem openReaders_withReader :
    (c.withReader r s).openReaders + (c.reader s).isOpen.toNat = c.openReaders + r.isOpen.toNat := by
  cases s <;> simp only [openReaders, withReader, reader] <;> omega

/-- A reader still open is one of those counted. -/
theorem isOpen_le_openReaders (c : Child) (s : Stream) : (c.reader s).isOpen.toNat ≤ c.openReaders := by
  cases s <;> simp only [openReaders, reader] <;> omega

/-- At the start everything is still to be read and nothing is queued. -/
theorem accounts_start (reads : Stream → List (List UInt8)) :
    Accounts (fun s => piecesOf (reads s)) (start (reads .out) (reads .err)) .empty where
  kept := by
    intro s
    cases s <;> exact ⟨[], rfl, rfl⟩
  counted := rfl
  last := by
    intro closed
    cases closed

/-! ## What happens without the observer -/

namespace Accounts

/-- A reader sends a message that it has to send. -/
theorem send (a : Accounts pieces c i) {m : Message}
    (piece : (m.piece? s).toList ++ r.left = (c.reader s).left) (other : ∀ t, t ≠ s → m.piece? t = none)
    (closes : [m].count .closed + r.isOpen.toNat = (c.reader s).isOpen.toNat) (last : r.isOpen = false → m = .closed) :
    Accounts pieces ((c.send m).withReader r s) i := by
  have readers : ((c.send m).withReader r s).openReaders + (c.reader s).isOpen.toNat =
      c.openReaders + r.isOpen.toNat := (c.send m).openReaders_withReader
  refine ⟨fun t => ?_, ?_, fun closed m' final => ?_⟩
  · obtain ⟨taken, all, bytes⟩ := a.kept t
    refine ⟨taken, ?_, bytes⟩
    have queued : ((c.send m).withReader r s).queued t = c.queued t ++ (m.piece? t).toList := by
      cases piece : m.piece? t <;> simp [Child.queued, Child.send, piece]
    rw [queued, reader_withReader, ← all]
    by_cases same : t = s
    · subst same
      rw [if_pos rfl, ← piece]
      simp only [List.append_assoc]
    · rw [if_neg same, other t same, Option.toList_none, List.append_nil]
      rfl
  · have counted : c.openStreams = c.queue.count .closed + c.openReaders := a.counted
    have count : (c.send m).queue.count .closed = c.queue.count .closed + [m].count .closed := List.count_append
    have same : (c.send m).openStreams = c.openStreams := rfl
    rw [openStreams_withReader, queue_withReader, count, same]
    omega
  · have least := ((c.send m).withReader r s).isOpen_le_openReaders s
    rw [reader_withReader, if_pos rfl, closed, Nat.le_zero] at least
    rw [queue_withReader] at final
    simp only [Child.send, List.getLast?_concat, Option.some.injEq] at final
    rw [← final]
    exact last (by simpa using least)

/-- A reader that has sent everything lets go of the channel. -/
theorem letGo (a : Accounts pieces c i) (finished : c.reader s = .finished) :
    Accounts pieces (c.withReader .gone s) i := by
  have readers : (c.withReader .gone s).openReaders = c.openReaders := by
    have readers := @openReaders_withReader c s .gone
    rwa [finished] at readers
  refine ⟨fun t => ?_, ?_, ?_⟩
  · obtain ⟨taken, all, bytes⟩ := a.kept t
    refine ⟨taken, ?_, bytes⟩
    have left : ((c.withReader .gone s).reader t).left = (c.reader t).left := by
      rw [reader_withReader]
      split
      case isTrue same => rw [same, finished]; rfl
      case isFalse => rfl
    rw [left, ← all, Child.queued, queue_withReader]
    rfl
  · rw [openStreams_withReader, queue_withReader, readers]
    exact a.counted
  · rw [queue_withReader, readers]
    exact a.last

/-- No event loses, duplicates or reorders a stream's pieces. -/
theorem happen (a : Accounts pieces c i) (h : Happening) : Accounts pieces (c.happen h) i := by
  cases h with
  | sends s =>
    unfold Child.happen
    dsimp only
    split
    case h_1 piece rest reading =>
      refine a.send ?_ ?_ ?_ ?_
      · rw [reading]
        simp [Message.piece?, Reader.left]
      · intro t other
        simp [Message.piece?, other.symm]
      · rw [reading]
        rfl
      · intro closed
        cases closed
    case h_2 reading =>
      refine a.send ?_ ?_ ?_ ?_
      · rw [reading]
        rfl
      · intros
        rfl
      · rw [reading]
        rfl
      · intros
        rfl
    case h_3 => exact a
  | letsGo s =>
    unfold Child.happen
    dsimp only
    split
    case isTrue finished => exact a.letGo finished
    case isFalse => exact a
  | ends status => exact ⟨a.kept, a.counted, a.last⟩
  | isLost => exact ⟨a.kept, a.counted, a.last⟩

end Accounts

/-! ## What the observer takes -/

/-- Accepting a message changes the count of open streams and nothing else of the child. -/
theorem accept_fst (c : Child) (i : Intake) (m : Message) :
    (c.accept i m).1 = { c with openStreams := c.openStreams - [m].count .closed } := by
  cases m with
  | data s => cases s <;> rfl
  | closed => rfl

/-- Taking a message does not depend on those behind it. -/
theorem accept_withQueue (c : Child) (i : Intake) (m : Message) (queue queue' : List Message) :
    (c.withQueue queue).accept i m =
      (((c.withQueue queue').accept i m).1.withQueue queue, ((c.withQueue queue').accept i m).2) := by
  cases m with
  | data s => cases s <;> rfl
  | closed => rfl

/-- A piece goes to the end of its own stream's bytes. -/
theorem bytes_accept (c : Child) (i : Intake) (m : Message) (t : Stream) :
    (c.accept i m).2.bytes t = i.bytes t ++ (m.piece? t).toList.flatten := by
  cases m with
  | data s bytes => cases s <;> cases t <;> simp [accept, Intake.bytes, Message.piece?]
  | closed => simp [accept, Message.piece?]

theorem got_accept (c : Child) (i : Intake) (m : Message) (t : Stream) :
    (c.accept i m).2.got t = (i.got t || (m.piece? t).isSome) := by
  cases m with
  | data s bytes => cases s <;> cases t <;> simp [accept, Intake.got, Message.piece?]
  | closed => simp [accept, Message.piece?]

theorem queued_of_queue {m : Message} {rest : List Message} (queue : c.queue = m :: rest) (t : Stream) :
    c.queued t = (m.piece? t).toList ++ rest.filterMap (Message.piece? t) := by
  unfold queued
  rw [queue, List.filterMap_cons]
  cases m.piece? t <;> rfl

/-- Taking a message moves its piece from the queue to the bytes received. -/
theorem Accounts.accept (a : Accounts pieces c i) {m : Message} {rest : List Message} (queue : c.queue = m :: rest) :
    Accounts pieces ((c.withQueue rest).accept i m).1 ((c.withQueue rest).accept i m).2 := by
  rw [accept_fst]
  refine ⟨fun t => ?_, ?_, fun closed m' final => ?_⟩
  · obtain ⟨taken, all, bytes⟩ := a.kept t
    refine ⟨taken ++ (m.piece? t).toList, ?_, ?_⟩
    · rw [← all, queued_of_queue queue, ← List.append_assoc]
      rfl
    · rw [bytes_accept, bytes, List.flatten_append]
  · have counted := a.counted
    rw [queue, ← List.singleton_append, List.count_append] at counted
    show c.openStreams - [m].count .closed = rest.count .closed + c.openReaders
    omega
  · refine a.last closed m' ?_
    rw [queue, List.getLast?_cons, show rest.getLast? = some m' from final]
    rfl

/-- While both readers are gone and the channel is empty, no stream counts as open. -/
theorem Accounts.disconnect (a : Accounts pieces c i) (queue : c.queue = []) (gone : c.out = .gone ∧ c.err = .gone) :
    Accounts pieces { c with openStreams := 0 } i := by
  refine ⟨a.kept, ?_, a.last⟩
  show 0 = c.queue.count .closed + c.openReaders
  rw [queue, openReaders, gone.1, gone.2]
  rfl

/-- What every event keeps, any sequence of events keeps. -/
theorem after_induction {P : Child → Prop} (happens : ∀ c h, P c → P (c.happen h)) (happenings : List Happening)
    (holds : P c) : P (c.after happenings) := by
  induction happenings generalizing c with
  | nil => exact holds
  | cons h rest ih => exact ih (happens c h holds)

section Induction

variable {P : Child → Intake → Prop}
  (happens : ∀ c i h, P c i → P (c.happen h) i)
  (takes : ∀ c i m rest, c.queue = m :: rest → P c i →
    P ((c.withQueue rest).accept i m).1 ((c.withQueue rest).accept i m).2)
  (closes : ∀ c i, c.queue = [] → c.out = .gone ∧ c.err = .gone → P c i → P { c with openStreams := 0 } i)

include takes closes in
/-- Taking all that is queued empties the channel, and keeps what taking each message keeps. -/
theorem takeQueued_induction (holds : P c i) :
    (c.takeQueued i).1.queue = [] ∧ P (c.takeQueued i).1 (c.takeQueued i).2 := by
  have all : ∀ (queue : List Message) (c : Child) (i : Intake), c.queue = queue → P c i →
      ∃ c' i', queue.foldl (fun now m => accept now.1 now.2 m) (c.withQueue [], i) = (c', i') ∧
        c'.queue = [] ∧ P c' i' := by
    intro queue
    induction queue with
    | nil =>
      intro c i empty holds
      refine ⟨c, i, ?_, empty, holds⟩
      rw [List.foldl_nil, ← empty]
    | cons m rest ih =>
      intro c i queue holds
      have behind : ((c.withQueue rest).accept i m).1.queue = rest := by rw [accept_fst]
      obtain ⟨c', i', fold, empty, holds⟩ := ih _ _ behind (takes c i m rest queue holds)
      refine ⟨c', i', ?_, empty, holds⟩
      rw [List.foldl_cons, ← fold]
      dsimp only
      rw [accept_withQueue c i m [] rest]
  obtain ⟨c', i', fold, empty, holds⟩ := all c.queue c i rfl holds
  unfold takeQueued
  rw [fold]
  dsimp only
  split
  case isTrue gone => exact ⟨empty, closes c' i' empty gone holds⟩
  case isFalse => exact ⟨empty, holds⟩

include happens takes closes in
/-- What every happening and every message taken keeps is kept when messages are taken until there are none. -/
theorem takeAll_induction (pauses : List (List Happening)) (holds : P c i) :
    P (c.takeAll i pauses).1 (c.takeAll i pauses).2 := by
  induction pauses generalizing c i with
  | nil => exact (takeQueued_induction takes closes holds).2
  | cons pause pauses ih =>
    have later : P (c.after pause) i := after_induction (P := (P · i)) (fun c h => happens c i h) pause holds
    unfold takeAll receive
    cases queue : (c.after pause).queue with
    | cons m rest => exact ih (takes _ i m rest queue later)
    | nil =>
      dsimp only
      by_cases gone : (c.after pause).out = .gone ∧ (c.after pause).err = .gone
      · rw [if_pos gone]
        exact closes _ i queue gone later
      · rw [if_neg gone]
        exact later

end Induction

/-! ## Polls -/

theorem since_forgotten (i : Intake) : i.Since { i with gotOut := false, gotErr := false } := by
  intro s
  refine ⟨[], ?_, ?_⟩
  · rw [List.append_nil]
    cases s <;> rfl
  · cases s <;> simp [Intake.got]

/-- A message brings its piece, and a stream counts as heard from iff bytes came. -/
theorem since_accept {before : Intake} (since : before.Since i) {m : Message} (piece : ∀ s, m.piece? s ≠ some []) :
    before.Since (c.accept i m).2 := by
  intro s
  obtain ⟨more, bytes, got⟩ := since s
  refine ⟨more ++ (m.piece? s).toList.flatten, ?_, ?_⟩
  · rw [bytes_accept, bytes, List.append_assoc]
  · rw [got_accept, Bool.or_eq_true, got]
    cases brought : m.piece? s with
    | none => simp
    | some bytes =>
      have bytes_ne : bytes ≠ [] := fun empty => piece s (by rw [brought, empty])
      simp [bytes_ne]

/-- A poll keeps the books. It brings bytes only behind those taken before, and its answers say of which streams. -/
theorem Accounts.poll (a : Accounts pieces c i) (nonempty : ∀ s, [] ∉ pieces s) (pauses : List (List Happening)) :
    Accounts pieces (c.poll i pauses).1 (c.poll i pauses).2 ∧ i.Since (c.poll i pauses).2 := by
  have forgotten : Accounts pieces c { i with gotOut := false, gotErr := false } := ⟨a.kept, a.counted, a.last⟩
  unfold Child.poll
  dsimp only
  split
  case isTrue => exact ⟨forgotten, since_forgotten i⟩
  case isFalse =>
    refine takeAll_induction (P := fun c now => Accounts pieces c now ∧ i.Since now) ?_ ?_ ?_ pauses
      ⟨forgotten, since_forgotten i⟩
    · rintro c now h ⟨a, since⟩
      exact ⟨a.happen h, since⟩
    · rintro c now m rest queue ⟨a, since⟩
      refine ⟨a.accept queue, since_accept since fun s empty => nonempty s ?_⟩
      obtain ⟨taken, all, -⟩ := a.kept s
      rw [← all, queued_of_queue queue, empty]
      simp
    · rintro c now queue gone ⟨a, since⟩
      exact ⟨a.disconnect queue gone, since⟩

/-- Asking for the exit status touches no stream. -/
theorem Accounts.ask (a : Accounts pieces c i) : Accounts pieces c.ask i := by
  unfold Child.ask
  split
  · exact a
  · split
    · exact ⟨a.kept, a.counted, a.last⟩
    · split
      · exact ⟨a.kept, a.counted, a.last⟩
      · exact a

/-- Nor does terminating the child: what was read stays queued. -/
theorem Accounts.terminate (a : Accounts pieces c i) : Accounts pieces c.terminate i := by
  unfold Child.terminate
  split
  · exact a
  · exact ⟨a.kept, a.counted, a.last⟩

/-- No stream counts as open exactly if nothing is on the channel and nothing is still to be sent. -/
theorem Accounts.closed_iff (a : Accounts pieces c i) : c.openStreams = 0 ↔ c.queue = [] ∧ c.openReaders = 0 := by
  have counted := a.counted
  constructor
  · intro closed
    have ended : c.openReaders = 0 := by omega
    refine ⟨?_, ended⟩
    -- The last message on the channel would say that a stream is closed, but no such message is left.
    cases last : c.queue.getLast? with
    | none => exact List.getLast?_eq_none_iff.mp last
    | some m =>
      have mem := List.mem_of_getLast? last
      rw [a.last ended m last] at mem
      have := List.count_pos_iff.mpr mem
      omega
  · rintro ⟨queue, ended⟩
    rw [counted, queue, ended]
    rfl

/-- When no stream counts as open, everything has been taken. -/
theorem Accounts.all_taken (a : Accounts pieces c i) (closed : c.openStreams = 0) (s : Stream) :
    i.bytes s = (pieces s).flatten := by
  obtain ⟨queue, ended⟩ := a.closed_iff.mp closed
  have left : (c.reader s).left = [] := by
    have least := c.isOpen_le_openReaders s
    cases reader : c.reader s with
    | reading =>
      rw [reader, ended] at least
      contradiction
    | finished => rfl
    | gone => rfl
  obtain ⟨taken, all, bytes⟩ := a.kept s
  rw [bytes, ← all, left, queued, queue]
  simp

/-- A process is not alive any more when it is taken to have ended and no stream counts as open. -/
theorem isAlive_eq_false_iff :
    c.isAlive.1 = false ↔ (c.exited = true ∨ c.lost = true ∨ c.ended.isSome = true) ∧ c.openStreams = 0 := by
  unfold isAlive ask
  cases exited : c.exited with
  | true => simp [exited]
  | false =>
    cases lost : c.lost with
    | true => simp
    | false => cases ended : c.ended <;> simp [exited]

/-- A poll during which nothing happens empties the channel. -/
theorem Accounts.queue_poll_nil (a : Accounts pieces c i) : (c.poll i []).1.queue = [] := by
  unfold Child.poll
  dsimp only
  split
  case isTrue closed => exact (a.closed_iff.mp closed).1
  case isFalse =>
    exact (takeQueued_induction (P := fun _ _ => True) (fun _ _ _ _ _ _ => trivial) (fun _ _ _ _ _ => trivial)
      trivial).1

/-! ## Every course of events -/

/-- What can come next: something happens, or the observer does something. -/
inductive Move where
  | happens (h : Happening)
  /-- The observer asks whether the process is alive. -/
  | asks
  /-- The observer polls, and the pauses of the poll are filled with what happens meanwhile. -/
  | polls (pauses : List (List Happening))
  /-- The observer kills the process. -/
  | terminates

/-- One move. -/
def move : Child × Intake → Move → Child × Intake
  | (c, i), .happens h => (c.happen h, i)
  | (c, i), .asks => (c.isAlive.2, i)
  | (c, i), .polls pauses => c.poll i pauses
  | (c, i), .terminates => (c.terminate, i)

/-- Every move keeps the accounts of both streams. -/
theorem Accounts.move (a : Accounts pieces c i) (nonempty : ∀ s, [] ∉ pieces s) (m : Move) :
    Accounts pieces (Child.move (c, i) m).1 (Child.move (c, i) m).2 := by
  cases m with
  | happens h => exact a.happen h
  | asks => exact a.ask
  | polls pauses => exact (a.poll nonempty pauses).1
  | terminates => exact a.terminate

/-- So does any sequence of moves. -/
theorem Accounts.foldl_move (a : Accounts pieces c i) (nonempty : ∀ s, [] ∉ pieces s) (moves : List Move) :
    Accounts pieces (moves.foldl Child.move (c, i)).1 (moves.foldl Child.move (c, i)).2 := by
  induction moves generalizing c i with
  | nil => exact a
  | cons m rest ih => exact ih (a.move nonempty m)

/-- An empty read means the end and is never sent on. -/
theorem nil_notMem_piecesOf (reads : List (List UInt8)) : [] ∉ piecesOf reads := by
  intro mem
  have all : (piecesOf reads).all (!·.isEmpty) = true := List.all_takeWhile
  cases List.all_eq_true.mp all [] mem

/-- **No output is lost.** However the sends of the readers, the end of the process and the doings of the observer
follow each other: what has been taken of a stream is its first pieces, whole and in order, those on the channel come
next, and those that the reader still has come last. The next poll brings bytes only behind these, answers that a stream
has brought something exactly if it has, and takes all that is queued if nothing happens meanwhile. The process is alive
until it has ended and the last message has been sent and taken. Once it is not, all that the readers have read has
been taken. -/
theorem moves_keep_output (reads : Stream → List (List UInt8)) (moves : List Move) :
    let (c, i) := moves.foldl move (start (reads .out) (reads .err), .empty)
    (∀ s, ∃ taken, taken ++ c.queued s ++ (c.reader s).left = piecesOf (reads s) ∧ i.bytes s = taken.flatten) ∧
      (∀ pauses s, ∃ more, (c.poll i pauses).2.bytes s = i.bytes s ++ more ∧
        ((c.poll i pauses).2.got s = true ↔ more ≠ [])) ∧
      (c.poll i []).1.queue = [] ∧
      (c.isAlive.1 = false ↔
        (c.exited = true ∨ c.lost = true ∨ c.ended.isSome = true) ∧ c.queue = [] ∧ c.openReaders = 0) ∧
      (c.isAlive.1 = false → ∀ s, i.bytes s = (piecesOf (reads s)).flatten) := by
  have nonempty : ∀ s, [] ∉ piecesOf (reads s) := fun s => nil_notMem_piecesOf (reads s)
  have a := (accounts_start reads).foldl_move nonempty moves
  refine ⟨a.kept, fun pauses => (a.poll nonempty pauses).2, a.queue_poll_nil, ?_, fun dead => ?_⟩
  · rw [isAlive_eq_false_iff, a.closed_iff]
  · exact a.all_taken (isAlive_eq_false_iff.mp dead).2

/-- A piece is sent after the end of the process, and is taken all the same. -/
example :
    let (c, i) := [.happens (.ends (.code 0)), .asks, .polls [[]], .polls [[.sends .out]],
      .polls [[.sends .out, .letsGo .out], [.sends .err]]].foldl move (start [[7, 8]] [], .empty)
    c.isAlive.1 = false ∧ i.bytes .out = [7, 8] := by decide

/-! ## One course of events -/

/-- A process that runs, with these pieces still to be sent and nothing on the channel. -/
def running (left : Stream → List (List UInt8)) : Child :=
  ⟨.reading (left .out), .reading (left .err), [], none, false, 2, none, false⟩

/-- The pieces of one stream among those of both. -/
def ofStream (pieces : List (Stream × List UInt8)) (s : Stream) : List (List UInt8) :=
  (pieces.filter (·.1 = s)).map Prod.snd

/-- A round in which one piece is sent brings just that piece. -/
theorem collect_piece {left after : Stream → List (List UInt8)} {s : Stream} {piece : List UInt8}
    (sent : ∀ t, left t = if t = s then piece :: after t else after t) (i : Intake)
    (rounds : List (List (List Happening))) :
    ∃ i', (∀ t, i'.bytes t = i.bytes t ++ if t = s then piece else []) ∧
      (running left).collect i ([[.sends s]] :: rounds) = (running after).collect i' rounds := by
  have out := sent .out
  have err := sent .err
  cases s with
  | out =>
    refine ⟨{ i with out := i.out ++ piece, gotOut := true, gotErr := false }, ?_, ?_⟩
    · intro t
      cases t <;> simp [Intake.bytes]
    · simp only [running, if_true, reduceCtorEq, if_false] at out err ⊢
      rw [out, err]
      rfl
  | err =>
    refine ⟨{ i with err := i.err ++ piece, gotErr := true, gotOut := false }, ?_, ?_⟩
    · intro t
      cases t <;> simp [Intake.bytes]
    · simp only [running, if_true, reduceCtorEq, if_false] at out err ⊢
      rw [out, err]
      rfl

/-- Rounds in which the pieces are sent one by one bring all of them. -/
theorem collect_pieces (pieces : List (Stream × List UInt8)) (i : Intake) (rounds : List (List (List Happening))) :
    ∃ i', (∀ t, i'.bytes t = i.bytes t ++ (ofStream pieces t).flatten) ∧
      (running (ofStream pieces)).collect i ((pieces.map fun p => [[.sends p.1]]) ++ rounds) =
        (running (ofStream [])).collect i' rounds := by
  induction pieces generalizing i with
  | nil => exact ⟨i, fun t => (List.append_nil _).symm, rfl⟩
  | cons p pieces ih =>
    have sent : ∀ t, ofStream (p :: pieces) t = if t = p.1 then p.2 :: ofStream pieces t else ofStream pieces t := by
      intro t
      by_cases same : p.1 = t
      · simp [ofStream, same]
      · simp [ofStream, same, Ne.symm same]
    obtain ⟨i', bytes, first⟩ := collect_piece sent i ((pieces.map fun p => [[.sends p.1]]) ++ rounds)
    obtain ⟨i'', bytes', later⟩ := ih i'
    refine ⟨i'', fun t => ?_, first.trans later⟩
    rw [bytes', bytes, sent, List.append_assoc]
    split <;> rfl

end Child

namespace Behaviour

/-- Reading in full buffers cuts the bytes into pieces, none of them empty. -/
theorem reads_cut (bytes : List UInt8) : (reads bytes).flatten = bytes ∧ [] ∉ reads bytes := by
  induction bytes using reads.induct with
  | case1 => simp [reads]
  | case2 b rest ih =>
    rw [reads]
    refine ⟨by rw [List.flatten_cons, ih.1, List.take_append_drop], ?_⟩
    rw [List.mem_cons, not_or]
    exact ⟨by simp [readLimit], ih.2⟩

/-- The pieces in which a process writes. -/
def pieces (b : Behaviour) : List (Stream × List UInt8) := b.writes.flatMap fun w => (reads w.2).map (w.1, ·)

theorem ofStream_pieces (b : Behaviour) (s : Stream) : Child.ofStream b.pieces s = b.readsOf s := by
  unfold pieces readsOf Child.ofStream
  induction b.writes with
  | nil => rfl
  | cons w writes ih =>
    rw [List.flatMap_cons, List.filter_append, List.map_append, ih]
    by_cases same : w.1 = s
    · simp [same, List.filter_map, Function.comp_def]
    · simp [same, List.filter_map, Function.comp_def]

theorem rounds_eq (b : Behaviour) :
    b.rounds = (b.pieces.map fun p => [[.sends p.1]]) ++
      [[[.ends b.exit, .sends .out, .letsGo .out], [.sends .err, .letsGo .err]]] := by
  simp [rounds, pieces, List.map_flatMap, Function.comp_def]

/-- The scripted child is the running one with its pieces laid out in rounds. -/
theorem child_eq_running (b : Behaviour) : b.child = .running (Child.ofStream b.pieces) := by
  have whole : ∀ s, (b.readsOf s).takeWhile (!·.isEmpty) = b.readsOf s := by
    intro s
    refine List.takeWhile_eq_self_iff.2 fun piece mem => ?_
    obtain ⟨w, -, read⟩ := List.mem_flatMap.1 mem
    rw [Bool.not_eq_true', List.isEmpty_eq_false_iff]
    rintro rfl
    exact (reads_cut w.2).2 read
  simp [child, Child.start, Reader.ofReads, whole, Child.running, ofStream_pieces]

/-- **All that a process writes is collected**: when its observer is done, the process is no longer alive, its end is
known, and what has been taken of each stream is what was written to it, in order. -/
theorem collect_rounds (b : Behaviour) :
    let (c, i) := b.child.collect .empty (b.rounds ++ [[]])
    c.isAlive.1 = false ∧ c.status = some b.exit ∧
      ∀ s, i.bytes s = (b.writes.filter (·.1 = s)).flatMap Prod.snd := by
  obtain ⟨i, bytes, collected⟩ := Child.collect_pieces b.pieces .empty
    [[[.ends b.exit, .sends .out, .letsGo .out], [.sends .err, .letsGo .err]], []]
  have ended : (Child.running (Child.ofStream [])).collect i
      [[[.ends b.exit, .sends .out, .letsGo .out], [.sends .err, .letsGo .err]], []] =
      (⟨.gone, .gone, [], some b.exit, false, 0, some b.exit, true⟩, { i with gotOut := false, gotErr := false }) := rfl
  rw [child_eq_running, rounds_eq, List.append_assoc]
  rw [List.singleton_append, collected, ended]
  refine ⟨rfl, rfl, fun s => ?_⟩
  have all : (b.readsOf s).flatten = (b.writes.filter (·.1 = s)).flatMap Prod.snd := by
    rw [readsOf, List.flatten_eq_flatMap, List.flatMap_assoc]
    simp only [← List.flatten_eq_flatMap, (reads_cut _).1]
  rw [← all, ← ofStream_pieces]
  cases s with
  | out => exact bytes .out
  | err => exact bytes .err

end Behaviour

end CompileDb.Run
