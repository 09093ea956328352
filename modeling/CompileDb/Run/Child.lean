import CompileDb.Run.Script

/-!
# Child processes

A started process, and what its observer knows of it. Two readers take what the process writes to its two streams and
send it piece by piece over one channel. After its last piece a reader says that its stream is closed, and then it lets
go of the channel. The observer asks whether the process is alive and takes what has arrived.

Process, readers and observer move at their own pace. What happens between two looks of the observer is given from
outside as a list of happenings, so that every interleaving is one choice of such lists.
-/

namespace CompileDb.Run

/-- The two streams of a process. -/
inductive Stream where
  | out
  | err
deriving DecidableEq, Repr

/-- What a reader sends. -/
inductive Message where
  | data (stream : Stream) (bytes : List UInt8)
  | closed
deriving DecidableEq, Repr

/-- The reader of one stream. -/
inductive Reader where
  /-- It has these pieces to send, and then to say that the stream is closed. -/
  | reading (pieces : List (List UInt8))
  /-- It has said that the stream is closed. -/
  | finished
  /-- It has let go of the channel. -/
  | gone
deriving DecidableEq, Repr

/-- A reader of a stream from which these reads are made. A read that brings nothing is the end of the stream. -/
def Reader.ofReads (reads : List (List UInt8)) : Reader :=
  .reading (reads.takeWhile (!·.isEmpty))

/-- What happens without the observer. -/
inductive Happening where
  /-- The reader of a stream sends its next message. -/
  | sends (stream : Stream)
  /-- The reader of a stream lets go of the channel. -/
  | letsGo (stream : Stream)
  /-- The process ends. -/
  | ends (status : ExitStatus)
  /-- From now on the system cannot tell whether the process has ended. -/
  | isLost
deriving DecidableEq, Repr

/-- A child process. -/
structure Child where
  out : Reader
  err : Reader
  /-- The messages sent and not yet received, oldest first. -/
  queue : List Message
  /-- How the process ended, once it has. -/
  ended : Option ExitStatus
  /-- The system cannot tell whether the process has ended. -/
  lost : Bool
  /-- How many streams the observer has not yet heard to be closed. -/
  openStreams : Nat
  /-- How the process ended, as far as the observer knows. -/
  status : Option ExitStatus
  /-- The observer takes the process to have ended, and does not ask any more. -/
  exited : Bool
deriving DecidableEq, Repr

/-- What the observer has taken so far, and whether the last poll brought something of each stream. -/
structure Intake where
  out : Array UInt8
  err : Array UInt8
  gotOut : Bool
  gotErr : Bool
deriving DecidableEq, Repr

namespace Intake

/-- Nothing has been taken. -/
def empty : Intake := ⟨#[], #[], false, false⟩

/-- The bytes that were taken of a stream, in order. -/
def bytes (i : Intake) : Stream → List UInt8
  | .out => i.out.toList
  | .err => i.err.toList

/-- The last poll brought something of a stream. -/
def got (i : Intake) : Stream → Bool
  | .out => i.gotOut
  | .err => i.gotErr

end Intake

/-- What a look into the channel finds. -/
inductive Receipt where
  | message (m : Message)
  /-- Nothing yet. -/
  | nothing
  /-- Nothing any more: both readers have let go of the channel. -/
  | disconnected
deriving DecidableEq, Repr

namespace Child

/-- A process that has just been started, with the reads that will be made of its two streams. -/
def start (outReads errReads : List (List UInt8)) : Child :=
  ⟨.ofReads outReads, .ofReads errReads, [], none, false, 2, none, false⟩

/-- The reader of a stream. -/
def reader (c : Child) : Stream → Reader
  | .out => c.out
  | .err => c.err

/-- Replaces the reader of a stream. -/
def withReader (c : Child) (r : Reader) : Stream → Child
  | .out => { c with out := r }
  | .err => { c with err := r }

/-- Puts a message on the channel. -/
def send (c : Child) (m : Message) : Child :=
  { c with queue := c.queue ++ [m] }

/-- One happening. One that is not possible changes nothing. -/
def happen (c : Child) : Happening → Child
  | .sends s =>
    match c.reader s with
    | .reading (piece :: rest) => (c.send (.data s piece)).withReader (.reading rest) s
    | .reading [] => (c.send .closed).withReader .finished s
    | _ => c
  | .letsGo s => if c.reader s = .finished then c.withReader .gone s else c
  | .ends status => { c with ended := c.ended <|> some status }
  | .isLost => { c with lost := true }

/-- Several happenings in order. -/
def after (c : Child) (happenings : List Happening) : Child :=
  happenings.foldl happen c

/-- Asks whether the process has ended, unless it is taken to have ended already. -/
def ask (c : Child) : Child :=
  if c.exited then c
  else if c.lost then { c with exited := true }
  else
    match c.ended with
    | some status => { c with status := some status, exited := true }
    | none => c

/-- Whether the process may still bring output: it has not ended, or not all of its output has been taken. -/
def isAlive (c : Child) : Bool × Child :=
  let c := c.ask
  (!c.exited || decide (0 < c.openStreams), c)

/-- A look into the channel. -/
def receive (c : Child) : Receipt × Child :=
  match c.queue with
  | m :: rest => (.message m, { c with queue := rest })
  | [] => if c.out = .gone ∧ c.err = .gone then (.disconnected, c) else (.nothing, c)

/-- Takes one message. -/
def accept (c : Child) (i : Intake) : Message → Child × Intake
  | .data .out bytes => (c, { i with out := i.out ++ bytes, gotOut := true })
  | .data .err bytes => (c, { i with err := i.err ++ bytes, gotErr := true })
  | .closed => ({ c with openStreams := c.openStreams - 1 }, i)

/-- Takes all that is queued while nothing else happens. -/
def takeQueued (c : Child) (i : Intake) : Child × Intake :=
  let (c, i) := c.queue.foldl (fun now m => accept now.1 now.2 m) ({ c with queue := [] }, i)
  (if c.out = .gone ∧ c.err = .gone then { c with openStreams := 0 } else c, i)

/-- Takes messages until there are none. `pauses` lists what happens before each look into the channel; nothing happens
after them. -/
def takeAll (c : Child) (i : Intake) : List (List Happening) → Child × Intake
  | [] => c.takeQueued i
  | pause :: pauses =>
    match (c.after pause).receive with
    | (.message m, c) =>
      let (c, i) := c.accept i m
      takeAll c i pauses
    | (.nothing, c) => (c, i)
    | (.disconnected, c) => ({ c with openStreams := 0 }, i)

/-- A poll: waits for a first message and takes what has arrived by then. The first pause is the wait. -/
def poll (c : Child) (i : Intake) (pauses : List (List Happening)) : Child × Intake :=
  let i := { i with gotOut := false, gotErr := false }
  if c.openStreams = 0 then (c, i) else c.takeAll i pauses

/-- The end of a process that is killed. -/
def killed : ExitStatus := .signal 9

/-- Kills the process, unless it is taken to have ended, and waits for its end. A wait that fails changes nothing. -/
def terminate (c : Child) : Child :=
  if c.exited || c.lost then c
  else
    let status := c.ended.getD killed
    { c with ended := some status, status := some status, exited := true }

/-- Polls the process until it is no longer alive, and at most once for each round of pauses. -/
def collect (c : Child) (i : Intake) : List (List (List Happening)) → Child × Intake
  | [] => (c, i)
  | pauses :: rounds =>
    match c.isAlive with
    | (false, c) => (c, i)
    | (true, c) =>
      let (c, i) := c.poll i pauses
      collect c i rounds

end Child

/-! ## What a process does -/

/-- What a process writes, in order, and how it ends. -/
structure Behaviour where
  writes : List (Stream × List UInt8)
  exit : ExitStatus
deriving DecidableEq, Repr

namespace Behaviour

/-- The most that one read takes. -/
def readLimit : Nat := 8192

/-- Bytes as reads take them. -/
def reads : List UInt8 → List (List UInt8)
  | [] => []
  | b :: rest => (b :: rest).take readLimit :: reads ((b :: rest).drop readLimit)
termination_by bytes => bytes.length
decreasing_by
  simp only [List.length_drop, List.length_cons, readLimit]
  omega

/-- What is read of a stream. -/
def readsOf (b : Behaviour) (s : Stream) : List (List UInt8) :=
  (b.writes.filter (·.1 = s)).flatMap fun w => reads w.2

/-- The process at its start. -/
def child (b : Behaviour) : Child :=
  .start (b.readsOf .out) (b.readsOf .err)

/-- A course of events in which every piece is sent when it is written, and the end comes last. -/
def rounds (b : Behaviour) : List (List (List Happening)) :=
  b.writes.flatMap (fun w => (reads w.2).map fun _ => [[.sends w.1]]) ++
    [[[.ends b.exit, .sends .out, .letsGo .out], [.sends .err, .letsGo .err]]]

end Behaviour

end CompileDb.Run
