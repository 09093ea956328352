import CompileDb.Host.Program

/-!
# Machines

A machine carries out programs: it holds the files, the pipes and the processes, and answers one request after the other.
Its time is counted in microseconds and is not the time of day: requests take a little of it and sleeps as much as they
ask for. Whoever is ready first comes first, so what processes do beside one another has one order.
-/

namespace CompileDb.Host

open Run (Behaviour ExitStatus Stream)

/-! ## State -/

/-- What is written to a pipe and not yet read. -/
structure Pipe where
  number : Nat
  bytes : List UInt8
  size : Nat
deriving DecidableEq, Repr

/-- A process. -/
structure Process where
  number : Nat
  parent : Nat
  program : Program
  descriptors : Descriptors
  directory : Trail
  dispositions : List (Nat × Disposition)
  /-- The caught signals that the process has not yet asked for. -/
  caught : List Nat
  /-- The time from which it can go on. -/
  readyAt : Nat
  ended : Option ExitStatus

/-- A machine. -/
structure Machine where
  files : FileTree
  openings : List Opening
  pipes : List Pipe
  processes : List Process
  time : Nat
  /-- What was written to streams, the last first. -/
  output : List (Stream × List UInt8)
  /-- The next number for a process, an open file or a pipe. -/
  nextNumber : Nat
  /-- The process that was started from outside. -/
  first : Nat

/-! ## How long requests take -/

/-- A request that is answered at once. -/
def shortTime : Nat := 2

/-- Until a forked process begins. -/
def forkTime : Nat := 250

/-- Until the parent of a forked process goes on. -/
def parentTime : Nat := 60

/-- Until another program begins in a process. -/
def becomeTime : Nat := 500

def pipeCapacity : Nat := 65536

/-- The zeros that are read at once if nothing says how many. -/
def zeroCount : Nat := 65536

/-! ## Signals -/

/-- The signal that is never caught. -/
def killSignal : Nat := 9

/-- The signal for a write that nobody reads. -/
def pipeSignal : Nat := 13

def childSignal : Nat := 17

/-- Signals that do not end a process by themselves. -/
def harmlessSignals : List Nat := [0, 17, 18, 19, 20, 21, 22, 23, 28]

namespace Process

def disposition (p : Process) (signal : Nat) : Disposition :=
  if signal = killSignal then .default else (p.dispositions.lookup signal).getD .default

/-- The process goes on with a program after a time. -/
def goesOn (p : Process) (program : Program) (time : Nat) : Process :=
  { p with program, readyAt := p.readyAt + time }

/-- The lowest descriptor that is free, from another one on. -/
def freeDescriptor (p : Process) : Nat → Nat → Nat
  | 0, d => d
  | fuel + 1, d => if (p.descriptors.lookup d).isSome then p.freeDescriptor fuel (d + 1) else d

/-- Leads the lowest free descriptor to an open file. -/
def install (p : Process) (opening : Nat) : Nat × Process :=
  let d := p.freeDescriptor p.descriptors.length 0
  (d, { p with descriptors := (d, opening) :: p.descriptors })

end Process

namespace Machine

def update (m : Machine) (p : Process) : Machine :=
  { m with processes := m.processes.map fun q => if q.number = p.number then p else q }

def opening? (m : Machine) (p : Process) (descriptor : Nat) : Option Opening :=
  (p.descriptors.lookup descriptor).bind fun n => m.openings.find? (·.number = n)

def holds (m : Machine) (pipe : Nat) (access : Access) : Bool :=
  m.processes.any fun q => q.ended.isNone && q.descriptors.any fun (_, n) =>
    m.openings.any fun o => o.number = n && o.source = .pipe pipe && o.access = access

def pipe (m : Machine) (number : Nat) : Pipe :=
  (m.pipes.find? (·.number = number)).getD ⟨number, [], 0⟩

def children (m : Machine) (p : Process) (which : Option Nat) : List Process :=
  m.processes.filter fun q => q.parent = p.number && which.all (· = q.number)

/-- Whether the next request of a process can be answered. -/
def isReady (m : Machine) (p : Process) : Bool :=
  p.ended.isNone &&
  match p.program with
  | .read d _ _ =>
    match m.opening? p d with
    | some ⟨_, .pipe n, _, _⟩ => 0 < (m.pipe n).size || !m.holds n .write
    | _ => true
  | .write d _ _ =>
    match m.opening? p d with
    | some ⟨_, .pipe n, _, _⟩ => (m.pipe n).size < pipeCapacity || !m.holds n .read
    | _ => true
  | .wait child wakes _ =>
    let candidates := m.children p child
    candidates.isEmpty || candidates.any (·.ended.isSome) || (wakes && !p.caught.isEmpty)
  | _ => true

/-- Forgets the open files to which no descriptor leads any more. -/
def tidied (m : Machine) : Machine :=
  let isHeld (o : Opening) : Bool := m.processes.any fun p => p.descriptors.any (·.2 = o.number)
  let openings := m.openings.filter isHeld
  { m with openings, pipes := m.pipes.filter fun pipe => openings.any (·.source = .pipe pipe.number) }

/-! ## Ends and signals -/

/-- A process ends, and its parent hears of it. Its children have no parent from then on, and nobody waits for those that
have ended. -/
def finish (m : Machine) (p : Process) (exit : ExitStatus) : Machine :=
  let m := m.update { p with ended := some exit, descriptors := [] }
  let hasParent (q : Process) : Bool := m.processes.any fun r => r.number = q.parent && r.ended.isNone
  let after (q : Process) : Process :=
    if q.parent = p.number then { q with parent := 1 }
    else if q.number = p.parent && q.disposition childSignal = .caught then { q with caught := q.caught ++ [childSignal] }
    else q
  { m with
    processes := (m.processes.map after).filter fun q => q.ended.isNone || q.number = m.first || hasParent q }.tidied

def deliver (m : Machine) (p : Process) (signal : Nat) : Machine :=
  if p.ended.isSome then m
  else
    match p.disposition signal with
    | .ignored => m
    | .caught => m.update { p with caught := p.caught ++ [signal] }
    | .default => if harmlessSignals.contains signal then m else m.finish p (.signal signal)

/-! ## Files -/

/-- The part of some bytes that is read, and how many bytes that takes. -/
def part (amount : Amount) (bytes : List UInt8) : List UInt8 :=
  match amount with
  | .upTo n => bytes.take n
  | .available => bytes
  | .line => bytes.takeWhile (· ≠ 10) ++ (bytes.dropWhile (· ≠ 10)).take 1

def updateOpening (m : Machine) (o : Opening) : Machine :=
  { m with openings := m.openings.map fun q => if q.number = o.number then o else q }

def updatePipe (m : Machine) (pipe : Pipe) : Machine :=
  { m with pipes := m.pipes.map fun q => if q.number = pipe.number then pipe else q }

/-- Zeros that are read. -/
def zeros (amount : Amount) : List UInt8 :=
  List.replicate (match amount with | .upTo n => n | _ => zeroCount) 0

def readFrom (m : Machine) (o : Opening) (amount : Amount) : Except Refusal (List UInt8) × Machine :=
  match o.source with
  | .file trail =>
    match m.files.node? trail with
    | some (.file bytes _) =>
      let bytes := part amount (bytes.drop o.position)
      (.ok bytes, m.updateOpening { o with position := o.position + bytes.length })
    | _ => (.ok [], m)
  | .directory => (.error (.path .isDirectory), m)
  | .device .zeros => (.ok (zeros amount), m)
  | .device .full => (.ok (zeros amount), m)
  | .pipe n =>
    let pipe := m.pipe n
    let bytes := part amount pipe.bytes
    let count := bytes.length
    (.ok bytes, m.updatePipe { pipe with bytes := pipe.bytes.drop count, size := pipe.size - count })
  | _ => (.ok [], m)

/-- The contents of a file after bytes were written at a position. -/
def overwritten (old : List UInt8) (position : Nat) (bytes : List UInt8) : List UInt8 :=
  old.take position ++ List.replicate (position - old.length) 0 ++ bytes ++ old.drop (position + bytes.length)

def writeTo (m : Machine) (o : Opening) (bytes : List UInt8) : Except Refusal Unit × Machine :=
  match o.source with
  | .file trail =>
    match m.files.node? trail with
    | some (.file old executable) =>
      let position := if o.access = .append then old.length else o.position
      let files := m.files.put trail (.file (overwritten old position bytes) executable)
      (.ok (), { m with files }.updateOpening { o with position := position + bytes.length })
    | _ => (.ok (), m)
  | .device .full => (if bytes.isEmpty then .ok () else .error (.path .noRoom), m)
  | .stream s => (.ok (), if bytes.isEmpty then m else { m with output := (s, bytes) :: m.output })
  | _ => (.ok (), m)

def install (m : Machine) (p : Process) (source : Source) (access : Access) : Nat × Process × Machine :=
  let (d, p) := p.install m.nextNumber
  (d, p, { m with
    openings := ⟨m.nextNumber, source, access, 0⟩ :: m.openings
    nextNumber := m.nextNumber + 1 })

/-- Where a path leads that is opened. -/
inductive Goal where
  | source (s : Source)
  /-- A file that is empty from now on. -/
  | emptied (trail : Trail)
  /-- Where a descriptor leads. -/
  | descriptor (n : Nat)

/-- Finds out where a path leads that is opened. -/
def goal (files : FileTree) (path : Path) (access : Access) : Except Obstacle Goal := do
  let trail ← files.locate path
  match files.node? trail, access with
  | some (.device (.descriptor n)), _ => return .descriptor n
  | some (.device d), _ => return .source (.device d)
  | some .directory, .read => return .source .directory
  | some .directory, _ => throw .isDirectory
  | some _, .write => if FileTree.namesDirectory path then throw .notDirectory else return .emptied trail
  | some _, _ => if FileTree.namesDirectory path then throw .notDirectory else return .source (.file trail)
  | none, .read => throw .missing
  | none, _ =>
    if FileTree.namesDirectory path then throw .isDirectory
    else
      match files.node? trail.tail with
      | some .directory => return .emptied trail
      | some _ => throw .notDirectory
      | none => throw .missing

def openFile (m : Machine) (p : Process) (path : String) (access : Access) : Except Refusal Nat × Process × Machine :=
  match goal { m.files with home := p.directory } ⟨path⟩ access with
  | .error o => (.error (.path o), p, m)
  | .ok (.source s) =>
    let (d, p, m) := m.install p s access
    (.ok d, p, m)
  | .ok (.emptied trail) =>
    let executable := match m.files.node? trail with
      | some (.file _ executable) => executable
      | _ => false
    let (d, p, m) := { m with files := m.files.put trail (.file [] executable) }.install p (.file trail) access
    (.ok d, p, m)
  | .ok (.descriptor n) =>
    match p.descriptors.lookup n with
    | none => (.error (.path .missing), p, m)
    | some number =>
      let (d, p) := p.install number
      (.ok d, p, m)

/-! ## Answering requests -/

/-- Answers a write. A pipe takes what it has room for, and the rest is to be written later. -/
def answerWrite (m : Machine) (p : Process) (descriptor : Nat) (bytes : List UInt8)
    (next : Except Refusal Unit → Program) : Machine :=
  match m.opening? p descriptor with
  | none => m.update (p.goesOn (next (.error .badDescriptor)) shortTime)
  | some o =>
    if o.access = .read then m.update (p.goesOn (next (.error .badDescriptor)) shortTime)
    else
      match o.source with
      | .pipe n =>
        if !m.holds n .read then
          match p.disposition pipeSignal with
          | .default => m.finish p (.signal pipeSignal)
          | _ => m.update (p.goesOn (next (.error .noReader)) shortTime)
        else
          let pipe := m.pipe n
          let now := bytes.take (pipeCapacity - pipe.size)
          let count := now.length
          let m := m.updatePipe { pipe with bytes := pipe.bytes ++ now, size := pipe.size + count }
          match bytes.drop count with
          | [] => m.update (p.goesOn (next (.ok ())) shortTime)
          | later => m.update (p.goesOn (.write descriptor later next) shortTime)
      | _ =>
        let (answer, m) := m.writeTo o bytes
        m.update (p.goesOn (next answer) shortTime)

def answerWait (m : Machine) (p : Process) (child : Option Nat) (next : Awaited → Program) : Machine :=
  match (m.children p child).find? (·.ended.isSome) with
  | some q =>
    match q.ended with
    | some exit =>
      let m := m.update (p.goesOn (next (.ended q.number exit)) shortTime)
      { m with processes := m.processes.filter (·.number ≠ q.number) }
    | none => m
  | none =>
    let awaited := if (m.children p child).isEmpty then Awaited.nobody else .interrupted
    m.update (p.goesOn (next awaited) shortTime)

/-- Answers the next request of a process that is ready. -/
def step (m : Machine) (p : Process) : Machine :=
  let now := max m.time p.readyAt
  let m := { m with time := now }
  let p := { p with readyAt := now }
  match p.program with
  | .exit status => m.finish p (.code (status % 256))
  | .read d amount next =>
    match m.opening? p d with
    | none => m.update (p.goesOn (next (.error .badDescriptor)) shortTime)
    | some o =>
      if o.access = .write ∨ o.access = .append then m.update (p.goesOn (next (.error .badDescriptor)) shortTime)
      else
        let (answer, m) := m.readFrom o amount
        m.update (p.goesOn (next answer) shortTime)
  | .unread d count next =>
    let m := match m.opening? p d with
      | some o => m.updateOpening { o with position := o.position - count }
      | none => m
    m.update (p.goesOn next shortTime)
  | .write d bytes next => m.answerWrite p d bytes next
  | .openFile path access next =>
    let (answer, p, m) := m.openFile p path access
    m.update (p.goesOn (next answer) shortTime)
  | .openPipe next =>
    let number := m.nextNumber
    let m := { m with pipes := ⟨number, [], 0⟩ :: m.pipes, nextNumber := number + 1 }
    let (source, p, m) := m.install p (.pipe number) .read
    let (target, p, m) := m.install p (.pipe number) .write
    m.update (p.goesOn (next source target) shortTime)
  | .arrange change next =>
    let old := p.descriptors
    (m.update ({ p with descriptors := change old }.goesOn (next old) shortTime)).tidied
  | .onFiles act =>
    let (files, next) := act { m.files with home := p.directory }
    { m with files }.update ({ p with directory := files.home }.goesOn next shortTime)
  | .sleep time next => m.update (p.goesOn next time)
  | .fork child next =>
    let number := m.nextNumber
    let q := { p with number, parent := p.number, program := child, caught := [], readyAt := now + forkTime }
    let m := { m with nextNumber := number + 1 }.update (p.goesOn (next number) parentTime)
    { m with processes := m.processes ++ [q] }
  | .wait child _ next => m.answerWait p child next
  | .signal target number next =>
    match m.processes.find? (·.number = target) with
    | none => m.update (p.goesOn (next false) shortTime)
    | some q =>
      let p := p.goesOn (next true) shortTime
      let m := m.update p
      m.deliver (if q.number = p.number then p else q) number
  | .handle number disposition next =>
    let rest := p.dispositions.filter (·.1 ≠ number)
    m.update ({ p with dispositions := (number, disposition) :: rest }.goesOn next shortTime)
  | .caught next => m.update ({ p with caught := [] }.goesOn (next p.caught) shortTime)
  | .become next =>
    m.update ({ p with
      dispositions := p.dispositions.filter (·.2 = Disposition.ignored)
      descriptors := p.descriptors.filter (·.1 < privateDescriptor) }.goesOn next becomeTime)
  | .opening d next => m.update (p.goesOn (next (m.opening? p d)) shortTime)
  | .ownNumber next => m.update (p.goesOn (next p.number) shortTime)
  | .parentNumber next => m.update (p.goesOn (next p.parent) shortTime)

/-- The process that comes next so far, after one more has been looked at. -/
def sooner (m : Machine) (best : Option Process) (p : Process) : Option Process :=
  if m.isReady p then
    match best with
    | some q => if p.readyAt < q.readyAt then some p else best
    | none => some p
  else best

/-- The process that comes next: of those that are ready, the one that could go on first. -/
def next? (m : Machine) : Option Process := m.processes.foldl m.sooner none

/-- Answers so many requests, or as many as there are. -/
def run : Nat → Machine → Machine
  | 0, m => m
  | fuel + 1, m =>
    match m.next? with
    | none => m
    | some p => run fuel (m.step p)

/-! ## From outside -/

/-- A machine on which a program has been started: it reads nothing, and what it writes is seen from outside. -/
def start (files : FileTree) (program : Program) : Machine :=
  { files
    openings := [⟨3, .device .sink, .read, 0⟩, ⟨4, .stream .out, .write, 0⟩, ⟨5, .stream .err, .write, 0⟩]
    pipes := []
    processes := [⟨2, 1, program, [(0, 3), (1, 4), (2, 5)], files.home, [], [], 0, none⟩]
    time := 0
    output := []
    nextNumber := 6
    first := 2 }

/-- The requests that a started program may make, with all processes that come of it. -/
def requestLimit : Nat := 20000000

/-- What is seen of a program from outside. -/
def behaviour (files : FileTree) (program : Program) : Behaviour :=
  let m := run requestLimit (start files program)
  let ended := (m.processes.find? (·.number = m.first)).bind (·.ended)
  ⟨m.output.reverse, ended.getD (.code 0)⟩

end Machine

end CompileDb.Host
