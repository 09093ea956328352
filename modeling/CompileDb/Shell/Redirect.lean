import CompileDb.Shell.Field
import CompileDb.Shell.State

/-!
# Redirecting descriptors

Descriptors are led elsewhere for a command and back when it is done. Where they led before is kept in descriptors that
are private to the shell.
-/

namespace CompileDb.Shell

open Host

/-- Where a descriptor is led, once the words are worked out. -/
inductive Destination where
  | file (path : String) (access : Access)
  /-- A file to be written, unless it is there and should be kept. -/
  | newFile (path : String)
  /-- To where another descriptor leads. -/
  | copy (source : Nat)
  | nowhere
  /-- To a document, by its number. It is worked out when the descriptor is led there. -/
  | document (number : Nat)
  | text (octets : List Char)

def freePrivate (ds : Descriptors) : Nat :=
  let candidates := (List.range (ds.length + 1)).map (· + privateDescriptor)
  (candidates.find? fun d => (ds.lookup d).isNone).getD privateDescriptor

/-- Moves a descriptor out of the way. The private one comes back that leads there now, unless it led nowhere. -/
def setAside (descriptor : Nat) : ShellAction (Option Nat) := do
  let ds ← onHost Action.descriptors
  if (ds.lookup descriptor).isNone then return none
  let slot := freePrivate ds
  onHost (Action.move descriptor slot)
  return some slot

def openMessage (creates : Bool) : Refusal → String
  | .path .missing => if creates then "Directory nonexistent" else "No such file"
  | .path .notDirectory => if creates then "Directory nonexistent" else "No such file"
  | r => r.message

def openOrGiveUp (path : String) (access : Access) : ShellAction Nat := do
  match ← onHost (Action.openFile (Text.ofOctets path) access) with
  | .ok d => return d
  | .error r =>
    let creates := access ≠ .read
    let verb := if creates then "create" else "open"
    giveUp s!"cannot {verb} {path}: {openMessage creates r}"

def openText (octets : List Char) : ShellAction Nat := do
  let (source, target) ← onHost Action.openPipe
  let bytes := Text.narrow octets
  if bytes.length ≤ 4096 then
    let _ ← onHost (Action.write target bytes)
  else
    let _ ← onHost (Action.fork do
      Action.close source
      for signal in [2, 3, 1, 13] do Action.handle signal (if signal = 13 then .default else .ignored)
      let _ ← Action.write target bytes
      return 0)
  onHost (Action.close target)
  return source

/-- Opens a destination. Nothing comes back for one that needs no opening. -/
def openDestination : Destination → ShellAction (Option Nat)
  | .file path access => some <$> openOrGiveUp path access
  | .newFile path => do
    match (← onHost Action.files).look (pathOf path) with
    | .ok (.file ..) => giveUp s!"cannot create {path}: File exists"
    | _ => some <$> openOrGiveUp path .write
  | .text octets => some <$> openText octets
  | _ => return none

/-- Notes where a descriptor led before it was redirected, if that is not yet known of this command. -/
def noteRedirected (descriptor : Nat) (keep : ShellAction (Option Nat)) : ShellAction Unit := do
  match (← get).redirected with
  | [] => return
  | top :: _ =>
    if (top.lookup descriptor).isSome then return
    let slot ← keep
    modify fun s => match s.redirected with
      | top :: outer => { s with redirected := ((descriptor, slot) :: top) :: outer }
      | [] => s

/-- Leads a descriptor to a destination. With `saves`, it can be led back. -/
def redirectOne (saves : Bool) (descriptor : Nat) (destination : Destination) : ShellAction Unit := do
  match destination with
  | .copy source =>
    if source = descriptor then return
    if saves then noteRedirected descriptor (setAside descriptor)
    let ds ← onHost Action.descriptors
    if (ds.lookup source).isNone then giveUp s!"{source}: Bad file descriptor"
    onHost (Action.duplicate source descriptor)
  | .nowhere =>
    if saves then noteRedirected descriptor (setAside descriptor)
    onHost (Action.close descriptor)
  | destination =>
    match ← openDestination destination with
    | none => return
    | some d =>
      if saves then noteRedirected descriptor (if d = descriptor then pure none else setAside descriptor)
      onHost (Action.move d descriptor)

/-- Descriptors will be redirected until `leadBack`. -/
def beginRedirecting : ShellAction Unit :=
  modify fun s => { s with redirected := [] :: s.redirected }

/-- Leads the descriptors back that were redirected last, or lets them stay as they are. -/
def leadBack (stay : Bool) : ShellAction Unit := do
  match (← get).redirected with
  | [] => return
  | top :: outer =>
    for (d, slot) in top do
      match slot with
      | some slot => if stay then onHost (Action.close slot) else onHost (Action.move slot d)
      | none => if !stay then onHost (Action.close d)
    modify fun s => { s with redirected := outer }

/-- Leads descriptors back until only so many commands have redirected some. -/
def leadBackTo (depth : Nat) : Nat → ShellAction Unit
  | 0 => return
  | fuel + 1 => do
    if depth < (← get).redirected.length then
      leadBack false
      leadBackTo depth fuel

def leadAllBack : ShellAction Unit := do
  leadBackTo 0 (← get).redirected.length

end CompileDb.Shell
