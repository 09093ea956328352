import CompileDb.Path

/-!
# Trees of files

Files, directories, devices and links by the names that lead to them from the root, with one directory as the place from
which relative paths start. A path is followed step by step: every directory on the way has to be there, also one that
`..` leaves again, and a link on the way stands for the path it holds.
-/

namespace CompileDb

/-- A file without contents of its own. -/
inductive Device where
  /-- Always empty; what is written to it is gone. -/
  | sink
  /-- Zeros without end; what is written to it is gone. -/
  | zeros
  /-- Zeros without end; it has no room for anything. -/
  | full
  /-- What a descriptor of the process that opens it leads to. -/
  | descriptor (n : Nat)
deriving DecidableEq, Repr

/-- What stands under a name. -/
inductive Node where
  | file (bytes : List UInt8) (executable : Bool := false)
  | directory
  | device (d : Device)
  | link (target : String)
deriving DecidableEq, Repr

/-- The way to a node: the names from the root, last one first. -/
abbrev Trail := List String

/-- A tree of files. -/
structure FileTree where
  /-- Where relative paths start. -/
  home : Trail
  nodes : List (Trail × Node)
deriving Repr

/-- Why something cannot be done at a path. -/
inductive Obstacle where
  /-- Nothing is there. -/
  | missing
  | notDirectory
  | isDirectory
  /-- A path or a name in it is too long. -/
  | tooLong
  /-- Links lead to links without end. -/
  | endlessLinks
  /-- No path has a NUL character. -/
  | malformed
  /-- Something is there already. -/
  | exists
  | notEmpty
  | noRoom
deriving DecidableEq, Repr

namespace FileTree

/-- What stands at the end of a trail. The root and the directories that lead home are always there. -/
def node? (t : FileTree) (trail : Trail) : Option Node :=
  if trail.isSuffixOf t.home then some .directory else (t.nodes.find? (·.1 = trail)).map Prod.snd

/-! ## Following paths -/

/-- One step from the end of a trail, which has to be a directory. The last name need not be there. -/
def step (t : FileTree) (trail : Trail) (c : Path.Component) : Except Obstacle Trail :=
  match t.node? trail with
  | none => .error .missing
  | some .directory =>
    match c with
    | .root => .ok []
    | .here => .ok trail
    | .up => .ok trail.tail
    | .name n => if n.utf8ByteSize ≤ 255 then .ok (n :: trail) else .error .tooLong
  | some _ => .error .notDirectory

/-- How far components lead: to their end, or to the directory of a link and the components from there on. With
`through`, a link at the end counts too. -/
def advance (t : FileTree) (through : Bool) :
    Trail → List Path.Component → Except Obstacle (Trail × Option (List Path.Component))
  | trail, [] => .ok (trail, none)
  | trail, c :: rest =>
    match t.step trail c with
    | .error o => .error o
    | .ok next =>
      match t.node? next with
      | some (.link target) =>
        if rest.isEmpty ∧ ¬ through then .ok (next, none)
        else .ok (trail, some ((Path.mk target).components ++ rest))
      | _ => t.advance through next rest

/-- The trail to which components lead, over so many links at most. -/
def follow (t : FileTree) (through : Bool) : Nat → Trail → List Path.Component → Except Obstacle Trail
  | 0, _, _ => .error .endlessLinks
  | links + 1, trail, components =>
    match t.advance through trail components with
    | .error o => .error o
    | .ok (trail, none) => .ok trail
    | .ok (trail, some components) => t.follow through links trail components

/-- More links than a path leads over. -/
def linkLimit : Nat := 41

/-- The path is written as a directory: it ends in a slash or in a `.` component. -/
def namesDirectory (p : Path) : Bool :=
  match p.text.toList.reverse with
  | '/' :: _ => true
  | ['.'] => true
  | '.' :: '/' :: _ => true
  | _ => false

/-- The trail to which a path leads. A link at its end is followed if that is asked for, or if the path is written as a
directory. -/
def locateLink (t : FileTree) (through : Bool) (p : Path) : Except Obstacle Trail :=
  if p.text.isEmpty then .error .missing
  else if p.text.toList.contains '\x00' then .error .malformed
  else if 4096 ≤ p.text.utf8ByteSize then .error .tooLong
  else t.follow (through || namesDirectory p) linkLimit t.home p.components

/-- The trail to which a path leads, over all links. -/
def locate (t : FileTree) (p : Path) : Except Obstacle Trail :=
  t.locateLink true p

/-- What stands at a path. -/
def look (t : FileTree) (p : Path) : Except Obstacle Node :=
  match t.locate p with
  | .error o => .error o
  | .ok trail =>
    match t.node? trail with
    | none => .error .missing
    | some .directory => .ok .directory
    | some node => if namesDirectory p then .error .notDirectory else .ok node

/-! ## Reading -/

/-- The bytes of the file at a path. A device without end has no bytes that all could be read. -/
def read (t : FileTree) (p : Path) : Except Obstacle (List UInt8) :=
  match t.look p with
  | .error o => .error o
  | .ok .directory => .error .isDirectory
  | .ok (.file bytes _) => .ok bytes
  | .ok (.device .sink) => .ok []
  | .ok _ => .error .tooLong

/-- Whether a file stands at a path. -/
def isFile (t : FileTree) (p : Path) : Bool :=
  (t.read p).isOk

/-- The tree with the directory at a path as home, or why it cannot be entered. -/
def enter (t : FileTree) (p : Path) : Except Obstacle FileTree :=
  match t.locate p with
  | .error o => .error o
  | .ok trail =>
    match t.node? trail with
    | some .directory => .ok { t with home := trail }
    | some _ => .error .notDirectory
    | none => .error .missing

/-- The path of the home directory. -/
def homePath (t : FileTree) : Path :=
  Path.ofComponents (.root :: t.home.reverse.map .name)

/-- The names in the directory at the end of a trail. -/
def names (t : FileTree) (trail : Trail) : List String :=
  let towards : List String :=
    if trail.length < t.home.length ∧ trail.isSuffixOf t.home then (t.home[t.home.length - trail.length - 1]?).toList else []
  let here := t.nodes.filterMap fun (other, _) => if other.tail = trail ∧ other ≠ [] then other.head? else none
  (towards ++ here).eraseDups

/-! ## Changing -/

/-- Puts a node at the end of a trail. -/
def put (t : FileTree) (trail : Trail) (node : Node) : FileTree :=
  { t with nodes := (trail, node) :: t.nodes.filter (·.1 ≠ trail) }

/-- Writes the file at a trail, in a directory that is there. -/
def writeAt (t : FileTree) (trail : Trail) (bytes : List UInt8) : Except Obstacle FileTree :=
  match t.node? trail with
  | some .directory => .error .isDirectory
  | some (.file _ executable) => .ok (t.put trail (.file bytes executable))
  | some (.device .full) => if bytes.isEmpty then .ok t else .error .noRoom
  | some _ => .ok t
  | none =>
    match t.node? trail.tail with
    | some .directory => .ok (t.put trail (.file bytes))
    | _ => .error .missing

/-- Writes the file at a path, in a directory that is there. There is room for all bytes. -/
def write (t : FileTree) (p : Path) (bytes : List UInt8) : Except Obstacle FileTree :=
  match t.locate p with
  | .error o => .error o
  | .ok trail => if namesDirectory p then .error .isDirectory else t.writeAt trail bytes

/-- Writes the file at a path where there is room for so many bytes, if not for all. What the file held is gone as soon
as it can be written at all, and the bytes that there was room for stay in it. -/
def writeWithin (t : FileTree) (room : Option Nat) (p : Path) (bytes : List UInt8) : FileTree × Option Obstacle :=
  let kept := bytes.take (room.getD bytes.length)
  match t.write p kept with
  | .error o => (t, some o)
  | .ok after => (after, if kept.length < bytes.length then some .noRoom else none)

/-- Takes away the node at the end of a trail, with all that is below it. -/
def remove (t : FileTree) (trail : Trail) : FileTree :=
  { t with nodes := t.nodes.filter fun (other, _) => !trail.isSuffixOf other }

/-- Moves the node at the end of a trail, with all that is below it, in place of what is at another one. -/
def move (t : FileTree) (source target : Trail) : FileTree :=
  let moved := t.nodes.filterMap fun (other, node) =>
    if source.isSuffixOf other then some (other.take (other.length - source.length) ++ target, node) else none
  let t := (t.remove target).remove source
  { t with nodes := moved ++ t.nodes }

/-- The trail of a new node at a path, in a directory that is there. -/
def vacant (t : FileTree) (p : Path) : Except Obstacle Trail :=
  match t.locateLink false p with
  | .error o => .error o
  | .ok trail =>
    if (t.node? trail).isSome then .error .exists
    else
      match t.node? trail.tail with
      | some .directory => .ok trail
      | some _ => .error .notDirectory
      | none => .error .missing

/-- Makes a directory. -/
def makeDirectory (t : FileTree) (p : Path) : Except Obstacle FileTree :=
  (t.vacant p).map fun trail => t.put trail .directory

/-- Puts a node at a path, with the directories that lead to it. -/
def plant (t : FileTree) (p : Path) (node : Node) : FileTree :=
  let follow (place : FileTree × Trail) (c : Path.Component) : FileTree × Trail :=
    let (t, trail) := place
    let t := if (t.node? trail).isSome then t else t.put trail .directory
    match c with
    | .root => (t, [])
    | .here => (t, trail)
    | .up => (t, trail.tail)
    | .name n => (t, n :: trail)
  let (t, trail) := p.components.foldl follow (t, t.home)
  t.put trail node

/-- An empty directory as home. -/
def atHome (home : Trail) : FileTree := ⟨home, []⟩

end FileTree

end CompileDb
