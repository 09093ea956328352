import CompileDb.Shell.Tool.Place
import CompileDb.Utility.Report

/-!
# Utilities for files

Utilities that list, make, move and remove files and directories.
-/

namespace CompileDb.Utility

open Host

def pathOf (octets : String) : Path := ⟨Text.ofOctets octets⟩

def obstacleText (o : Obstacle) : String := (Refusal.path o).message

/-- Does something for each operand. Each of them may bring a complaint. -/
def forEach (inv : Invocation) (operands : List String) (act : String → Action (Option String)) : Action Nat := do
  let complaints ← operands.filterMapM act
  Report.deliver ⟨[], complaints, if complaints.isEmpty then 0 else 1⟩ inv.name

def needsOperand (inv : Invocation) (operands : List String) (what : String) (next : Action Nat) : Action Nat :=
  if operands.isEmpty then misused inv.name s!"missing {what}" 1 else next

/-- Changes the files, with a complaint that begins like this if that is not possible. -/
def changeOr (before : String) (act : FileTree → Except Obstacle FileTree) : Action (Option String) := do
  match ← Action.change act with
  | .ok () => return none
  | .error o => return some s!"{before}: {obstacleText o}"

def lastName (path : String) : String := (((path.splitOn "/").filter (!·.isEmpty)).getLast?).getD path

def inside (directory name : String) : String :=
  if directory.toList.getLast? = some '/' then directory ++ name else directory ++ "/" ++ name

/-! ## Directories -/

/-- The directories that lead to a path, with it as the last one. -/
def waysTo (path : String) : List String :=
  let names := path.splitOn "/"
  let ways := (List.range names.length).map fun n => "/".intercalate (names.take (n + 1))
  ways.filter fun w => !w.isEmpty && w.toList.getLast? ≠ some '/'

def isDirectoryAt (files : FileTree) (path : String) : Bool := (files.look (pathOf path)).toOption = some .directory

def mkdir (inv : Invocation) : Action Nat :=
  withOptions ⟨"pv", "m", [("parents", 'p'), ("verbose", 'v'), ("mode", 'm')]⟩ 1 inv fun options operands =>
    needsOperand inv operands "operand" do
      let make (parents : Bool) (path : String) : Action (Option String) := do
        let files ← Action.files
        if parents && isDirectoryAt files path then return none
        match ← Action.change fun files => files.makeDirectory (pathOf path) with
        | .ok () =>
          if has options 'v' then
            let _ ← write 1 s!"{inv.name}: created directory {quoted path}\n".toList
          return none
        | .error o => return some s!"cannot create directory {quoted path}: {obstacleText o}"
      forEach inv operands fun path => do
        if has options 'p' then
          let files ← Action.files
          -- a file on the way, but not at its end, is no directory
          match (waysTo path).dropLast.find? fun way => (files.look (pathOf way)).isOk && !isDirectoryAt files way with
          | some way => return some s!"cannot create directory {quoted way}: Not a directory"
          | none => return (← (waysTo path).filterMapM (make true)).head?
        else make false path

/-- Whether a directory at the end of a trail is empty. -/
def isEmptyDirectory (files : FileTree) (trail : Trail) : Bool := (files.names trail).isEmpty

def removeDirectory (files : FileTree) (path : String) : Except Obstacle FileTree := do
  let trail ← files.locateLink false (pathOf path)
  match files.node? trail with
  | none => throw .missing
  | some .directory => if isEmptyDirectory files trail then return files.remove trail else throw .notEmpty
  | some _ => throw .notDirectory

/-- Removes empty directories. -/
def rmdir (inv : Invocation) : Action Nat :=
  withOptions ⟨"pv", "", [("parents", 'p'), ("verbose", 'v')]⟩ 1 inv fun options operands =>
    needsOperand inv operands "operand" do
      let one (path : String) : Action (Option String) :=
        changeOr s!"failed to remove {quoted path}" fun files => removeDirectory files path
      forEach inv operands fun path => do
        if has options 'p' then
          let paths := (waysTo path).reverse
          return (← paths.filterMapM one).head?
        else one path

/-! ## Removing -/

/-- What is told of a directory that is removed, with all that is below it. -/
def removals (files : FileTree) (path : String) (trail : Trail) : String :=
  go 4096 path trail ++ s!"removed directory {quoted path}\n"
where
  /-- What is told of what is in a directory. -/
  go : Nat → String → Trail → String
  | 0, _, _ => ""
  | fuel + 1, path, trail => String.join ((files.names trail).map fun n =>
    let inner := inside path (Text.octets n)
    match files.node? (n :: trail) with
    | some .directory => go fuel inner (n :: trail) ++ s!"removed directory {quoted inner}\n"
    | _ => s!"removed {quoted inner}\n")

/-- Removes files and directories. -/
def rm (inv : Invocation) : Action Nat :=
  withOptions ⟨"rRfivd", "", [("recursive", 'r'), ("force", 'f'), ("verbose", 'v'), ("dir", 'd')]⟩ 1 inv
    fun options operands => do
      let forced := has options 'f'
      if operands.isEmpty then
        if forced then return 0 else misused inv.name "missing operand" 1
      else
        let deep := has options 'r' || has options 'R'
        forEach inv operands fun path => do
          let files ← Action.files
          let name := (((path.splitOn "/").filter (!·.isEmpty)).getLast?).getD path
          if deep && (name = "." || name = "..") then
            return some s!"refusing to remove \x27.\x27 or \x27..\x27 directory: skipping {quoted path}"
          match files.locateLink false (pathOf path) with
          | .error o =>
            return if forced && (o = .missing || o = .notDirectory) then none
              else some s!"cannot remove {quoted path}: {obstacleText o}"
          | .ok trail =>
            match files.node? trail with
            | none => return if forced then none else some s!"cannot remove {quoted path}: No such file or directory"
            | some .directory =>
              if !deep && !(has options 'd' && isEmptyDirectory files trail) then
                return some s!"cannot remove {quoted path}: Is a directory"
              else
                if has options 'v' then
                  let _ ← write 1 (removals files path trail).toList
                changeOr s!"cannot remove {quoted path}" fun files => .ok (files.remove trail)
            | some _ =>
              if FileTree.namesDirectory (pathOf path) then return some s!"cannot remove {quoted path}: Not a directory"
              else
                if has options 'v' then
                  let _ ← write 1 s!"removed {quoted path}\n".toList
                changeOr s!"cannot remove {quoted path}" fun files => .ok (files.remove trail)

/-! ## Making and linking -/

def touch (inv : Invocation) : Action Nat :=
  withOptions ⟨"acmh", "drt", [("no-create", 'c'), ("date", 'd'), ("reference", 'r')]⟩ 1 inv fun options operands =>
    needsOperand inv operands "file operand" do
      forEach inv operands fun path => do
        let files ← Action.files
        match files.look (pathOf path) with
        | .ok _ => return none
        | .error .missing =>
          if has options 'c' then return none
          else changeOr s!"cannot touch {quoted path}" fun files => files.write (pathOf path) []
        | .error o => return some s!"setting times of {quoted path}: {obstacleText o}"

/-- The sources and the targets of operands, the last of which is the target or a directory for targets. -/
def pairsOf (files : FileTree) (operands : List String) : Except String (List (String × String)) :=
  match operands.getLast? with
  | none => .ok []
  | some target =>
    let sources := operands.dropLast
    if isDirectoryAt files target then .ok (sources.map fun s => (s, inside target (lastName s)))
    else
      match sources with
      | [source] => .ok [(source, target)]
      | _ =>
        let reason := if (files.look (pathOf target)).isOk then "Not a directory" else "No such file or directory"
        .error s!"target {quoted target}: {reason}"

/-- Goes on with pairs of a source and a target. -/
def withPairs (inv : Invocation) (options : List (Char × String)) (operands : List String)
    (act : String → String → Action (Option String)) : Action Nat := do
  let operands := match valueOf? options 't' with
    | some target => operands ++ [target]
    | none => operands
  match operands with
  | [] => misused inv.name "missing file operand" 1
  | [only] => misused inv.name s!"missing destination file operand after {quoted only}" 1
  | operands =>
    match pairsOf (← Action.files) operands with
    | .error text =>
      complain inv.name text
      return 1
    | .ok pairs =>
      let complaints ← pairs.filterMapM fun (source, target) => act source target
      Report.deliver ⟨[], complaints, if complaints.isEmpty then 0 else 1⟩ inv.name

/-- The node at a path, without following a link at its end unless that is asked for. -/
def nodeAt (files : FileTree) (through : Bool) (path : String) : Except Obstacle (Trail × Node) := do
  let trail ← files.locateLink through (pathOf path)
  match files.node? trail with
  | some .directory => return (trail, .directory)
  | some node => if FileTree.namesDirectory (pathOf path) then throw .notDirectory else return (trail, node)
  | none => throw .missing

def ln (inv : Invocation) : Action Nat :=
  withOptions ⟨"sfnvrTi", "t", [("symbolic", 's'), ("force", 'f'), ("no-dereference", 'n'), ("verbose", 'v')]⟩ 1 inv
    fun options operands => do
      let isSymbolic := has options 's'
      let kind := if isSymbolic then "symbolic link" else "hard link"
      let operands := if operands.length = 1 then operands ++ [lastName (operands.headD "")] else operands
      withPairs inv options operands fun source target => do
        let files ← Action.files
        let node := if isSymbolic then Except.ok (.link (Text.ofOctets source))
          else (nodeAt files false source).map Prod.snd
        match node with
        | .error o => return some s!"failed to access {quoted source}: {obstacleText o}"
        | .ok .directory => return some s!"{source}: hard link not allowed for directory"
        | .ok node =>
          let before := if isSymbolic then s!"failed to create {kind} {quoted target}"
            else s!"failed to create {kind} {quoted target} => {quoted source}"
          changeOr before fun files => do
            let files := if has options 'f' then ((files.locateLink false (pathOf target)).toOption.map files.remove).getD files
              else files
            match files.vacant (pathOf target) with
            | .error .exists => throw .exists
            | .error o => throw o
            | .ok trail => return files.put trail node

/-- Shows where links lead. -/
def readlink (inv : Invocation) : Action Nat :=
  withOptions ⟨"fenmqsvz", "", [("canonicalize", 'f'), ("no-newline", 'n')]⟩ 1 inv fun options operands =>
    needsOperand inv operands "operand" do
      let files ← Action.files
      let ending := if has options 'n' then "" else "\n"
      let found := operands.map fun path =>
        if has options 'f' || has options 'e' || has options 'm' then
          ((files.locate (pathOf path)).toOption.map fun trail =>
            Path.text (Path.ofComponents (.root :: trail.reverse.map .name)))
        else
          match nodeAt files false path with
          | .ok (_, .link target) => some target
          | _ => none
      let text := String.join (found.filterMap fun t => t.map fun t => Text.octets t ++ ending)
      Report.deliver ⟨text.toList, [], if found.all Option.isSome then 0 else 1⟩ inv.name

/-- Shows paths without links. -/
def realpath (inv : Invocation) : Action Nat :=
  withOptions ⟨"emsqz", "", []⟩ 1 inv fun _ operands =>
    needsOperand inv operands "operand" do
      let files ← Action.files
      let real (path : String) : Except Obstacle String := do
        let trail ← files.locate (pathOf path)
        match files.node? trail, files.node? trail.tail with
        | none, none => throw .missing
        | _, _ => return Path.text (Path.ofComponents (.root :: trail.reverse.map .name))
      let found := operands.map fun path => (path, real path)
      let text := String.join (found.filterMap fun (_, t) => t.toOption.map fun t => Text.octets t ++ "\n")
      let faults := found.filterMap fun (path, t) => match t with
        | .error o => some s!"{path}: {obstacleText o}"
        | .ok _ => none
      Report.deliver ⟨text.toList, faults, if faults.isEmpty then 0 else 1⟩ inv.name

/-! ## Copying and moving -/

def below (files : FileTree) (trail : Trail) : List (Trail × Node) :=
  files.nodes.filterMap fun (other, node) =>
    if trail.isSuffixOf other then some (other.take (other.length - trail.length), node) else none

def copyTo (deep follows : Bool) (source target : String) (files : FileTree) : Except String FileTree := do
  let said {α : Type} (before : String) (r : Except Obstacle α) : Except String α :=
    r.mapError fun o => s!"{before}: {obstacleText o}"
  let (trail, node) ← said s!"cannot stat {quoted source}" (nodeAt files follows source)
  match node with
  | .directory =>
    if !deep then throw s!"-r not specified; omitting directory {quoted source}"
    let goal ← said s!"cannot create directory {quoted target}" (files.locate (pathOf target))
    if trail.isSuffixOf goal then throw s!"cannot copy a directory, {quoted source}, into itself, {quoted target}"
    match files.node? goal with
    | some .directory => return (below files trail).foldl (fun t (rest, node) => t.put (rest ++ goal) node) files
    | some _ => throw s!"cannot overwrite non-directory {quoted target} with directory {quoted source}"
    | none =>
      let place ← said s!"cannot create directory {quoted target}" (files.vacant (pathOf target))
      return (below files trail).foldl (fun t (rest, node) => t.put (rest ++ place) node) (files.put place .directory)
  | node =>
    if FileTree.namesDirectory (pathOf target) then throw s!"cannot create regular file {quoted target}: Not a directory"
    let goal ← said s!"cannot create regular file {quoted target}" (files.locate (pathOf target))
    if goal = trail then throw s!"{quoted source} and {quoted target} are the same file"
    match files.node? goal, node with
    | some .directory, _ => throw s!"cannot overwrite directory {quoted target} with non-directory"
    | some (.file _ executable), .file bytes _ => return files.put goal (.file bytes executable)
    | some (.device _), _ => return files
    | none, node =>
      let node := match node with
        | .device _ => .file [] false
        | node => node
      match files.node? goal.tail with
      | some .directory => return files.put goal node
      | some _ => throw s!"cannot create regular file {quoted target}: Not a directory"
      | none => throw s!"cannot create regular file {quoted target}: No such file or directory"
    | some _, node => return files.put goal node

def changeText (act : FileTree → Except String FileTree) : Action (Option String) :=
  Action.onFiles fun files =>
    match act files with
    | .ok after => (after, none)
    | .error text => (files, some text)

/-- Copies files and directories. -/
def cp (inv : Invocation) : Action Nat :=
  withOptions ⟨"rRafpnvTdLPHi", "t", [("recursive", 'r'), ("archive", 'a'), ("force", 'f'), ("no-clobber", 'n'),
      ("verbose", 'v'), ("target-directory", 't')]⟩ 1 inv fun options operands => do
    let deep := has options 'r' || has options 'R' || has options 'a'
    let follows := !has options 'a' && !has options 'd' && !has options 'P' && (!deep || has options 'L')
    withPairs inv options operands fun source target => do
      let files ← Action.files
      if has options 'n' && (files.look (pathOf target)).isOk then return none
      let fault ← changeText (copyTo deep follows source target)
      if has options 'v' && fault.isNone then
        let _ ← write 1 s!"{quoted source} -> {quoted target}\n".toList
      return fault

def moveTo (source target : String) (files : FileTree) : Except String FileTree := do
  let (trail, node) ← (nodeAt files false source).mapError fun o => s!"cannot stat {quoted source}: {obstacleText o}"
  let goal ← (files.locateLink false (pathOf target)).mapError fun o =>
    s!"cannot move {quoted source} to {quoted target}: {obstacleText o}"
  if goal = trail then throw s!"{quoted source} and {quoted target} are the same file"
  if node = .directory && trail.isSuffixOf goal then
    throw s!"cannot move {quoted source} to a subdirectory of itself, {quoted target}"
  match files.node? goal, node with
  | some .directory, .directory =>
    if isEmptyDirectory files goal then return files.move trail goal
    else throw s!"cannot move {quoted source} to {quoted target}: Directory not empty"
  | some .directory, _ => throw s!"cannot overwrite directory {quoted target} with non-directory {quoted source}"
  | some _, .directory => throw s!"cannot overwrite non-directory {quoted target} with directory {quoted source}"
  | some (.device _), _ => return files.remove trail
  | some _, _ => return files.move trail goal
  | none, node =>
    if node ≠ .directory && FileTree.namesDirectory (pathOf target) then
      throw s!"cannot move {quoted source} to {quoted target}: Not a directory"
    match files.node? goal.tail with
    | some .directory => return files.move trail goal
    | some _ => throw s!"cannot move {quoted source} to {quoted target}: Not a directory"
    | none => throw s!"cannot move {quoted source} to {quoted target}: No such file or directory"

/-- Moves files and directories. -/
def mv (inv : Invocation) : Action Nat :=
  withOptions ⟨"fnvTiu", "t", [("force", 'f'), ("no-clobber", 'n'), ("verbose", 'v'), ("target-directory", 't')]⟩ 1 inv
    fun options operands =>
      withPairs inv options operands fun source target => do
        let files ← Action.files
        if has options 'n' && (files.look (pathOf target)).isOk then return none
        let fault ← changeText (moveTo source target)
        if has options 'v' && fault.isNone then
          let _ ← write 1 s!"renamed {quoted source} -> {quoted target}\n".toList
        return fault

/-! ## Rights -/

/-- Whether a file is executable after a change of its rights, which are written in digits or letters. -/
def executableAfter (mode : String) (executable : Bool) : Option Bool :=
  if mode.toList.all (fun c => decide ('0' ≤ c) && decide (c ≤ '7')) && !mode.isEmpty then
    some (mode.toList.any fun c => (c.toNat - 48) % 2 = 1)
  else
    let given := if executable then 493 else 420
    let changed := (mode.splitOn ",").foldl
      (fun r c => r.bind (Shell.Tool.changedRights · c.toList)) (some given)
    changed.map fun r => r % 2 = 1 || r / 8 % 2 = 1 || r / 64 % 2 = 1

/-- Changes the rights of files. -/
def chmod (inv : Invocation) : Action Nat := do
  let (options, operands) := inv.arguments.partition fun a => ["-R", "-v", "-f", "-c", "--"].contains a
  match operands with
  | [] => misused inv.name "missing operand" 1
  | [mode] => misused inv.name s!"missing operand after {quoted mode}" 1
  | mode :: paths =>
    if (executableAfter mode false).isNone then misused inv.name s!"invalid mode: {quoted mode}" 1
    else
      forEach inv paths fun path => do
        let change (files : FileTree) (trail : Trail) (node : Node) : FileTree :=
          match node with
          | .file bytes executable => files.put trail (.file bytes ((executableAfter mode executable).getD executable))
          | _ => files
        changeOr s!"cannot access {quoted path}" fun files => do
          let (trail, node) ← nodeAt files true path
          let files := change files trail node
          return if options.contains "-R" then
            (below files trail).foldl (fun t (rest, node) => change t (rest ++ trail) node) files
          else files

/-! ## Listing -/

/-- How names are listed. -/
structure Listing where
  hidden : Bool
  /-- Also `.` and `..`. -/
  all : Bool
  directories : Bool
  deep : Bool
  reversed : Bool
  /-- Signs behind the names of directories, links and programs. -/
  signs : Bool
  slashes : Bool
  commas : Bool
  /-- One row for each name, with rights and size. -/
  long : Bool

namespace Listing

def sign (l : Listing) (node : Option Node) : String :=
  match node with
  | some .directory => if l.signs || l.slashes then "/" else ""
  | some (.link _) => if l.signs then "@" else ""
  | some (.file _ true) => if l.signs then "*" else ""
  | _ => ""

def rights : Node → String
  | .file _ true => "-rwxr-xr-x"
  | .file _ false => "-rw-r--r--"
  | .directory => "drwxr-xr-x"
  | .device _ => "crw-rw-rw-"
  | .link _ => "lrwxrwxrwx"

def sizeOf : Node → Nat
  | .file bytes _ => bytes.length
  | .directory => 4096
  | .device _ => 0
  | .link target => target.utf8ByteSize

/-- Rows with rights and sizes, for names and their nodes. -/
def rows (l : Listing) (nodes : List (String × Option Node)) : String :=
  let sizes := nodes.map fun (_, node) => toString ((node.map sizeOf).getD 0)
  let width := (sizes.map String.length).foldl max 0
  String.join (nodes.map fun (name, node) =>
    let node := node.getD .directory
    let size := toString (sizeOf node)
    let blanks := String.ofList (List.replicate (width - size.length) ' ')
    let target := match node with
      | .link target => " -> " ++ Text.octets target
      | _ => l.sign (some node)
    s!"{rights node} 1 root root {blanks}{size} Jan  1  1970 {name}{target}\n")

/-- The blocks that nodes take, as a row. -/
def total (nodes : List (String × Option Node)) : String :=
  let blocks := (nodes.filterMap Prod.snd).foldl (fun n node => n + (sizeOf node + 4095) / 4096 * 4) 0
  s!"total {blocks}\n"

def order (l : Listing) (names : List String) : List String :=
  let sorted := names.mergeSort fun a b => a ≤ b
  if l.reversed then sorted.reverse else sorted

def namesIn (l : Listing) (files : FileTree) (trail : Trail) : List String :=
  let names := (files.names trail).map Text.octets
  let isHidden (n : String) : Bool := n.toList.head? = some '.'
  l.order (if l.all then "." :: ".." :: names else if l.hidden then names else names.filter (!isHidden ·))

def lines (l : Listing) (names : List String) : String :=
  if l.commas then if names.isEmpty then "" else ", ".intercalate names ++ "\n"
  else String.join (names.map (· ++ "\n"))

/-- The listing of a directory, and of those below it. `fuel` bounds how deep they are. -/
def ofDirectory (l : Listing) (files : FileTree) (titled : Bool) : Nat → String → Trail → List String
  | 0, _, _ => []
  | fuel + 1, path, trail =>
    let names := l.namesIn files trail
    let node (n : String) : Option Node := if n = "." || n = ".." then some .directory else files.node? (Text.ofOctets n :: trail)
    let own := if l.long then
        let nodes := names.map fun n => (n, node n)
        total nodes ++ l.rows nodes
      else l.lines (names.map fun n => n ++ l.sign (node n))
    let title := if titled || l.deep then s!"{path}:\n" else ""
    let inner := if l.deep then names.filter fun n => n ≠ "." && n ≠ ".." && node n = some .directory else []
    (title ++ own) :: inner.flatMap fun n => l.ofDirectory files true fuel (inside path n) (Text.ofOctets n :: trail)

end Listing

def ls (inv : Invocation) : Action Nat :=
  withOptions ⟨"aA1dFprRCmqUtSXLHlisnghco", "", [("all", 'a'), ("almost-all", 'A'), ("directory", 'd'), ("classify", 'F'),
      ("reverse", 'r'), ("recursive", 'R')]⟩ 2 inv fun options operands => do
    let tree ← Action.files
    let has (c : Char) : Bool := has options c
    let l : Listing := ⟨has 'a' || has 'A', has 'a', has 'd', has 'R', has 'r', has 'F', has 'p', has 'm',
      has 'l' || has 'n' || has 'g' || has 'o'⟩
    let operands := if operands.isEmpty then ["."] else operands
    let look (path : String) : Except Obstacle (Trail × Node) :=
      match nodeAt tree (!l.long) path with
      | .ok found => .ok found
      | .error o => (nodeAt tree false path).mapError fun _ => o
    let found := operands.map fun path => (path, look path)
    let faults := found.filterMap fun (path, r) => match r with
      | .error o => some s!"cannot access {quoted path}: {obstacleText o}"
      | .ok _ => none
    let isDirectory : Except Obstacle (Trail × Node) → Bool
      | .ok (_, .directory) => !l.directories
      | _ => false
    let plain := found.filterMap fun (path, r) => match r with
      | .ok (_, node) => if isDirectory r then none else some (path, node)
      | .error _ => none
    let files := l.order (plain.map Prod.fst)
    let names := if l.long then l.rows (files.map fun path => (path, plain.lookup path))
      else l.lines (files.map fun path => path ++ l.sign (plain.lookup path))
    let directories := found.filterMap fun (path, r) => match r with
      | .ok (trail, _) => if isDirectory r then some (path, trail) else none
      | .error _ => none
    let titled := 1 < operands.length
    let listed := (l.order (directories.map Prod.fst)).flatMap fun path =>
      l.ofDirectory tree titled 4096 path ((directories.lookup path).getD [])
    let blocks := (if names.isEmpty then [] else [names]) ++ listed
    Report.deliver ⟨("\n".intercalate blocks).toList, faults, if faults.isEmpty then 0 else 2⟩ inv.name

end CompileDb.Utility
