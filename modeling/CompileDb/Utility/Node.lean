import CompileDb.Utility.Content
import CompileDb.Utility.Place

/-!
# Single files

Utilities that tell of single files, change how long they are, or make and remove them.
-/

namespace CompileDb.Utility

open Host

/-! ## Telling -/

def kindName : Node → String
  | .file [] _ => "regular empty file"
  | .file _ _ => "regular file"
  | .directory => "directory"
  | .device _ => "character special file"
  | .link _ => "symbolic link"

def rightsNumber : Node → String
  | .file _ true => "755"
  | .file _ false => "644"
  | .directory => "755"
  | .device _ => "666"
  | .link _ => "777"

def fact (path : String) (node : Node) (letter : Char) : String :=
  match letter with
  | 'n' => path
  | 'N' => match node with
    | .link target => s!"{quoted path} -> {quoted (Text.octets target)}"
    | _ => quoted path
  | 's' => toString (Listing.sizeOf node)
  | 'F' => kindName node
  | 'a' => rightsNumber node
  | 'A' => Listing.rights node
  | 'U' => "root"
  | 'G' => "root"
  | 'u' => "0"
  | 'g' => "0"
  | 'h' => if node = .directory then "2" else "1"
  | '%' => "%"
  | _ => "?"

def facts (path : String) (node : Node) (escapes : Bool) : List Char → List Char
  | '%' :: c :: rest => (fact path node c).toList ++ facts path node escapes rest
  | '\\' :: c :: rest =>
    (if escapes then [(Shell.escapeOctet? c).getD c] else ['\\', c]) ++ facts path node escapes rest
  | c :: rest => c :: facts path node escapes rest
  | [] => []

def stat (inv : Invocation) : Action Nat :=
  withOptions ⟨"Lft", "cp", [("format", 'c'), ("printf", 'p'), ("dereference", 'L')]⟩ 1 inv fun options operands =>
    needsOperand inv operands "operand" do
      let files ← Action.files
      let (format, escapes) := match valueOf? options 'p', valueOf? options 'c' with
        | some f, _ => (f, true)
        | none, some f => (f ++ "\n", false)
        | none, none => ("  File: %n\n  Size: %s\t%F\n", false)
      let found := operands.map fun path => (path, nodeAt files (has options 'L') path)
      let out := found.flatMap fun (path, r) => match r with
        | .ok (_, node) => facts path node escapes format.toList
        | .error _ => []
      let faults := found.filterMap fun (path, r) => match r with
        | .error o => some s!"cannot statx {quoted path}: {obstacleText o}"
        | .ok _ => none
      Report.deliver ⟨out, faults, if faults.isEmpty then 0 else 1⟩ inv.name

/-! ## Making and removing -/

/-- A name in which the last signs of a template are replaced, which stands for a number. -/
def nameOf (template : String) (n : Nat) : String :=
  let front := (template.toList.reverse.dropWhile (· = 'X')).reverse
  let count := template.length - front.length
  let letter (i : Nat) : Char := Char.ofNat (97 + n / Nat.pow 26 i % 26)
  .ofList (front ++ (List.range count).map letter)

/-- Makes a file or a directory with a new name. -/
def mktemp (inv : Invocation) : Action Nat :=
  withOptions ⟨"dqut", "p", [("directory", 'd'), ("dry-run", 'u'), ("quiet", 'q'), ("tmpdir", 'p')]⟩ 1 inv
    fun options operands => do
      let directory := (valueOf? options 'p').getD ((inv.environment.lookup "TMPDIR").getD "/tmp")
      let template := operands.headD "tmp.XXXXXXXXXX"
      let isInside := operands.isEmpty || has options 'p' || has options 't'
      let kind := if has options 'd' then "directory" else "file"
      let fail (text : String) : Action Nat := do
        if !has options 'q' then complain inv.name text
        return 1
      if 1 < operands.length then misused inv.name "too many templates" 1
      else if (template.toList.reverse.takeWhile (· = 'X')).length < 3 then
        fail s!"too few X\x27s in template {quoted template}"
      else
        let whole := if isInside then inside directory template else template
        let files ← Action.files
        let isFree (n : Nat) : Bool :=
          (files.locateLink false (pathOf (nameOf whole n))).toOption.all fun trail => (files.node? trail).isNone
        let path := nameOf whole (((List.range (files.nodes.length + 1)).find? isFree).getD 0)
        let made ← if has options 'u' then pure (.ok ())
          else Action.change fun files =>
            if has options 'd' then files.makeDirectory (pathOf path) else files.write (pathOf path) []
        match made with
        | .ok () => report inv (path ++ "\n")
        | .error o => fail s!"failed to create {kind} via template {quoted whole}: {obstacleText o}"

/-- Makes a second name for a file. -/
def link (inv : Invocation) : Action Nat :=
  withOptions ⟨"", "", []⟩ 1 inv fun _ operands =>
    match operands with
    | [] => misused inv.name "missing operand" 1
    | [only] => misused inv.name s!"missing operand after {quoted only}" 1
    | _ :: _ :: extra :: _ => misused inv.name s!"extra operand {quoted extra}" 1
    | [source, target] =>
      forEach inv [target] fun _ =>
        changeOr s!"cannot create link {quoted target} to {quoted source}" fun files => do
          let (_, node) ← nodeAt files false source
          return files.put (← files.vacant (pathOf target)) node

/-- Removes a name of a file. -/
def unlink (inv : Invocation) : Action Nat :=
  withOptions ⟨"", "", []⟩ 1 inv fun _ operands =>
    match operands with
    | [] => misused inv.name "missing operand" 1
    | _ :: extra :: _ => misused inv.name s!"extra operand {quoted extra}" 1
    | [path] =>
      forEach inv [path] fun _ =>
        changeOr s!"cannot unlink {quoted path}" fun files => do
          match ← nodeAt files false path with
          | (_, .directory) => throw .isDirectory
          | (trail, _) => return files.remove trail

/-! ## Length -/

/-- How long a file is to be, from a text and how long it is. -/
def wantedLength? (text : String) (length : Nat) : Option Nat :=
  match text.toList with
  | '+' :: digits => (sizedNumber? digits).map (length + ·)
  | '-' :: digits => (sizedNumber? digits).map (length - ·)
  | '<' :: digits => (sizedNumber? digits).map (min length)
  | '>' :: digits => (sizedNumber? digits).map (max length)
  | '/' :: digits => (sizedNumber? digits).map fun n => length / max n 1 * n
  | '%' :: digits => (sizedNumber? digits).map fun n => (length + n - 1) / max n 1 * n
  | digits => sizedNumber? digits

/-- Octets cut off or filled up with zeros. -/
def resized (length : Nat) (bytes : List UInt8) : List UInt8 :=
  bytes.take length ++ List.replicate (length - bytes.length) 0

/-- Changes how long files are. -/
def truncate (inv : Invocation) : Action Nat :=
  withOptions ⟨"co", "sr", [("size", 's'), ("reference", 'r'), ("no-create", 'c')]⟩ 1 inv fun options operands => do
    let files ← Action.files
    let reference := (valueOf? options 'r').bind fun r => (files.read (pathOf r)).toOption.map List.length
    match (valueOf? options 's').or (reference.map toString) with
    | none => misused inv.name "you must specify either \x27--size\x27 or \x27--reference\x27" 1
    | some text =>
      if (wantedLength? text 0).isNone then
        complain inv.name s!"Invalid number: {quoted text}"
        return 1
      needsOperand inv operands "file operand" do
        forEach inv operands fun path =>
          changeOr s!"cannot open {quoted path} for writing" fun files => do
            match files.read (pathOf path) with
            | .ok bytes => files.write (pathOf path) (resized ((wantedLength? text bytes.length).getD 0) bytes)
            | .error .missing =>
              if has options 'c' then return files
              else files.write (pathOf path) (resized ((wantedLength? text 0).getD 0) [])
            | .error o => throw o

end CompileDb.Utility
