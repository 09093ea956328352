import CompileDb.Shell.Field
import CompileDb.Shell.Option

/-!
# Tools for the surroundings

Tools of the shell for its working directory, for the rights of new files, and for limits and times.
-/

namespace CompileDb.Shell.Tool

open Host

/-! ## Directories -/

/-- The text of a path as seen from a directory, with `.` and `..` worked out by their names alone. -/
def namedPath (directory path : String) : String :=
  let walk (names : List String) (name : String) : List String :=
    match name with
    | "" => names
    | "." => names
    | ".." => names.tail
    | name => name :: names
  let whole := if path.toList.head? = some '/' then path else directory ++ "/" ++ path
  let doubled := ['/', '/'].isPrefixOf whole.toList && !(['/', '/', '/'].isPrefixOf whole.toList)
  (if doubled then "//" else "/") ++ "/".intercalate ((whole.splitOn "/").foldl walk []).reverse

/-- Goes to a directory. With `byName`, `..` is worked out by names. -/
def goTo (byName : Bool) (path : String) : ShellAction Bool := do
  let s ← get
  let target := if byName then namedPath s.directory path else path
  match ← onHost (Action.change fun files => files.enter (pathOf target)) with
  | .error _ => return false
  | .ok () =>
    let files ← onHost Action.files
    let now := if byName then target else Text.octets files.homePath.text
    setVariable "OLDPWD" s.directory true
    modify fun s => { s with directory := now }
    setVariable "PWD" now true
    return true

/-- Where a directory may be that is given by a name: each place, and whether it is to be shown. -/
def places (search : Option String) (target : String) : List (String × Bool) :=
  let isPlaced := match target.toList with
    | '/' :: _ => true
    | ['.'] => true
    | '.' :: '/' :: _ => true
    | ['.', '.'] => true
    | '.' :: '.' :: '/' :: _ => true
    | _ => false
  if isPlaced then [(target, false)]
  else
    let near := ((search.getD "").splitOn ":").map fun d =>
      if d.isEmpty then (target, false)
      else if d.toList.getLast? = some '/' then (d ++ target, true)
      else (d ++ "/" ++ target, true)
    near ++ [(target, false)]

def changeDirectory (arguments : List String) : ShellAction Nat := do
  let (options, arguments) ← optionsOf "LP" "" arguments
  let byName := !options.getLast?.any (·.1 = 'P')
  let s ← get
  let (wanted, isShown) := match arguments.head? with
    | none => ((s.variableValue? "HOME").getD "", false)
    | some "-" => ((s.variableValue? "OLDPWD").getD "", true)
    | some d => (d, false)
  let target := if wanted.isEmpty then "." else wanted
  let files ← onHost Action.files
  let isDirectory (path : String) : Bool := (files.look (pathOf path)).toOption = some .directory
  let candidates := places (s.variableValue? "CDPATH") target
  let (place, showsPlace) := (candidates.find? fun c => isDirectory c.1).getD (target, false)
  if ← goTo byName place then
    if isShown || showsPlace then put ((← get).directory ++ "\n")
    return 0
  else giveUp s!"can\x27t cd to {wanted}"

def showDirectory (arguments : List String) : ShellAction Nat := do
  let (options, _) ← optionsOf "LP" "" arguments
  let s ← get
  let files ← onHost Action.files
  put ((if options.getLast?.any (·.1 = 'P') then Text.octets files.homePath.text else s.directory) ++ "\n")
  return 0

/-! ## Rights -/

/-- A number in digits of base eight, with so many digits at least. -/
def octal (least n : Nat) : String :=
  let digits := Nat.toDigits 8 n
  .ofList (List.replicate (least - digits.length) '0' ++ digits)

def rights (mask : Nat) : String :=
  let letters (shift : Nat) : String :=
    let bits := 7 - mask / Nat.pow 2 shift % 8
    String.ofList ((if bits / 4 % 2 = 1 then ['r'] else []) ++ (if bits / 2 % 2 = 1 then ['w'] else []) ++
      (if bits % 2 = 1 then ['x'] else []))
  let (user, group, others) := (letters 6, letters 3, letters 0)
  s!"u={user},g={group},o={others}"

def rightBits (letters : List Char) : Nat :=
  (if letters.contains 'r' then 4 else 0) + (if letters.contains 'w' then 2 else 0) + (if letters.contains 'x' then 1 else 0)

/-- The rights after a change that is written in letters, like `go-w`. -/
def changedRights (given : Nat) (change : List Char) : Option Nat :=
  let isWho (c : Char) : Bool := c ∈ ['u', 'g', 'o', 'a']
  let who := change.takeWhile isWho
  let who := if who.isEmpty || who.contains 'a' then ['u', 'g', 'o'] else who
  let spread (bits : Nat) : Nat :=
    (if who.contains 'u' then 64 * bits else 0) + (if who.contains 'g' then 8 * bits else 0) +
      (if who.contains 'o' then bits else 0)
  match change.dropWhile isWho with
  | operator :: letters =>
    if letters.all (· ∈ ['r', 'w', 'x', 'X', 's', 't']) then
      let bits := spread (rightBits letters)
      match operator with
      | '+' => some (given ||| bits)
      | '-' => some (given - (given &&& bits))
      | '=' => some ((given - (given &&& spread 7)) ||| bits)
      | _ => none
    else none
  | [] => none

/-- Sets or shows the rights that new files do not have. -/
def fileMask (arguments : List String) : ShellAction Nat := do
  let (options, arguments) ← optionsOf "S" "" arguments
  let s ← get
  match arguments.head? with
  | none => put ((if options.isEmpty then octal 4 s.mask else rights s.mask) ++ "\n")
  | some text =>
    if text.toList.head?.any Char.isDigit then
      if text.toList.all fun c => decide ('0' ≤ c) && decide (c ≤ '7') then
        set { s with mask := text.toList.foldl (fun (n : Nat) (c : Char) => 8 * n + (c.toNat - 48)) 0 % 512 }
      else giveUp s!"Illegal number: {text}"
    else
      match (text.splitOn ",").foldl (fun m c => m.bind (changedRights · c.toList)) (some (511 - s.mask)) with
      | some given => set { s with mask := 511 - given }
      | none => giveUp s!"Illegal mode: {text}"
  return 0

/-! ## Limits and times -/

def limitNames : List (Char × String) :=
  [('t', "time(seconds)"), ('f', "file(blocks)"), ('d', "data(kbytes)"), ('s', "stack(kbytes)"), ('c', "coredump(blocks)"),
    ('m', "memory(kbytes)"), ('l', "locked memory(kbytes)"), ('p', "process"), ('n', "nofiles"), ('v', "vmemory(kbytes)"),
    ('w', "locks"), ('r', "rtprio")]

def limitText (s : State) (letter : Char) : String :=
  (s.limits.lookup letter).getD (match letter with
    | 's' => "8192"
    | 'c' => "0"
    | 'n' => "1048576"
    | 'r' => "0"
    | _ => "unlimited")

def limit (arguments : List String) : ShellAction Nat := do
  let (options, arguments) ← optionsOf ("HSa" ++ String.ofList (limitNames.map Prod.fst)) "" arguments
  let letter := ((options.map Prod.fst).filter fun c => c ≠ 'H' && c ≠ 'S' && c ≠ 'a').getLast?.getD 'f'
  let s ← get
  match arguments with
  | [] =>
    if options.any (·.1 = 'a') then
      for (c, title) in limitNames do
        let blanks := String.ofList (List.replicate (20 - title.length) ' ')
        put s!"{title}{blanks} {limitText s c}\n"
    else put s!"{limitText s letter}\n"
  | [value] =>
    if value = "unlimited" || (decimal? value.toList).isSome then
      set { s with limits := (letter, value) :: s.limits }
    else giveUp "bad number"
  | _ => giveUp "too many arguments"
  return 0

/-- Shows how long the shell and its children have been at work. -/
def times : ShellAction Nat := do
  put "0m0.000000s 0m0.000000s\n0m0.000000s 0m0.000000s\n"
  return 0

end CompileDb.Shell.Tool
