import CompileDb.FileTree
import CompileDb.Text
import CompileDb.Shell.Start
import CompileDb.Utility.Call
import CompileDb.Utility.Compare
import CompileDb.Utility.Digest
import CompileDb.Utility.Dump
import CompileDb.Utility.Edit
import CompileDb.Utility.Find
import CompileDb.Utility.Identity
import CompileDb.Utility.Node
import CompileDb.Utility.Search
import CompileDb.Utility.Sort

/-!
# Installed programs

The directories, links, devices and programs that come with every machine, and how the program of a file is found: one
of these, or a script that names its interpreter in its first line.
-/

namespace CompileDb.FileTree

/-- The bytes with which every program begins, the last of which is in no UTF-8 text. -/
def programMark : List UInt8 := [127, 69, 76, 70, 255]

def programFile (name : String) : Node := .file (programMark ++ Text.encode name) true

/-- The name of a program that comes with the machine, from its file. -/
def programName? (bytes : List UInt8) : Option String :=
  if programMark.isPrefixOf bytes then some (Text.decodeLossy (bytes.drop programMark.length)) else none

def standardDirectories : List String :=
  ["/boot", "/dev", "/etc", "/home", "/media", "/mnt", "/opt", "/proc", "/proc/self", "/proc/self/fd", "/root", "/run",
    "/srv", "/sys", "/tmp", "/usr", "/usr/bin", "/usr/games", "/usr/include", "/usr/lib", "/usr/lib64", "/usr/local",
    "/usr/local/bin", "/usr/local/sbin", "/usr/sbin", "/usr/share", "/usr/src", "/var", "/var/log", "/var/tmp"]

def standardLinks : List (String × String) :=
  [("/bin", "usr/bin"), ("/sbin", "usr/sbin"), ("/lib", "usr/lib"), ("/lib64", "usr/lib64"), ("/var/run", "/run"),
    ("/dev/fd", "/proc/self/fd"), ("/dev/stdin", "/proc/self/fd/0"), ("/dev/stdout", "/proc/self/fd/1"),
    ("/dev/stderr", "/proc/self/fd/2")]

def standardDevices : List (String × Device) :=
  [("/dev/null", .sink), ("/dev/zero", .zeros), ("/dev/full", .full)] ++
    (List.range 10).map fun n => (s!"/proc/self/fd/{n}", .descriptor n)

def standardFiles : List (String × String) :=
  [("/etc/passwd", "root:x:0:0:root:/root:/bin/bash\n"), ("/etc/group", "root:x:0:\n")]

/-- A tree with these programs and with an empty directory at a trail as home. -/
def standard (programs : List String) (home : Trail) : FileTree :=
  let nodes : List (String × Node) :=
    standardDirectories.map (·, .directory) ++ standardLinks.map (fun (p, target) => (p, .link target)) ++
      standardDevices.map (fun (p, d) => (p, .device d)) ++
      standardFiles.map (fun (p, text) => (p, .file (Text.encode text))) ++
      programs.map fun name => (s!"/usr/bin/{name}", programFile name)
  let trail (path : String) : Trail := ((path.splitOn "/").drop 1).reverse
  let t : FileTree := ⟨[], nodes.map fun (path, node) => (trail path, node)⟩
  let ways := (List.range home.length).map home.drop
  let t := ways.foldr (fun trail t => if (t.node? trail).isSome then t else t.put trail .directory) t
  { t with home }

end CompileDb.FileTree

namespace CompileDb.Installed

open Host

/-- The utilities that call no programs, by their names. -/
def plainUtilities : List (String × (Invocation → Action Nat)) :=
  [("[", Utility.test true), ("arch", Utility.arch), ("base64", Utility.base64), ("basename", Utility.basename),
    ("cat", Utility.cat), ("chmod", Utility.chmod), ("cksum", Utility.cksum), ("cmp", Utility.cmp),
    ("comm", Utility.comm), ("cp", Utility.cp), ("cut", Utility.cut), ("dd", Utility.dd), ("diff", Utility.diff),
    ("dirname", Utility.dirname), ("echo", Utility.echo), ("egrep", Utility.grep 'E'), ("expr", Utility.expr),
    ("false", fun _ => return 1), ("fgrep", Utility.grep 'F'), ("fold", Utility.fold), ("grep", Utility.grep 'G'),
    ("groups", Utility.groups), ("head", Utility.head), ("id", Utility.identity), ("kill", Utility.kill),
    ("link", Utility.link), ("ln", Utility.ln), ("logname", Utility.logname), ("ls", Utility.ls),
    ("md5sum", Utility.digestLines .md5), ("mkdir", Utility.mkdir), ("mktemp", Utility.mktemp), ("mv", Utility.mv),
    ("nl", Utility.nl), ("od", Utility.od), ("paste", Utility.paste), ("printenv", Utility.printenv),
    ("printf", Utility.printf), ("pwd", Utility.pwd), ("readlink", Utility.readlink), ("realpath", Utility.realpath),
    ("rev", Utility.rev), ("rm", Utility.rm), ("rmdir", Utility.rmdir), ("sed", Utility.Edit.sed),
    ("seq", Utility.seq), ("sha1sum", Utility.digestLines .sha1), ("sha256sum", Utility.digestLines .sha256),
    ("sleep", Utility.sleep), ("sort", Utility.sort), ("stat", Utility.stat), ("sum", Utility.blockSum),
    ("sync", fun _ => return 0), ("tac", Utility.tac), ("tail", Utility.tail), ("tee", Utility.tee),
    ("test", Utility.test false), ("touch", Utility.touch), ("tr", Utility.tr), ("true", fun _ => return 0),
    ("truncate", Utility.truncate), ("tty", Utility.tty), ("uname", Utility.uname), ("uniq", Utility.uniq),
    ("unlink", Utility.unlink), ("wc", Utility.wc), ("which", Utility.which), ("whoami", Utility.whoami),
    ("yes", Utility.yes)]

def callingUtilities : List (String × (Loader → Invocation → Action Nat)) :=
  [("env", Utility.env), ("find", Utility.Find.find), ("nice", fun load => Utility.callPlainly load ""),
    ("nohup", fun load => Utility.callPlainly load "failed to run command "), ("timeout", Utility.timeout),
    ("xargs", Utility.xargs)]

def shells : List String := ["dash", "sh"]

def names : List String := shells ++ plainUtilities.map Prod.fst ++ callingUtilities.map Prod.fst

def program? (load : Loader) (name : String) (inv : Invocation) : Option Program :=
  if shells.contains name then some (Shell.program load inv)
  else
    match plainUtilities.lookup name, callingUtilities.lookup name with
    | some utility, _ => some (utility inv .exit)
    | none, some utility => some (utility load inv .exit)
    | none, none => none

/-- The interpreter that the first line of a script names, and the argument that it may give. -/
def interpreter? (bytes : List UInt8) : Option (String × List String) :=
  match Text.widen (bytes.takeWhile (· ≠ 10)) with
  | '#' :: '!' :: line =>
    let isBlank (c : Char) : Bool := c = ' ' || c = '\t'
    let trim (text : List Char) : List Char := ((text.dropWhile isBlank).reverse.dropWhile isBlank).reverse
    let line := trim line
    let argument := trim (line.dropWhile (!isBlank ·))
    some (.ofList (line.takeWhile (!isBlank ·)), if argument.isEmpty then [] else [.ofList argument])
  | _ => none

/-- Finds the program of a file. Scripts may be the interpreters of scripts, and programs may call programs, so many times
at most. -/
def load : Nat → Loader
  | 0, _, _, _ => .error .tooMuch
  | depth + 1, files, path, inv =>
    match files.look ⟨path⟩ with
    | .error o => .error (.path o)
    | .ok (.file bytes true) =>
      match FileTree.programName? bytes, interpreter? bytes with
      | some name, _ => ((program? (load depth) name inv).map .ok).getD (.error .notProgram)
      | none, some (interpreter, arguments) =>
        load depth files (Text.ofOctets interpreter)
          ⟨interpreter, arguments ++ Text.octets path :: inv.arguments, inv.environment⟩
      | none, none => .error .notProgram
    | .ok _ => .error .denied

/-- More calls of programs by programs than there are. -/
def callDepth : Nat := Nat.pow 2 32

end CompileDb.Installed
