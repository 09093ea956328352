import CompileDb.CommandLine.Options
import CompileDb.Config.Document
import CompileDb.Database.Store
import CompileDb.Host.Invocation
import CompileDb.Run.Build

/-!
# The whole program

One run of the program: read the settings and the database, observe make, build if that is asked for, add the extra
arguments, and write the database or print it. The first failure ends the run, and the database file is written last,
so a run that fails before leaves every file as it was. Each call of make may fail to start, each stream of the program
may take no more, and there may be no room for the database.
-/

namespace CompileDb.CommandLine

open Run

/-- What the program meets. -/
structure Surroundings where
  files : FileTree
  /-- The programs that can be started. -/
  programs : List String
  /-- What the started programs do, in the order of their calls. A call beyond them does nothing. -/
  processes : List Script

/-- Where a stream of the program leads: how many bytes are taken there, if not all, and what a flush fails with. -/
structure Outlet where
  limit : Option Nat
  flushError : Option String
deriving DecidableEq, Repr

namespace Outlet

/-- All bytes are taken. -/
def free : Outlet := ⟨none, none⟩

def sink (o : Outlet) : Sink := .fresh o.limit o.flushError

end Outlet

/-- What the system denies the program. -/
structure Limits where
  /-- The calls that are not started, by the numbers of calls before them, even if their programs are there. -/
  refused : List Nat
  output : Outlet
  diagnostics : Outlet
  /-- The bytes that there is room for in the database file, if not for all. -/
  room : Option Nat
deriving DecidableEq, Repr

/-- Nothing is denied. -/
def Limits.free : Limits := ⟨[], .free, .free, none⟩

/-- A process that prints nothing and succeeds. -/
def silent : Script := ⟨[⟨[], [], false, none⟩], some (.code 0), none⟩

/-- The process of a call, if it can be started. `index` is the number of calls before it. -/
def Surroundings.launch (s : Surroundings) (limits : Limits) (call : Call) (index : Nat) : Option Script :=
  let texts := call.program :: call.arguments
  let isClean := texts.all (!·.toList.contains '\x00') && Host.fits (texts.map String.utf8ByteSize)
  if s.programs.contains call.program && isClean && !limits.refused.contains index then
    some (s.processes[index]?.getD silent)
  else none

/-- Why the program gave up. -/
inductive Failure where
  | config (e : ConfigError)
  | database (e : DatabaseError)
  | run (e : RunError)
deriving DecidableEq, Repr

/-- The text shown to the user. -/
def Failure.message : Failure → String
  | config e => e.message
  | database e => e.message
  | run e => e.message

/-- A started call and the locale it was started with, if that was set. -/
structure StartedCall where
  call : Call
  locale : Option String
deriving DecidableEq, Repr

/-- What became of a run. -/
structure Report where
  exitCode : Nat
  /-- The program's output. -/
  stdout : Sink
  /-- The program's diagnostics. -/
  stderr : Sink
  calls : List StartedCall
  files : FileTree
  log : List Event
  failure : Option Failure

namespace Report

def output (r : Report) : List UInt8 := r.stdout.bytes

def diagnostics (r : Report) : List UInt8 := r.stderr.bytes

end Report

/-- The exit code after a failure. -/
def exitFailed : Nat := 1

/-- The exit code after the database could not be printed. The program breaks off then. -/
def exitBroken : Nat := 101

/-- The exit code after an interruption, as a shell reports one by the user. -/
def exitInterrupted : Nat := 130

/-- Announcements are recognised in this locale only, so make is observed in it. -/
def observedLocale : String := "C"

/-- The text that answers `--version`. -/
def versionText : String := "makecdb 0.1.0\n"

/-- The text that answers `--help`. -/
def helpText : String :=
  "\n".intercalate [
    "Generate compile_commands.json from make output",
    "",
    "Usage: makecdb [OPTIONS] [--] [MAKE_ARGS]...",
    "",
    "Options:",
    "  -n, --dry-run          Print the database instead of writing it",
    "  -I <PATH>              Add -I<PATH> to every entry",
    "  -D <DEF>               Add -D<DEF> to every entry",
    "  -W <FLAG>              Add -W<FLAG> to every entry",
    "      --output <PATH>    Database path [default: compile_commands.json]",
    "      --config <PATH>    Config file [default: ./makecdb.toml if present]",
    "      --make <PROGRAM>   Build tool to run [default: make]",
    "      --build            Run the real build after recording the commands",
    "      --verbose          More logging (once for debug, twice for trace)",
    "      --quiet            Only log warnings and errors",
    "      --version          Print version",
    "  -h, --help             Print help",
    "",
    "The first unknown argument, or all arguments after '--', are passed to make.",
    "Apart from -n, -I, -D and -W every option is long-only, so make's own short",
    "flags such as -o, -v, -q and -k reach make unchanged. To pass -n, -I, -D or",
    "-W to make itself, put them after '--':",
    "",
    "    makecdb -Iextra_include/ -- -Iaoeu foo",
    ""]

/-- What is decided before make is started. -/
structure Plan where
  make : MakeSettings
  databasePath : Path
  extra : List String
  database : Database
deriving Repr

/-- Reads the settings and the database. What the command line gives wins over the settings. -/
def Options.plan (o : Options) (files : FileTree) : Except Failure Plan :=
  match Config.discover files o.config files.homePath with
  | .error e => .error (.config e)
  | .ok config =>
    let path := o.output.getD config.database.path
    match Database.load files path with
    | .error e => .error (.database e)
    | .ok database =>
      .ok ⟨{ config.make with program := o.make.getD config.make.program }, path,
        o.extraArguments config.database.extraArguments, database⟩

/-- A report of a run that has done nothing yet. -/
def Surroundings.untouched (s : Surroundings) (limits : Limits) : Report :=
  ⟨0, limits.output.sink, limits.diagnostics.sink, [], s.files, [], none⟩

/-- The report of a run that gives up. -/
def Report.failed (r : Report) (e : Failure) : Report :=
  { r with exitCode := exitFailed, failure := some e }

/-- Ends a run: prints the database, or writes it where there is room for so many bytes. -/
def Options.conclude (o : Options) (plan : Plan) (room : Option Nat) (database : Database) (interrupted : Bool)
    (r : Report) : Report :=
  let database := database.addArguments plan.extra
  let exitCode := if interrupted then exitInterrupted else 0
  let last := if interrupted then [⟨.warn, "interrupted; the database holds the commands seen so far"⟩] else []
  if o.dryRun then
    match r.stdout.write (Text.encode database.fileText) with
    | (stdout, some _) => { r with exitCode := exitBroken, stdout }
    | (stdout, none) => { r with exitCode, stdout, log := r.log ++ last }
  else
    match database.storeWithin room r.files plan.databasePath with
    | (files, some e) => { r with files }.failed (.database e)
    | (files, none) =>
      let written : Event := ⟨.info, s!"wrote {database.size} entries to {plan.databasePath.text}"⟩
      { r with exitCode, files, log := r.log ++ written :: last }

/-- Runs the real build if it is asked for. The answer says whether it was interrupted. -/
def Options.realBuild (o : Options) (plan : Plan) (s : Surroundings) (limits : Limits) (cancelled : Bool) (r : Report) :
    Report × Except Failure Bool :=
  if o.build then
    let call : Call := ⟨plan.make.program, o.makeArguments⟩
    let process := s.launch limits call 1
    let p := passThrough plan.make o.makeArguments process cancelled r.stdout r.stderr
    let started := if process.isSome then [⟨call, none⟩] else []
    ({ r with
        stdout := p.output
        stderr := p.diagnostics
        calls := r.calls ++ started
        log := r.log ++ p.log },
      (p.result.mapError .run).map Outcome.isInterrupted)
  else (r, .ok false)

/-- Carries out a plan: observes make, then builds if that was not interrupted, then ends the run. -/
def Options.execute (o : Options) (plan : Plan) (s : Surroundings) (limits : Limits) : Report :=
  let call := observedCall plan.make o.makeArguments
  let process := s.launch limits call 0
  let seen := observe plan.make o.makeArguments process false plan.database limits.diagnostics.sink
  let started := if process.isSome then [⟨call, some observedLocale⟩] else []
  let r := { s.untouched limits with stderr := seen.diagnostics, calls := started, log := seen.log }
  match seen.result with
  | .error e => r.failed (.run e)
  | .ok outcome =>
    let r := { r with log := r.log ++ [⟨.info, "parsed build output"⟩] }
    if outcome.isInterrupted then o.conclude plan limits.room seen.session.database true r
    else
      match o.realBuild plan s limits seen.cancelled r with
      | (r, .error e) => r.failed e
      | (r, .ok interrupted) => o.conclude plan limits.room seen.session.database interrupted r

/-- One run of the program. -/
def run (arguments : List String) (s : Surroundings) (limits : Limits := .free) : Report :=
  match Options.parse arguments with
  | .error refusal =>
    let text := match refusal with
      | .help => Text.encode helpText
      | .version => Text.encode versionText
      | _ => []
    let r := s.untouched limits
    -- Whether this can be printed does not matter.
    { r with exitCode := refusal.exitCode, stdout := (r.stdout.write text).1 }
  | .ok options =>
    match options.plan s.files with
    | .error e => (s.untouched limits).failed e
    | .ok plan => options.execute plan s limits

end CompileDb.CommandLine
