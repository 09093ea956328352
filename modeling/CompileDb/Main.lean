import CompileDb.CommandLine.Run

/-!
# Command line

Reads the files that a run needs, runs the program on them, and writes what it reports. make is not started from here:
its output is read from standard input, as in `make -j1 -knwB 2>&1 | makecdb`, and a real build prints nothing.
-/

open CompileDb

/-- Adds the file at a path, if it can be read. -/
def addFile (files : FileTree) (path : Path) : IO FileTree := do
  try
    let bytes ← IO.FS.readBinFile path.text
    return files.plant path (.file bytes.toList)
  catch _ => return files

/-- The settings file and the database file of a run. -/
def gatherFiles (options : CommandLine.Options) : IO FileTree := do
  let here := ((← IO.currentDir).toString.splitOn "/").filter (!·.isEmpty)
  let files ← addFile (.atHome here.reverse) (options.config.getD Config.fileName)
  match Config.discover files options.config files.homePath with
  | .error _ => return files
  | .ok config => addFile files (options.output.getD config.database.path)

/-- Writes a file that a run has changed. -/
def saveFile (before after : FileTree) (path : Path) : IO Unit := do
  match after.read path with
  | .ok bytes => if (before.read path).toOption != some bytes then IO.FS.writeBinFile path.text ⟨bytes.toArray⟩
  | .error _ => return

/-- Records the database of what is printed by `make`, and reports how that went. -/
def main (arguments : List String) : IO UInt32 := do
  let options := (CommandLine.Options.parse arguments).toOption
  let files ← match options with
    | some o => gatherFiles o
    | none => pure (.atHome [])
  let printed ← if options.isSome then (← IO.getStdin).readBinToEnd else pure .empty
  let plan := options.bind fun o => (o.plan files).toOption
  let programs := plan.toList.map (·.make.program)
  let process : Run.Script := ⟨[⟨printed.toList, [], false, none⟩], some (.code 0), none⟩
  let report := CommandLine.run arguments ⟨files, programs, [process]⟩
  for path in plan.toList.map (·.databasePath) do
    saveFile files report.files path
  (← IO.getStdout).write ⟨report.output.toArray⟩
  (← IO.getStderr).write ⟨report.diagnostics.toArray⟩
  for e in report.log do
    IO.eprintln e.render
  for failure in report.failure.toList do
    IO.eprintln failure.message
  return report.exitCode.toUInt32
