import CompileDb.CommandLine.Run
import CompileDb.Proofs.Interrupting
import CompileDb.Proofs.RoundTrip

/-!
# What a run of the program leaves behind

A run that ends well or is interrupted leaves one document: the loaded database after the complete lines that the
observed make has printed, with the extra arguments. It is written to the database file and to no other one, or it is
the last that is printed.
-/

namespace CompileDb.CommandLine

open Make Run

/-- The document that a run is to leave behind. -/
def document (db : Database) (observed : Script) (extra : List String) : String :=
  ((((Session.start db).feedLines (observedLines observed)).1.database).addArguments extra).toJson

/-- The run has ended well or has been interrupted. -/
def Report.Ended (r : Report) : Prop :=
  r.exitCode = 0 ∨ r.exitCode = exitInterrupted

/-- A run that failed did not end. -/
theorem Report.not_ended_failed (r : Report) (e : Failure) : ¬ (r.failed e).Ended := by
  simp [Ended, failed, exitFailed, exitInterrupted]

/-- The first process is that of the first call, whatever the later ones are. -/
theorem Surroundings.eq_of_launch {s : Surroundings} {limits : Limits} {call : Call} {script script' : Script}
    {later : List Script} (started : { s with processes := script :: later }.launch limits call 0 = some script') :
    script = script' := by
  unfold launch at started
  simp only at started
  split at started
  case isTrue => exact Option.some.inj started
  case isFalse => contradiction

/-- What the options ask to be left behind has been left: with `-n` no file has changed and the bytes are the last that
were printed, else the file at the path holds them and nothing else has changed. -/
def Options.Leaves (o : Options) (path : Path) (before : FileTree) (r : Report) (bytes : List UInt8) : Prop :=
  if o.dryRun then r.files = before ∧ bytes <:+ r.output
  else
    r.files.read path = .ok bytes ∧ r.files.home = before.home ∧
      ∃ trail, before.locate path = .ok trail ∧ ∀ other, other ≠ trail → r.files.node? other = before.node? other

variable {o : Options} {plan : Plan} {s : Surroundings} {limits : Limits}

/-- The real build changes no files. -/
theorem Options.files_realBuild (o : Options) (plan : Plan) (s : Surroundings) (limits : Limits) (cancelled : Bool)
    (r : Report) : (o.realBuild plan s limits cancelled r).1.files = r.files := by
  unfold realBuild
  split <;> rfl

/-- A run that ends has observed a make without a failure, and concludes with the database that it has seen. -/
theorem Options.execute_ended (ended : (o.execute plan s limits).Ended) :
    ∃ script, s.launch limits (observedCall plan.make o.makeArguments) 0 = some script ∧
      ((Session.start plan.database).feedLines (observedLines script)).2 = none ∧
      ∃ interrupted r, r.files = s.files ∧ o.execute plan s limits = o.conclude plan limits.room
        ((Session.start plan.database).feedLines (observedLines script)).1.database interrupted r := by
  unfold execute at ended ⊢
  cases started : s.launch limits (observedCall plan.make o.makeArguments) 0 with
  | none =>
    simp only [started, observe] at ended
    exact absurd ended (Report.not_ended_failed _ _)
  | some script =>
    have fed : ∀ outcome,
        (observe plan.make o.makeArguments (some script) false plan.database limits.diagnostics.sink).result =
          .ok outcome →
        (Session.start plan.database).feedLines (observedLines script) =
          ((observe plan.make o.makeArguments (some script) false plan.database limits.diagnostics.sink).session,
            none) := fun _ observed => feedLines_of_observe observed
    simp only [started] at ended ⊢
    generalize observe plan.make o.makeArguments (some script) false plan.database limits.diagnostics.sink = seen
      at ended fed ⊢
    cases result : seen.result with
    | error e =>
      simp only [result] at ended
      exact absurd ended (Report.not_ended_failed _ _)
    | ok outcome =>
      simp only [result] at ended ⊢
      refine ⟨script, rfl, by rw [fed outcome result], ?_⟩
      rw [fed outcome result]
      split at ended
      case isTrue interrupted =>
        rw [if_pos interrupted]
        exact ⟨true, _, rfl, rfl⟩
      case isFalse finished =>
        rw [if_neg finished]
        split at ended
        case h_1 => exact absurd ended (Report.not_ended_failed _ _)
        case h_2 r interrupted built =>
          have files := congrArg (fun built => built.1.files) built
          rw [o.files_realBuild] at files
          exact ⟨interrupted, r, files.symm, rfl⟩

/-- A run that is concluded well leaves the database behind that it is given, with the extra arguments. -/
theorem Options.leaves_of_conclude {db : Database} {room : Option Nat} {interrupted : Bool} {r : Report}
    (loaded : Database.load r.files plan.databasePath = .ok plan.database)
    (ended : (o.conclude plan room db interrupted r).Ended) :
    o.Leaves plan.databasePath r.files (o.conclude plan room db interrupted r)
      (Text.encode ((db.addArguments plan.extra).toJson ++ "\n")) := by
  unfold conclude at ended ⊢
  unfold Leaves
  dsimp only at ended ⊢
  split
  case isTrue asked =>
    rw [if_pos asked] at ended
    split at ended
    case h_1 => simp [Report.Ended, exitBroken, exitInterrupted] at ended
    case h_2 stdout printed =>
      have whole := Sink.bytes_of_write (congrArg Prod.snd printed)
      rw [printed] at whole
      exact ⟨rfl, r.stdout.bytes, whole.symm⟩
  case isFalse asked =>
    rw [if_neg asked] at ended
    split at ended
    case h_1 => exact absurd ended (Report.not_ended_failed _ _)
    case h_2 files stored =>
      have write := Database.write_of_store (Database.store_of_storeWithin stored)
      rcases FileTree.write_eq_ok write with ⟨-, d, device⟩ | ⟨trail, executable, located, -, -, rfl⟩
      · exact absurd device (Database.look_of_load loaded d)
      · refine ⟨?_, rfl, trail, located, fun other ne => FileTree.node?_put_of_ne ne _⟩
        exact (FileTree.read_of_write write).resolve_left fun ⟨d, device⟩ => Database.look_of_load loaded d device

/-- A run that ends leaves the document of the observed make behind. -/
theorem Options.leaves_of_execute (loaded : Database.load s.files plan.databasePath = .ok plan.database)
    (ended : (o.execute plan s limits).Ended) :
    ∃ script, s.launch limits (observedCall plan.make o.makeArguments) 0 = some script ∧
      ((Session.start plan.database).feedLines (observedLines script)).2 = none ∧
      o.Leaves plan.databasePath s.files (o.execute plan s limits)
        (Text.encode (document plan.database script plan.extra ++ "\n")) := by
  obtain ⟨script, started, fine, interrupted, r, files, concluded⟩ := execute_ended ended
  refine ⟨script, started, fine, ?_⟩
  rw [concluded] at ended ⊢
  rw [← files] at loaded ⊢
  exact leaves_of_conclude loaded ended

/-- A plan rests on the settings and on the database that its path leads to. -/
theorem Options.plan_eq_ok {o : Options} {files : FileTree} {plan : Plan} (planned : o.plan files = .ok plan) :
    ∃ config db, Config.discover files o.config files.homePath = .ok config ∧
      Database.load files (o.output.getD config.database.path) = .ok db ∧
      plan = ⟨{ config.make with program := o.make.getD config.make.program }, o.output.getD config.database.path,
        o.extraArguments config.database.extraArguments, db⟩ := by
  unfold Options.plan at planned
  split at planned
  case h_1 => contradiction
  case h_2 config found =>
    simp only at planned
    split at planned
    case h_1 => contradiction
    case h_2 db loaded => cases planned; exact ⟨config, db, found, loaded, rfl⟩

/-- A run that ends carries out a plan. -/
theorem run_eq_execute {arguments : List String} (accepted : Options.parse arguments = .ok o)
    (ended : (run arguments s limits).Ended) :
    ∃ plan, o.plan s.files = .ok plan ∧ run arguments s limits = o.execute plan s limits := by
  cases planned : o.plan s.files with
  | error e => simp [run, accepted, planned, Report.not_ended_failed] at ended
  | ok plan => exact ⟨plan, rfl, by simp [run, accepted, planned]⟩

/-- **What a run leaves behind.** A run that ends well or is interrupted, whatever the system denies it, has found
settings and a database, has started make, and has read all complete lines that it printed until its end or its
interruption. It leaves that database behind with these lines recorded and the extra arguments added: with `-n` at the
end of its output, else in the database file, and no other file has changed. A run with or without `-n`, with or without
a real build, whatever the later calls of make do and whatever is denied then, leaves the same bytes behind. -/
theorem run_ended {arguments : List String} {s : Surroundings} {limits : Limits} {o : Options}
    (accepted : Options.parse arguments = .ok o) (ended : (run arguments s limits).Ended) :
    ∃ config db script,
      Config.discover s.files o.config s.files.homePath = .ok config ∧
      Database.load s.files (o.output.getD config.database.path) = .ok db ∧
      s.launch limits (observedCall { config.make with program := o.make.getD config.make.program } o.makeArguments)
          0 = some script ∧
      ((Session.start db).feedLines (observedLines script)).2 = none ∧
      let path := o.output.getD config.database.path
      let extra := config.database.extraArguments ++ o.includes.map ("-I" ++ ·) ++ o.defines.map ("-D" ++ ·) ++
        o.warnings.map ("-W" ++ ·)
      let bytes := Text.encode (document db script extra ++ "\n")
      o.Leaves path s.files (run arguments s limits) bytes ∧
        ∀ (dryRun build : Bool) (later : List Script) (others : List String) (limits' : Limits),
          Options.parse others = .ok { o with dryRun, build } →
          (run others { s with processes := script :: later } limits').Ended →
          { o with dryRun, build }.Leaves path s.files (run others { s with processes := script :: later } limits')
            bytes := by
  obtain ⟨plan, planned, executed⟩ := run_eq_execute accepted ended
  obtain ⟨config, db, found, loaded, rfl⟩ := Options.plan_eq_ok planned
  rw [executed] at ended ⊢
  obtain ⟨script, started, fine, left⟩ := Options.leaves_of_execute loaded ended
  refine ⟨config, db, script, found, loaded, started, fine, left, ?_⟩
  intro dryRun build later others limits' accepted' ended'
  obtain ⟨plan', planned', executed'⟩ := run_eq_execute accepted' ended'
  -- Neither option has a part in the plan, so both runs carry out the same one.
  obtain rfl : _ = plan' := Except.ok.inj (planned.symm.trans planned')
  rw [executed'] at ended' ⊢
  obtain ⟨script', started', -, left'⟩ := Options.leaves_of_execute loaded ended'
  obtain rfl : script = script' := s.eq_of_launch started'
  exact left'

/-- A make that compiles one file and is cut off within the next line. -/
def briefMake : Script :=
  ⟨[⟨Text.encode "make: Entering directory '/p'\ngcc -c a.c\ngcc -c", [], false, none⟩], some (.code 0), none⟩

/-- An empty directory, in which the real build is interrupted. -/
def briefSurroundings : Surroundings where
  files := .atHome ["w"]
  programs := ["make"]
  processes := [briefMake, ⟨[⟨Text.encode "gcc -c b.c\n", [], true, none⟩], none, none⟩]

theorem run_ended_brief :
    Options.parse ["-DX", "--build"] = .ok { Options.empty with defines := ["X"], build := true } ∧
      (run ["-DX", "--build"] briefSurroundings).exitCode = exitInterrupted ∧
      (run ["-DX", "--build"] briefSurroundings).files.read ⟨"compile_commands.json"⟩ =
        .ok (Text.encode (document .empty briefMake ["-DX"] ++ "\n")) := by
  have accepted : Options.parse ["-DX", "--build"] = .ok { Options.empty with defines := ["X"], build := true } := rfl
  have interrupted : (run ["-DX", "--build"] briefSurroundings).exitCode = exitInterrupted := by decide +kernel
  obtain ⟨config, db, script, found, loaded, started, -, left, -⟩ := run_ended accepted (.inr interrupted)
  obtain rfl : Config.standard = config := Except.ok.inj found
  obtain rfl : Database.empty = db := Except.ok.inj loaded
  obtain rfl : briefMake = script := Option.some.inj started
  exact ⟨accepted, interrupted, left.1⟩

end CompileDb.CommandLine
