import CompileDb.Proofs.WholeRun

/-!
# Runs that fail

A run can fail at many stages, and late ones come when the database in memory has changed already. `run_given_up` says
that none of them touches a file but a failing write of the database, and which programs have been started by then. It
rests on `Options.Course`, which lists the ways that a plan can go.
-/

namespace CompileDb.CommandLine

open Make Run

/-- The run has ended with an error of the command line, with a failure, or by breaking off over its output. -/
def Report.GivenUp (r : Report) : Prop :=
  r.exitCode = 2 ∨ r.exitCode = exitFailed ∨ r.exitCode = exitBroken

/-- The last thing that the run has done was a write of this database file, which has failed. -/
def Report.Unwritten (r : Report) (path : Path) : Prop :=
  r.failure = some (.database (.unwritable path))

/-- No run both ends and gives up. -/
theorem Report.Ended.not_givenUp {r : Report} (ended : r.Ended) : ¬ r.GivenUp := by
  rcases ended with code | code <;> simp [GivenUp, code, exitInterrupted, exitFailed, exitBroken]

/-- How make is started to be observed. -/
def Options.observed (o : Options) (make : MakeSettings) : StartedCall :=
  ⟨observedCall make o.makeArguments, some observedLocale⟩

/-- How make is started to build. -/
def Options.real (o : Options) (make : MakeSettings) : StartedCall :=
  ⟨⟨make.program, o.makeArguments⟩, none⟩

/-- The end of the observed make. -/
def Options.observation (o : Options) (make : MakeSettings) (db : Database) (s : Surroundings) (limits : Limits) :
    Except RunError Outcome :=
  (observe make o.makeArguments (s.launch limits (observedCall make o.makeArguments) 0) false db
    limits.diagnostics.sink).result

variable {o : Options} {plan : Plan} {s : Surroundings} {limits : Limits} {db : Database} {room : Option Nat}
  {interrupted : Bool} {r : Report}

/-- The observed build and the real one differ in their arguments. -/
theorem Options.observed_ne_real (make : MakeSettings) : o.observed make ≠ o.real make := by
  intro same
  cases congrArg StartedCall.locale same

/-! ## The end of a run -/

theorem Options.calls_conclude : (o.conclude plan room db interrupted r).calls = r.calls := by
  unfold conclude
  dsimp only
  split
  · split <;> rfl
  · split <;> rfl

/-- The end of a run prints and changes no file, or fails to write the database, or ends the run. -/
theorem Options.conclude_cases (o : Options) (plan : Plan) (room : Option Nat) (db : Database) (interrupted : Bool)
    (r : Report) :
    ((o.conclude plan room db interrupted r).files = r.files ∧
        (o.conclude plan room db interrupted r).failure = r.failure) ∨
      (o.dryRun = false ∧ (o.conclude plan room db interrupted r).Unwritten plan.databasePath ∧
        r.files.Spares (o.conclude plan room db interrupted r).files plan.databasePath ∧
        (o.conclude plan room db interrupted r).exitCode = exitFailed) ∨
      ((o.conclude plan room db interrupted r).Ended ∧
        (o.conclude plan room db interrupted r).failure = r.failure) := by
  unfold conclude
  dsimp only
  split
  case isTrue =>
    left
    split <;> exact ⟨rfl, rfl⟩
  case isFalse asked =>
    right
    have spared := r.files.spares_writeWithin room plan.databasePath
      (Text.encode (db.addArguments plan.extra).fileText)
    unfold Database.storeWithin
    dsimp only
    cases (r.files.writeWithin room plan.databasePath (Text.encode (db.addArguments plan.extra).fileText)).2 with
    | some obstacle => exact .inl ⟨by simpa using asked, rfl, spared, rfl⟩
    | none =>
      right
      cases interrupted with
      | true => exact ⟨.inr rfl, rfl⟩
      | false => exact ⟨.inl rfl, rfl⟩

/-! ## The way of a plan -/

/-- Nothing that lasts has come of a run so far: its files are as they were, and it has not failed. -/
structure Report.Intact (s : Surroundings) (r : Report) : Prop where
  files : r.files = s.files
  failure : r.failure = none

/-- The real build changes no file and starts one program at most. If it fails, its failure is one of a run. -/
theorem Options.realBuild_keeps {cancelled : Bool} {after : Report} {answer : Except Failure Bool}
    (built : o.realBuild plan s limits cancelled r = (after, answer)) (asked : o.build = true) (intact : r.Intact s) :
    after.Intact s ∧ after.calls <+: r.calls ++ [o.real plan.make] ∧
      ∀ e, answer = .error e → ∃ cause, e = .run cause := by
  unfold realBuild at built
  rw [if_pos asked] at built
  obtain ⟨rfl, rfl⟩ := Prod.mk.inj built
  refine ⟨⟨intact.files, intact.failure⟩, ?_, fun e failed => ?_⟩
  · dsimp only
    rw [List.prefix_append_right_inj]
    split
    · exact List.prefix_rfl
    · exact List.nil_prefix
  · cases result : (passThrough plan.make o.makeArguments
        (s.launch limits ⟨plan.make.program, o.makeArguments⟩ 1) cancelled r.stdout r.stderr).result with
    | error cause =>
      rw [result] at failed
      cases failed
      exact ⟨cause, rfl⟩
    | ok outcome =>
      rw [result] at failed
      cases failed

/-- A make that ends or is interrupted has been started. -/
theorem Options.launched_of_observation {make : MakeSettings} {outcome : Outcome}
    (ended : o.observation make db s limits = .ok outcome) :
    (s.launch limits (observedCall make o.makeArguments) 0).isSome = true := by
  unfold observation at ended
  cases launched : s.launch limits (observedCall make o.makeArguments) 0 with
  | none =>
    rw [launched] at ended
    cases ended
  | some => rfl

/-- The ways in which a plan can go. -/
inductive Options.Course (o : Options) (plan : Plan) (s : Surroundings) (limits : Limits) : Report → Prop where
  /-- Make is not observed to its end. -/
  | unobserved {r : Report} (e : RunError) (failed : o.observation plan.make plan.database s limits = .error e)
      (intact : r.Intact s) (calls : r.calls <+: [o.observed plan.make]) : Course o plan s limits (r.failed (.run e))
  /-- Make is observed, and nothing is built. -/
  | observed {r : Report} (db : Database) (interrupted : Bool) (outcome : Outcome)
      (ended : o.observation plan.make plan.database s limits = .ok outcome) (intact : r.Intact s)
      (calls : r.calls = [o.observed plan.make]) :
      Course o plan s limits (o.conclude plan limits.room db interrupted r)
  /-- Make is observed to its end, and the real build fails. -/
  | unbuilt {r : Report} (e : RunError) (asked : o.build = true) (exit : Option ExitStatus)
      (ended : o.observation plan.make plan.database s limits = .ok (.completed exit)) (intact : r.Intact s)
      (calls : r.calls <+: [o.observed plan.make, o.real plan.make]) : Course o plan s limits (r.failed (.run e))
  /-- Make is observed to its end, and the real build ends or is interrupted. -/
  | built {r : Report} (db : Database) (interrupted : Bool) (asked : o.build = true) (exit : Option ExitStatus)
      (ended : o.observation plan.make plan.database s limits = .ok (.completed exit)) (intact : r.Intact s)
      (calls : r.calls <+: [o.observed plan.make, o.real plan.make]) :
      Course o plan s limits (o.conclude plan limits.room db interrupted r)

/-- Every run takes one of the courses. -/
theorem Options.course_execute (o : Options) (plan : Plan) (s : Surroundings) (limits : Limits) :
    o.Course plan s limits (o.execute plan s limits) := by
  have start : (if (s.launch limits (observedCall plan.make o.makeArguments) 0).isSome then [o.observed plan.make]
      else []) <+: [o.observed plan.make] := by
    split
    · exact List.prefix_rfl
    · exact List.nil_prefix
  unfold execute
  dsimp only
  split
  case h_1 e failed => exact .unobserved e failed ⟨rfl, rfl⟩ start
  case h_2 outcome ended =>
    rw [if_pos (o.launched_of_observation ended)]
    split
    case isTrue interrupted => exact .observed _ true outcome ended ⟨rfl, rfl⟩ rfl
    case isFalse finished =>
      obtain ⟨exit, rfl⟩ : ∃ exit, outcome = .completed exit := by
        cases outcome with
        | completed exit => exact ⟨exit, rfl⟩
        | interrupted => exact absurd rfl finished
      cases asked : o.build with
      | false =>
        unfold realBuild
        rw [asked, if_neg Bool.false_ne_true]
        exact .observed _ false _ ended ⟨rfl, rfl⟩ rfl
      | true =>
        split
        case h_1 r e failed =>
          obtain ⟨intact, calls, ofRun⟩ := o.realBuild_keeps failed asked ⟨rfl, rfl⟩
          obtain ⟨cause, rfl⟩ := ofRun e rfl
          exact .unbuilt cause asked exit ended intact calls
        case h_2 r interrupted built =>
          obtain ⟨intact, calls, -⟩ := o.realBuild_keeps built asked ⟨rfl, rfl⟩
          exact .built _ interrupted asked exit ended intact calls

namespace Options.Course

/-- A run that is given up changes no file, unless a write of its own has failed. -/
theorem files_of_givenUp (course : o.Course plan s limits r) (given : r.GivenUp)
    (written : ∀ path, ¬ r.Unwritten path) : r.files = s.files := by
  have concluded : ∀ {db interrupted r}, r.Intact s → (o.conclude plan limits.room db interrupted r).GivenUp →
      (∀ path, ¬ (o.conclude plan limits.room db interrupted r).Unwritten path) →
      (o.conclude plan limits.room db interrupted r).files = s.files := by
    intro db interrupted r intact given written
    rcases o.conclude_cases plan limits.room db interrupted r with ⟨files, -⟩ | ⟨-, unwritten, -⟩ | ⟨ended, -⟩
    · exact files.trans intact.files
    · exact absurd unwritten (written _)
    · exact absurd given ended.not_givenUp
  cases course with
  | unobserved _ _ intact => exact intact.files
  | observed _ _ _ _ intact => exact concluded intact given written
  | unbuilt _ _ _ _ intact => exact intact.files
  | built _ _ _ _ _ intact => exact concluded intact given written

/-- Only a run that has observed a make and is not to print the database fails to write it. -/
theorem of_unwritten (course : o.Course plan s limits r) {path : Path} (unwritten : r.Unwritten path) :
    path = plan.databasePath ∧ o.dryRun = false ∧ s.files.Spares r.files path ∧
      ∃ outcome, o.observation plan.make plan.database s limits = .ok outcome := by
  have concluded : ∀ {db interrupted r}, r.Intact s →
      (o.conclude plan limits.room db interrupted r).Unwritten path →
      path = plan.databasePath ∧ o.dryRun = false ∧
        s.files.Spares (o.conclude plan limits.room db interrupted r).files path := by
    intro db interrupted r intact unwritten
    rcases o.conclude_cases plan limits.room db interrupted r with ⟨-, same⟩ | ⟨unasked, here, spared, -⟩ | ⟨-, same⟩
    · cases (same.trans intact.failure).symm.trans unwritten
    · cases unwritten.symm.trans here
      rw [intact.files] at spared
      exact ⟨rfl, unasked, spared⟩
    · cases (same.trans intact.failure).symm.trans unwritten
  cases course with
  | unobserved => cases unwritten
  | observed _ _ outcome ended intact =>
    obtain ⟨here, unasked, spared⟩ := concluded intact unwritten
    exact ⟨here, unasked, spared, outcome, ended⟩
  | unbuilt => cases unwritten
  | built _ _ _ exit ended intact =>
    obtain ⟨here, unasked, spared⟩ := concluded intact unwritten
    exact ⟨here, unasked, spared, _, ended⟩

/-- A run observes make first and calls it for real at most once, afterwards. -/
theorem calls_prefix (course : o.Course plan s limits r) : r.calls <+: [o.observed plan.make, o.real plan.make] := by
  cases course with
  | unobserved _ _ _ calls => exact calls.trans (List.prefix_append _ [o.real plan.make])
  | observed _ _ _ _ _ calls =>
    rw [calls_conclude, calls]
    exact List.prefix_append _ [o.real plan.make]
  | unbuilt _ _ _ _ _ calls => exact calls
  | built _ _ _ _ _ _ calls =>
    rw [calls_conclude]
    exact calls

/-- Make builds only if that is asked for and make has been observed to its end. -/
theorem completed_of_real (course : o.Course plan s limits r) (built : o.real plan.make ∈ r.calls) :
    o.build = true ∧ ∃ exit, o.observation plan.make plan.database s limits = .ok (.completed exit) := by
  cases course with
  | unobserved _ _ _ calls =>
    exact absurd (List.mem_singleton.mp (calls.subset built)) (observed_ne_real plan.make).symm
  | observed _ _ _ _ _ calls =>
    rw [calls_conclude, calls] at built
    exact absurd (List.mem_singleton.mp built) (observed_ne_real plan.make).symm
  | unbuilt _ asked exit ended => exact ⟨asked, exit, ended⟩
  | built _ _ asked exit ended => exact ⟨asked, exit, ended⟩

/-- Where the observation fails, so does the run. -/
theorem failed_of_observation (course : o.Course plan s limits r) {e : RunError}
    (failed : o.observation plan.make plan.database s limits = .error e) : r.exitCode = exitFailed := by
  cases course with
  | unobserved => rfl
  | observed _ _ _ ended => cases failed.symm.trans ended
  | unbuilt _ _ _ ended => cases failed.symm.trans ended
  | built _ _ _ _ ended => cases failed.symm.trans ended

end Options.Course

/-! ## The whole run -/

/-- **A failed run touches no file**, whatever the system denies it. A run that ends with an error of the command line,
with a failure, or by breaking off over its output leaves every file as it was, unless the failure is that of writing
the database at last; even then no other file has changed. No make is started if the command line, the settings or the
database is rejected. Otherwise make is observed first, and a second make is started only if `--build` stands on the
command line and the first one has come to its end: not after a failure in reading its output, and not after an
interruption. -/
theorem run_given_up (arguments : List String) (s : Surroundings) (limits : Limits) :
    ((run arguments s limits).GivenUp → (∀ path, ¬ (run arguments s limits).Unwritten path) →
      (run arguments s limits).files = s.files) ∧
    (∀ refusal, Options.parse arguments = .error refusal →
      (run arguments s limits).exitCode = refusal.exitCode ∧ (run arguments s limits).failure = none ∧
        (run arguments s limits).files = s.files ∧ (run arguments s limits).calls = []) ∧
    ∀ o, Options.parse arguments = .ok o →
      (∀ e, Config.discover s.files o.config s.files.homePath = .error e →
        (run arguments s limits).exitCode = exitFailed ∧ (run arguments s limits).files = s.files ∧
          (run arguments s limits).calls = []) ∧
      ∀ config, Config.discover s.files o.config s.files.homePath = .ok config →
        (∀ e, Database.load s.files (o.output.getD config.database.path) = .error e →
          (run arguments s limits).exitCode = exitFailed ∧ (run arguments s limits).files = s.files ∧
            (run arguments s limits).calls = []) ∧
        ∀ db, Database.load s.files (o.output.getD config.database.path) = .ok db →
          let make := { config.make with program := o.make.getD config.make.program }
          (∀ path, (run arguments s limits).Unwritten path →
            path = o.output.getD config.database.path ∧ o.dryRun = false ∧
              s.files.Spares (run arguments s limits).files path ∧
              ∃ outcome, o.observation make db s limits = .ok outcome) ∧
            (run arguments s limits).calls <+: [o.observed make, o.real make] ∧
            (∀ e, o.observation make db s limits = .error e → (run arguments s limits).exitCode = exitFailed) ∧
            (o.real make ∈ (run arguments s limits).calls →
              o.build = true ∧ ∃ exit, o.observation make db s limits = .ok (.completed exit)) := by
  unfold run
  cases parsed : Options.parse arguments with
  | error refusal =>
    refine ⟨fun _ _ => rfl, ?_, by simp⟩
    rintro _ ⟨⟩
    exact ⟨rfl, rfl, rfl, rfl⟩
  | ok o =>
    simp only [reduceCtorEq, false_implies, implies_true, true_and, Except.ok.injEq, forall_eq']
    unfold Options.plan
    cases found : Config.discover s.files o.config s.files.homePath with
    | error e => simp [Surroundings.untouched, Report.failed]
    | ok config =>
      simp only [reduceCtorEq, false_implies, implies_true, true_and, Except.ok.injEq, forall_eq']
      cases loaded : Database.load s.files (o.output.getD config.database.path) with
      | error e => simp [Surroundings.untouched, Report.failed]
      | ok db =>
        simp only [reduceCtorEq, false_implies, implies_true, true_and, Except.ok.injEq, forall_eq']
        have course := o.course_execute ⟨{ config.make with program := o.make.getD config.make.program },
          o.output.getD config.database.path, o.extraArguments config.database.extraArguments, db⟩ s limits
        exact ⟨course.files_of_givenUp, fun _ => course.of_unwritten, course.calls_prefix,
          fun _ => course.failed_of_observation, course.completed_of_real⟩

/-- A directory with a database of no entry, in which the real build breaks off after the observed make has compiled a
file. -/
def brokenSurroundings : Surroundings where
  files := (FileTree.atHome ["w"]).put ["compile_commands.json", "w"] (.file (Text.encode "[]"))
  programs := ["make"]
  processes := [briefMake, ⟨[⟨[], [], false, some "broken pipe"⟩], none, none⟩]

/-- The second call of make is not started. -/
def secondRefused : Limits := ⟨[1], .free, .free, none⟩

/-- There is no room for the database. -/
def fullDisk : Limits := ⟨[], .free, .free, some 0⟩

/-- The real build breaks off, or it cannot be started, and nothing has changed. Without room for it the database is
lost, but nothing else. -/
theorem run_given_up_broken :
    ((run ["--build"] brokenSurroundings).exitCode = exitFailed ∧
        (run ["--build"] brokenSurroundings).calls.length = 2 ∧
        (run ["--build"] brokenSurroundings).files = brokenSurroundings.files) ∧
      ((run ["--build"] brokenSurroundings secondRefused).failure = some (.run (.launch "make")) ∧
        (run ["--build"] brokenSurroundings secondRefused).calls.length = 1 ∧
        (run ["--build"] brokenSurroundings secondRefused).files = brokenSurroundings.files) ∧
      (run [] brokenSurroundings fullDisk).Unwritten ⟨"compile_commands.json"⟩ ∧
        (run [] brokenSurroundings fullDisk).files.read ⟨"compile_commands.json"⟩ = .ok [] ∧
        brokenSurroundings.files.Spares (run [] brokenSurroundings fullDisk).files ⟨"compile_commands.json"⟩ := by
  refine ⟨?broken, ?refused, ?full⟩
  case broken =>
    have broken : (run ["--build"] brokenSurroundings).exitCode = exitFailed ∧
        (run ["--build"] brokenSurroundings).calls.length = 2 ∧
        (run ["--build"] brokenSurroundings).failure = some (.run (.io "broken pipe")) := by decide +kernel
    obtain ⟨code, calls, failure⟩ := broken
    refine ⟨code, calls, (run_given_up ..).1 (.inr (.inl code)) fun path unwritten => ?_⟩
    cases failure.symm.trans unwritten
  case refused =>
    have refused : (run ["--build"] brokenSurroundings secondRefused).exitCode = exitFailed ∧
        (run ["--build"] brokenSurroundings secondRefused).calls.length = 1 ∧
        (run ["--build"] brokenSurroundings secondRefused).failure = some (.run (.launch "make")) := by decide +kernel
    obtain ⟨code, calls, failure⟩ := refused
    refine ⟨failure, calls, (run_given_up ..).1 (.inr (.inl code)) fun path unwritten => ?_⟩
    cases failure.symm.trans unwritten
  case full =>
    have unwritten : (run [] brokenSurroundings fullDisk).failure =
        some (.database (.unwritable ⟨"compile_commands.json"⟩)) := by decide +kernel
    have lost : (run [] brokenSurroundings fullDisk).files.read ⟨"compile_commands.json"⟩ = .ok [] := by
      decide +kernel
    have loaded : Database.load brokenSurroundings.files ⟨"compile_commands.json"⟩ = .ok .empty := by
      decide +kernel
    obtain ⟨-, -, rest⟩ := run_given_up [] brokenSurroundings fullDisk
    obtain ⟨spared, -⟩ := ((rest .empty rfl).2 .standard rfl).2 .empty loaded
    exact ⟨unwritten, lost, (spared _ unwritten).2.2.1⟩

end CompileDb.CommandLine
