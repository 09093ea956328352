import CompileDb.Proofs.Merging
import CompileDb.Proofs.Recording

/-!
# A session never looks at its database

What a line means depends on the directories entered before it, and on nothing else. So the answers of a session, the
directories and the commands that it records are the same for every database, and the database is only merged with
these commands.
-/

namespace CompileDb.Make

namespace Directories

/-- What lines mean one after the other: for each the directories after it, and the command that it records, if any, or
why it fails. Reading goes on after lines that fail. -/
def readAll (d : Directories) : List String → List (Directories × Except LineError (Option Command))
  | [] => []
  | line :: rest => d.read line :: (d.read line).1.readAll rest

/-- The commands that lines record, in order. -/
def recordedBy (d : Directories) (lines : List String) : List Command :=
  (d.readAll lines).filterMap (·.2.toOption.join)

/-- A line records its own command before those of the later lines. -/
theorem recordedBy_cons (d : Directories) (line : String) (rest : List String) :
    d.recordedBy (line :: rest) =
      (d.read line).2.toOption.join.toList ++ (d.read line).1.recordedBy rest := by
  rw [recordedBy, readAll, List.filterMap_cons]
  cases (d.read line).2.toOption.join <;> rfl

end Directories

namespace Session

/-- The answers to lines read in order, each with the session after it. Reading goes on after lines that fail. -/
def answers (s : Session) : List String → List (Session × Except LineError (Option Path))
  | [] => []
  | line :: rest => s.feed line :: (s.feed line).1.answers rest

/-! ## One line -/

/-- A line is read in the directories alone. The database takes the command that it records, if any, and the answer is
the key of that command. -/
theorem feed_eq (s : Session) (line : String) :
    s.feed line =
      (⟨(s.directories.read line).2.toOption.join.toList.foldl Database.upsert s.database,
        (s.directories.read line).1, s.recorded + (s.directories.read line).2.toOption.join.toList.length⟩,
        (s.directories.read line).2.map (Option.map Command.key)) := by
  unfold feed
  split
  case h_1 failed => rw [failed]; rfl
  case h_2 read => rw [read]; rfl
  case h_3 read => rw [read]; rfl

/-! ## Several lines -/

/-- What a session answers and which directories it enters can be told from the directories that it is in. -/
theorem map_answers (s : Session) (lines : List String) :
    (s.answers lines).map (fun a => (a.1.directories, a.2)) =
      (s.directories.readAll lines).map fun r => (r.1, r.2.map (Option.map Command.key)) := by
  induction lines generalizing s with
  | nil => rfl
  | cons line rest ih =>
    rw [answers, Directories.readAll, List.map_cons, List.map_cons, ih, feed_eq]

/-- The answers are the keys of the recorded commands. -/
theorem filterMap_answers (s : Session) (lines : List String) :
    (s.answers lines).filterMap (·.2.toOption.join) = (s.directories.recordedBy lines).map Command.key := by
  have keyed : ∀ meaning : Except LineError (Option Command),
      (meaning.map (Option.map Command.key)).toOption.join = meaning.toOption.join.map Command.key := by
    intro meaning
    cases meaning with
    | error e => rfl
    | ok command => rfl
  calc (s.answers lines).filterMap (·.2.toOption.join)
    _ = ((s.answers lines).map fun a => (a.1.directories, a.2)).filterMap (·.2.toOption.join) := by
      rw [List.filterMap_map]
      rfl
    _ = (s.directories.readAll lines).filterMap fun r => r.2.toOption.join.map Command.key := by
      rw [map_answers, List.filterMap_map]
      simp only [Function.comp_def, keyed]
    _ = (s.directories.recordedBy lines).map Command.key := by
      rw [Directories.recordedBy, List.map_filterMap]

/-- What a session has recorded is merged into its database. -/
theorem feedAll_eq_foldl (s : Session) (lines : List String) :
    (s.feedAll lines).database = (s.directories.recordedBy lines).foldl Database.upsert s.database ∧
      (s.feedAll lines).recorded = s.recorded + (s.directories.recordedBy lines).length := by
  induction lines generalizing s with
  | nil => exact ⟨rfl, rfl⟩
  | cons line rest ih =>
    obtain ⟨database, recorded⟩ := ih (s.feed line).1
    rw [feedAll, List.foldl_cons, ← feedAll, database, recorded, Directories.recordedBy_cons, feed_eq]
    constructor
    · rw [List.foldl_append]
    · rw [List.length_append, Nat.add_assoc]

/-- Whether lines fail, and how, can be told from the directories too. -/
theorem feedLines_snd_congr {s s' : Session} (same : s.directories = s'.directories) (lines : List String) :
    (s.feedLines lines).2 = (s'.feedLines lines).2 := by
  induction lines generalizing s s' with
  | nil => rfl
  | cons line rest ih =>
    rw [feedLines, feedLines, feed_eq, feed_eq, same]
    cases (s'.directories.read line).2 with
    | error e => rfl
    | ok command => exact ih rfl

/-- **A session is a merge that never looks at the database.** The lines alone determine the commands that are recorded,
the directories after every line and the answer to it: the key of a recorded command, nothing, or an error. Whatever
the database, these commands are recorded in it in order, and counted. Its entries keep their places, those with the
key of a recorded command take the last such command, the others stay as they are, and new keys follow in the order in
which they first come. -/
theorem feedAll_start (db : Database) (lines : List String) :
    let commands := Directories.empty.recordedBy lines
    let answers := (start db).answers lines
    let after := (start db).feedAll lines
    answers.map (fun a => (a.1.directories, a.2)) =
        (Directories.empty.readAll lines).map (fun r => (r.1, r.2.map (Option.map Command.key))) ∧
      answers.filterMap (·.2.toOption.join) = commands.map Command.key ∧
      after.database = commands.foldl Database.upsert db ∧ after.recorded = commands.length ∧
      (db.keys.Nodup → after.database.entries =
        db.entries.map (fun entry => (entry.1, (Command.last? commands entry.1).getD entry.2)) ++
          (db.newKeys commands).filterMap fun key => (Command.last? commands key).map (key, ·)) := by
  intro commands answers after
  obtain ⟨merged, counted⟩ := feedAll_eq_foldl (start db) lines
  refine ⟨map_answers (start db) lines, filterMap_answers (start db) lines, merged, ?_, ?_⟩
  · exact counted.trans (Nat.zero_add _)
  · intro distinct
    rw [merged]
    exact Database.entries_foldl_upsert distinct commands

/-- A database with a file that is recorded again, and one that is not. -/
def olderDatabase : Database :=
  (Database.empty.upsert ⟨⟨"/p"⟩, ⟨"a.c"⟩, ["cc"]⟩).upsert ⟨⟨"/q"⟩, ⟨"z.c"⟩, ["cc"]⟩

/-- Lines of which the first and the fourth fail, and which record a new file twice. -/
def mixedLines : List String :=
  ["gcc x.c", "make: Entering directory '/p/.'", "gcc b.c", "make: Leaving directory '/q'", "clang ../p/a.c", "gcc -O2 b.c"]

theorem feedAll_start_mixed :
    olderDatabase.keys.Nodup ∧
      ((start olderDatabase).feedAll mixedLines).database.entries =
        [(⟨"/p/a.c"⟩, ⟨⟨"/p/."⟩, ⟨"../p/a.c"⟩, ["clang", "../p/a.c"]⟩), (⟨"/q/z.c"⟩, ⟨⟨"/q"⟩, ⟨"z.c"⟩, ["cc"]⟩),
          (⟨"/p/b.c"⟩, ⟨⟨"/p/."⟩, ⟨"b.c"⟩, ["gcc", "-O2", "b.c"]⟩)] := by
  have distinct : olderDatabase.keys.Nodup := by decide +kernel
  obtain ⟨-, -, -, -, entries⟩ := feedAll_start olderDatabase mixedLines
  refine ⟨distinct, (entries distinct).trans ?_⟩
  decide +kernel

end Session

end CompileDb.Make
