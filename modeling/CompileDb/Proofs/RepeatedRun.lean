import CompileDb.CommandLine.Run
import CompileDb.Proofs.RoundTrip
import CompileDb.Proofs.SessionMerge

/-!
# Repeated runs

Bringing a database file up to date a second time, with the same lines and arguments, changes nothing: what was loaded
from it then is what was stored, the same commands take their places again, and no argument is added twice.
-/

namespace CompileDb.Database

open Make

/-- The database after lines have been recorded and arguments added. -/
def refreshed (db : Database) (lines extra : List String) : Database :=
  ((Session.start db).feedLines lines).1.database.addArguments extra

/-- Brings a database file up to date: loads it, records the lines, adds the arguments and stores it again. The first
failure ends that. -/
def refresh (files : FileTree) (path : Path) (lines extra : List String) : Except CommandLine.Failure FileTree :=
  match load files path with
  | .error e => .error (.database e)
  | .ok db =>
    match ((Session.start db).feedLines lines).2 with
    | some e => .error (.run (.line e))
    | none => ((db.refreshed lines extra).store files path).mapError .database

/-- A file is brought up to date if it can be loaded, no line fails, and the outcome can be stored. -/
theorem refresh_eq_ok {files files' : FileTree} {path : Path} {lines extra : List String} :
    refresh files path lines extra = .ok files' ↔
      ∃ db, load files path = .ok db ∧ ((Session.start db).feedLines lines).2 = none ∧
        (db.refreshed lines extra).store files path = .ok files' := by
  unfold refresh
  constructor
  · intro done
    split at done
    case h_1 => contradiction
    case h_2 db loaded =>
      split at done
      case h_1 => contradiction
      case h_2 fine => exact ⟨db, loaded, fine, mapError_eq_ok_iff.mp done⟩
  · rintro ⟨db, loaded, fine, stored⟩
    rw [loaded]
    simp only
    rw [fine]
    simp only
    rw [stored]
    rfl

/-- What is loaded is well-formed. -/
theorem WellFormed.load {db : Database} {files : FileTree} {path : Path} (loaded : Database.load files path = .ok db) :
    db.WellFormed := by
  unfold Database.load at loaded
  split at loaded
  case h_1 => cases loaded; exact .empty
  case h_2 => contradiction
  case h_3 bytes read =>
    split at loaded
    case h_1 => contradiction
    case h_2 text decoded => exact .ofJson (mapError_eq_ok_iff.mp loaded)

/-- Feeding lines keeps a database well formed. -/
theorem WellFormed.feedLines {s : Session} (wf : s.database.WellFormed) (lines : List String) :
    (s.feedLines lines).1.database.WellFormed := by
  induction lines generalizing s with
  | nil => exact wf
  | cons line rest ih =>
    have fed := wf.feed line
    rw [Session.feedLines]
    split
    case h_1 after e failed =>
      rw [failed] at fed
      exact fed
    case h_2 after answer read =>
      rw [read] at fed
      exact ih fed

/-- Lines that do not fail are merged. -/
theorem refreshed_eq_foldl {db : Database} {lines : List String} (fine : ((Session.start db).feedLines lines).2 = none)
    (extra : List String) :
    db.refreshed lines extra = ((Directories.empty.recordedBy lines).foldl upsert db).addArguments extra := by
  rw [refreshed, ← Session.feedAll_eq_feedLines fine, (Session.feedAll_eq_foldl _ _).1]
  rfl

/-- Refreshing a refreshed database with the same lines and arguments changes nothing. -/
theorem refreshed_refreshed {db : Database} (distinct : db.keys.Nodup) {lines : List String}
    (fine : ∀ db : Database, ((Session.start db).feedLines lines).2 = none) (extra : List String) :
    (db.refreshed lines extra).refreshed lines extra = db.refreshed lines extra := by
  rw [refreshed_eq_foldl (fine _), refreshed_eq_foldl (fine _)]
  exact addArguments_foldl_upsert_again distinct _ extra

/-- What has been stored is stored again without a change. -/
theorem store_again {db : Database} {files files' : FileTree} {path : Path}
    (stored : db.store files path = .ok files') : db.store files' path = .ok files' := by
  rw [store, FileTree.write_again (write_of_store stored)]
  rfl

/-- **Repeating a run changes nothing.** Where a file could be brought up to date, it now holds the refreshed database,
and it can be brought up to date again with the same lines and arguments: no file changes. -/
theorem refresh_refresh {files files' : FileTree} {path : Path} {lines extra : List String}
    (done : refresh files path lines extra = .ok files') :
    refresh files' path lines extra = .ok files' ∧
      ∃ db, load files path = .ok db ∧
        files'.read path = .ok (Text.encode (db.refreshed lines extra).fileText) := by
  obtain ⟨db, loaded, fine, stored⟩ := refresh_eq_ok.mp done
  have wf : db.WellFormed := .load loaded
  have wf' : (db.refreshed lines extra).WellFormed :=
    (@WellFormed.feedLines (Session.start db) wf lines).addArguments extra
  have kept : ¬ ∃ d, files.look path = .ok (.device d) := fun ⟨d, there⟩ => look_of_load loaded d there
  have always : ∀ other : Database, ((Session.start other).feedLines lines).2 = none :=
    fun other => (@Session.feedLines_snd_congr (Session.start other) (Session.start db) rfl lines).trans fine
  constructor
  · refine refresh_eq_ok.mpr ⟨_, (wf'.load_of_store stored).resolve_left kept, always _, ?_⟩
    rw [refreshed_refreshed wf.distinct always]
    exact store_again stored
  · exact ⟨db, loaded, (FileTree.read_of_write (write_of_store stored)).resolve_left kept⟩

/-- A file with a command text, two entries for one path, and one for a path that is not recorded any more. -/
def agedFiles : FileTree :=
  (FileTree.atHome ["w"]).plant ⟨"db"⟩
    (.file (Text.encode "[[\"/p\",\"a.c\",\"cc a.c\"],[\"/p/.\",\"a.c\",\"gcc -g\"],[\"/p\",\"o.c\",\"cc -g\"]]"))

/-- Lines that record one file twice, under two spellings. -/
def agedLines : List String := ["make: Entering directory '/p'", "gcc -O0 ../p/a.c", "clang b.c", "gcc -O2 a.c"]

theorem refresh_refresh_aged :
    ∃ files, refresh agedFiles ⟨"db"⟩ agedLines ["-Wall", "-g"] = .ok files ∧
      refresh files ⟨"db"⟩ agedLines ["-Wall", "-g"] = .ok files := by
  have good : (refresh agedFiles ⟨"db"⟩ agedLines ["-Wall", "-g"]).isOk = true := by decide +kernel
  cases done : refresh agedFiles ⟨"db"⟩ agedLines ["-Wall", "-g"] with
  | error e =>
    rw [done] at good
    cases good
  | ok files => exact ⟨files, rfl, (refresh_refresh done).1⟩

end CompileDb.Database
