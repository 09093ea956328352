import CompileDb.Proofs.Driving
import CompileDb.Proofs.Recording
import CompileDb.Run.Build

/-!
# What an observed run records

An observed run records what a session records that is given the complete lines of make's output one by one. How the
output is cut into polls, and what comes in between on the other stream, does not matter.
-/

namespace CompileDb.Run

open Make

/-- Recording a build never cancels it. -/
theorem recorder_calm : recorder.Calm := by
  intro s line
  unfold recorder
  split <;> rfl

/-- The recorder handles lines as a session reads them. -/
theorem handle_recorder (s : Session) (lines : List String) :
    recorder.handle s lines = ((s.feedLines lines).1, (s.feedLines lines).2.map .line) := by
  induction lines generalizing s with
  | nil => rfl
  | cons line rest ih =>
    rw [Handler.handle, Session.feedLines]
    cases fed : s.feed line with
    | mk after answer =>
      cases answer with
      | error e => simp [recorder, fed]
      | ok key => simpa [recorder, fed] using ih after

/-- An observed run drives the process with the recorder and keeps its session. -/
theorem observe_started (settings : MakeSettings) (arguments : List String) (script : Script) (cancelled : Bool)
    (db : Database) (diagnostics : Sink) :
    (observe settings arguments (some script) cancelled db diagnostics).session =
        (drive script cancelled recorder (Session.start db) diagnostics).1.caller ∧
      (observe settings arguments (some script) cancelled db diagnostics).result =
        (drive script cancelled recorder (Session.start db) diagnostics).2 :=
  ⟨rfl, rfl⟩

/-- The polls up to the first during which cancellation is requested. -/
def Drive.pollsMade : List Poll → List Poll
  | [] => []
  | p :: rest => p :: if p.cancels then [] else pollsMade rest

/-- The complete lines that a process prints until it ends, or up to the poll during which it is interrupted. -/
def observedLines (script : Script) : List String :=
  textLines ((Drive.pollsMade script.polls).flatMap Poll.out)

/-- **A dry run equals feeding whole lines.** Without cancellation and failing polls an observed run ends as the
session that reads the complete lines of all output, whatever the polls are: with its database and its count at the end
of the process, or with its error. In that case the database is that of the lines before the one that fails. -/
theorem observe_eq_feedLines (settings : MakeSettings) (arguments : List String) (script : Script) (db : Database)
    (diagnostics : Sink) (willing : diagnostics.Willing)
    (quiet : ∀ p ∈ script.polls, p.cancels = false ∧ p.failure = none) :
    let lines := textLines (script.polls.flatMap Poll.out)
    let seen := observe settings arguments (some script) false db diagnostics
    seen.session = ((Session.start db).feedLines lines).1 ∧
      match ((Session.start db).feedLines lines).2 with
      | none => seen.result = .ok (.completed script.exit)
      | some e => seen.result = .error (.line e) ∧
          ∃ before line later, lines = before ++ line :: later ∧
            ((Session.start db).feedLines before).2 = none ∧
            (((Session.start db).feedLines before).1.feed line).2 = .error e ∧
            seen.session.database = ((Session.start db).feedLines before).1.database := by
  intro lines seen
  have handled := handle_recorder (Session.start db) lines
  have ended := @drive_of_quiet _ _ script (Session.start db) diagnostics recorder_calm willing quiet
  obtain ⟨session, result⟩ := observe_started settings arguments script false db diagnostics
  rw [handled] at ended
  have same : seen.session = ((Session.start db).feedLines lines).1 := session.trans ended.1
  refine ⟨same, ?_⟩
  cases fed : (Session.start db).feedLines lines with
  | mk after failure =>
    rw [fed] at ended same
    cases failure with
    | none => exact result.trans ended.2
    | some e =>
      obtain ⟨before, line, later, middle, split, fine, failed⟩ := Session.split_of_feedLines_error fed
      refine ⟨result.trans ended.2, before, line, later, split, by rw [fine], by rw [fine, failed], ?_⟩
      rw [same, fine, (Session.kept_of_feed_error failed).1]

/-- A process that prints two whole lines and one without an end. The first poll ends inside a character, and the
second one brings a warning only. -/
def cutScript : Script :=
  let bytes := Text.encode "make: Entering directory '/p'\ngcc -c é.c\ng++ -c b.cc"
  ⟨[⟨bytes.take 38, [], false, none⟩, ⟨[], Text.encode "warning\n", false, none⟩, ⟨bytes.drop 38, [], false, none⟩],
    some (.code 0), none⟩

theorem observe_cutScript :
    Sink.Willing (.fresh none none) ∧ (∀ p ∈ cutScript.polls, p.cancels = false ∧ p.failure = none) ∧
      (observe .standard [] (some cutScript) false .empty (.fresh none none)).session.database.keys = [⟨"/p/é.c"⟩] ∧
      (observe .standard [] (some cutScript) false .empty (.fresh none none)).result =
        .ok (.completed (some (.code 0))) := by
  have quiet : ∀ p ∈ cutScript.polls, p.cancels = false ∧ p.failure = none := by decide
  have same := observe_eq_feedLines .standard [] cutScript .empty (.fresh none none) .fresh quiet
  have lines : textLines (cutScript.polls.flatMap Poll.out) = ["make: Entering directory '/p'", "gcc -c é.c"] := by
    decide +kernel
  have keys : ((Session.start .empty).feedLines ["make: Entering directory '/p'", "gcc -c é.c"]).1.database.keys =
      [⟨"/p/é.c"⟩] := by decide +kernel
  have fine : ((Session.start .empty).feedLines ["make: Entering directory '/p'", "gcc -c é.c"]).2 = none := by
    decide +kernel
  simp only [lines, fine] at same
  rw [same.1]
  exact ⟨.fresh, quiet, keys, same.2⟩

end CompileDb.Run
