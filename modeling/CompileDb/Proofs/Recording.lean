import CompileDb.Make.Session

/-!
# Sessions over several lines

What a line records (`read_eq_ok_some_iff`), and a session that is given lines one after the other and stops at the first
that fails. A line that fails records nothing, so the database is then that of the lines before it.
-/

namespace CompileDb.Make

/-- A line records the call that it prints, in the directory that is innermost once its announcement has been followed. -/
theorem Directories.read_eq_ok_some_iff {d after : Directories} {line : String} {command : Command} :
    d.read line = (after, .ok (some command)) ↔
      ∃ announcement call directory, d.track line = .ok (announcement, after) ∧
        Invocation.ofLine? line = some call ∧ after.current? = some directory ∧ command = call.toCommand directory := by
  constructor
  · intro read
    unfold Directories.read at read
    split at read
    case h_1 => cases read
    case h_2 announcement next tracked =>
      split at read
      case h_1 => cases read
      case h_2 call printed =>
        split at read
        case h_1 => cases read
        case h_2 directory inner =>
          cases read
          exact ⟨announcement, call, directory, tracked, printed, inner, rfl⟩
  · rintro ⟨announcement, call, directory, tracked, printed, inner, rfl⟩
    rw [Directories.read, tracked]
    simp only [printed, inner]

namespace Session

/-- Reads lines in order, up to the first that fails. -/
def feedLines (s : Session) : List String → Session × Option LineError
  | [] => (s, none)
  | line :: rest =>
    match s.feed line with
    | (after, .error e) => (after, some e)
    | (after, .ok _) => after.feedLines rest

/-- Lines fed in two stretches are fed in one, up to the first error. -/
theorem feedLines_append (s : Session) (a b : List String) :
    s.feedLines (a ++ b) =
      match s.feedLines a with
      | (after, some e) => (after, some e)
      | (after, none) => after.feedLines b := by
  induction a generalizing s with
  | nil => rfl
  | cons line rest ih =>
    rw [List.cons_append, feedLines, feedLines]
    split
    · rfl
    · exact ih _

/-- As long as no line fails, it does not matter whether the session would stop. -/
theorem feedAll_eq_feedLines {s : Session} {lines : List String} (h : (s.feedLines lines).2 = none) :
    s.feedAll lines = (s.feedLines lines).1 := by
  induction lines generalizing s with
  | nil => rfl
  | cons line rest ih =>
    rw [feedLines] at h ⊢
    rw [feedAll, List.foldl_cons, ← feedAll]
    split at h
    · cases h
    · rename_i after answer fed
      rw [fed]
      exact ih h

/-- The session after commands have been recorded in order. -/
def recordAll (s : Session) (commands : List Command) : Session :=
  ⟨commands.foldl Database.upsert s.database, s.directories, s.recorded + commands.length⟩

theorem recordAll_append (s : Session) (a b : List Command) :
    s.recordAll (a ++ b) = (s.recordAll a).recordAll b := by
  simp [recordAll, Nat.add_assoc]

/-- A line that fails changes neither the database nor the count. -/
theorem kept_of_feed_error {s after : Session} {line : String} {e : LineError}
    (h : s.feed line = (after, .error e)) : after.database = s.database ∧ after.recorded = s.recorded := by
  unfold feed at h
  split at h <;> cases h
  exact ⟨rfl, rfl⟩

/-- Where lines fail, the first of them has failed, and nothing behind it counts. -/
theorem split_of_feedLines_error {s after : Session} {lines : List String} {e : LineError}
    (h : s.feedLines lines = (after, some e)) :
    ∃ before line later middle, lines = before ++ line :: later ∧ s.feedLines before = (middle, none) ∧
      middle.feed line = (after, .error e) := by
  induction lines generalizing s with
  | nil => cases h
  | cons line rest ih =>
    rw [feedLines] at h
    split at h
    · rename_i failed e' fed
      cases h
      exact ⟨[], line, rest, s, rfl, rfl, fed⟩
    · rename_i middle answer fed
      obtain ⟨before, bad, later, last, rfl, fine, failed⟩ := ih h
      refine ⟨line :: before, bad, later, last, rfl, ?_, failed⟩
      rw [feedLines, fed]
      exact fine

end Session

end CompileDb.Make
