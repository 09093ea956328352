import CompileDb.Proofs.Announcing
import CompileDb.Proofs.Recording

/-!
# Recursive builds

What a make prints that calls other makes: its own lines and those of the makes it calls, each between the
announcements of its directory. A session reads such a tree from whatever it has read before, leaves the directories as
they were, and records every compiler call in the directory of the make that printed it.
-/

namespace CompileDb.Make

/-- What is printed by a make: a line, or all that another make prints which it calls. -/
inductive Printed where
  | line (text : String)
  | call (directory : String) (entering leaving : OpeningQuote) (items : List Printed)

namespace Printed

mutual

/-- The printed lines, with the level of the make that a call starts. -/
def lines (level : Nat) : Printed → List String
  | line text => [text]
  | call directory entering leaving items =>
    Announcement.line level Announcement.enteringPhrase entering directory :: linesOf (level + 1) items ++
      [Announcement.line level Announcement.leavingPhrase leaving directory]

/-- The printed lines of several items. -/
def linesOf (level : Nat) : List Printed → List String
  | [] => []
  | item :: rest => item.lines level ++ linesOf level rest

end

mutual

/-- No line is itself an announcement, and no directory below the outermost make is mistaken for another one. -/
def Proper (level : Nat) : Printed → Prop
  | line text => Announcement.ofLine? text = .ok none
  | call directory _ _ items => Announcement.Unmistakable level directory ∧ ProperAll (level + 1) items

/-- All items are proper. -/
def ProperAll (level : Nat) : List Printed → Prop
  | [] => True
  | item :: rest => item.Proper level ∧ ProperAll level rest

end

mutual

/-- The compiler calls in the order in which they are printed, each in the directory of the make that prints it;
`directory` is that of a single line. -/
def commands (directory : Path) : Printed → List Command
  | line text => ((Invocation.ofLine? text).map (·.toCommand directory)).toList
  | call directory _ _ items => commandsOf ⟨directory⟩ items

/-- The compiler calls of several items. -/
def commandsOf (directory : Path) : List Printed → List Command
  | [] => []
  | item :: rest => item.commands directory ++ commandsOf directory rest

end

end Printed

namespace Session

/-- A line that announces nothing is recorded in the innermost directory, if it calls a compiler. -/
theorem feedLines_line {s : Session} {text : String} {dir : Path} (plain : Announcement.ofLine? text = .ok none)
    (inside : s.directories.current? = some dir) :
    s.feedLines [text] = (s.recordAll ((Printed.line text).commands dir), none) := by
  have track : s.directories.track text = .ok (none, s.directories) := by
    rw [Directories.track, plain]
    rfl
  cases call : Invocation.ofLine? text with
  | none =>
    have read : s.directories.read text = (s.directories, .ok none) := by simp [Directories.read, track, call]
    simp [feedLines, feed, read, Printed.commands, call, recordAll]
  | some call' =>
    have read : s.directories.read text = (s.directories, .ok (some (call'.toCommand dir))) := by
      simp [Directories.read, track, call, inside]
    simp [feedLines, feed, read, Printed.commands, call, recordAll]

/-- An entering line opens its directory and records nothing. -/
theorem feed_entering (s : Session) (level : Nat) (quote : OpeningQuote) (directory : String) :
    s.feed (Announcement.line level Announcement.enteringPhrase quote directory) =
      ({ s with directories := s.directories.enter ⟨directory⟩ }, .ok none) := by
  have track : s.directories.track (Announcement.line level Announcement.enteringPhrase quote directory) =
      .ok (some (.entering ⟨directory⟩), s.directories.enter ⟨directory⟩) := by
    rw [Directories.track, Announcement.ofLine?_entering]
    rfl
  simp [feed, Directories.read, track, Invocation.ofLine?_announcement]

/-- A leaving line goes back to the directory around the one it names. -/
theorem feed_leaving {s inner : Session} {level : Nat} {directory : String}
    (clear : Announcement.Unmistakable level directory) (quote : OpeningQuote)
    (inside : inner.directories = s.directories.enter ⟨directory⟩) :
    inner.feed (Announcement.line level Announcement.leavingPhrase quote directory) =
      ({ inner with directories := s.directories }, .ok none) := by
  have track : inner.directories.track (Announcement.line level Announcement.leavingPhrase quote directory) =
      .ok (some (.leaving ⟨directory⟩), s.directories) := by
    rw [Directories.track, Announcement.ofLine?_leaving clear, inside]
    have left := Directories.leave_enter (d := s.directories) (rfl : Path.Same ⟨directory⟩ ⟨directory⟩)
    simp only [bind, Except.bind, Directories.follow, left]
    rfl
  simp [feed, Directories.read, track, Invocation.ofLine?_announcement]

/-- What is printed between two announcements is read in the announced directory, which is then left again. -/
theorem feedLines_announced {level : Nat} {directory : String} (clear : Announcement.Unmistakable level directory)
    (entering leaving : OpeningQuote) {lines : List String} {commands : List Command}
    (between : ∀ inner : Session, inner.directories.current? = some ⟨directory⟩ →
      inner.feedLines lines = (inner.recordAll commands, none)) (s : Session) :
    s.feedLines (Announcement.line level Announcement.enteringPhrase entering directory :: lines ++
      [Announcement.line level Announcement.leavingPhrase leaving directory]) = (s.recordAll commands, none) := by
  let inner : Session := { s with directories := s.directories.enter ⟨directory⟩ }
  rw [List.cons_append, feedLines, feed_entering]
  change inner.feedLines (lines ++ _) = _
  rw [feedLines_append, between inner rfl]
  change (inner.recordAll commands).feedLines _ = _
  rw [feedLines, @feed_leaving s (inner.recordAll commands) level directory clear leaving rfl]
  rfl

mutual

/-- What a call of make prints records its compilations and leaves the stack as it was. -/
theorem feedLines_lines {level : Nat} {item : Printed} {dir : Path} {s : Session} (proper : item.Proper level)
    (inside : s.directories.current? = some dir) :
    s.feedLines (item.lines level) = (s.recordAll (item.commands dir), none) := by
  cases item with
  | line text => exact feedLines_line proper inside
  | call directory entering leaving items =>
    exact feedLines_announced proper.1 entering leaving (fun inner inside => feedLines_linesOf proper.2 inside) s

/-- So do the calls of a list, one after the other. -/
theorem feedLines_linesOf {level : Nat} {items : List Printed} {dir : Path} {s : Session}
    (proper : Printed.ProperAll level items) (inside : s.directories.current? = some dir) :
    s.feedLines (Printed.linesOf level items) = (s.recordAll (Printed.commandsOf dir items), none) := by
  cases items with
  | nil => rfl
  | cons item rest =>
    rw [Printed.linesOf, feedLines_append, feedLines_lines proper.1 inside, Printed.commandsOf, recordAll_append]
    exact feedLines_linesOf proper.2 inside

end

/-- **Recursive builds are recorded faithfully.** From any session, reading what a make prints together with all makes
below it never fails. It leaves the directories as they were, and records, in print order, every compiler call in the
directory of the innermost make around it. -/
theorem feedLines_call {level : Nat} {directory : String} {entering leaving : OpeningQuote} {items : List Printed}
    (proper : (Printed.call directory entering leaving items).Proper level) (s : Session) :
    s.feedLines ((Printed.call directory entering leaving items).lines level) =
      (⟨(Printed.commandsOf ⟨directory⟩ items).foldl Database.upsert s.database, s.directories,
        s.recorded + (Printed.commandsOf ⟨directory⟩ items).length⟩, none) :=
  feedLines_announced proper.1 entering leaving (fun _ inside => feedLines_linesOf proper.2 inside) s

/-- A make that compiles two files and in between calls another one, in a directory whose name has quotes in it. -/
def nestedBuild : Printed :=
  .call "/p" .apostrophe .apostrophe
    [.line "gcc -c a.c", .call "/p/it's" .backtick .apostrophe [.line "g++ -c b.cc", .line "echo done"],
      .line "clang -c c.c"]

theorem feedLines_nestedBuild :
    nestedBuild.Proper 0 ∧
      ((start .empty).feedLines (nestedBuild.lines 0)).1.database.keys =
        [⟨"/p/a.c"⟩, ⟨"/p/it's/b.cc"⟩, ⟨"/p/c.c"⟩] := by
  have proper : nestedBuild.Proper 0 := by
    refine ⟨.inl rfl, ?_, ⟨.inr ?_, ?_, ?_, trivial⟩, ?_, trivial⟩
    case refine_2 =>
      rw [← Text.occursIn_iff]
      decide +kernel
    all_goals simp [Printed.Proper, Announcement.ofLine?, Announcement.announces, Announcement.outermostMark,
      List.isPrefixOf]
  refine ⟨proper, ?_⟩
  rw [nestedBuild, feedLines_call proper]
  decide +kernel

end Session

end CompileDb.Make
