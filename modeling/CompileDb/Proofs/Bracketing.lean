import CompileDb.Proofs.FailingLine

/-!
# Announcements as brackets

A directory that is entered opens a bracket, and the same directory left closes it. So whatever lines are tracked, in
whatever order and with whatever failures among them, the open directories are those whose bracket is not closed by the
announcements that could be followed. `unclosed_trackAll` follows them line by line, and `foldlM_follow_unclosed` says
that the announcements leave no other directories open.
-/

namespace CompileDb.Make

namespace Announcement

/-- Well-bracketed announcements: each directory that is entered is left again, under any of its spellings, and no other
one is left. -/
inductive Bracketed : List Announcement → Prop where
  | nil : Bracketed []
  | pair {inner later : List Announcement} {dir spelling : Path} : Bracketed inner → dir.Same spelling →
      Bracketed later → Bracketed (.entering dir :: inner ++ .leaving spelling :: later)

/-- The directories that announcements have entered and not left again, the outermost one first. Between two of them,
and before and behind them, the announcements are well-bracketed. -/
inductive Unclosed : List Announcement → List Path → Prop where
  | bracketed {announcements : List Announcement} : Bracketed announcements → Unclosed announcements []
  | inside {before inner : List Announcement} {dirs : List Path} {dir : Path} : Unclosed before dirs →
      Bracketed inner → Unclosed (before ++ .entering dir :: inner) (dirs ++ [dir])

/-- The announcements that lines make. Malformed ones are left out. -/
def ofLines (lines : List String) : List Announcement :=
  lines.filterMap fun line => (ofLine? line).toOption.join

theorem ofLines_cons {line : String} {announcement : Option Announcement} (made : ofLine? line = .ok announcement)
    (rest : List String) : ofLines (line :: rest) = announcement.toList ++ ofLines rest := by
  rw [ofLines, List.filterMap_cons, made]
  cases announcement <;> rfl

/-- Two well-bracketed runs of announcements are one. -/
theorem Bracketed.append {a b : List Announcement} (first : Bracketed a) (second : Bracketed b) :
    Bracketed (a ++ b) := by
  induction first with
  | nil => exact second
  | pair inner same _ _ ih =>
    rw [List.append_assoc, List.cons_append]
    exact .pair inner same ih

/-- What is well-bracketed opens and closes nothing. -/
theorem Unclosed.append {a b : List Announcement} {dirs : List Path} (first : Unclosed a dirs)
    (second : Bracketed b) : Unclosed (a ++ b) dirs := by
  cases first with
  | bracketed first => exact .bracketed (first.append second)
  | inside before inner =>
    rw [List.append_assoc, List.cons_append]
    exact .inside before (inner.append second)

/-- Leaving the innermost directory closes its bracket. -/
theorem Unclosed.leave {announcements : List Announcement} {outer : List Path} {dir spelling : Path}
    (opened : Unclosed announcements (outer ++ [dir])) (same : dir.Same spelling) :
    Unclosed (announcements ++ [.leaving spelling]) outer := by
  generalize split : outer ++ [dir] = dirs at opened
  cases opened with
  | bracketed => exact absurd split (List.append_ne_nil_of_right_ne_nil outer (List.cons_ne_nil dir []))
  | inside before inner =>
    obtain ⟨rfl, last⟩ := List.append_inj' split rfl
    obtain rfl := List.singleton_inj.mp last
    rw [List.append_assoc, List.cons_append]
    exact before.append (.pair inner same .nil)

/-- Directories that are entered one inside the other are all open. -/
theorem Unclosed.entering (dirs : List Path) : Unclosed (dirs.reverse.map .entering) dirs.reverse := by
  induction dirs with
  | nil => exact .bracketed .nil
  | cons dir dirs ih =>
    rw [List.reverse_cons, List.map_append]
    exact .inside ih .nil

/-- With nothing left open the announcements pair up. -/
theorem Unclosed.bracketed_of_nil {announcements : List Announcement} (closed : Unclosed announcements []) :
    Bracketed announcements := by
  generalize none : [] = dirs at closed
  cases closed with
  | bracketed all => exact all
  | inside => exact absurd none.symm (List.append_ne_nil_of_right_ne_nil _ (List.cons_ne_nil _ []))

end Announcement

namespace Directories

open Announcement

variable {d after : Directories}

/-! ## Following announcements -/

/-- Well-bracketed announcements can be followed from anywhere and lead back. -/
theorem foldlM_follow_bracketed {announcements : List Announcement} (bracketed : Bracketed announcements)
    (d : Directories) : announcements.foldlM follow d = .ok d := by
  induction bracketed generalizing d with
  | nil => rfl
  | @pair inner later dir spelling _ same _ ihInner ihLater =>
    have left : (d.enter dir).follow (.leaving spelling) = .ok d := leave_enter same
    calc (Announcement.entering dir :: inner ++ .leaving spelling :: later).foldlM follow d
      _ = (inner ++ .leaving spelling :: later).foldlM follow (d.enter dir) := rfl
      _ = (Announcement.leaving spelling :: later).foldlM follow (d.enter dir) := by
        rw [List.foldlM_append, ihInner]
        rfl
      _ = later.foldlM follow d := by
        rw [List.foldlM_cons, left]
        rfl
      _ = .ok d := ihLater d

/-- Announcements can be followed if they leave directories open, and these are then the entered ones. -/
theorem foldlM_follow_unclosed {announcements : List Announcement} {dirs : List Path}
    (opened : Unclosed announcements dirs) : announcements.foldlM follow empty = .ok ⟨dirs.reverse⟩ := by
  induction opened with
  | bracketed all => exact foldlM_follow_bracketed all empty
  | @inside before inner dirs dir _ all ih =>
    rw [List.foldlM_append, ih, List.reverse_append]
    exact foldlM_follow_bracketed all _

/-- Announcements leave the same directories open, however they are taken apart. -/
theorem unclosed_unique {announcements : List Announcement} {dirs others : List Path}
    (opened : Unclosed announcements dirs) (opened' : Unclosed announcements others) : dirs = others := by
  have same := (foldlM_follow_unclosed opened).symm.trans (foldlM_follow_unclosed opened')
  rw [Except.ok.injEq, mk.injEq] at same
  exact List.reverse_inj.mp same

/-- One more announcement that can be followed. -/
theorem unclosed_follow {announcements : List Announcement} (opened : Unclosed announcements d.outermostFirst)
    {a : Announcement} (followed : d.follow a = .ok after) :
    Unclosed (announcements ++ [a]) after.outermostFirst := by
  cases a with
  | entering dir =>
    cases followed
    have outermost : (d.enter dir).outermostFirst = d.outermostFirst ++ [dir] := List.reverse_cons
    rw [outermost]
    exact .inside opened .nil
  | leaving dir =>
    rw [follow, leave] at followed
    split at followed
    case h_1 => contradiction
    case h_2 inner outer entered =>
      split at followed
      case isFalse => contradiction
      case isTrue same =>
        cases followed
        rw [outermostFirst, entered, List.reverse_cons] at opened
        exact opened.leave same

/-- With nothing open, no directory can be left. -/
theorem follow_leaving_outside (outside : d.outermostFirst = []) (dir : Path) :
    d.follow (.leaving dir) = .error (.notEntered dir) := by
  have nothing : d.entered = [] := List.reverse_eq_nil_iff.mp outside
  rw [follow, leave, nothing]

/-- Only the innermost open directory can be left. -/
theorem follow_leaving_inside {outer : List Path} {inner : Path} (inside : d.outermostFirst = outer ++ [inner])
    (dir : Path) :
    d.follow (.leaving dir) = if inner.Same dir then .ok ⟨outer.reverse⟩ else .error (.crossed inner dir) := by
  have entered : d.entered = inner :: outer.reverse := by
    rw [← List.reverse_concat, ← inside, outermostFirst, List.reverse_reverse]
  rw [follow, leave, entered]

/-! ## Tracking lines -/

/-- Tracks a line. One that fails changes nothing. -/
def trackOn (d : Directories) (line : String) : Directories × Except LineError (Option Announcement) :=
  match d.track line with
  | .ok (announcement, after) => (after, .ok announcement)
  | .error e => (d, .error e)

section One

variable {line : String} {a : Announcement} {e : LineError}

theorem trackOn_of_none (made : ofLine? line = .ok none) : d.trackOn line = (d, .ok none) := by
  rw [trackOn, track, made]
  rfl

/-- A malformed announcement leaves the stack as it was. -/
theorem trackOn_of_malformed (made : ofLine? line = .error e) : d.trackOn line = (d, .error e) := by
  rw [trackOn, track, made]
  rfl

theorem trackOn_of_follow (made : ofLine? line = .ok (some a)) (followed : d.follow a = .ok after) :
    d.trackOn line = (after, .ok (some a)) := by
  have tracks : d.track line = .ok (some a, after) := by
    simp only [track, made, bind, Except.bind, followed]
    rfl
  rw [trackOn, tracks]

/-- An announcement that does not fit the stack leaves it as it was. -/
theorem trackOn_of_follow_error (made : ofLine? line = .ok (some a)) (failed : d.follow a = .error e) :
    d.trackOn line = (d, .error e) := by
  have tracks : d.track line = .error e := by
    simp only [track, made, bind, Except.bind, failed]
  rw [trackOn, tracks]

/-- A line that fails changes nothing. -/
theorem trackOn_error (failed : (d.trackOn line).2 = .error e) : (d.trackOn line).1 = d := by
  unfold trackOn at failed ⊢
  cases result : d.track line with
  | error e' => rfl
  | ok next =>
    rw [result] at failed
    contradiction

/-- A line that does not fail makes a well-formed announcement, or none. -/
theorem ofLine?_of_trackOn {announcement : Option Announcement} (answer : (d.trackOn line).2 = .ok announcement) :
    ofLine? line = .ok announcement := by
  unfold trackOn at answer
  cases result : d.track line with
  | error e =>
    rw [result] at answer
    contradiction
  | ok next =>
    rw [result] at answer
    cases answer
    exact (track_eq_ok result).1

end One

/-- Tracks lines one after the other, going on after those that fail: for each the directories after it, and the
announcement that has been followed, if any, or why it fails. -/
def tracked (d : Directories) : List String → List (Directories × Except LineError (Option Announcement))
  | [] => []
  | line :: rest => d.trackOn line :: (d.trackOn line).1.tracked rest

/-- The directories after lines, those that fail among them. -/
def trackAll (d : Directories) (lines : List String) : Directories :=
  lines.foldl (fun d line => (d.trackOn line).1) d

/-- The announcements that have been followed, in order. -/
def followed (d : Directories) (lines : List String) : List Announcement :=
  (d.tracked lines).filterMap (·.2.toOption.join)

theorem followed_cons (d : Directories) (line : String) (rest : List String) :
    d.followed (line :: rest) = (d.trackOn line).2.toOption.join.toList ++ (d.trackOn line).1.followed rest := by
  rw [followed, tracked, List.filterMap_cons]
  cases (d.trackOn line).2.toOption.join <;> rfl

/-- Whatever a line is, the stack stays the announcements followed and not yet closed. -/
theorem unclosed_trackOn {announcements : List Announcement} (opened : Unclosed announcements d.outermostFirst)
    (line : String) :
    Unclosed (announcements ++ (d.trackOn line).2.toOption.join.toList) (d.trackOn line).1.outermostFirst := by
  unfold trackOn
  cases result : d.track line with
  | error e =>
    change Unclosed (announcements ++ []) d.outermostFirst
    rwa [List.append_nil]
  | ok next =>
    obtain ⟨announcement, after⟩ := next
    have done := (track_eq_ok result).2
    cases announcement with
    | none =>
      have same : after = d := done
      change Unclosed (announcements ++ []) after.outermostFirst
      rwa [List.append_nil, same]
    | some a => exact unclosed_follow opened done

/-- The directories after lines are those that the announcements followed have left open. -/
theorem unclosed_trackAll {announcements : List Announcement} (opened : Unclosed announcements d.outermostFirst)
    (lines : List String) : Unclosed (announcements ++ d.followed lines) (d.trackAll lines).outermostFirst := by
  induction lines generalizing d announcements with
  | nil => simpa [followed, tracked, trackAll] using opened
  | cons line rest ih =>
    rw [followed_cons, ← List.append_assoc, trackAll, List.foldl_cons]
    exact ih (unclosed_trackOn opened line)

/-- Where no announcement is malformed and all of them can be followed, no line fails. -/
theorem tracked_of_foldlM_follow {lines : List String}
    (formed : ∀ line ∈ lines, ∃ announcement, ofLine? line = .ok announcement)
    (done : (ofLines lines).foldlM follow d = .ok after) :
    (∀ t ∈ d.tracked lines, ∃ announcement, t.2 = .ok announcement) ∧ d.trackAll lines = after := by
  induction lines generalizing d with
  | nil =>
    cases done
    exact ⟨List.forall_mem_nil _, rfl⟩
  | cons line rest ih =>
    obtain ⟨⟨announcement, made⟩, formed⟩ := List.forall_mem_cons.mp formed
    rw [ofLines_cons made] at done
    obtain ⟨next, tracks, others⟩ : ∃ next, d.trackOn line = (next, .ok announcement) ∧
        (ofLines rest).foldlM follow next = .ok after := by
      cases announcement with
      | none => exact ⟨d, trackOn_of_none made, done⟩
      | some a =>
        rw [Option.toList_some, List.singleton_append, List.foldlM_cons] at done
        cases followed : d.follow a with
        | error e =>
          rw [followed] at done
          contradiction
        | ok next =>
          rw [followed] at done
          exact ⟨next, trackOn_of_follow made followed, done⟩
    rw [tracked, trackAll, List.foldl_cons, tracks]
    obtain ⟨fine, last⟩ := ih formed others
    exact ⟨List.forall_mem_cons.mpr ⟨⟨announcement, rfl⟩, fine⟩, last⟩

/-- Where no line fails, no announcement is malformed, and all of them have been followed. -/
theorem followed_of_tracked {lines : List String}
    (fine : ∀ t ∈ d.tracked lines, ∃ announcement, t.2 = .ok announcement) :
    (∀ line ∈ lines, ∃ announcement, ofLine? line = .ok announcement) ∧ d.followed lines = ofLines lines := by
  induction lines generalizing d with
  | nil => exact ⟨List.forall_mem_nil _, rfl⟩
  | cons line rest ih =>
    rw [tracked] at fine
    obtain ⟨⟨announcement, answer⟩, others⟩ := List.forall_mem_cons.mp fine
    obtain ⟨formed, followed⟩ := ih others
    have made := ofLine?_of_trackOn answer
    refine ⟨List.forall_mem_cons.mpr ⟨⟨announcement, made⟩, formed⟩, ?_⟩
    rw [followed_cons, followed, answer, ofLines_cons made]
    rfl

/-- **The open directories form a stack**, whatever lines are tracked and however many of them fail. After each line
they are those that were open before and those entered since, less those that a line has left. A line that leaves a
directory does so exactly if that directory is the innermost open one, under any of its spellings, and then closes just
that one. Otherwise it fails, for want of an open directory or with the innermost one and the announced one. A line
that fails changes nothing. From no open directory, no line fails and no directory stays open exactly if every
announcement is well-formed and together they are well-bracketed. -/
theorem trackAll_stack (d : Directories) (lines : List String) :
    let now := d.trackAll lines
    (∀ dirs, Unclosed (d.outermostFirst.map .entering ++ d.followed lines) dirs ↔ dirs = now.outermostFirst) ∧
      (∀ line dir, ofLine? line = .ok (some (.entering dir)) →
        now.trackOn line = (now.enter dir, .ok (some (.entering dir)))) ∧
      (∀ line dir, ofLine? line = .ok (some (.leaving dir)) →
        (now.outermostFirst = [] → now.trackOn line = (now, .error (.notEntered dir))) ∧
          ∀ outer inner, now.outermostFirst = outer ++ [inner] →
            (inner.Same dir → now.trackOn line = (⟨outer.reverse⟩, .ok (some (.leaving dir)))) ∧
              (¬ inner.Same dir → now.trackOn line = (now, .error (.crossed inner dir)))) ∧
      (∀ line e, ofLine? line = .error e → now.trackOn line = (now, .error e)) ∧
      (∀ line e, (now.trackOn line).2 = .error e → d.trackAll (lines ++ [line]) = now) ∧
      (((∀ t ∈ empty.tracked lines, ∃ announcement, t.2 = .ok announcement) ∧
          (empty.trackAll lines).isBalanced = true) ↔
        (∀ line ∈ lines, ∃ announcement, ofLine? line = .ok announcement) ∧ Bracketed (ofLines lines)) := by
  intro now
  have opened := unclosed_trackAll (Unclosed.entering d.entered) lines
  refine ⟨fun dirs => ⟨fun others => unclosed_unique others opened, ?_⟩, ?_, ?_, ?_, ?_, ?_, ?_⟩
  · rintro rfl
    exact opened
  · exact fun line dir made => trackOn_of_follow made rfl
  · intro line dir made
    refine ⟨fun outside => trackOn_of_follow_error made (follow_leaving_outside outside dir), ?_⟩
    intro outer inner inside
    have left := follow_leaving_inside inside dir
    refine ⟨fun same => ?_, fun other => ?_⟩
    · exact trackOn_of_follow made (left.trans (if_pos same))
    · exact trackOn_of_follow_error made (left.trans (if_neg other))
  · exact fun line e malformed => trackOn_of_malformed malformed
  · intro line e failed
    rw [trackAll, List.foldl_append]
    exact trackOn_error failed
  · rintro ⟨fine, balanced⟩
    obtain ⟨formed, all⟩ := followed_of_tracked fine
    have closed := @unclosed_trackAll empty [] (.bracketed .nil) lines
    rw [outermostFirst, List.isEmpty_iff.mp balanced, List.nil_append, all] at closed
    exact ⟨formed, closed.bracketed_of_nil⟩
  · rintro ⟨formed, bracketed⟩
    obtain ⟨fine, last⟩ := tracked_of_foldlM_follow formed (foldlM_follow_bracketed bracketed empty)
    rw [last]
    exact ⟨fine, rfl⟩

/-- A directory that is left too early, one that is left under another spelling, a malformed line, and one more
leaving. -/
example :
    (empty.tracked ["make: Entering directory '/a'", "make[1]: Entering directory 'b/.'",
      "make: Leaving directory '/a'", "make[1]: Leaving directory 'b//'", "make: Leaving directory /a",
      "make: Leaving directory '/a'", "make: Leaving directory '/a'"]).map (·.1.outermostFirst) =
      [[⟨"/a"⟩], [⟨"/a"⟩, ⟨"b/."⟩], [⟨"/a"⟩, ⟨"b/."⟩], [⟨"/a"⟩], [⟨"/a"⟩], [], []] := by
  decide +kernel

end Directories

end CompileDb.Make
