import CompileDb.Proofs.Recording
import CompileDb.Proofs.Results
import Mathlib.Data.List.Basic

/-!
# Lines that fail

A line that fails records nothing. It leaves the directories as they were too, unless it is two things in one: it leaves
the only open directory, and it also reads as a compiler call, for which no directory is left then. Every such line
fails, and none of them begins with `make: `.
-/

namespace CompileDb.Make

/-! ## Announcements that also call a compiler -/

/-- A line that begins as the announcements of the outermost make calls no compiler. -/
theorem Invocation.ofLine?_outermost {line : String}
    (outermost : Announcement.outermostMark.toList <+: line.toList) : ofLine? line = none := by
  obtain ⟨rest, written⟩ := outermost
  have free : ' ' ∉ "make:".toList := by decide
  have mark : Announcement.outermostMark.toList = "make:".toList ++ [' '] := rfl
  have words : line.toList.splitOn ' ' = "make:".toList :: rest.splitOn ' ' := by
    rw [← written, mark, List.append_assoc, List.singleton_append]
    exact List.splitOn_append_cons_self_of_not_mem free rest
  have other : isCompiler "make:" = false := by decide +kernel
  rw [ofLine?, wordsOf, words]
  simp only [String.ofList_toList]
  rw [other]
  rfl

/-- An announcement that also calls a compiler is one of a make below the outermost one. -/
theorem Announcement.prefix_of_call {line : String} {a : Announcement} {call : Invocation}
    (announced : ofLine? line = .ok (some a)) (called : Invocation.ofLine? line = some call) :
    "make[".toList <+: line.toList := by
  have below : ∀ phrase, announces phrase line.toList = true → "make[".toList <+: line.toList := by
    intro phrase announces
    unfold Announcement.announces at announces
    split at announces
    case isTrue outermost =>
      rw [Invocation.ofLine?_outermost (List.isPrefixOf_iff_prefix.mp outermost)] at called
      contradiction
    case isFalse => exact List.isPrefixOf_iff_prefix.mp (Bool.and_eq_true_iff.mp announces).1
  unfold ofLine? at announced
  simp only at announced
  split at announced
  case isTrue entering => exact below _ entering
  case isFalse =>
    split at announced
    case isTrue leaving => exact below _ leaving
    case isFalse => cases announced

/-! ## What following an announcement does -/

namespace Directories

variable {d after : Directories}

/-- A line is followed that announces nothing, or whose announcement can be followed. -/
theorem track_eq_ok {line : String} {announcement : Option Announcement}
    (tracked : d.track line = .ok (announcement, after)) :
    Announcement.ofLine? line = .ok announcement ∧
      match announcement with
      | none => after = d
      | some a => d.follow a = .ok after := by
  obtain ⟨made, announced, rest⟩ := bind_eq_ok_iff.mp tracked
  cases made with
  | none =>
    cases rest
    exact ⟨announced, rfl⟩
  | some a =>
    obtain ⟨next, followed, rest⟩ := bind_eq_ok_iff.mp rest
    cases rest
    exact ⟨announced, followed⟩

/-- Only leaving the only directory leads outside every directory. -/
theorem follow_outside {a : Announcement} (followed : d.follow a = .ok after) (outside : after.current? = none) :
    ∃ inner dir, d.entered = [inner] ∧ inner.Same dir ∧ a = .leaving dir ∧ after = .empty := by
  cases a with
  | entering dir =>
    cases followed
    contradiction
  | leaving dir =>
    rw [follow, leave] at followed
    split at followed
    case h_1 => contradiction
    case h_2 inner outer entered =>
      split at followed
      case isTrue same =>
        cases followed
        have nothing : outer = [] := List.head?_eq_none_iff.mp outside
        subst nothing
        exact ⟨inner, dir, entered, same, rfl, rfl⟩
      case isFalse => contradiction

/-- A line that fails leaves the directories as they were, unless it leaves the last of them and calls a compiler. -/
theorem read_eq_error {line : String} {e : LineError} (read : d.read line = (after, .error e)) :
    after = d ∨
      ∃ inner dir call, d.entered = [inner] ∧ inner.Same dir ∧ Announcement.ofLine? line = .ok (some (.leaving dir)) ∧
        Invocation.ofLine? line = some call ∧ e = .noDirectory ⟨call.file⟩ ∧ after = .empty := by
  unfold Directories.read at read
  split at read
  case h_1 =>
    cases read
    exact .inl rfl
  case h_2 announcement next tracked =>
    obtain ⟨announced, followed⟩ := track_eq_ok tracked
    split at read
    case h_1 => cases read
    case h_2 call called =>
      split at read
      case h_2 => cases read
      case h_1 outside =>
        cases read
        cases announcement with
        | none => exact .inl followed
        | some a =>
          obtain ⟨inner, dir, entered, same, rfl, nothing⟩ := follow_outside followed outside
          exact .inr ⟨inner, dir, call, entered, same, announced, called, rfl, nothing⟩

/-- A line that leaves the only open directory and is a call fails, since the directory is left first. -/
theorem read_of_leavesLast {line : String} {inner dir : Path} {call : Invocation} (entered : d.entered = [inner])
    (same : inner.Same dir) (announced : Announcement.ofLine? line = .ok (some (.leaving dir)))
    (called : Invocation.ofLine? line = some call) :
    d.read line = (.empty, .error (.noDirectory ⟨call.file⟩)) := by
  have left : d.leave dir = .ok .empty := by
    rw [leave, entered]
    exact if_pos same
  have tracked : d.track line = .ok (some (.leaving dir), .empty) := by
    simp only [track, announced, bind, Except.bind, follow, left]
    rfl
  rw [Directories.read, tracked]
  simp only [called]
  rfl

end Directories

namespace Session

/-- **A failing line leaves the session as it was**, with one exception. A line of a make below the outermost one that
leaves the only open directory may also read as a compiler call. Every such line fails, as a call outside every
directory, and the directory has been left. The database and the count are as before even then. -/
theorem feed_error (s : Session) (line : String) :
    (∀ e, (s.feed line).2 = .error e →
      (s.feed line).1 = s ∨
        ∃ inner dir call, s.directories.entered = [inner] ∧ inner.Same dir ∧ "make[".toList <+: line.toList ∧
          Announcement.ofLine? line = .ok (some (.leaving dir)) ∧ Invocation.ofLine? line = some call ∧
          e = .noDirectory ⟨call.file⟩ ∧ (s.feed line).1 = { s with directories := .empty }) ∧
      ∀ inner dir call, s.directories.entered = [inner] → inner.Same dir →
        Announcement.ofLine? line = .ok (some (.leaving dir)) → Invocation.ofLine? line = some call →
          s.feed line = ({ s with directories := .empty }, .error (.noDirectory ⟨call.file⟩)) := by
  constructor
  · intro e failed
    unfold feed at failed ⊢
    split at failed
    case h_1 after e' read =>
      cases failed
      rcases Directories.read_eq_error read with rfl | ⟨inner, dir, call, entered, same, announced, called, rfl, rfl⟩
      · exact .inl rfl
      · have below := Announcement.prefix_of_call announced called
        exact .inr ⟨inner, dir, call, entered, same, below, announced, called, rfl, rfl⟩
    case h_2 => cases failed
    case h_3 => cases failed
  · intro inner dir call entered same announced called
    rw [feed, Directories.read_of_leavesLast entered same announced called]

/-- A session within a directory that has the name of a source file. -/
def withinSource : Session := (start .empty).feedAll ["make: Entering directory 'a.c'"]

/-- The line leaves that directory, and is a call of `make[gcc]:` for the file `'a.c` as well: it fails, and no
directory is open any more. -/
theorem feed_leavingCall :
    (withinSource.feed "make[gcc]: Leaving directory 'a.c").2 = .error (.noDirectory ⟨"'a.c"⟩) ∧
      withinSource.directories = ⟨[⟨"a.c"⟩]⟩ ∧
      (withinSource.feed "make[gcc]: Leaving directory 'a.c").1.directories = .empty := by
  refine ⟨by decide +kernel, by decide +kernel, by decide +kernel⟩

/-- A session two directories deep that has recorded a call. -/
def nestedSession : Session :=
  (start .empty).feedAll
    ["make: Entering directory '/p'", "gcc -c a.c", "make[1]: Entering directory '/p/lib'"]

theorem feed_error_crossed :
    (nestedSession.feed "make[1]: Leaving directory '/p'").2 = .error (.crossed ⟨"/p/lib"⟩ ⟨"/p"⟩) ∧
      nestedSession.database.keys = [⟨"/p/a.c"⟩] ∧
      (nestedSession.feed "make[1]: Leaving directory '/p'").1 = nestedSession ∧
      (withinSource.feed "make[gcc]: Leaving directory 'a.c").1.directories = .empty := by
  have failed : (nestedSession.feed "make[1]: Leaving directory '/p'").2 = .error (.crossed ⟨"/p/lib"⟩ ⟨"/p"⟩) := by
    decide +kernel
  have recorded : nestedSession.database.keys = [⟨"/p/a.c"⟩] := by decide +kernel
  refine ⟨failed, recorded, ?_, ?_⟩
  · rcases (feed_error ..).1 _ failed with same | ⟨inner, dir, call, only, -⟩
    · exact same
    · have two : nestedSession.directories.entered = [⟨"/p/lib"⟩, ⟨"/p"⟩] := by decide +kernel
      rw [two] at only
      cases only
  · have only : withinSource.directories.entered = [⟨"a.c"⟩] := by decide +kernel
    have announced : Announcement.ofLine? "make[gcc]: Leaving directory 'a.c" = .ok (some (.leaving ⟨"a.c"⟩)) := by
      decide +kernel
    have called : Invocation.ofLine? "make[gcc]: Leaving directory 'a.c" =
        some ⟨"'a.c", ["make[gcc]:", "Leaving", "directory", "'a.c"]⟩ := by decide +kernel
    rw [(feed_error withinSource _).2 _ _ _ only (by decide +kernel) announced called]

end Session

end CompileDb.Make
