import CompileDb.Log
import CompileDb.Make.Announcement

/-!
# The directories make has entered

Announcements come in brackets, so the directories entered and not yet left form a stack. The innermost one is
the working directory of the commands printed next.
-/

namespace CompileDb.Make

/-- The directories entered and not yet left. -/
structure Directories where
  /-- The entered directories, innermost first. -/
  entered : List Path
deriving DecidableEq, Repr

namespace Directories

/-- No directory has been entered. -/
def empty : Directories := ⟨[]⟩

/-- How many directories are entered. -/
def depth (d : Directories) : Nat := d.entered.length

/-- The innermost directory. -/
def current? (d : Directories) : Option Path := d.entered.head?

/-- The entered directories, outermost first. -/
def outermostFirst (d : Directories) : List Path := d.entered.reverse

/-- Every directory that was entered has been left again. -/
def isBalanced (d : Directories) : Bool := d.entered.isEmpty

/-- Goes into a directory. -/
def enter (d : Directories) (dir : Path) : Directories := ⟨dir :: d.entered⟩

/-- Leaves a directory, which must be the innermost one, in whatever spelling. -/
def leave (d : Directories) (dir : Path) : Except LineError Directories :=
  match d.entered with
  | [] => .error (.notEntered dir)
  | inner :: outer => if inner.Same dir then .ok ⟨outer⟩ else .error (.crossed inner dir)

/-- A directory just entered is left again under each of its spellings. -/
theorem leave_enter {d : Directories} {dir spelling : Path} (h : dir.Same spelling) :
    (d.enter dir).leave spelling = .ok d := by
  simp [enter, leave, h]

/-- Does what an announcement says. -/
def follow (d : Directories) : Announcement → Except LineError Directories
  | .entering dir => .ok (d.enter dir)
  | .leaving dir => d.leave dir

/-- The announcement of a line and the directories after it. A line that announces nothing changes nothing. -/
def track (d : Directories) (line : String) : Except LineError (Option Announcement × Directories) := do
  match ← Announcement.ofLine? line with
  | none => return (none, d)
  | some a => return (some a, ← d.follow a)

/-- The indentation of what is reported at this depth. -/
def indent (d : Directories) : String :=
  String.ofList (List.replicate (2 * d.depth) ' ')

/-- What is reported when an announcement has been followed from here. -/
def event (d : Directories) : Announcement → Event
  | .entering dir => ⟨.info, s!"{d.indent} # {dir.text}"⟩
  | .leaving _ => ⟨.debug, "left directory"⟩

/-- What is reported when the output ends here. -/
def endEvent? (d : Directories) : Option Event :=
  if d.isBalanced then none else some ⟨.warn, s!"make output ended inside {d.depth} directories"⟩

end Directories

end CompileDb.Make
