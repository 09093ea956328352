import CompileDb.Path
import CompileDb.Text

/-!
# Directory announcements

With `-w`, make brackets the output of every call by `make: Entering directory '...'` and
`make: Leaving directory '...'`, or `make[N]: ...` for the calls made by another make.
-/

namespace CompileDb.Make

/-- What is wrong with a printed line, in the directories entered before it. -/
inductive LineError where
  /-- A directory was left that is not the innermost one. -/
  | crossed (expected actual : Path)
  /-- A directory was left while none was entered. -/
  | notEntered (actual : Path)
  /-- An announcement quotes no directory. -/
  | unquoted (line : String)
  /-- A compiler was called outside every directory. -/
  | noDirectory (file : Path)
deriving DecidableEq, Repr

namespace LineError

/-- The text shown to the user. -/
def message : LineError → String
  | crossed expected actual => s!"mismatched directory stack; expected '{expected.text}', got '{actual.text}'"
  | notEntered actual => s!"mismatched directory stack; left '{actual.text}' without entering it"
  | unquoted line => s!"malformed directory announcement: {line}"
  | noDirectory file => s!"no directory context for compiler invocation of '{file.text}'"

/-- The code under which the error is documented. -/
def code : LineError → String
  | crossed .. => "makecdb::parse::stack_mismatch"
  | notEntered .. => "makecdb::parse::empty_stack"
  | unquoted .. => "makecdb::parse::malformed_announcement"
  | noDirectory .. => "makecdb::parse::no_directory"

/-- What the user can do about it. -/
def help? : LineError → Option String
  | crossed .. => some "make's directory announcements were interleaved; build with -j1"
  | noDirectory .. => some "run make with -w so it announces every directory"
  | _ => none

end LineError

/-- A directory that make enters or leaves. -/
inductive Announcement where
  | entering (directory : Path)
  | leaving (directory : Path)
deriving DecidableEq, Repr

namespace Announcement

/-- The words that announce an entered directory. -/
def enteringPhrase : String := "Entering directory "

/-- The words that announce a directory left. -/
def leavingPhrase : String := "Leaving directory "

/-- What the outermost make writes in front of its announcements. -/
def outermostMark : String := "make: "

/-- Whether the line announces with this phrase. After `make: ` the phrase has to follow at once; in a line that
begins with `make[` it may follow any `]: `. -/
def announces (phrase : String) (line : List Char) : Bool :=
  if outermostMark.toList.isPrefixOf line then
    phrase.toList.isPrefixOf (line.drop outermostMark.length)
  else
    "make[".toList.isPrefixOf line && Text.occursIn ("]: ".toList ++ phrase.toList) line

/-- An apostrophe or a backtick. Either may open a quoted directory; only the apostrophe closes one. -/
def isOpeningQuote (c : Char) : Bool :=
  c == '\x27' || c == '\x60'

/-- The text after the first opening quote of the line, without one apostrophe at its end. -/
def quoted? (line : List Char) : Option Path :=
  match line.dropWhile (!isOpeningQuote ·) with
  | [] => none
  | _ :: rest => some ⟨String.ofList (if rest.getLast? == some '\x27' then rest.dropLast else rest)⟩

/-- The announcement that a line makes, if it makes one. -/
def ofLine? (line : String) : Except LineError (Option Announcement) :=
  let directory (make : Path → Announcement) : Except LineError (Option Announcement) :=
    match quoted? line.toList with
    | some dir => .ok (some (make dir))
    | none => .error (.unquoted line)
  if announces enteringPhrase line.toList then directory entering
  else if announces leavingPhrase line.toList then directory leaving
  else .ok none

end Announcement

end CompileDb.Make
