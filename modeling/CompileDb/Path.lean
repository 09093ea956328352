/-!
# Paths

A path is kept as the text it was given as. What it stands for is its list of components: empty pieces between
slashes and `.` pieces leave none, so differently written paths may have the same components. Only a relative
path that begins with `.` keeps that one as a component of its own.

The normal form of a path has no `.`, and a `..` only where no name precedes it: it is found on the text alone,
without asking which directories exist.
-/

namespace CompileDb

/-- A path, exactly as it was written. -/
structure Path where
  text : String
deriving DecidableEq, Inhabited, Repr

namespace Path

/-- One step of a path: the root directory, the leading `.` of a relative path, `..`, or a name. -/
inductive Component where
  | root
  | here
  | up
  | name (text : String)
deriving DecidableEq, Repr

namespace Component

/-- The component that a piece between slashes stands for, if it stands for one. -/
def ofPiece? : List Char → Option Component
  | [] => none
  | ['.'] => none
  | ['.', '.'] => some up
  | piece => some (name (String.ofList piece))

/-- The component as it is written between slashes. -/
def text : Component → String
  | root => ""
  | here => "."
  | up => ".."
  | name n => n

end Component

/-- The components of a text, read from the left. -/
def componentsOf : List Char → List Component
  | '/' :: rest => .root :: (rest.splitOn '/').filterMap Component.ofPiece?
  | chars =>
    match chars.splitOn '/' with
    | ['.'] :: pieces => .here :: pieces.filterMap Component.ofPiece?
    | pieces => pieces.filterMap Component.ofPiece?

/-- What the path stands for, step by step. -/
def components (p : Path) : List Component :=
  componentsOf p.text.toList

/-- Two paths are the same path if they have the same components, however they are written. -/
def Same (p q : Path) : Prop :=
  p.components = q.components

instance (p q : Path) : Decidable (Same p q) :=
  inferInstanceAs (Decidable (_ = _))

/-- A path that starts at the root directory. -/
def isAbsolute (p : Path) : Bool :=
  p.text.toList.head? == some '/'

/-- `p` seen from `dir`: an absolute `p` stands for itself, any other is written after `dir`, with a slash
between them unless `dir` is empty or already ends in one. -/
def join (dir p : Path) : Path :=
  if p.isAbsolute then p
  else if dir.text.isEmpty || dir.text.toList.getLast? == some '/' then ⟨dir.text ++ p.text⟩
  else ⟨dir.text ++ "/" ++ p.text⟩

/-- The name a path ends in. A path that ends in `..`, in a leading `.` or at the root has none. -/
def fileName? (p : Path) : Option String :=
  match p.components.getLast? with
  | some (.name n) => some n
  | _ => none

/-! ## Normal forms -/

/-- The components read so far, last one first, extended by one more. A `..` takes back the name before it and
stays at the root. -/
def foldComponent (seen : List Component) : Component → List Component
  | .here => seen
  | .up =>
    match seen with
    | .name _ :: outer => outer
    | .root :: _ => seen
    | _ => .up :: seen
  | c => c :: seen

/-- The components of the normal form. -/
def normalComponents (cs : List Component) : List Component :=
  (cs.foldl foldComponent []).reverse

/-- Components written as a path: joined by slashes, behind a slash if they start at the root. -/
def ofComponents : List Component → Path
  | .root :: cs => ⟨"/" ++ "/".intercalate (cs.map Component.text)⟩
  | cs => ⟨"/".intercalate (cs.map Component.text)⟩

/-- The normal form of a path. -/
def normalize (p : Path) : Path :=
  ofComponents (normalComponents p.components)

end Path

end CompileDb
