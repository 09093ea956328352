/-!
# TOML values

A document is a table of values. Tables remember how they came to be, because that decides what may still be added to
them: a table is defined once, by a header or as a value, but tables that were only passed through can be defined
later, and tables made by dotted keys can be extended by further dotted keys.
-/

namespace CompileDb.Toml

/-- What is wrong with a document. -/
inductive Fault where
  /-- The text is not TOML. -/
  | malformed
  /-- A key or a table is defined again. -/
  | redefined
  /-- A number or a date is out of its range. -/
  | outOfRange
  /-- Values are nested too deeply or a key has too many parts. -/
  | tooDeep
deriving DecidableEq, Repr

def Fault.message : Fault → String
  | malformed => "not valid TOML"
  | redefined => "a key or table is defined twice"
  | outOfRange => "a value is out of range"
  | tooDeep => "values are nested too deeply"

/-- How a table came to be. -/
inductive Origin where
  /-- On the way to another table of a header. -/
  | passed
  /-- On the way of a dotted key. -/
  | dotted
  /-- By a header of its own. -/
  | header
  /-- As a value between braces. -/
  | braces
deriving DecidableEq, Repr

/-- More keys may be added to the table by a dotted key. -/
def Origin.isOpen : Origin → Bool
  | passed => true
  | dotted => true
  | _ => false

/-- A value. -/
inductive Value where
  | text (s : String)
  | integer (n : Int)
  /-- A float. Nobody asks how large it is. -/
  | float
  | boolean (b : Bool)
  /-- A date or a time. Nobody asks which. -/
  | date
  | list (items : List Value)
  | table (origin : Origin) (members : List (String × Value))
  /-- Tables of one name, each by a header of its own, the latest first. -/
  | tables (elements : List (List (String × Value)))

/-- The members of a table by their keys, the latest first. -/
abbrev Members := List (String × Value)

namespace Members

def get? (m : Members) (key : String) : Option Value :=
  (m.find? (·.1 = key)).map Prod.snd

/-- Replaces the value of a key that is there. -/
def replace (m : Members) (key : String) (v : Value) : Members :=
  m.map fun e => if e.1 = key then (key, v) else e

/-- Changes the table that a path leads to. Missing tables on the way come to be as `origin` says. The latest table of
a header's many stands for all of them. A table between braces is complete and cannot be met; with `onlyOpen`, only
tables that are open may be met. -/
def within (origin : Origin) (onlyOpen : Bool) (change : Origin → Members → Except Fault Members) :
    List String → Origin → Members → Except Fault Members
  | [], own, m => change own m
  | key :: path, _, m =>
    match m.get? key with
    | none => (within origin onlyOpen change path origin []).map fun sub => (key, .table origin sub) :: m
    | some (.table o sub) =>
      if o == .braces || (onlyOpen && !o.isOpen) then .error .redefined
      else (within origin onlyOpen change path o sub).map fun sub => m.replace key (.table o sub)
    | some (.tables (latest :: earlier)) =>
      (within origin onlyOpen change path .header latest).map fun latest => m.replace key (.tables (latest :: earlier))
    | some _ => .error .redefined

/-- Adds a key that is not there. A dotted key adds only to a table made by dotted keys. -/
def add (isDotted : Bool) (key : String) (v : Value) : Origin → Members → Except Fault Members := fun own m =>
  if (isDotted && own != .dotted) || (m.get? key).isSome then .error .redefined else .ok ((key, v) :: m)

/-- Adds a value under a key, which may be dotted. -/
def insert (path : List String) (key : String) (v : Value) : Origin → Members → Except Fault Members :=
  within .dotted true (add (!path.isEmpty) key v) path

/-- Defines a table by its header. -/
def define (path : List String) (key : String) (m : Members) : Except Fault Members :=
  let change : Origin → Members → Except Fault Members := fun _ m =>
    match m.get? key with
    | none => .ok ((key, .table .header []) :: m)
    | some (.table .passed sub) => .ok (m.replace key (.table .header sub))
    | some _ => .error .redefined
  within .passed false change path .header m

/-- Adds one more table to those of a header. -/
def append (path : List String) (key : String) (m : Members) : Except Fault Members :=
  let change : Origin → Members → Except Fault Members := fun _ m =>
    match m.get? key with
    | none => .ok ((key, .tables [[]]) :: m)
    | some (.tables elements) => .ok (m.replace key (.tables ([] :: elements)))
    | some _ => .error .redefined
  within .passed false change path .header m

end Members

end CompileDb.Toml
