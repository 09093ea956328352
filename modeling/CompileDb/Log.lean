/-!
# Event log

What a run reports while it works, in the order in which it happens.
-/

namespace CompileDb

/-- How much an event matters to the user. -/
inductive Level where
  | trace
  | debug
  | info
  | warn
deriving DecidableEq, Repr

/-- The level as it is printed in front of a message. -/
def Level.label : Level → String
  | trace => "TRACE"
  | debug => "DEBUG"
  | info => "INFO"
  | warn => "WARN"

/-- The level as it is named in settings. -/
def Level.name : Level → String
  | trace => "trace"
  | debug => "debug"
  | info => "info"
  | warn => "warn"

/-- One reported event. -/
structure Event where
  level : Level
  message : String
deriving DecidableEq, Repr

/-- The event as one line of text. -/
def Event.render (e : Event) : String :=
  e.level.label ++ ": " ++ e.message

end CompileDb
