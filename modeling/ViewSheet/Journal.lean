/-
  The journal: what happens beside the results.

  Log lines, reports handed to a listener, and notes of a host are data.  A function that causes
  some returns them, or appends them to the journal of the world it changes, in the order in which
  they happen.  Executions of setters are recorded apart, so that no hook can claim one.
-/

namespace ViewSheet

/-- How grave a log line is. -/
inductive Level where
  | error
  | warn
  | info
deriving DecidableEq, Repr

/-- When setters run: right after the views are made, or once the tree stands. -/
inductive Phase where
  | construction
  | attached
deriving DecidableEq, Repr

/-- One thing that happened. -/
inductive Event where
  /-- A line for the log. -/
  | log (level : Level) (message : String)
  /-- An error's report, handed to a listener that keeps reports. -/
  | report (text : String)
  /-- A note left by a hook of the host. -/
  | note (text : String)
deriving DecidableEq, Repr

/-- A setter's turn: the declaration and its property, with the text it is given. -/
structure Execution where
  phase : Phase
  declaration : String
  property : String
  text : String
deriving DecidableEq, Repr

namespace Event

/-- A log line that something is odd. -/
def warning (message : String) : Event := .log .warn message

end Event

end ViewSheet
