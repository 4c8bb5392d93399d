/-!
# Log entries

What the library reports beside its answers. Every entry has a level, a fixed message and named
fields. Functions that may report something come in pairs: one computes the value, the other the
entries, so a statement about the value never mentions the log.

The entries of a request are part of its outcome, in the order in which they are made. A level says
how much attention an entry asks for and filters nothing here; what is shown of the entries is
decided outside.
-/

namespace VideoOutput.Log

/-- How serious an entry is. -/
inductive Level where
  | debug
  | warn
  deriving DecidableEq

/-- The value of a field. -/
inductive Field where
  | number (value : Nat)
  | flag (value : Bool)
  | text (value : String)
  deriving DecidableEq

/-- One reported fact: a message with its named fields. -/
structure Entry where
  level : Level
  message : String
  fields : List (String × Field)
  deriving DecidableEq

/-- The written form of a level. -/
def Level.text : Level → String
  | .debug => "debug"
  | .warn => "warn"

end VideoOutput.Log
