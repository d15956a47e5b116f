/-!
# Log entries

What the library has to tell about its own doing: a level, a fixed message and named values. An
entry is written on one line.
-/

namespace StoreClient.Log

/-- How urgent an entry is. -/
inductive Level where
  | trace
  | debug
  | info
  | warn
deriving DecidableEq, Repr

/-- The written form of a level. -/
def Level.name : Level → String
  | .trace => "TRACE"
  | .debug => "DEBUG"
  | .info => "INFO"
  | .warn => "WARN"

/-- One entry of the log. -/
structure Entry where
  /-- How urgent it is. -/
  level : Level
  /-- What happened. -/
  message : String
  /-- The values that belong to it, by name. -/
  values : List (String × String) := []
deriving DecidableEq, Repr

/-- The entry on one line: level, message, then each value after its name. -/
def Entry.render (e : Entry) : String :=
  e.values.foldl (fun line (name, value) => line ++ " " ++ name ++ "=" ++ value)
    (e.level.name ++ " " ++ e.message)

end StoreClient.Log
