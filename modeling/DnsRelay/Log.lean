/-!
# The log

What the relay tells about its work: lines, each with a level.
-/

namespace DnsRelay

/-- How much a line of the log matters. -/
inductive LogLevel where
  | debug
  | info
  | warn
  deriving DecidableEq, Repr

/-- The name of a level. -/
def LogLevel.toString : LogLevel → String
  | .debug => "DEBUG"
  | .info => "INFO"
  | .warn => "WARN"

instance : ToString LogLevel := ⟨LogLevel.toString⟩

/-- A line of the log. -/
structure LogRecord where
  level : LogLevel
  text : String
  deriving DecidableEq, Repr

/-- The text of a line, behind the name of its level. -/
def LogRecord.toString (r : LogRecord) : String :=
  r.level.toString ++ " " ++ r.text

instance : ToString LogRecord := ⟨LogRecord.toString⟩

end DnsRelay
