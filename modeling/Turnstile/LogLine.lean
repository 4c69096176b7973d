/-!
# Log lines

What an operation writes to the log is part of its result: a severity and a text.
-/

namespace Turnstile

/-- How serious a log line is. -/
inductive Severity
  | error
  | warn
  | info
  | debug
  deriving DecidableEq, Repr

/-- The name of a severity. -/
def Severity.name : Severity → String
  | .error => "ERROR"
  | .warn => "WARN"
  | .info => "INFO"
  | .debug => "DEBUG"

/-- A line of the log. -/
structure LogLine where
  severity : Severity
  text : String
  deriving DecidableEq, Repr

/-- The line as it is shown. -/
def LogLine.render (line : LogLine) : String := line.severity.name ++ " " ++ line.text

end Turnstile
