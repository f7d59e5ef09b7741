import ElmIntake.Span

/-! # Diagnostics

    What is said about a source file, and where. -/

namespace ElmIntake

/-- How bad a diagnostic is. -/
inductive Severity where
  | error
  | warning
  deriving Repr, DecidableEq, Inhabited

/-- The word for a severity in a printed diagnostic. -/
def Severity.word : Severity → String
  | .error => "error"
  | .warning => "warning"

/-- A message about a place in a source file. -/
structure Diagnostic where
  severity : Severity
  span : Span
  message : String
  deriving Repr, DecidableEq, Inhabited

namespace Diagnostic

/-- A diagnostic that makes its file unusable. -/
def error (span : Span) (message : String) : Diagnostic := ⟨.error, span, message⟩

/-- A diagnostic that does not. -/
def warning (span : Span) (message : String) : Diagnostic := ⟨.warning, span, message⟩

/-- Printed form: `line:column: severity: message`. -/
protected def toString (d : Diagnostic) : String :=
  s!"{d.span}: {d.severity.word}: {d.message}"

instance : ToString Diagnostic := ⟨Diagnostic.toString⟩

end Diagnostic

/-! ## Logs -/

/-- Diagnostics in the order in which they were reported. -/
structure DiagnosticLog where
  entries : Array Diagnostic := #[]
  deriving Repr, DecidableEq

namespace DiagnosticLog

/-- Adds a diagnostic at the end. -/
def report (log : DiagnosticLog) (d : Diagnostic) : DiagnosticLog := ⟨log.entries.push d⟩

/-- Reports an error. -/
def error (log : DiagnosticLog) (span : Span) (message : String) : DiagnosticLog :=
  log.report (.error span message)

/-- Reports a warning. -/
def warning (log : DiagnosticLog) (span : Span) (message : String) : DiagnosticLog :=
  log.report (.warning span message)

/-- How many errors were reported; warnings do not count. -/
def errorCount (log : DiagnosticLog) : Nat :=
  (log.entries.filter (·.severity == .error)).size

/-- Was any error reported? -/
def hasErrors (log : DiagnosticLog) : Bool := log.entries.any (·.severity == .error)

end DiagnosticLog

end ElmIntake
