import ShaderBackend.Log.Severity
/-!
Log entries and the threshold that they have to pass. A component that logs gives back the entries
that passed, in order; where they go is decided elsewhere.
-/
namespace ShaderBackend.Log

structure Entry where
  severity : Severity
  /-- The component that speaks. -/
  source : String
  message : String
  /-- File and line of the report; most entries have neither. -/
  file : Option String := none
  line : Option UInt32 := none
  deriving DecidableEq, Repr

def Entry.hasPlace (e : Entry) : Bool := e.file.isSome && e.line.isSome

/-- The least severity that passes; `none` lets nothing pass. -/
abbrev Threshold := Option Severity

namespace Threshold

def enabled (threshold : Threshold) (severity : Severity) : Bool :=
  match threshold with
  | some least => least.rank ≤ severity.rank
  | none => false

/-- The entry alone if it passes, else nothing. -/
def pass (threshold : Threshold) (entry : Entry) : List Entry :=
  if enabled threshold entry.severity then [entry] else []

/-- An entry without a place. -/
def note (threshold : Threshold) (severity : Severity) (source message : String) : List Entry :=
  pass threshold { severity, source, message }

/-- An error entry. Errors name a place: the component and the line within it, which is not kept
track of and given as zero. -/
def report (threshold : Threshold) (source message : String) : List Entry :=
  pass threshold { severity := .error, source, message, file := some source, line := some 0 }

/-- An entry of any severity: errors are reported with a place, the others without. -/
def speak (threshold : Threshold) (severity : Severity) (source message : String) : List Entry :=
  if severity = .error then report threshold source message
  else note threshold severity source message

end Threshold
end ShaderBackend.Log
