/-! Severities of log entries, from the least to the most severe. -/
namespace ShaderBackend.Log

inductive Severity where
  | trace
  | debug
  | info
  | warn
  | error
  deriving DecidableEq, Repr

namespace Severity

def all : List Severity := [trace, debug, info, warn, error]

/-- Place in the order. -/
def rank : Severity → Nat
  | trace => 0
  | debug => 1
  | info => 2
  | warn => 3
  | error => 4

/-- The name used in configuration. -/
def name : Severity → String
  | trace => "trace"
  | debug => "debug"
  | info => "info"
  | warn => "warn"
  | error => "error"

/-- Names are matched exactly, in lower case. -/
def ofName? (name : String) : Option Severity := all.find? (·.name == name)

/-- The name with a capital, as diagnostics show it. -/
def title : Severity → String
  | trace => "Trace"
  | debug => "Debug"
  | info => "Info"
  | warn => "Warn"
  | error => "Error"

/-- What begins a line of a log file; all are seven characters wide. -/
def label : Severity → String
  | trace => "trace: "
  | debug => "debug: "
  | info => "info:  "
  | warn => "warn:  "
  | error => "err:   "

end Severity
end ShaderBackend.Log
