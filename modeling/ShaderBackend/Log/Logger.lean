import ShaderBackend.Fault
import ShaderBackend.Log.Console
import ShaderBackend.Log.FileSystem
import ShaderBackend.Text.Blank
/-!
Where log entries go. A logger has a threshold and any number of sinks; an entry that passes goes to
each of them in order. A sink is the console, a log file, or a recorder that keeps entries.
-/
namespace ShaderBackend.Log

/-- A target as configuration names it. -/
inductive Target where
  | stderr
  | file (path : String)
  deriving DecidableEq, Repr

structure Config where
  threshold : Threshold
  targets : List Target
  deriving DecidableEq, Repr

/-- Informational entries and worse, on the console. -/
def Config.default : Config := ⟨some .info, [.stderr]⟩

inductive Sink where
  | console
  /-- A file that has been opened. -/
  | file (place : Place)
  /-- Keeps entries under a number. -/
  | recorder (number : Nat)
  deriving DecidableEq, Repr

/-- What a log file gets: each line of the message with the severity in front. -/
def Entry.fileLines (e : Entry) : String :=
  String.join ((Text.lines e.message).map fun line => e.severity.label ++ line ++ "\n")

structure Logger where
  threshold : Threshold
  sinks : List Sink
  deriving DecidableEq, Repr

namespace Logger

/-- Lets nothing pass and has nowhere to put it. -/
def disabled : Logger := ⟨none, []⟩

/-- The console for informational entries and worse. -/
def default : Logger := ⟨some .info, [.console]⟩

def enabled (l : Logger) (severity : Severity) : Bool := l.threshold.enabled severity

/-- The sinks that an entry reaches. -/
def reach (l : Logger) (e : Entry) : List Sink := if l.enabled e.severity then l.sinks else []

/-- The diagnostic form: the threshold, and two dots for the rest. -/
def diagnostic (l : Logger) : String :=
  let shown := match l.threshold with
    | some least => s!"Some({least.title})"
    | none => "None"
  s!"Log \x7b min_severity: {shown}, .. \x7d"

/-- Opens targets in order, up to the first file that cannot be opened. -/
def openTargets : List Target → FileSystem → Except Fault (List Sink × FileSystem)
  | [], files => .ok ([], files)
  | .stderr :: rest, files => do
    let (sinks, files) ← openTargets rest files
    return (.console :: sinks, files)
  | .file path :: rest, files =>
    match files.create path with
    | .error failure =>
      .error (.initialization s!"cannot open log file {path}: {failure.message}")
    | .ok (place, files) => do
      let (sinks, files) ← openTargets rest files
      return (.file place :: sinks, files)

/-- The logger of a configuration. One without a threshold opens nothing. -/
def ofConfig (config : Config) (files : FileSystem) : Except Fault (Logger × FileSystem) :=
  match config.threshold with
  | none => .ok (disabled, files)
  | some least => do
    let (sinks, files) ← openTargets config.targets files
    return (⟨some least, sinks⟩, files)

end Logger

/-- What an entry does to the outside: text for the console, and files. -/
structure Output where
  console : String := ""
  files : FileSystem

/-- Writes an entry to the sinks that it reaches. Recorders leave no text. -/
def Logger.write (l : Logger) (e : Entry) (time : Timestamp) (color : Bool) (files : FileSystem) :
    Output :=
  (l.reach e).foldl (fun out sink =>
    match sink with
    | .console => { out with console := out.console ++ e.consoleLine time color }
    | .file place => { out with files := out.files.append place e.fileLines }
    | .recorder _ => out) { files }

end ShaderBackend.Log
