import ShaderBackend.Text.Quoted
/-!
What an operation reports when it delivers no value. A fault is reported to the caller and has
a text. A failure is either a fault or an abort: the computation left the bounds of its data.
-/
namespace ShaderBackend

/-- Causes that a caller is told about. -/
inductive Fault where
  /-- The graphics driver rejected an object. -/
  | backend (text : String)
  /-- The driver ran out of host or device memory. -/
  | outOfMemory
  /-- A resource handed in by the caller cannot be used. -/
  | invalidResource (text : String)
  /-- Worker threads or log files could not be set up. -/
  | initialization (text : String)
  /-- A signature chunk is malformed. -/
  | decode (text : String)
  /-- The instruction stream and the metadata of a shader disagree. -/
  | patch (text : String)
  /-- Work was handed to a pool that has begun to stop. -/
  | poolStopped
  /-- A task ended without a result. -/
  | taskAborted
  deriving DecidableEq, Repr

namespace Fault

/-- The text shown to a user. -/
def message : Fault → String
  | backend text => "Backend error: " ++ text
  | outOfMemory => "Out of memory"
  | invalidResource text => "Invalid resource: " ++ text
  | initialization text => "Initialization failed: " ++ text
  | decode text => "Decode failed: " ++ text
  | patch text => "Patch failed: " ++ text
  | poolStopped => "Thread pool stopped"
  | taskAborted => "Task aborted before producing a result"

/-- The name of the kind of fault. -/
def kind : Fault → String
  | backend _ => "BackendError"
  | outOfMemory => "OutOfMemory"
  | invalidResource _ => "InvalidResource"
  | initialization _ => "InitializationFailed"
  | decode _ => "DecodeFailed"
  | patch _ => "PatchFailed"
  | poolStopped => "PoolStopped"
  | taskAborted => "TaskAborted"

/-- The text that a fault carries, for the kinds that carry one. -/
def text? : Fault → Option String
  | backend text | invalidResource text | initialization text | decode text | patch text =>
    some text
  | outOfMemory | poolStopped | taskAborted => none

/-- The fault of a kind, with this text if the kind carries one. -/
def ofKind? (kind text : String) : Option Fault :=
  [backend text, outOfMemory, invalidResource text, initialization text, decode text,
    patch text, poolStopped, taskAborted].find? (·.kind == kind)

/-- The diagnostic form: the kind, and the quoted text in parentheses if there is one. -/
def diagnostic (f : Fault) : String :=
  match f.text? with
  | some text => f.kind ++ "(" ++ Text.quoted text ++ ")"
  | none => f.kind

end Fault

/-- How a computation ends that delivers no value. -/
inductive Failure where
  /-- The caller is told why. -/
  | fault (cause : Fault)
  /-- An index or a range lay outside its data. -/
  | abort
  deriving DecidableEq, Repr

end ShaderBackend
