import ShaderBackend.Device
import ShaderBackend.Log.Entry
import ShaderBackend.Render.Plan
/-!
Render passes of one format. All of them are compatible and differ only in their operations. The
default pass is made at once; any other is made when its operations are first asked for, and kept.
-/
namespace ShaderBackend.Render

variable {State Handle : Type}

/-- A pass made for these operations. -/
structure Instance (Handle : Type) where
  ops : PassOps
  handle : Handle
  deriving DecidableEq, Repr

/-- The passes of one format. -/
structure Pass (Handle : Type) where
  format : PassFormat
  defaultHandle : Handle
  /-- The passes made on request, in the order in which they were made. -/
  instances : List (Instance Handle) := []
  deriving DecidableEq, Repr

/-- What an operation on a device leaves behind: its result, the log entries and the device. -/
structure Effect (State α : Type) where
  result : Except Fault α
  entries : List Log.Entry
  device : State

def logSource : String := "bridge::render"

/-- Has the device make a pass and reports a refusal. -/
def createPass (factory : Factory State PassPlan Handle) (threshold : Log.Threshold)
    (format : PassFormat) (ops : PassOps) (device : State) : Effect State Handle :=
  match factory.create (.build format ops) device with
  | (.ok handle, device) => ⟨.ok handle, [], device⟩
  | (.error cause, device) =>
    ⟨.error cause, threshold.report logSource
      s!"Failed to create render pass object: {cause.message}", device⟩

namespace Pass

/-- Operations of the default pass. -/
def defaultOps (p : Pass Handle) : PassOps := .compatible p.format

/-- Whether this is the object for a format. -/
def hasFormat (p : Pass Handle) (format : PassFormat) : Bool := p.format = format

def instanceCount (p : Pass Handle) : Nat := p.instances.length

/-- Every handle that the object owns, in the order in which they are given back. -/
def handles (p : Pass Handle) : List Handle := p.defaultHandle :: p.instances.map (·.handle)

/-- The object for a format, with its default pass. -/
def new (factory : Factory State PassPlan Handle) (threshold : Log.Threshold)
    (format : PassFormat) (device : State) : Effect State (Pass Handle) :=
  let made := createPass factory threshold format (.compatible format) device
  ⟨made.result.map fun handle => { format, defaultHandle := handle }, made.entries, made.device⟩

/-- Handle of a pass that was made for these operations before. -/
def known? (p : Pass Handle) (ops : PassOps) : Option Handle :=
  (p.instances.find? (·.ops = ops)).map (·.handle)

/-- The pass for these operations, made now if there is none yet. Gives the object with it; after a
refusal the object is as before, so that asking again tries again. -/
def handleFor (factory : Factory State PassPlan Handle) (threshold : Log.Threshold)
    (p : Pass Handle) (ops : PassOps) (device : State) : Effect State Handle × Pass Handle :=
  match p.known? ops with
  | some handle => (⟨.ok handle, [], device⟩, p)
  | none =>
    let made := createPass factory threshold p.format ops device
    match made.result with
    | .error _ => (made, p)
    | .ok handle =>
      let p := { p with instances := p.instances ++ [⟨ops, handle⟩] }
      (⟨.ok handle, made.entries ++ threshold.note .debug logSource
          (s!"Created render pass instance {p.instances.length} "
            ++ s!"for {p.format.colorCount} color attachment(s)"), made.device⟩, p)

/-- Gives every handle of the object back. -/
def destroy (factory : Factory State PassPlan Handle) (p : Pass Handle) (device : State) : State :=
  p.handles.foldl (fun device handle => factory.destroy handle device) device

end Pass
end ShaderBackend.Render
