import ShaderBackend.Device
import ShaderBackend.Log.Entry
import ShaderBackend.Shader.DescriptorMapping
import ShaderBackend.Shader.Interface
import ShaderBackend.Spirv.Specialization
/-!
Shaders and the modules made from them. A shader owns a template that never changes; a module is
made from a specialized copy and owns the handle that the device gave for it.
-/
namespace ShaderBackend

/-- Options of a pipeline that a module depends on. -/
structure Shader.ModuleOptions where
  /-- Use output one as the second blend source of output zero. -/
  dualSourceBlend : Bool := false
  /-- Input locations that the stage before never writes. -/
  unwrittenInputs : UInt32 := 0
  deriving DecidableEq, Repr

namespace Shader.ModuleOptions

/-- What the options ask of a specialization. -/
def variant (options : ModuleOptions) : Spirv.Variant :=
  { dualSourceBlend := options.dualSourceBlend, unwrittenInputs := options.unwrittenInputs }

/-- The diagnostic form. -/
def diagnostic (options : ModuleOptions) : String :=
  s!"ShaderModuleCreateInfo \x7b fs_dual_src_blend: {options.dualSourceBlend}, "
    ++ s!"undefined_inputs: {options.unwrittenInputs} \x7d"

end Shader.ModuleOptions

structure Shader where
  stage : Shader.Stage
  slots : List Shader.ResourceSlot
  interface : Shader.Interface
  /-- The template. -/
  code : Spirv.Code
  /-- What reading the template has found. -/
  survey : Spirv.Survey
  /-- Words of the immediate constant buffer. -/
  constants : List UInt32
  threshold : Log.Threshold

/-- A module and the handle that it owns. -/
structure ShaderModule (Handle : Type) where
  stage : Shader.Stage
  handle : Handle
  deriving DecidableEq, Repr

/-- The diagnostic form, given that of the handle. -/
def ShaderModule.diagnostic {Handle : Type} (m : ShaderModule Handle) (handle : Handle → String) :
    String :=
  s!"ShaderModule \x7b stage: {m.stage.title}, handle: " ++ handle m.handle ++ " \x7d"

/-- Dropping a module gives its handle back. -/
def ShaderModule.drop {State Request Handle : Type} (m : ShaderModule Handle)
    (factory : Factory State Request Handle) (device : State) : State :=
  factory.destroy m.handle device

namespace Shader

/-- A shader with its template read. -/
def new (stage : Stage) (slots : List ResourceSlot) (interface : Interface) (code : Spirv.Code)
    (constants : List UInt32) (threshold : Log.Threshold) : Shader :=
  { stage, slots, interface, code, survey := .ofCode code, constants, threshold }

def traits (s : Shader) : Spirv.Traits := s.survey.traits

/-- Registers the slots of a shader, and its push constants if it has any. -/
def declareSlots (s : Shader) (m : DescriptorMapping) : DescriptorMapping :=
  let m := s.slots.foldl (fun m slot => m.declare s.stage slot) m
  if s.interface.pushConstSize = 0 then m
  else m.declarePushConst s.stage s.interface.pushConstOffset s.interface.pushConstSize

/-- A specialized copy of the template. -/
def specialize (s : Shader) (m : DescriptorMapping) (options : ModuleOptions) :
    Except Spirv.PatchError Spirv.Code :=
  Spirv.specialize s.code s.survey m.idOf? options.variant

/-- What a device is asked for: a module for a stage from these words. -/
structure ModuleRequest where
  stage : Stage
  code : Spirv.Code
  deriving DecidableEq, Repr

def logSource : String := "bridge::shader"

/-- Result of a creation: the module or how it failed, the log entries and the device after it. -/
structure Creation (State Handle : Type) where
  result : Except Failure (ShaderModule Handle)
  entries : List Log.Entry
  device : State

/-- Specializes and has the device make a module of the result. A device is asked only if the
specialization succeeds, and either way of failing is reported once. An abort reports nothing. -/
def createModule {State Handle : Type} (factory : Factory State ModuleRequest Handle) (s : Shader)
    (m : DescriptorMapping) (options : ModuleOptions) (device : State) : Creation State Handle :=
  match s.specialize m options with
  | .error e =>
    { result := .error e.failure
      entries := match e.failure with
        | .fault cause => s.threshold.report logSource
            s!"Failed to specialize {s.stage.name} shader: {cause.message}"
        | .abort => []
      device }
  | .ok code =>
    match factory.create ⟨s.stage, code⟩ device with
    | (.error cause, device) =>
      { result := .error (.fault cause)
        entries := s.threshold.report logSource
          s!"Failed to create {s.stage.name} shader module: {cause.message}"
        device }
    | (.ok handle, device) =>
      { result := .ok { stage := s.stage, handle }
        entries := s.threshold.note .debug logSource
          s!"Created {s.stage.name} shader module ({code.length} words, {options.diagnostic})"
        device }

end Shader
end ShaderBackend
